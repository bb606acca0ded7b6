/-
  A client and a server whose connection may be cut.

  Each of the two runs with its own calls failing in any way, and what one of
  them receives is a beginning of what the other has sent: octets are neither
  reordered nor made up, but the rest of them may never arrive.

  Then the handshake of a client succeeds only if the server serves its request
  (`no_false_success`): the server has received just what the client has sent,
  asks for the method that the client offers, has checked its login, and has
  acquired what the request needs.  The socket of a client for UDP is then
  connected to that of the server's relay (`relays_meet`).
-/
import HevSocks5.AuthGate
import HevSocks5.Base.Joint
import HevSocks5.ClientOrder
import HevSocks5.Conversion
import HevSocks5.MeetingClient
import HevSocks5.ServerOutput

namespace HevSocks5

open Interact Interact.Prog Sys HevSocks5Client Relation Caller

/-! ## The connection -/

/-- The octets of sends. -/
def saidOctets (sends : List (List Octet × Int)) : List Octet := (sends.map Prod.fst).flatten

/-- **What the two have received of each other.**  The relay of a server may send more octets
    behind those of the handshake. -/
def Severed (w : Caller) (v : Host) : Prop :=
  v.read <+: w.sent ∧ ∃ relayed, w.read <+: saidOctets v.sends ++ relayed ∧
    ("socks5 server service" ∉ v.entered → relayed = [])

/-- The handshake of a client and the run of a server. -/
abbrev Parties := Joint (Both Op ClientOp) Caller Int Op Host Int

def Parties.Step : Parties → Parties → Prop := Joint.Step caller toldHost Severed

def Parties.start (pipeline : Bool) (c : Caller) (s : Host) : Parties :=
  ⟨handshake pipeline, c, HevSocks5Server.run, s⟩

/-! ## What is to be shown -/

/-- **The server serves the client** `c`, which is `w` by now. -/
structure Serves (c w : Caller) (s v : Host) : Prop where
  /-- the server has received all that the client has sent -/
  received : v.read = w.sent
  /-- and that is all it has to say -/
  complete : w.sent = c.greeting ++ c.client.login ++ c.dialog.request
  method : c.client.offered = s.server.method
  login : s.server.method = authMethodUser → ∃ name pass : Str,
    c.client.login = userOctets name.octets pass.octets ∧ (s.auth.Valid → v.Matched name pass)
  type : v.self.type = c.self.type
  acquired : ∃ cmd addr, reqCmd c.self.type = some cmd ∧ v.Acquired cmd addr ∧
    ∃ res, s.Replied v .succ addr res

section
variable {c w : Caller} {s v : Host} {pipeline : Bool} {read r r' : List Octet}

/-! ## What the client has sent -/

theorem Caller.Said.isPrefix {sent : List Octet} (h : Said c pipeline sent read) :
    sent <+: c.greeting ++ (c.client.login ++ c.dialog.request) ∨
      sent <+: c.greeting ++ c.dialog.request := by
  cases h with
  | silent => exact .inl List.nil_prefix
  | greeted | begun => exact .inl (List.prefix_append _ _)
  | loggedIn | begunLogin =>
    exact .inl ⟨c.dialog.request, List.append_assoc ..⟩
  | asked | all => exact .inl ⟨[], by simp⟩
  | askedFree => exact .inr List.prefix_rfl

theorem Caller.greeting_eq (c : Caller) : c.greeting = methodOctets [c.client.offered] := rfl

/-- A string behind its length, cut off to fit it. -/
theorem exists_cred (l : List Octet) :
    ∃ l' : List Octet, l'.length < 256 ∧ cred l = UInt8.ofNat l'.length :: l' := by
  have hlt := (UInt8.ofNat l.length).toNat_lt
  have hle : (UInt8.ofNat l.length).toNat ≤ l.length := by
    rw [UInt8.toNat_ofNat']
    exact Nat.mod_le _ _
  refine ⟨l.take (UInt8.ofNat l.length).toNat, ?_, ?_⟩
  · rw [List.length_take]
    omega
  · rw [cred, List.length_take, Nat.min_eq_left hle, UInt8.ofNat_toNat]

/-- A client offers no method and has no login, or it offers the user method and has one. -/
theorem login_cases (client : HevSocks5ClientObj) :
    client.offered = authMethodNone ∧ client.login = [] ∨
    client.offered = authMethodUser ∧ ∃ name pass : List Octet, name.length < 256 ∧
      pass.length < 256 ∧ client.login = userOctets name pass := by
  unfold HevSocks5ClientObj.offered HevSocks5ClientObj.login
  cases client.user with
  | none => exact .inl ⟨rfl, rfl⟩
  | some user =>
    cases client.pass with
    | none => exact .inl ⟨rfl, rfl⟩
    | some pass =>
      obtain ⟨name', hname, hname'⟩ := exists_cred user
      obtain ⟨pass', hpass, hpass'⟩ := exists_cred pass
      refine .inr ⟨rfl, name', pass', hname, hpass, ?_⟩
      simp [hname', hpass', userOctets]

theorem exists_request (hc : c.dialog.Ready) : ∃ cmd dest, reqCmd c.self.type = some cmd ∧
    c.dialog.request = requestOctets cmd 0 dest := by
  have hcmd : ∃ cmd, reqCmd c.self.type = some cmd := by
    have htype : c.self.type ≠ .none := hc.type
    cases h : c.self.type with
    | none => exact absurd h htype
    | _ => exact ⟨_, rfl⟩
  obtain ⟨cmd, hcmd⟩ := hcmd
  obtain ⟨dest, hoctets, -⟩ := exists_endpoint hc.address
  refine ⟨cmd, dest, hcmd, ?_⟩
  rw [Dialog.request, show c.dialog.self = c.self from rfl, hcmd, requestOctets, hoctets]
  rfl

/-- The type of a server that serves the command of a client is the type of the client. -/
theorem typeOf_reqCmd {type : HevSocks5Type} {cmd : Octet} (h : reqCmd type = some cmd) :
    typeOf cmd = some type := by
  cases type <;> simp only [reqCmd, Option.some.injEq, reduceCtorEq] at h <;> subst h <;> rfl

theorem userOctets_inj {name pass name' pass' : List Octet} (hn : name.length < 256)
    (hp : pass.length < 256) (hn' : name'.length < 256) (hp' : pass'.length < 256)
    (h : userOctets name pass ++ r = userOctets name' pass' ++ r') :
    name = name' ∧ pass = pass' ∧ r = r' := by
  simp only [userOctets, List.cons_append, List.nil_append, List.append_assoc, List.cons.injEq,
    true_and] at h
  obtain ⟨hname, h⟩ := List.append_inj h.2 (ofNat_length_inj hn hn' h.1)
  simp only [List.cons.injEq] at h
  obtain ⟨hpass, rfl⟩ := List.append_inj h.2 (ofNat_length_inj hp hp' h.1)
  exact ⟨hname, hpass, rfl⟩

/-- A client that sends its login sends it before its request. -/
theorem login_eq_nil_of_prefix (hc : c.dialog.Ready)
    (h : c.client.login ++ c.dialog.request <+: c.dialog.request ++ r) : c.client.login = [] := by
  obtain ⟨cmd, dest, -, hrequest⟩ := exists_request hc
  rcases login_cases c.client with ⟨-, hnone⟩ | ⟨-, name, pass, -, -, hlogin⟩
  · exact hnone
  · obtain ⟨t, ht⟩ := h
    rw [hrequest, hlogin] at ht
    simp only [userOctets, requestOctets, List.cons_append, List.cons.injEq] at ht
    exact absurd ht.1 (by decide)

/-- **A request that is served is the client's**: a login and a request that begin what a client
    says are all of it; `r` comes behind it. -/
theorem serves_of_prefix {login : List Octet} {sends : List (List Octet × Int)} {cmd rsv : Octet}
    {dest : Endpoint} (hc : c.dialog.Ready) (hlogin : Login s v login sends)
    (h : login ++ requestOctets cmd rsv dest <+:
        c.greeting ++ (c.client.login ++ (c.dialog.request ++ r)) ∨
      login ++ requestOctets cmd rsv dest <+: c.greeting ++ (c.dialog.request ++ r)) :
    c.client.offered = s.server.method ∧ login = c.greeting ++ c.client.login ∧
      requestOctets cmd rsv dest = c.dialog.request ∧ reqCmd c.self.type = some cmd ∧
      (s.server.method = authMethodUser → ∃ name pass : Str,
        c.client.login = userOctets name.octets pass.octets ∧
          (s.auth.Valid → v.Matched name pass)) := by
  obtain ⟨cmd', dest', hcmd, hrequest⟩ := exists_request hc
  rw [hrequest, c.greeting_eq] at h ⊢
  -- the request is the last of what the client says
  have hend {t : List Octet}
      (ht : requestOctets cmd rsv dest ++ t = requestOctets cmd' 0 dest' ++ r) :
      requestOctets cmd rsv dest = requestOctets cmd' 0 dest' ∧ reqCmd c.self.type = some cmd := by
    obtain ⟨rfl, rfl, rfl, -⟩ := requestOctets_append_inj ht
    exact ⟨rfl, hcmd⟩
  cases hlogin with
  | @none methods res hmethod hlen hmem hres =>
    have hnone : c.client.offered = authMethodNone → c.client.login = [] := by
      intro hoffered
      rcases login_cases c.client with ⟨-, hlogin⟩ | ⟨huser, -⟩
      · exact hlogin
      · exact absurd (hoffered.symm.trans huser) (by decide)
    -- the client has offered no method
    suffices ∃ x t : List Octet, methodOctets methods ++ (requestOctets cmd rsv dest ++ t) =
        methodOctets [c.client.offered] ++ x ∧
          (c.client.login = [] → x = requestOctets cmd' 0 dest' ++ r) by
      obtain ⟨x, t, ht, hx⟩ := this
      obtain ⟨rfl, heq⟩ := methodOctets_append_inj hlen (by simp) ht
      have hoffered := (List.mem_singleton.1 hmem).symm
      obtain ⟨hreq, hcmd'⟩ := hend (heq.trans (hx (hnone hoffered)))
      refine ⟨hoffered.trans hmethod.symm, by rw [hnone hoffered, List.append_nil], hreq, hcmd', ?_⟩
      intro huser
      exact absurd (hmethod.symm.trans huser) (by decide)
    rcases h with ⟨t, ht⟩ | ⟨t, ht⟩
    · rw [List.append_assoc] at ht
      exact ⟨_, t, ht, fun hlogin => by rw [hlogin, List.nil_append]⟩
    · rw [List.append_assoc] at ht
      exact ⟨_, t, ht, fun _ => rfl⟩
  | @user methods name pass res res' hmethod hlen hmem hres hname hpass hmatch =>
    rcases h with ⟨t, ht⟩ | ⟨t, ht⟩
    · rw [List.append_assoc, List.append_assoc] at ht
      obtain ⟨rfl, hx⟩ := methodOctets_append_inj hlen (by simp) ht
      have hoffered := (List.mem_singleton.1 hmem).symm
      rcases login_cases c.client with ⟨hnone, -⟩ | ⟨-, name', pass', hn', hp', hlogin⟩
      · exact absurd (hnone.symm.trans hoffered) (by decide)
      rw [hlogin] at hx ⊢
      obtain ⟨rfl, rfl, hlast⟩ := userOctets_inj hname.2 hpass.2 hn' hp' hx
      obtain ⟨hreq, hcmd'⟩ := hend hlast
      exact ⟨hoffered.trans hmethod.symm, rfl, hreq, hcmd', fun _ => ⟨name, pass, rfl, hmatch⟩⟩
    · rw [List.append_assoc, List.append_assoc] at ht
      obtain ⟨-, hx⟩ := methodOctets_append_inj hlen (by simp) ht
      simp only [userOctets, requestOctets, List.cons_append, List.cons.injEq] at hx
      exact absurd hx.1 (by decide)

/-- **A reply of success is made to a client that is served.** -/
theorem serves_of_replied {addr : SockAddrIn6} {res : Int} (hc : c.dialog.Ready)
    (hsaid : Said c pipeline w.sent w.read) (hl : Severed w v)
    (h : s.Replied v .succ addr res) : Serves c w s v := by
  obtain ⟨sends, -, -, hserved⟩ := id h
  obtain ⟨login, cmd, rsv, dest, hlogin, hread, hacq⟩ := hserved rfl
  have hsub := hsaid.isPrefix
  have hpre := hsub.imp hl.1.trans hl.1.trans
  rw [hread] at hpre
  obtain ⟨hmethod, hfirst, hlast, hcmd, huser⟩ := serves_of_prefix (r := []) hc hlogin
    (by simpa only [List.append_nil] using hpre)
  have hall : v.read = c.greeting ++ c.client.login ++ c.dialog.request := by
    rw [hread, hfirst, hlast]
  have hlen : w.sent.length ≤ v.read.length := by
    have hle := hsub.imp List.IsPrefix.length_le List.IsPrefix.length_le
    rw [hall]
    simp only [List.length_append] at hle ⊢
    omega
  have hreceived : v.read = w.sent := hl.1.eq_of_length_le hlen
  have htype : v.self.type = c.self.type :=
    Option.some.inj (hacq.type.symm.trans (typeOf_reqCmd hcmd))
  exact ⟨hreceived, hreceived ▸ hall, hmethod, huser, htype, cmd, addr, hcmd, hacq, res, h⟩

/-! ## What the client has received -/

/-- Without a reply, the sends of a server are short. -/
theorem Spoken.short_or {method : Octet} {sends : List (List Octet × Int)}
    (h : Spoken method sends) : (saidOctets sends).length ≤ 4 ∨
      ∃ first rep addr res, Greeted method first ∧
        sends = first ++ [(replyOctets rep addr, res)] := by
  cases h with
  | silent => exact .inl (by simp [saidOctets])
  | selected hm => exact .inl (by simp [saidOctets])
  | checked hmethod hres hs => exact .inl (by simp [saidOctets])
  | replied hgreeted rep addr res => exact .inr ⟨_, rep, addr, res, hgreeted, rfl⟩

theorem four_lt_replyOctets (rep : HevSocks5ResRep) (addr : SockAddrIn6) :
    4 < (replyOctets rep addr).length := by
  obtain ⟨atype, rest, hoctets, hrest⟩ := addr.exists_octets
  have hpos : 0 < rest.length := by
    simp only [addrRest] at hrest
    split_ifs at hrest
    all_goals
      have hlen := Option.some.inj hrest
      omega
  simp only [replyOctets, hoctets, List.length_append, List.length_cons, List.length_nil]
  omega

/-- The octets before a reply. -/
theorem Greeted.octets {method : Octet} {sends : List (List Octet × Int)}
    (h : Greeted method sends) :
    saidOctets sends = selects authMethodNone ∨ saidOctets sends = accepts := by
  cases h with
  | none hmethod hres => exact .inl (by rw [hmethod]; rfl)
  | user hmethod hres hres' => exact .inr (by rw [hmethod]; rfl)

/-- A reply of success that a client has received is the one that the server has sent. -/
theorem Caller.Reply.eq_of_prefix {reply t : List Octet} {rep : HevSocks5ResRep}
    {addr : SockAddrIn6} (hreply : Reply reply) (h : reply <+: replyOctets rep addr ++ t) :
    rep = .succ ∧ reply = replyOctets rep addr := by
  obtain ⟨rsv, atype, rest, hrest, rfl⟩ := hreply
  obtain ⟨atype', rest', hoctets, hrest'⟩ := addr.exists_octets
  obtain ⟨u, hu⟩ := h
  simp only [replyOctets, hoctets, List.cons_append, List.nil_append,
    List.cons.injEq, true_and] at hu
  obtain ⟨hrep, rfl, rfl, hu⟩ := hu
  have hlen : rest.length = rest'.length := Option.some.inj (hrest.symm.trans hrest')
  obtain ⟨rfl, -⟩ := List.append_inj hu hlen
  obtain rfl := HevSocks5ResRep.octet_eq_succ.1 hrep.symm
  exact ⟨rfl, by simp [replyOctets, hoctets]⟩

theorem Caller.Reply.four_le {reply : List Octet} (h : Reply reply) : 4 ≤ reply.length := by
  obtain ⟨rsv, atype, rest, -, rfl⟩ := h
  simp

theorem Caller.Done.octets {sent : List Octet} (h : Done c pipeline sent read) :
    ∃ first reply, (first = selects authMethodNone ∨ first = accepts) ∧ Reply reply ∧
      read = first ++ reply := by
  cases h with
  | login hreply hread hsent => exact ⟨_, _, .inr rfl, hreply, hread⟩
  | free hreply hread hsent => exact ⟨_, _, .inl rfl, hreply, hread⟩

/-- Two answers to a greeting of which none begins with the other. -/
theorem answer_inj {first first' : List Octet}
    (hfirst : first = selects authMethodNone ∨ first = accepts)
    (hfirst' : first' = selects authMethodNone ∨ first' = accepts)
    (h : first ++ r <+: first' ++ r') : first = first' ∧ r <+: r' := by
  have hne : ∀ {x y : List Octet}, ¬ selects authMethodNone ++ x = accepts ++ y := by
    intro x y hxy
    exact absurd (List.cons.inj (List.cons.inj hxy).2).1 (by decide)
  obtain ⟨t, ht⟩ := h
  rw [List.append_assoc] at ht
  rcases hfirst with rfl | rfl <;> rcases hfirst' with rfl | rfl
  · exact ⟨rfl, t, List.append_cancel_left ht⟩
  · exact absurd ht hne
  · exact absurd ht.symm hne
  · exact ⟨rfl, t, List.append_cancel_left ht⟩

/-- **A client that has received all of a handshake** has received all of the server's; nothing
    comes behind it before the server relays. -/
theorem replied_of_done {relayed : List Octet} (hv : s.Agrees v)
    (hspoken : Spoken s.server.method v.sends) (hdone : Done c pipeline w.sent w.read)
    (hrelayed : w.read <+: saidOctets v.sends ++ relayed)
    (hquiet : "socks5 server service" ∉ v.entered → relayed = []) :
    w.read = saidOctets v.sends ∧ ∃ addr res, s.Replied v .succ addr res ∧
      ∃ first, (first = selects authMethodNone ∨ first = accepts) ∧
        w.read = first ++ replyOctets .succ addr := by
  obtain ⟨first, reply, hfirst, hreply, hread⟩ := hdone.octets
  rcases hv.reply with hnone | ⟨rep, addr, res, h⟩
  · -- without a reply there are too few octets
    have hservice : "socks5 server service" ∉ v.entered := by
      intro hmem
      obtain ⟨addr, res, ⟨sends, -, hreplies, -⟩, -⟩ := hv.relay hmem
      exact absurd (hnone.symm.trans hreplies) (by simp)
    rw [hquiet hservice, List.append_nil] at hrelayed
    have hle := hrelayed.length_le
    have hfour := hreply.four_le
    have htwo : 2 ≤ first.length := by
      rcases hfirst with rfl | rfl
      · exact Nat.le_refl 2
      · exact Nat.le_add_left 2 2
    rw [hread, List.length_append] at hle
    rcases hspoken.short_or with hshort | ⟨first', rep, addr, res, -, hsends⟩
    · omega
    · have hlen : 2 < (replyOctets rep addr).length := by
        have := four_lt_replyOctets rep addr
        omega
      simp [Host.replies, hsends, hlen] at hnone
  · obtain ⟨sends, hsends, hreplies, -⟩ := id h
    rcases hspoken.short_or with hshort | ⟨first', rep', addr', res', hgreeted, hsends'⟩
    · have hlen := four_lt_replyOctets rep addr
      simp only [saidOctets, hsends, List.map_append, List.flatten_append, List.map_cons,
        List.map_nil, List.flatten_cons, List.flatten_nil, List.append_nil,
        List.length_append] at hshort
      omega
    · obtain ⟨rfl, hlast⟩ := List.append_inj' (hsends.symm.trans hsends') rfl
      have hoctets : saidOctets v.sends = saidOctets sends ++ replyOctets rep addr := by
        simp [saidOctets, hsends]
      rw [hread, hoctets, List.append_assoc] at hrelayed
      obtain ⟨heq, htail⟩ := answer_inj hfirst hgreeted.octets hrelayed
      obtain ⟨rfl, rfl⟩ := hreply.eq_of_prefix htail
      exact ⟨by rw [hread, hoctets, heq], addr, res, h, first, hfirst, hread⟩

/-! ## Every run of the two -/

/-- What is kept in every run of the two. -/
theorem Parties.kept (hc : c.dialog.Ready) (hsent : c.sent = []) (hread : c.read = [])
    (hs : s.Fresh) : Joint.Kept caller toldHost Severed
      (fun w => Said c pipeline w.sent w.read)
      (fun v => s.Agrees v ∧ Spoken s.server.method v.sends)
      (fun r w => r = 0 → Done c pipeline w.sent w.read ∧ c.Joined w) (fun _ _ => True)
      (Parties.start pipeline c s) := by
  have hserver := (always_run_agrees hs).both ((always_run_spoken hs).env And.left)
  refine ⟨orderly_handshake pipeline hc hsent hread, hserver.mono fun _ _ _ => trivial, ?_, ?_, ?_⟩
  · show Said c pipeline c.sent c.read
    rw [hsent, hread]
    exact .silent
  · show s.Agrees s ∧ Spoken _ s.sends
    rw [hs.sends]
    exact ⟨hs.unanswered.agrees (List.Subset.refl _), .silent⟩
  · refine ⟨?_, [], ?_, fun _ => rfl⟩
    · show s.read <+: c.sent
      rw [hs.read]
      exact List.nil_prefix
    · show c.read <+: _
      rw [hread]
      exact List.nil_prefix

theorem intoSockaddr6_octets (saddr : SockAddrIn6) :
    intoSockaddr6 (.ofList saddr.octets) = saddr := by
  have hnumeric : Numeric (.ofList saddr.octets) := by
    obtain ⟨atype, rest, hoctets, hrest⟩ := saddr.exists_octets
    rw [hoctets]
    exact numeric_of_addrRest hrest
  have hdest := SockAddrIn6.destination_octets saddr noNames .unspec []
  rw [List.append_nil, destination_numeric hnumeric] at hdest
  exact Option.some.inj hdest

/-- **The ends of a UDP association meet.**  If the handshake of a client for UDP succeeds, its
    socket is connected to the very address to which the server has bound the open socket of its
    relay, whatever calls have failed before and wherever the connection is cut. -/
theorem relays_meet (hc : c.dialog.Ready) (hsent : c.sent = []) (hread : c.read = [])
    (hjoins : c.Joins) (hs : s.Fresh) {n : Parties}
    (hr : ReflTransGen Parties.Step (Parties.start pipeline c s) n) (hret : n.left = .ret 0) :
    ∃ fd addr, n.leftWorld.client.klass = .udp fd ∧ n.leftWorld.peer fd = some addr ∧
      n.rightWorld.self.type = .udpInUdp ∧
      n.rightWorld.server.fds.2 ∈ n.rightWorld.opened ∧
      n.rightWorld.name n.rightWorld.server.fds.2 = some addr := by
  have h := (Parties.kept hc hsent hread hs).run hr
  obtain ⟨hdone, hjoined⟩ := h.left_ret hret rfl
  obtain ⟨-, relayed, hrelayed, hquiet⟩ := h.link
  obtain ⟨-, addr, res, hreplied, first, hfirst, hall⟩ :=
    replied_of_done h.rightWorld.1 h.rightWorld.2 hdone hrelayed hquiet
  obtain ⟨first', reply, hfirst', -, hall', fd, hfd, hpeer⟩ := hjoined hjoins
  -- the reply that was received is the one that was sent
  have heq : first' ++ reply = first ++ replyOctets .succ addr := hall'.symm.trans hall
  have hpre : first' ++ reply <+: first ++ replyOctets .succ addr := by rw [heq]
  obtain ⟨rfl, -⟩ := answer_inj hfirst' hfirst hpre
  obtain rfl := List.append_cancel_left heq
  have hserves := serves_of_replied hc h.leftWorld h.link hreplied
  obtain ⟨cmd, addr', hcmd, hacq, res', sends', hsends', -⟩ := hserves.acquired
  obtain ⟨sends, hsends, -⟩ := hreplied
  have hsame : (replyOctets .succ addr', res') = (replyOctets .succ addr, res) :=
    (List.cons.inj (List.append_inj' (hsends'.symm.trans hsends) rfl).2).1
  have haddr : addr'.octets = addr.octets :=
    List.append_cancel_left (congrArg Prod.fst hsame)
  obtain ⟨hopened, hname⟩ := hacq.snd (by
    rw [hjoins.1] at hcmd
    exact (Option.some.inj hcmd).symm)
  refine ⟨fd, addr, hfd, ?_, hserves.type.trans hjoins.1, hopened, ?_⟩
  · rw [hpeer]
    exact congrArg some (intoSockaddr6_octets addr)
  · rw [hname, ← intoSockaddr6_octets addr', haddr, intoSockaddr6_octets]

end

/-! ## A client that logs in and connects -/

/-- The server of that client. -/
def userHost : Host := { connectHost with
  server := { connectHost.server with obj := .auth }
  auth := oneUser }

/-- The descriptor of the next socket. -/
def nextFd (opened : List Int) : Int := if 4 ∈ opened then 5 else 4

theorem nextFd_nonneg (opened : List Int) : ¬ nextFd opened < 0 := by
  unfold nextFd
  split <;> decide

/-- Every call succeeds, and the octets `said` of the client arrive when they are asked for. -/
def logsIn (said : List Octet) : Host → {β : Type} → Op β → Option (β × Host) := fun w _ o =>
  let wait : Host := { w with auth := oneUser }
  match o with
  | .base => some (w.self, w)
  | .setBase self => some ((), { w with self })
  | .server => some (w.server, w)
  | .setServer server => some ((), { w with server })
  | .logD msg => some ((), { w with entered := w.entered ++ [msg] })
  | .recv _ n _ =>
    let data := (said.drop w.read.length).take n
    if data.length = n then some (⟨n, data⟩, { wait with read := w.read ++ data }) else none
  | .send _ data =>
    some (data.length, { wait with sends := w.sends ++ [(data, (data.length : Int))] })
  | .authenticator x =>
    (x w.auth).map fun r => (r.1, { w with auth := r.2, looked := w.looked ++ [w.auth] })
  | .users => some (w.auth.users, w)
  | .ref _ => some ((), wait)
  | .unref _ => some ((), wait)
  | .socket _ =>
    let fd := nextFd w.opened
    if fd ∈ w.opened then none
    else some (fd, { w with opened := fd :: w.opened, name := Function.update w.name fd none })
  | .bind fd addr =>
    some (0, { w with name := Function.update w.name fd (some { addr with port := (4, 56) }) })
  | .getsockname fd => some ((0, (w.name fd).getD .zero), w)
  | .setsockopt .. => some (0, wait)
  | .binder .. => some (0, wait)
  | .socketConnect .. => some (0, wait)
  | .connectTimeout => some (-1, wait)
  | .tcpTimeout => some (-1, wait)
  | .udpTimeout => some (-1, wait)
  | .addFd _ => some (0, wait)
  | .tcpSplice _ => some ((), wait)
  | .udpSplice _ => some ((), wait)
  | _ => none

theorem toldHost_of_logsIn (said : List Octet) (w : Host) {β : Type} (o : Op β) (b : β) (w' : Host)
    (h : logsIn said w o = some (b, w')) : toldHost w o b w' := by
  have hwait : ∀ w : Host, w.Waits { w with auth := oneUser } := fun w =>
    ⟨oneUser, valid_oneUser, rfl⟩
  cases o <;> simp only [logsIn, Option.some.injEq, Prod.mk.injEq, reduceCtorEq] at h
  case base | server | users =>
    obtain ⟨rfl, rfl⟩ := h
    exact ⟨⟨rfl, rfl⟩, trivial⟩
  case setBase | setServer | logD =>
    obtain ⟨-, rfl⟩ := h
    exact ⟨rfl, trivial⟩
  case send fd data =>
    obtain ⟨rfl, rfl⟩ := h
    exact ⟨hwait { w with sends := w.sends ++ [(data, (data.length : Int))] }, trivial⟩
  case recv fd n flags =>
    split at h
    · rename_i hn
      obtain ⟨rfl, rfl⟩ := Prod.mk.inj (Option.some.inj h)
      exact ⟨⟨Nat.le_of_eq hn, fun _ => hn, hwait { w with read := w.read ++ _ }⟩, fun _ _ => rfl⟩
    · cases h
  case authenticator =>
    obtain ⟨r, hr, hb⟩ := Option.map_eq_some_iff.1 h
    cases hb
    exact ⟨⟨r.2, hr, rfl⟩, trivial⟩
  case socket =>
    split at h
    · cases h
    · rename_i hmem
      obtain ⟨rfl, rfl⟩ := Prod.mk.inj (Option.some.inj h)
      refine ⟨?_, trivial⟩
      simp only [host, if_neg (nextFd_nonneg w.opened)]
      exact ⟨hmem, trivial⟩
  case bind fd addr =>
    obtain ⟨rfl, rfl⟩ := h
    exact ⟨⟨(4, 56), rfl⟩, trivial⟩
  case getsockname fd =>
    obtain ⟨rfl, rfl⟩ := h
    exact ⟨⟨fun _ addr haddr => by rw [Option.mem_def.1 haddr]; rfl, rfl⟩, trivial⟩
  all_goals
    obtain ⟨-, rfl⟩ := h
    exact ⟨hwait w, trivial⟩

/-- Both have received just what the other has sent so far, or less. -/
def severedNow (w : Caller) (v : Host) : Bool :=
  v.read.isPrefixOf w.sent && w.read.isPrefixOf (saidOctets v.sends)

theorem severed_of_now (w : Caller) (v : Host) (h : severedNow w v = true) : Severed w v := by
  obtain ⟨hread, hsaid⟩ := Bool.and_eq_true_iff.1 h
  refine ⟨List.isPrefixOf_iff_prefix.1 hread, [], ?_, fun _ => rfl⟩
  rw [List.append_nil]
  exact List.isPrefixOf_iff_prefix.1 hsaid

/-- Their run to the end. -/
def loginRun : Parties :=
  (Parties.start false userCaller userHost).drive (grants granted)
    (logsIn [5, 1, 2, 1, 1, 117, 1, 112, 5, 1, 0, 1, 192, 0, 2, 7, 0, 53]) severedNow 80

theorem loginRun_left : loginRun.left = .ret 0 := Joint.eq_ret_of_result (by decide +kernel)

/-- A client for UDP with the name u and the password p. -/
def associateCaller : Caller where
  self := ⟨3, -1, .udpInUdp, false, .ipv4⟩
  client := ⟨some [117], some [112], .udp (-1)⟩
  sent := []
  read := []
  peer := fun _ => none

theorem associateCaller_ready : associateCaller.dialog.Ready := ⟨by decide, by decide⟩

/-- The run of that client and its server to the end. -/
def associateRun : Parties :=
  (Parties.start true associateCaller userHost).drive
    (grants ([5, 2, 1, 0, 5, 0, 0, 4] ++ List.replicate 16 0 ++ [4, 56]))
    (logsIn [5, 1, 2, 1, 1, 117, 1, 112, 5, 3, 0, 1, 0, 0, 0, 0, 0, 0]) severedNow 120

theorem associateRun_left : associateRun.left = .ret 0 :=
  Joint.eq_ret_of_result (by decide +kernel)

theorem relays_meet_associate : ∃ fd addr, associateRun.leftWorld.client.klass = .udp fd ∧
    associateRun.leftWorld.peer fd = some addr ∧
    associateRun.rightWorld.self.type = .udpInUdp ∧
    associateRun.rightWorld.server.fds.2 ∈ associateRun.rightWorld.opened ∧
    associateRun.rightWorld.name associateRun.rightWorld.server.fds.2 = some addr := by
  have hrun : ReflTransGen Parties.Step (Parties.start true associateCaller userHost)
      associateRun :=
    Joint.reaches_drive (caller_of_grants _) (toldHost_of_logsIn _) severed_of_now 120 _
  have huser : userHost.Fresh := ⟨rfl, rfl, rfl, rfl⟩
  exact relays_meet associateCaller_ready rfl rfl ⟨rfl, -1, rfl⟩ huser hrun associateRun_left

end HevSocks5
