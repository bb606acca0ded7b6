/-
  A session of UDP-in-TCP, from the first octet on.

  A client makes its handshake and then splices; a server runs, and its relay
  is the splicer itself (`serverRun`).  Both use one connection: what the one
  reads is a beginning of what the other writes, whether it belongs to the
  handshake or to the relay.  Any call of the handshake may fail in any way; those
  of the relay too, but its calls on the connection are `Clean` and `CleanSend`,
  as at the ends of an association (`Terminal.answers`).

  Then both change over at the same octet.  What either hands on is of the
  datagrams that the other has received, in order, each with its own octets,
  and only a client that the server has admitted is relayed for
  (`session_in_order`).
-/
import HevSocks5.Severed
import HevSocks5.UdpEnds

namespace HevSocks5

open Interact Interact.Prog Sys Relation Caller

/-! ## The programs -/

/-- The calls of a server's run that are programs of this library. -/
def linkUdp (rounds : Nat) {β : Type} (o : Op β) : Option (SysM β) :=
  match o with
  | .udpSplice fd => some do
    let _ ← HevSocks5UDP.splicer fd rounds
  | _ => none

/-- `hev_socks5_server_run`, with the splicer of UDP as a part of it. -/
def serverRun (rounds : Nat) : Prog (Both Op Op) Int := HevSocks5Server.run.link (linkUdp rounds)

/-- A client that splices when its handshake has succeeded. -/
def clientRun (pipeline : Bool) (fd : Int) (rounds : Nat) :
    Prog (Both (Both Op ClientOp) Op) Int := do
  let res ← (HevSocks5Client.handshake pipeline).inl
  if res = 0 then (HevSocks5UDP.splicer fd rounds).inr else return res

/-! ## The two ends -/

/-- The relay has the object of the handshake. -/
def Shares {β : Type} (self : HevSocks5Obj) (o : Op β) (b : β) (self' : HevSocks5Obj) : Prop :=
  match o with
  | .base => b = self ∧ self' = self
  | .setBase new => self' = new
  | _ => self' = self

structure ClientEnd where
  caller : Caller
  terminal : Terminal

/-- The calls of the handshake, and those of the relay. -/
def clientEnd (L : Resolver → Prop) : Env (Both (Both Op ClientOp) Op) ClientEnd :=
  fun w _ o b w' =>
  match o with
  | .inl o => caller w.caller o b w'.caller ∧ w'.terminal = w.terminal
  | .inr o => Terminal.answers L w.terminal o b w'.terminal ∧
      ∃ self, Shares w.caller.self o b self ∧ w'.caller = { w.caller with self }

structure ServerEnd where
  host : Host
  terminal : Terminal
  /-- whether it was a relay of TCP -/
  spliced : Bool

def serverEnd (L : Resolver → Prop) : Env (Both Op Op) ServerEnd := fun w _ o b w' =>
  match o with
  | .inl o => toldHost w.host o b w'.host ∧ w'.terminal = w.terminal ∧
      w'.spliced = match o with
        | .tcpSplice _ => true
        | _ => w.spliced
  | .inr o => Terminal.answers L w.terminal o b w'.terminal ∧ w'.spliced = w.spliced ∧
      ∃ self, Shares w.host.self o b self ∧ w'.host = { w.host with self }

/-- **The connection.**  The one has read a beginning of what the other has sent; a relay of TCP
    may send any octets. -/
def Connected (w : ClientEnd) (v : ServerEnd) : Prop :=
  v.host.read ++ v.terminal.tunnel.conn.read <+: w.caller.sent ++ w.terminal.sent ∧
    ∃ relayed, w.caller.read ++ w.terminal.tunnel.conn.read <+:
        saidOctets v.host.sends ++ (v.terminal.sent ++ relayed) ∧
      (v.spliced = false → relayed = [])

/-- The run of a client and that of a server. -/
abbrev Ends : Type 1 := Joint (Both (Both Op ClientOp) Op) ClientEnd Int (Both Op Op) ServerEnd Int

/-- The server has asked for the method of the client, and has checked its login. -/
structure Admitted (c : Caller) (s v : Host) : Prop where
  method : c.client.offered = s.server.method
  login : s.server.method = authMethodUser → ∃ name pass : Str,
    c.client.login = userOctets name.octets pass.octets ∧ (s.auth.Valid → v.Matched name pass)

section
variable {L L' : Resolver → Prop} {c : Caller} {s : Host} {t t' : Terminal} {pipeline : Bool}
  {fd : Int} {rounds : Nat} {α : Type}

/-! ## The client -/

/-- The handshake is under way, or it has succeeded and the client relays. -/
structure ClientEnd.Proceeds (c : Caller) (t : Terminal) (pipeline : Bool) (fd : Int)
    (w : ClientEnd) : Prop where
  said : Said c pipeline w.caller.sent w.caller.read
  relay : w.terminal = t ∨ Done c pipeline w.caller.sent w.caller.read ∧
    Relaying fd w.terminal.tunnel ∧ w.terminal.line.Intact

theorem ClientEnd.always_handshake (hc : c.dialog.Ready) (hsent : c.sent = [])
    (hread : c.read = []) : Always (clientEnd L) (ClientEnd.Proceeds c t pipeline fd)
      (HevSocks5Client.handshake pipeline).inl ⟨c, t⟩ fun res w =>
        Said c pipeline w.caller.sent w.caller.read ∧ w.terminal = t ∧
          (res = 0 → Done c pipeline w.caller.sent w.caller.read) := by
  rw [always_inl]
  have hsilent : Said c pipeline c.sent c.read := by
    rw [hsent, hread]
    exact .silent
  have hcaller := Always.view (F := (clientEnd L).inl) (w := ⟨c, t⟩) ClientEnd.caller
    (fun he => he.1) ((orderly_handshake pipeline hc hsent hread).last hsilent)
  have hterminal := always_of_step (E := (clientEnd L).inl) (J := fun w => w.terminal = t)
    (I := fun w => w.terminal = t) (fun hw he => ⟨he.2.trans hw, he.2.trans hw⟩)
    (HevSocks5Client.handshake pipeline) (show (⟨c, t⟩ : ClientEnd).terminal = t from rfl)
  refine ((hcaller.both hterminal).imp fun w h => ⟨h.1, .inl h.2⟩).mono ?_
  exact fun res w h => ⟨h.1.1, h.2, fun hres => (h.1.2 hres).1⟩

theorem ClientEnd.always_splicer {w : ClientEnd} (ht : t.Fresh)
    (hsaid : Said c pipeline w.caller.sent w.caller.read)
    (hdone : Done c pipeline w.caller.sent w.caller.read) (hterminal : w.terminal = t) :
    Always (clientEnd L) (ClientEnd.Proceeds c t pipeline fd)
      (HevSocks5UDP.splicer fd rounds).inr w fun _ _ => True := by
  rw [always_inr]
  have hrelay := Always.view (F := (clientEnd L).inr) (w := w) ClientEnd.terminal
    (fun he => he.1) ((hterminal ▸ ht).always_splicer fd rounds)
  have hcaller := always_of_step (E := (clientEnd L).inr) (w := w)
    (J := fun w' => w'.caller.sent = w.caller.sent ∧ w'.caller.read = w.caller.read)
    (I := fun w' => w'.caller.sent = w.caller.sent ∧ w'.caller.read = w.caller.read)
    (by
      rintro w₁ w₂ β o b hw₁ ⟨-, self, -, hw₂⟩
      rw [hw₂]
      exact ⟨hw₁, hw₁⟩)
    (HevSocks5UDP.splicer fd rounds) ⟨rfl, rfl⟩
  refine ((hrelay.both hcaller).imp ?_).mono fun _ _ _ => trivial
  rintro w' ⟨h, hsent, hread⟩
  rw [← hsent, ← hread] at hsaid hdone
  exact ⟨hsaid, .inr ⟨hdone, h⟩⟩

theorem ClientEnd.always_clientRun (hc : c.dialog.Ready) (hsent : c.sent = []) (hread : c.read = [])
    (ht : t.Fresh) : Always (clientEnd L) (ClientEnd.Proceeds c t pipeline fd)
      (clientRun pipeline fd rounds) ⟨c, t⟩ fun _ _ => True := by
  refine (ClientEnd.always_handshake hc hsent hread).bind ?_
  rintro res w ⟨hsaid, hterminal, hdone⟩
  rw [always_ite]
  split
  · exact ClientEnd.always_splicer ht hsaid (hdone ‹_›) hterminal
  · trivial

/-! ## The server -/

/-- The handshake is under way, or the server has admitted the client and relays. -/
structure ServerEnd.Proceeds (s : Host) (t : Terminal) (w : ServerEnd) : Prop where
  agrees : ∃ self, s.Agrees { w.host with self } ∧ (w.spliced = true → self.type = .tcp)
  spoken : Spoken s.server.method w.host.sends
  relay : w.terminal = t ∨ "socks5 server service" ∈ w.host.entered ∧
    Relaying w.host.server.fds.1 w.terminal.tunnel ∧ w.terminal.line.Intact
  spliced : w.spliced = true → "socks5 server service" ∈ w.host.entered

/-- Calls that do not relay. -/
def Handshakes {β : Type} : Op β → Prop
  | .tcpSplice _ | .udpSplice _ => False
  | _ => True

/-- What a run keeps. -/
def Keeps (s : Host) (v : Host) : Prop := s.Agrees v ∧ Spoken s.server.method v.sends

/-- Nothing was relayed so far. -/
def ServerEnd.Before (t : Terminal) (w : ServerEnd) : Prop := w.terminal = t ∧ w.spliced = false

theorem ServerEnd.proceeds_of_before {w : ServerEnd} (h : Keeps s w.host) (hw : w.Before t) :
    w.Proceeds s t where
  agrees := ⟨w.host.self, h.1, fun hs => absurd (hw.2.symm.trans hs) (by decide)⟩
  spoken := h.2
  relay := .inl hw.1
  spliced hs := absurd (hw.2.symm.trans hs) (by decide)

theorem ServerEnd.always_inl {x : SysM α} {w : ServerEnd} {Q : α → Host → Prop}
    (hx : x.Only Handshakes) (h : Always toldHost (Keeps s) x w.host Q) (hw : w.Before t) :
    Always (serverEnd L) (ServerEnd.Proceeds s t) x.inl w fun a w' =>
      Q a w'.host ∧ w'.Before t := by
  rw [Interact.always_inl]
  have hhost := Always.view (F := (serverEnd L).inl) (w := w) ServerEnd.host (fun he => he.1) h
  have hbefore : Always (serverEnd L).inl (ServerEnd.Before t) x w fun _ w' => w'.Before t := by
    refine hx.always ?_ hw
    rintro w₁ w₂ β o b ho ⟨hterminal, hspliced⟩ ⟨-, hterminal', hspliced'⟩
    have hw₂ : w₂.Before t := by
      refine ⟨hterminal'.trans hterminal, hspliced'.trans ?_⟩
      cases o <;> first | exact ho.elim | exact hspliced
    exact ⟨hw₂, hw₂⟩
  exact (hhost.both hbefore).imp fun w' h => ServerEnd.proceeds_of_before h.1 h.2

theorem handshakes_of_reads {msg : String} {β : Type} {o : Op β} (h : o.Reads msg) :
    Handshakes o := by
  cases o <;> first | exact trivial | exact h.elim

theorem handshakes_of_writes {msg : String} {octets : List Octet} {β : Type} {o : Op β}
    (h : o.Writes msg octets) : Handshakes o := by
  cases o <;> first | exact trivial | exact h.elim

theorem handshakes_auth : HevSocks5Server.auth.Only Handshakes := by
  refine .bind (HevSocks5Server.reads_readAuthMethod.mono handshakes_of_reads) fun method => ?_
  refine .bind ((HevSocks5Server.writes_writeAuthMethod method).mono handshakes_of_writes) ?_
  intro _
  refine .ite (only_pure _) (.ite (only_pure _) (.ite ?_ (only_pure _)))
  have huser : HevSocks5Server.readAuthUser.Only Handshakes := by
    refine HevSocks5Server.only_readAuthUser.mono ?_
    rintro β o (h | h)
    · exact handshakes_of_reads h
    · cases o <;> first | exact trivial | exact h.elim
  refine .bind huser fun res => ?_
  refine .bind ((HevSocks5Server.writes_writeAuthUser res).mono handshakes_of_writes) fun _ => ?_
  exact .ite (only_pure _) (only_pure _)

theorem handshakes_executeRequest (req : HevSocks5Server.Request) :
    (HevSocks5Server.executeRequest req).Only Handshakes := by
  have hexec (cmd : Octet) : (HevSocks5Server.execute cmd req.addr).Only Handshakes := by
    refine (local_execute cmd req.addr).mono ?_
    intro β o h
    cases o <;> first | exact trivial | exact h.elim
  refine .ite ?_ (only_pure _)
  cases req.cmd with
  | none => exact .bind ((only_op _).2 trivial) fun cmd => hexec cmd
  | some cmd => exact hexec cmd

theorem handshakes_setTimeout (timeout : Int) : (hevSocks5SetTimeout timeout).Only Handshakes :=
  .bind ((only_op _).2 trivial) fun _ => .ite ((only_op _).2 trivial) (only_pure _)

theorem handshakes_handshake : HevSocks5Server.handshake.Only Handshakes := by
  refine .bind ((only_op _).2 trivial) fun _ => .bind ((only_op _).2 trivial) fun timeout => ?_
  refine .bind (handshakes_setTimeout timeout) fun _ => .bind handshakes_auth fun res => ?_
  refine .ite (only_pure _) (.bind ?_ fun req => .ite (only_pure _) ?_)
  · refine (HevSocks5Server.only_readRequest _ _).mono ?_
    rintro β o (h | h)
    · exact handshakes_of_reads h
    · cases o <;> first | exact trivial | exact h.elim
  · refine .bind (handshakes_executeRequest req) fun r => .bind ?_ fun res => ?_
    · exact (HevSocks5Server.writes_writeResponse r.1 r.2).mono handshakes_of_writes
    · exact .ite (only_pure _) (only_pure _)

/-- Calls of the handshake, and what comes behind them. -/
theorem ServerEnd.always_part {β : Type} {x : SysM α} {g : α → SysM β} {w : ServerEnd}
    {P : α → Host → Prop} {R : β → Host → Prop} {Q : β → ServerEnd → Prop}
    (hx : x.Only Handshakes) (h : Always toldHost (Keeps s) (x >>= g) w.host R)
    (hP : Post toldHost x w.host P) (hk : Keeps s w.host) (hw : w.Before t)
    (hg : ∀ a w', P a w'.host → Always toldHost (Keeps s) (g a) w'.host R → Keeps s w'.host →
      w'.Before t → Always (serverEnd L) (ServerEnd.Proceeds s t)
        ((g a).link (linkUdp rounds)) w' Q) :
    Always (serverEnd L) (ServerEnd.Proceeds s t) ((x >>= g).link (linkUdp rounds)) w Q := by
  have hlink : x.Only fun o => linkUdp rounds o = none := by
    refine hx.mono ?_
    intro β o ho
    cases o <;> first | exact ho.elim | rfl
  rw [link_bind, link_of_only hlink]
  have hfirst := (((always_bind x g R).1 h).last hk).and hP
  refine (ServerEnd.always_inl hx hfirst hw).bind ?_
  rintro a w' ⟨⟨⟨hk', h'⟩, hP'⟩, hw'⟩
  exact hg a w' hP' h' hk' hw'

/-- The relay of TCP in `service`. -/
def relayTcp : SysM Int := do
  hevSocks5TcpSplice (← server).fds.1
  return 0

/-- And that of UDP. -/
def relayUdp : SysM Int := do
  hevSocks5SetTimeout (← hevSocks5GetUdpTimeout)
  hevSocks5UdpSplice (← server).fds.1
  return 0

theorem service_eq : HevSocks5Server.service = (do
    logD "socks5 server service"
    let self ← base
    match self.type with
    | .tcp => relayTcp
    | .udpInUdp | .udpInTcp => relayUdp
    | .none => return -1) := rfl

/-- The calls of a relay of TCP. -/
def SplicesTcp {β : Type} : Op β → Prop
  | .server | .tcpSplice _ => True
  | _ => False

/-- A relay of TCP. -/
theorem ServerEnd.always_tcpSplice {w : ServerEnd} {R : Int → Host → Prop}
    (h : Always toldHost (Keeps s) relayTcp w.host R)
    (hmem : "socks5 server service" ∈ w.host.entered) (htype : w.host.self.type = .tcp)
    (hw : w.Before t) : Always (serverEnd L) (ServerEnd.Proceeds s t)
      (relayTcp.link (linkUdp rounds)) w fun _ _ => True := by
  have honly : relayTcp.Only fun o => linkUdp rounds o = none ∧ SplicesTcp o :=
    .bind ((only_op _).2 ⟨rfl, trivial⟩) fun _ => .bind ((only_op _).2 ⟨rfl, trivial⟩) fun _ =>
      only_pure _
  rw [link_of_only (honly.mono And.left), Interact.always_inl]
  have hhost := Always.view (F := (serverEnd L).inl) (w := w) ServerEnd.host (fun he => he.1) h
  have hkept := honly.always (E := (serverEnd L).inl) (w := w)
    (J := fun w' => w'.terminal = t ∧ "socks5 server service" ∈ w'.host.entered ∧
      w'.host.self.type = .tcp)
    (I := fun w' => w'.terminal = t ∧ "socks5 server service" ∈ w'.host.entered ∧
      w'.host.self.type = .tcp) (by
    rintro w₁ w₂ β o b ⟨-, ho⟩ ⟨hterminal, hmem, htype⟩ ⟨⟨he, -⟩, hterminal', -⟩
    suffices w₂.host.entered = w₁.host.entered ∧ w₂.host.self = w₁.host.self by
      rw [this.1, this.2, hterminal', hterminal]
      exact ⟨⟨rfl, hmem, htype⟩, rfl, hmem, htype⟩
    cases o <;> first | exact ho.elim | skip
    case server =>
      rw [he.2]
      exact ⟨rfl, rfl⟩
    case tcpSplice =>
      obtain ⟨auth, -, he⟩ := he
      rw [he]
      exact ⟨rfl, rfl⟩) ⟨hw.1, hmem, htype⟩
  refine ((hhost.both hkept).imp ?_).mono fun _ _ _ => trivial
  rintro w' ⟨⟨hagrees, hspoken⟩, hterminal, hmem', htype'⟩
  exact ⟨⟨w'.host.self, hagrees, fun _ => htype'⟩, hspoken, .inl hterminal, fun _ => hmem'⟩

theorem link_udpSplice (fd : Int) : (hevSocks5UdpSplice fd).link (linkUdp rounds) =
    (HevSocks5UDP.splicer fd rounds >>= fun _ => pure ()).inr :=
  bind_pure _

/-- A relay of UDP. -/
theorem ServerEnd.always_splicer {w : ServerEnd} (ht : t.Fresh) (hk : Keeps s w.host)
    (hmem : "socks5 server service" ∈ w.host.entered) (hw : w.Before t) :
    Always (serverEnd L) (ServerEnd.Proceeds s t)
      (HevSocks5UDP.splicer w.host.server.fds.1 rounds).inr w fun _ _ => True := by
  rw [always_inr]
  have hrelay := Always.view (F := (serverEnd L).inr) (w := w) ServerEnd.terminal
    (fun he => he.1) ((hw.1 ▸ ht).always_splicer w.host.server.fds.1 rounds)
  have hhost := always_of_step (E := (serverEnd L).inr) (w := w)
    (J := fun w' => w'.spliced = false ∧ ∃ self, w'.host = { w.host with self })
    (I := fun w' => w'.spliced = false ∧ ∃ self, w'.host = { w.host with self }) (by
    rintro w₁ w₂ β o b ⟨hspliced, self, hhost⟩ ⟨-, hspliced', self', -, hhost'⟩
    rw [hspliced', hhost', hhost]
    exact ⟨⟨hspliced, self', rfl⟩, hspliced, self', rfl⟩)
    (HevSocks5UDP.splicer w.host.server.fds.1 rounds) ⟨hw.2, w.host.self, rfl⟩
  refine ((hrelay.both hhost).imp ?_).mono fun _ _ _ => trivial
  rintro w' ⟨hrelay', hspliced, self, hhost'⟩
  have hnot : ¬ w'.spliced = true := by simp [hspliced]
  refine ⟨⟨w.host.self, ?_, fun h => absurd h hnot⟩, ?_, .inr ⟨?_, ?_⟩, fun h => absurd h hnot⟩
  all_goals rw [hhost']
  · exact hk.1
  · exact hk.2
  · exact hmem
  · exact hrelay'

theorem ServerEnd.always_relayUdp {w : ServerEnd} {R : Int → Host → Prop} (ht : t.Fresh)
    (h : Always toldHost (Keeps s) relayUdp w.host R) (hk : Keeps s w.host)
    (hmem : "socks5 server service" ∈ w.host.entered) (hw : w.Before t) :
    Always (serverEnd L) (ServerEnd.Proceeds s t) (relayUdp.link (linkUdp rounds)) w
      fun _ _ => True := by
  have hentered {α : Type} {x : SysM α} (hx : x.Only Handshakes) {w : ServerEnd}
      (hmem : "socks5 server service" ∈ w.host.entered) :
      Post toldHost x w.host fun _ w' => "socks5 server service" ∈ w'.entered :=
    hx.always (fun _ hmem he => ⟨trivial, (host_changes he.1).entered.subset hmem⟩) hmem
  unfold relayUdp at h ⊢
  have honly : hevSocks5GetUdpTimeout.Only Handshakes := (only_op _).2 trivial
  refine ServerEnd.always_part honly h (hentered honly hmem) hk hw ?_
  intro timeout w₁ hmem₁ h₁ hk₁ hw₁
  refine ServerEnd.always_part (handshakes_setTimeout timeout) h₁
    (hentered (handshakes_setTimeout timeout) hmem₁) hk₁ hw₁ fun _ w₂ hmem₂ h₂ hk₂ hw₂ => ?_
  refine ServerEnd.always_part (P := fun server w' => server = w'.server ∧
      "socks5 server service" ∈ w'.entered) ((only_op _).2 trivial) h₂ ?_ hk₂ hw₂ ?_
  · rintro server w₃ ⟨⟨rfl, rfl⟩, -⟩
    exact ⟨trivial, rfl, hmem₂⟩
  rintro server w₃ ⟨rfl, hmem₃⟩ - hk₃ hw₃
  rw [link_bind, link_udpSplice, inr_bind, always_bind, always_bind]
  exact (ServerEnd.always_splicer ht hk₃ hmem₃ hw₃).mono fun _ _ _ => trivial

theorem ServerEnd.always_service {w : ServerEnd} {R : Int → Host → Prop} (ht : t.Fresh)
    (h : Always toldHost (Keeps s) HevSocks5Server.service w.host R) (hk : Keeps s w.host)
    (hw : w.Before t) : Always (serverEnd L) (ServerEnd.Proceeds s t)
      (HevSocks5Server.service.link (linkUdp rounds)) w fun _ _ => True := by
  rw [service_eq] at h ⊢
  refine ServerEnd.always_part (P := fun _ w' => "socks5 server service" ∈ w'.entered)
    ((only_op _).2 trivial) h ?_ hk hw fun _ w₁ hmem h₁ hk₁ hw₁ => ?_
  · rintro _ w₁ ⟨rfl, -⟩
    exact ⟨trivial, List.mem_append_right _ (List.mem_singleton_self _)⟩
  refine ServerEnd.always_part (P := fun self w' => self = w'.self ∧
      "socks5 server service" ∈ w'.entered) ((only_op _).2 trivial) h₁ ?_ hk₁ hw₁ ?_
  · rintro self w₂ ⟨⟨rfl, rfl⟩, -⟩
    exact ⟨trivial, rfl, hmem⟩
  rintro self w₂ ⟨rfl, hmem₂⟩ h₂ hk₂ hw₂
  generalize htype : w₂.host.self.type = type at h₂ ⊢
  cases type with
  | none => trivial
  | tcp =>
    exact ServerEnd.always_tcpSplice h₂ hmem₂ htype hw₂
  | udpInTcp =>
    exact ServerEnd.always_relayUdp ht h₂ hk₂ hmem₂ hw₂
  | udpInUdp =>
    exact ServerEnd.always_relayUdp ht h₂ hk₂ hmem₂ hw₂

theorem Host.Fresh.keeps (h : s.Fresh) : Keeps s s := by
  refine ⟨h.unanswered.agrees (List.Subset.refl _), ?_⟩
  rw [h.sends]
  exact .silent

theorem ServerEnd.always_serverRun (hs : s.Fresh) (ht : t.Fresh) :
    Always (serverEnd L) (ServerEnd.Proceeds s t) (serverRun rounds) ⟨s, t, false⟩
      fun _ _ => True := by
  have hrun := (always_run_agrees hs).both ((always_run_spoken hs).env And.left)
  have hnothing {α : Type} (x : SysM α) (w : Host) : Post toldHost x w fun _ _ => True :=
    always_of_step (I := fun _ => True) (fun _ _ => ⟨trivial, trivial⟩) x trivial
  have hadd (fd : Int) : (addOrModFd fd).Only Handshakes := by
    refine (makes_addOrModFd fd).mono ?_
    intro β o h
    cases o <;> first | exact trivial | exact h.elim
  unfold serverRun HevSocks5Server.run at *
  refine ServerEnd.always_part ((only_op _).2 trivial) hrun (hnothing _ _) hs.keeps ⟨rfl, rfl⟩ ?_
  rintro _ w₁ - h₁ hk₁ hw₁
  refine ServerEnd.always_part ((only_op _).2 trivial) h₁ (hnothing _ _) hk₁ hw₁ ?_
  rintro self w₂ - h₂ hk₂ hw₂
  refine ServerEnd.always_part (hadd self.fd) h₂ (hnothing _ _) hk₂ hw₂ ?_
  rintro _ w₃ - h₃ hk₃ hw₃
  refine ServerEnd.always_part handshakes_handshake h₃ (hnothing _ _) hk₃ hw₃ ?_
  rintro res w₄ - h₄ hk₄ hw₄
  by_cases hres : res < 0
  · rw [if_pos hres]
    trivial
  rw [if_neg hres] at h₄ ⊢
  rw [link_bind]
  refine (ServerEnd.always_service ht ((always_bind ..).1 h₄) hk₄ hw₄).bind fun res' w₅ _ => ?_
  split <;> trivial

/-! ## The session -/

section
variable {w : ClientEnd} {v : ServerEnd}

theorem Terminal.Fresh.sent (h : t.Fresh) : t.sent = [] := by
  rw [Terminal.sent, h.writes]
  rfl

theorem Terminal.Fresh.delivers (h : t.Fresh) : t.Delivers fd t' := by
  rw [Terminal.Delivers, h.forwarded]
  exact List.nil_sublist _

theorem ClientEnd.Proceeds.intact (h : w.Proceeds c t pipeline fd) (ht : t.Fresh) :
    w.terminal.line.Intact := by
  rcases h.relay with hterminal | ⟨-, -, hintact⟩
  · rw [hterminal]
    exact ht.complete.intact
  · exact hintact

theorem ServerEnd.Proceeds.intact (h : v.Proceeds s t') (ht : t'.Fresh) :
    v.terminal.line.Intact := by
  rcases h.relay with hterminal | ⟨-, -, hintact⟩
  · rw [hterminal]
    exact ht.complete.intact
  · exact hintact

/-- What the client has sent, in both stages. -/
theorem ClientEnd.Proceeds.isPrefix (h : w.Proceeds c t pipeline fd) (ht : t.Fresh) :
    w.caller.sent ++ w.terminal.sent <+:
        c.greeting ++ (c.client.login ++ (c.dialog.request ++ w.terminal.sent)) ∨
      w.caller.sent ++ w.terminal.sent <+: c.greeting ++ (c.dialog.request ++ w.terminal.sent) := by
  rcases h.relay with hterminal | ⟨hdone, -⟩
  · have hsent : w.terminal.sent = [] := hterminal ▸ ht.sent
    simp only [hsent, List.append_nil]
    exact h.said.isPrefix
  · cases hdone with
    | login hreply hread hsent =>
      left
      simp [hsent]
    | free hreply hread hsent =>
      cases pipeline
      · right
        simp [hsent]
      · left
        simp [hsent]

/-- **The client of a request that is served is admitted**, and has sent what was received. -/
theorem admitted_of_replied {self : HevSocks5Obj} {addr : SockAddrIn6} {res : Int}
    (hc : c.dialog.Ready) (ht : t.Fresh) (hw : w.Proceeds c t pipeline fd) (hl : Connected w v)
    (h : s.Replied { v.host with self } .succ addr res) :
    Admitted c s v.host ∧ v.host.read = c.greeting ++ c.client.login ++ c.dialog.request ∧
      self.type = c.self.type := by
  obtain ⟨sends, -, -, hserved⟩ := h
  obtain ⟨login, cmd, rsv, dest, hlogin, hread, hacq⟩ := hserved rfl
  have hpre : login ++ requestOctets cmd rsv dest <+: w.caller.sent ++ w.terminal.sent := by
    rw [← hread]
    exact (List.prefix_append _ _).trans hl.1
  obtain ⟨hmethod, hfirst, hlast, hcmd, huser⟩ :=
    serves_of_prefix hc hlogin ((hw.isPrefix ht).imp hpre.trans hpre.trans)
  refine ⟨⟨hmethod, huser⟩, ?_, ?_⟩
  · rw [← hfirst, ← hlast]
    exact hread
  · exact Option.some.inj (hacq.type.symm.trans (typeOf_reqCmd hcmd))

/-- Behind a handshake, a server reads what the relay of the client has written. -/
theorem server_reads (hc : c.dialog.Ready) (ht : t.Fresh) (hw : w.Proceeds c t pipeline fd)
    (hl : Connected w v) (hread : v.host.read = c.greeting ++ c.client.login ++ c.dialog.request) :
    v.terminal.tunnel.conn.read <+: w.terminal.sent := by
  have hpre := (hw.isPrefix ht).imp hl.1.trans hl.1.trans
  rw [hread] at hpre
  simp only [List.append_assoc, List.prefix_append_right_inj] at hpre
  rcases hpre with h | h
  · exact h
  · have hlogin : c.client.login = [] := by
      refine login_eq_nil_of_prefix hc (.trans ?_ h)
      rw [← List.append_assoc]
      exact List.prefix_append _ _
    rw [hlogin, List.nil_append, List.prefix_append_right_inj] at h
    exact h

/-- And a client what that of the server has written. -/
theorem client_reads (hc : c.dialog.Ready) (htype : c.self.type = .udpInTcp) (ht : t.Fresh)
    (ht' : t'.Fresh) (hw : w.Proceeds c t pipeline fd) (hv : v.Proceeds s t') (hl : Connected w v)
    (hdone : Done c pipeline w.caller.sent w.caller.read) :
    w.terminal.tunnel.conn.read <+: v.terminal.sent ∧ Admitted c s v.host := by
  obtain ⟨self, hagrees, hspliced⟩ := hv.agrees
  obtain ⟨relayed, hpre, hquiet⟩ := hl.2
  have hbefore : "socks5 server service" ∉ v.host.entered → v.terminal.sent ++ relayed = [] := by
    intro hmem
    have hterminal : v.terminal = t' := hv.relay.resolve_right fun h => hmem h.1
    have hnot : v.spliced = false := Bool.eq_false_iff.2 fun h => hmem (hv.spliced h)
    rw [hterminal, ht'.sent, hquiet hnot]
    rfl
  obtain ⟨heq, addr, res, hreplied, -⟩ := replied_of_done (w := w.caller) hagrees hv.spoken hdone
    ((List.prefix_append _ _).trans hpre) hbefore
  obtain ⟨hadmitted, -, hself⟩ := admitted_of_replied hc ht hw hl hreplied
  -- a relay of TCP is of another type
  have hnot : v.spliced = false := by
    refine Bool.eq_false_iff.2 fun h => ?_
    have htcp : HevSocks5Type.tcp = .udpInTcp :=
      (hspliced h).symm.trans (hself.trans htype)
    cases htcp
  rw [hquiet hnot, List.append_nil, heq, List.prefix_append_right_inj] at hpre
  exact ⟨hpre, hadmitted⟩

end

/-- **A session of UDP-in-TCP.**  A client makes its handshake and splices, and a server runs, in
    any order, over one connection that may stop anywhere.  Each call of the handshake may fail in
    any way; of the calls of the relay those on the connection are `Clean` and `CleanSend`.
    Either hands to its socket only datagrams that the other has received, in their order, none
    twice, each with its own octets, as far as they fit into a slot, and for the address from which
    it came; and neither relays unless the server has admitted the client. -/
theorem session_in_order (hc : c.dialog.Ready) (htype : c.self.type = .udpInTcp)
    (hsent : c.sent = []) (hread : c.read = []) (hs : s.Fresh) (ht : t.Fresh) (ht' : t'.Fresh)
    {rounds' : Nat} {n : Ends}
    (hr : ReflTransGen (Joint.Step (clientEnd L) (serverEnd L') Connected)
      ⟨clientRun pipeline fd rounds, ⟨c, t⟩, serverRun rounds', ⟨s, t', false⟩⟩ n) :
    n.leftWorld.terminal.Delivers fd n.rightWorld.terminal ∧
      n.rightWorld.terminal.Delivers n.rightWorld.host.server.fds.1 n.leftWorld.terminal ∧
      (n.leftWorld.terminal ≠ t ∨ n.rightWorld.terminal ≠ t' → Admitted c s n.rightWorld.host) := by
  have hkept : Joint.Kept (clientEnd L) (serverEnd L') Connected
      (ClientEnd.Proceeds c t pipeline fd) (ServerEnd.Proceeds s t') (fun _ _ => True)
      (fun _ _ => True)
      ⟨clientRun pipeline fd rounds, ⟨c, t⟩, serverRun rounds', ⟨s, t', false⟩⟩ := by
    refine ⟨ClientEnd.always_clientRun hc hsent hread ht, ServerEnd.always_serverRun hs ht', ?_,
      ServerEnd.proceeds_of_before hs.keeps ⟨rfl, rfl⟩, ?_, [], ?_, fun _ => rfl⟩
    · refine ⟨?_, .inl rfl⟩
      show Said c pipeline c.sent c.read
      rw [hsent, hread]
      exact .silent
    · show s.read ++ t'.tunnel.conn.read <+: _
      rw [hs.read, ht'.read]
      exact List.nil_prefix
    · show c.read ++ t.tunnel.conn.read <+: _
      rw [hread, ht.read]
      exact List.nil_prefix
  have h := hkept.run hr
  have hw := h.leftWorld
  have hv := h.rightWorld
  have hclient : n.leftWorld.terminal.Delivers fd n.rightWorld.terminal ∧
      (n.leftWorld.terminal ≠ t → Admitted c s n.rightWorld.host) := by
    rcases hw.relay with hterminal | ⟨hdone, hrelay, -⟩
    · exact ⟨hterminal ▸ ht.delivers, fun hne => absurd hterminal hne⟩
    · obtain ⟨hreads, hadmitted⟩ := client_reads hc htype ht ht' hw hv h.link hdone
      exact ⟨Terminal.delivers_of_wired hrelay (hv.intact ht') hreads, fun _ => hadmitted⟩
  have hserver : n.rightWorld.terminal.Delivers n.rightWorld.host.server.fds.1
      n.leftWorld.terminal ∧ (n.rightWorld.terminal ≠ t' → Admitted c s n.rightWorld.host) := by
    rcases hv.relay with hterminal | ⟨hmem, hrelay, -⟩
    · exact ⟨hterminal ▸ ht'.delivers, fun hne => absurd hterminal hne⟩
    · obtain ⟨self, hagrees, -⟩ := hv.agrees
      obtain ⟨addr, res, hreplied, -⟩ := hagrees.relay hmem
      obtain ⟨hadmitted, hall, -⟩ := admitted_of_replied hc ht hw h.link hreplied
      have hreads := server_reads hc ht hw h.link hall
      exact ⟨Terminal.delivers_of_wired hrelay (hw.intact ht) hreads, fun _ => hadmitted⟩
  exact ⟨hclient.1, hserver.1, fun hne => hne.elim hclient.2 hserver.2⟩

end

/-! ## A client that logs in and a datagram -/

/-- A client for UDP with the name u and the password p. -/
def udpCaller : Caller where
  self := ⟨3, -1, .udpInTcp, false, .ipv4⟩
  client := ⟨some [117], some [112], .udp (-1)⟩
  sent := []
  read := []
  peer := fun _ => none

theorem udpCaller_ready : udpCaller.dialog.Ready := ⟨by decide, by decide⟩

/-- A relay in which the datagram `d` arrives. -/
def splices (d : Option Datagram) (self : HevSocks5Obj) (w : Terminal) {β : Type} (o : Op β) :
    Option (β × HevSocks5Obj × Terminal) :=
  match o with
  | .base =>
    if self.type = .udpInTcp ∧ w.tunnel.type = .udpInTcp ∧ w.tunnel.conn.errno = w.line.errno then
      some (self, self, w)
    else none
  | .setBase _ => none
  | o => (w.proceeds d o).map fun r => (r.1, self, r.2)

theorem answers_of_splices (d : Option Datagram) {self self' : HevSocks5Obj} {w w' : Terminal}
    {β : Type} {o : Op β} {b : β} (h : splices d self w o = some (b, self', w')) :
    Terminal.answers (fun _ => True) w o b w' ∧ Shares self o b self' := by
  have hother (hb : Shares self o b self)
      (h : ((w.proceeds d o).map fun r => (r.1, self, r.2)) = some (b, self', w')) :
      Terminal.answers (fun _ => True) w o b w' ∧ Shares self o b self' := by
    obtain ⟨r, hr, heq⟩ := Option.map_eq_some_iff.1 h
    obtain ⟨rfl, hrest⟩ := Prod.mk.inj heq
    obtain ⟨rfl, rfl⟩ := Prod.mk.inj hrest
    exact ⟨Terminal.answers_of_proceeds d w o r.1 r.2 hr, hb⟩
  cases o
  case base =>
    simp only [splices, Option.ite_none_right_eq_some] at h
    obtain ⟨⟨htype, htype', herrno⟩, h⟩ := h
    obtain ⟨rfl, hrest⟩ := Prod.mk.inj (Option.some.inj h)
    obtain ⟨rfl, rfl⟩ := Prod.mk.inj hrest
    exact ⟨⟨⟨⟨htype.trans htype'.symm, _, trivial, rfl⟩, trivial⟩, ⟨⟨htype, rfl⟩, trivial⟩, herrno⟩,
      rfl, rfl⟩
  case setBase => cases h
  all_goals exact hother rfl h

def clientScript (heard : List Octet) (d : Option Datagram) :
    ClientEnd → {β : Type} → Both (Both Op ClientOp) Op β → Option (β × ClientEnd) := fun w _ o =>
  match o with
  | .inl o => (grants heard w.caller o).map fun r => (r.1, { w with caller := r.2 })
  | .inr o => (splices d w.caller.self w.terminal o).map fun r =>
    (r.1, ⟨{ w.caller with self := r.2.1 }, r.2.2⟩)

theorem clientEnd_of_script (heard : List Octet) (d : Option Datagram) (w : ClientEnd) {β : Type}
    (o : Both (Both Op ClientOp) Op β) (b : β) (w' : ClientEnd)
    (h : clientScript heard d w o = some (b, w')) : clientEnd (fun _ => True) w o b w' := by
  rcases o with o | o
  · obtain ⟨r, hr, heq⟩ := Option.map_eq_some_iff.1 h
    obtain ⟨rfl, rfl⟩ := Prod.mk.inj heq
    exact ⟨caller_of_grants heard w.caller o r.1 r.2 hr, rfl⟩
  · obtain ⟨⟨b', self, t⟩, hr, heq⟩ := Option.map_eq_some_iff.1 h
    obtain ⟨rfl, rfl⟩ := Prod.mk.inj heq
    obtain ⟨hterminal, hself⟩ := answers_of_splices d hr
    exact ⟨hterminal, self, hself, rfl⟩

/-- No relay of TCP. -/
def serverScript (said : List Octet) (d : Option Datagram) :
    ServerEnd → {β : Type} → Both Op Op β → Option (β × ServerEnd) := fun w _ o =>
  match o with
  | .inl (.tcpSplice _) => none
  | .inl o => (logsIn said w.host o).map fun r => (r.1, { w with host := r.2 })
  | .inr o => (splices d w.host.self w.terminal o).map fun r =>
    (r.1, ⟨{ w.host with self := r.2.1 }, r.2.2, w.spliced⟩)

theorem serverEnd_of_script (said : List Octet) (d : Option Datagram) (w : ServerEnd) {β : Type}
    (o : Both Op Op β) (b : β) (w' : ServerEnd) (h : serverScript said d w o = some (b, w')) :
    serverEnd (fun _ => True) w o b w' := by
  rcases o with o | o
  · have hother (h : ((logsIn said w.host o).map fun r => (r.1, { w with host := r.2 })) =
        some (b, w')) : toldHost w.host o b w'.host ∧ w'.terminal = w.terminal ∧
          w'.spliced = w.spliced := by
      obtain ⟨r, hr, heq⟩ := Option.map_eq_some_iff.1 h
      obtain ⟨rfl, rfl⟩ := Prod.mk.inj heq
      exact ⟨toldHost_of_logsIn said w.host o r.1 r.2 hr, rfl, rfl⟩
    cases o
    case tcpSplice => cases h
    all_goals exact hother h
  · obtain ⟨⟨b', self, t⟩, hr, heq⟩ := Option.map_eq_some_iff.1 h
    obtain ⟨rfl, rfl⟩ := Prod.mk.inj heq
    obtain ⟨hterminal, hself⟩ := answers_of_splices d hr
    exact ⟨hterminal, rfl, self, hself, rfl⟩

/-- Both have read just what the other has sent so far, or less. -/
def connectedNow (w : ClientEnd) (v : ServerEnd) : Bool :=
  (v.host.read ++ v.terminal.tunnel.conn.read).isPrefixOf (w.caller.sent ++ w.terminal.sent) &&
    (w.caller.read ++ w.terminal.tunnel.conn.read).isPrefixOf
      (saidOctets v.host.sends ++ v.terminal.sent)

theorem connected_of_now (w : ClientEnd) (v : ServerEnd) (h : connectedNow w v = true) :
    Connected w v := by
  obtain ⟨hread, hsaid⟩ := Bool.and_eq_true_iff.1 h
  refine ⟨List.isPrefixOf_iff_prefix.1 hread, [], ?_, fun _ => rfl⟩
  rw [List.append_nil]
  exact List.isPrefixOf_iff_prefix.1 hsaid

/-- A datagram is going to arrive at the server. -/
def octetStart : Ends :=
  ⟨clientRun false 4 1, ⟨udpCaller, Terminal.idle (frames.words [octetDatagram.toFrame])⟩,
    serverRun 1, ⟨userHost, Terminal.idle [], false⟩⟩

/-- The session to its end. -/
def octetSession : Ends :=
  octetStart.drive (clientScript [5, 2, 1, 0, 5, 0, 0, 1, 0, 0, 0, 0, 0, 0] none)
    (serverScript [5, 1, 2, 1, 1, 117, 1, 112, 5, 5, 0, 1, 0, 0, 0, 0, 0, 0] (some octetDatagram))
    connectedNow 200

theorem octetSession_reached : ReflTransGen (Joint.Step (clientEnd fun _ => True)
    (serverEnd fun _ => True) Connected) octetStart octetSession :=
  Joint.reaches_drive (clientEnd_of_script _ none) (serverEnd_of_script _ (some octetDatagram))
    connected_of_now 200 _

theorem octetSession_forwarded : octetSession.leftWorld.terminal.tunnel.forwarded.length = 1 := by
  decide +kernel

theorem session_in_order_octet : octetSession.leftWorld.terminal.tunnel.forwarded.length = 1 ∧
    octetSession.leftWorld.terminal.Delivers 4 octetSession.rightWorld.terminal ∧
      Admitted udpCaller userHost octetSession.rightWorld.host := by
  have hfresh (rest : List Octet) : (Terminal.idle rest).Fresh := ⟨rfl, rfl, rfl, rfl, rfl⟩
  have hrelays : octetSession.leftWorld.terminal ≠
      Terminal.idle (frames.words [octetDatagram.toFrame]) := by
    intro heq
    have hlen := octetSession_forwarded
    rw [heq] at hlen
    exact absurd hlen (by decide)
  have huser : userHost.Fresh := ⟨rfl, rfl, rfl, rfl⟩
  obtain ⟨hclient, -, hadmitted⟩ := session_in_order udpCaller_ready rfl rfl rfl huser (hfresh _)
    (hfresh _) octetSession_reached
  exact ⟨octetSession_forwarded, hclient, hadmitted (.inl hrelays)⟩

end HevSocks5
