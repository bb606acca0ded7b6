/-
  The agreement of a client and a server that meet.

  The two take turns (`settles_greeted`, `settles_login`, `settles_reply`), in
  both modes; a client that sends everything at once only finds the server's
  answers already on the way.  So every run of the two comes to an end, and then
  both have returned, with the same result unless a socket of the client has
  failed; with success just when the client is admitted, its target is resolved
  and no socket of the server has failed (`handshake_agreement`).
-/
import HevSocks5.AuthGate
import HevSocks5.ClientEncode
import HevSocks5.MeetingServer

namespace HevSocks5

open Interact Interact.Prog Sys HevSocks5Client Relation

section
variable {R : Resolver} {c w : ClientSide} {s v : ServerSide} {r r' : Int} {n : Meeting}
  {rest toLeft : List Octet}

/-- All that the rest of the handshake depends on is as it was. -/
structure ServerSide.Kept (s v : ServerSide) : Prop where
  auth : v.auth = s.auth
  family : v.self.addrFamily = s.self.addrFamily
  target : v.target = s.target
  failed : v.failed = s.failed

/-- Two parties that settle. -/
abbrev Agrees (R : Resolver) (c : ClientSide) (s : ServerSide) (n : Meeting) : Prop :=
  Settles clientWiring (serverWiring R) (Concluded R c s) n

/-! ## What they have -/

theorem ClientSide.Connected.ready (hc : c.Connected) : c.dialog.Ready := by
  rcases hc.kind with ⟨htype, addr, hk, hlen⟩ | ⟨htype, ⟨fd, hk⟩, hfamily⟩
  · refine Dialog.ready_of_tcp ?_ hk hlen
    show c.self.type ≠ .none
    rw [htype]
    decide
  · refine Dialog.ready_of_udp ?_ hk hfamily
    show c.self.type ≠ .none
    rcases htype with htype | htype
    · rw [htype]
      decide
    · rw [htype]
      decide

/-- The request of a client. -/
theorem ClientSide.Connected.exists_request (hc : c.Connected) : ∃ cmd dest,
    reqCmd c.self.type = some cmd ∧ c.dialog.request = requestOctets cmd 0 dest ∧
      ∀ R s, resolved R s c = dest.sockaddr R s.self.addrFamily := by
  have hready := hc.ready
  have hcmd : ∃ cmd, reqCmd c.self.type = some cmd := by
    have htype : c.self.type ≠ .none := hready.type
    cases h : c.self.type with
    | none => exact absurd h htype
    | _ => exact ⟨_, rfl⟩
  obtain ⟨cmd, hcmd⟩ := hcmd
  obtain ⟨dest, hoctets, hdest⟩ := exists_endpoint hready.address
  refine ⟨cmd, dest, hcmd, ?_, fun R s => hdest R _⟩
  rw [Dialog.request, show c.dialog.self = c.self from rfl, hcmd, requestOctets, hoctets]
  rfl

theorem cred_eq {l : List Octet} (h : l.length < 256) : cred l = UInt8.ofNat l.length :: l := by
  rw [cred, (take_length_iff l).2 h]

/-- A client has no credentials, or a name and a password that fit. -/
theorem ClientSide.Connected.creds_cases (hc : c.Connected) :
    (c.client.offered = authMethodNone ∧ c.client.login = [] ∧
      (c.client.user = none ∨ c.client.pass = none)) ∨
    ∃ name pass : Str, c.client.offered = authMethodUser ∧ c.client.user = some name.octets ∧
      c.client.pass = some pass.octets ∧ name.Fits ∧ pass.Fits ∧
      c.client.login = userOctets name.octets pass.octets := by
  unfold HevSocks5ClientObj.offered HevSocks5ClientObj.login
  cases hu : c.client.user with
  | none => exact .inl ⟨rfl, rfl, .inl rfl⟩
  | some user =>
    cases hp : c.client.pass with
    | none => exact .inl ⟨rfl, rfl, .inr rfl⟩
    | some pass =>
      obtain ⟨⟨hu0, hul⟩, hp0, hpl⟩ := hc.creds user pass hu hp
      refine .inr ⟨⟨user, by omega⟩, ⟨pass, by omega⟩, rfl, rfl, rfl, ⟨hu0, hul⟩, ⟨hp0, hpl⟩, ?_⟩
      simp [cred_eq hul, cred_eq hpl, userOctets]

theorem ServerSide.Opened.method_cases (hs : s.Opened) :
    s.server.method = authMethodNone ∧ s.server.obj = .null ∨
    s.server.method = authMethodUser ∧ s.server.obj = .auth ∧ s.auth.Valid := by
  unfold HevSocks5ServerObj.method
  rcases hs.obj with h | ⟨h, hv⟩
  · exact .inl ⟨by rw [h]; rfl, h⟩
  · exact .inr ⟨by rw [h]; rfl, h, hv⟩

theorem ServerSide.Opened.obj_of_none (hs : s.Opened) (h : s.server.method = authMethodNone) :
    s.server.obj = .null := by
  rcases hs.method_cases with ⟨-, hobj⟩ | ⟨hmethod, -⟩
  · exact hobj
  · rw [h] at hmethod
    exact absurd hmethod (by decide)

theorem ServerSide.Opened.obj_of_user (hs : s.Opened) (h : s.server.method = authMethodUser) :
    s.server.obj = .auth ∧ s.auth.Valid := by
  rcases hs.method_cases with ⟨hmethod, -⟩ | ⟨-, hauth⟩
  · rw [h] at hmethod
    exact absurd hmethod (by decide)
  · exact hauth

/-- Whoever is admitted has offered what the server wants. -/
theorem Admits.offered (h : Admits s c) : c.client.offered = s.server.method := by
  rcases h with ⟨hobj, hnone⟩ | ⟨hobj, user, pass, hu, hp, -⟩
  · have hmethod : s.server.method = authMethodNone := by
      rw [HevSocks5ServerObj.method, hobj]
      rfl
    rw [hmethod, HevSocks5ClientObj.offered]
    rcases hnone with h | h
    · rw [h]
      rfl
    · rw [h, if_pos (.inr rfl)]
  · have hmethod : s.server.method = authMethodUser := by
      rw [HevSocks5ServerObj.method, hobj]
      rfl
    rw [hmethod, HevSocks5ClientObj.offered, hu, hp]
    rfl

/-! ## The ends -/

/-- Both have failed. -/
theorem Concluded.refused (hl : n.left.prog = .ret (-1)) (hr : n.right.prog = .ret (-1))
    (h : Admits s c → (∃ addr, resolved R s c = some addr) → n.right.world.failed = true) :
    Concluded R c s n := by
  have hne : ¬ (-1 : Int) = 0 := by decide
  refine ⟨-1, -1, hl, hr, .inr rfl, .inr rfl, fun _ => Iff.rfl, fun h => absurd h hne, ?_,
    fun h => absurd h hne, fun h => absurd h hne, fun h => absurd h hne⟩
  refine iff_of_false hne ?_
  rintro ⟨hadmits, hresolved, hok⟩
  rw [h hadmits hresolved] at hok
  cases hok

/-- The client finishes when the server has returned. -/
theorem settles_end {toRight : List Octet}
    (h : ∀ w', w'.failed = w.failed →
      Concluded R c s ⟨⟨.ret r, w', []⟩, ⟨.ret r', v, []⟩, toRight, toLeft⟩) :
    Agrees R c s ⟨⟨handshakeEnd r, w, []⟩, ⟨.ret r', v, []⟩, toRight, toLeft⟩ := by
  rw [← bind_pure (handshakeEnd r)]
  refine .left_bind (meets_handshakeEnd r) ?_
  rintro _ ⟨w', _, _⟩ ⟨rfl, hfailed, rfl, rfl⟩
  exact .done ⟨⟨_, rfl⟩, ⟨_, rfl⟩⟩ (h w' hfailed)

/-! ## The stages -/

/-- The end of both modes of the client. -/
def clientReply : ClientM Int := do
  let res ← readResponse
  if res < 0 then return -1 else return 0

/-- **The request and the reply** of a client that is admitted. -/
theorem settles_reply {cmd : Octet} {dest : Endpoint} (hcmd : reqCmd c.self.type = some cmd)
    (hdest : resolved R s c = dest.sockaddr R s.self.addrFamily) (hs : s.Opened)
    (hadmits : Admits s c) (hkept : s.Kept v) :
    Agrees R c s ⟨⟨clientReply >>= handshakeEnd, w, []⟩, ⟨handshakeBehind 0, v, []⟩,
      requestOctets cmd 0 dest, []⟩ := by
  rw [← bind_pure (handshakeBehind 0), ← List.append_nil (requestOctets cmd 0 dest)]
  refine .right_bind (meets_handshakeBehind hcmd) ?_
  rintro r' ⟨v', _, _⟩ ⟨rep, saddr, rfl, rfl, hserver⟩
  rw [hkept.family, ← hdest, hkept.target, hkept.failed, hs.failed, hs.target] at hserver
  rw [List.nil_append, clientReply, bind_assoc, ← List.append_nil (replyOctets rep saddr)]
  refine .left_bind (meets_replied rep saddr) ?_
  rintro r ⟨w', toLeft, toRight⟩ ⟨hfail, hsucc⟩
  rcases hserver with ⟨hrep, rfl, hbad⟩ | ⟨rfl, rfl, htype, hok, addr, haddr, htarget⟩
  · obtain rfl : r = -1 := hfail hrep
    rw [if_pos (by decide), pure_bind]
    refine settles_end fun w'' _ => .refused rfl rfl ?_
    rintro - ⟨addr, haddr⟩
    rcases hbad with hnone | hfailed
    · rw [haddr] at hnone
      cases hnone
    · exact hfailed
  · obtain ⟨hr, rfl, rfl, hfailed⟩ := hsucc rfl
    have hpure : (if r < 0 then pure (-1) else pure 0 : ClientM Int) = pure r := by
      rcases hr with rfl | rfl <;> rfl
    rw [hpure, pure_bind]
    refine settles_end fun w'' hw'' => ⟨r, 0, rfl, rfl, hr, .inl rfl, ?_, fun _ => rfl,
      iff_of_true rfl ⟨hadmits, ⟨addr, haddr⟩, hok⟩, fun _ => htype, fun _ => ?_,
      fun _ => ⟨rfl, rfl⟩⟩
    · intro hw
      refine iff_of_true (hr.resolve_right ?_) rfl
      rintro rfl
      have hbad := hfailed (by decide)
      rw [← hw'', hw] at hbad
      cases hbad
    · rw [haddr]
      exact htarget

/-- **The greeting**: a method is offered, and selected or denied. -/
theorem settles_greeted {f : Int → ClientM Int} {m : Octet}
    (hr : r = if m = s.server.method then (m.toNat : Int) else -1)
    (h : ∀ v, s.Kept v → Agrees R c s ⟨⟨f (UInt8.ofInt r).toNat >>= handshakeEnd, w, []⟩,
      ⟨authBehind r >>= handshakeBehind, v, []⟩, rest, []⟩) :
    Agrees R c s ⟨⟨(readAuthMethod >>= f) >>= handshakeEnd, w, []⟩,
      ⟨HevSocks5Server.handshake, s, []⟩, [version5, 1, m] ++ rest, []⟩ := by
  rw [serverHandshake_eq]
  refine .right_bind (meets_selectMethod m) ?_
  rintro _ _ ⟨rfl, timeout, rfl⟩
  rw [← hr, bind_assoc]
  have hread : ClientMeets readAuthMethod ⟨w, [version5, UInt8.ofInt r], rest⟩ fun res f =>
      res = (UInt8.ofInt r).toNat ∧ f = ⟨w, [], rest⟩ := meets_selected _
  refine .left_bind hread ?_
  rintro _ _ ⟨rfl, rfl⟩
  exact h _ ⟨rfl, rfl, rfl, rfl⟩

/-- The server does not want the method. -/
theorem settles_denied {f : Int → ClientM Int} (hf : f 255 = pure (-1))
    (hne : c.client.offered ≠ s.server.method) :
    Agrees R c s ⟨⟨(readAuthMethod >>= f) >>= handshakeEnd, w, []⟩,
      ⟨HevSocks5Server.handshake, s, []⟩, [version5, 1, c.client.offered] ++ rest, []⟩ := by
  refine settles_greeted (if_neg hne).symm fun v _ => ?_
  rw [show ((UInt8.ofInt (-1)).toNat : Int) = 255 by rfl, hf, pure_bind]
  refine settles_end fun w' _ => .refused rfl rfl ?_
  intro hadmits
  exact absurd hadmits.offered hne

/-- **The sub-negotiation** of a client whose method is selected. -/
theorem settles_login {name pass : Str} {g : ClientM Int} (hn : name.Fits) (hp : pass.Fits)
    (hu : c.client.user = some name.octets) (hpass : c.client.pass = some pass.octets)
    (hobj : s.server.obj = .auth) (hv : s.auth.Valid) (hkept : s.Kept v)
    (h : Admits s c → ∀ v, s.Kept v → Agrees R c s ⟨⟨g >>= handshakeEnd, w, []⟩,
      ⟨handshakeBehind 0, v, []⟩, rest, []⟩) :
    Agrees R c s ⟨⟨(do
        let res ← readAuthCreds
        if res < 0 then return -1 else g) >>= handshakeEnd, w, []⟩,
      ⟨authBehind authMethodUser.toNat >>= handshakeBehind, v, []⟩,
      userOctets name.octets pass.octets ++ rest, []⟩ := by
  rw [authBehind, if_neg (by decide), if_pos rfl]
  refine .right_bind (meets_subNegotiation hn hp (hkept.auth ▸ hv)) ?_
  rintro r _ ⟨hr, server, rfl⟩
  rw [hkept.auth] at hr
  have hread : ClientMeets readAuthCreds ⟨w, [authVersion1, UInt8.ofInt r], rest⟩ fun res f =>
      res = (if UInt8.ofInt r = HevSocks5ResRep.succ.octet then 0 else -1) ∧ f = ⟨w, [], rest⟩ :=
    meets_accepted _
  rw [bind_assoc]
  refine .left_bind hread ?_
  rintro _ _ ⟨rfl, rfl⟩
  rcases hr with ⟨haccepts, rfl⟩ | ⟨haccepts, rfl⟩
  · rw [if_neg (by decide)]
    refine h (.inr ⟨hobj, name, pass, hu, hpass, haccepts⟩) _ ?_
    exact ⟨hkept.auth, hkept.family, hkept.target, hkept.failed⟩
  · rw [if_pos (by decide), pure_bind]
    refine settles_end fun w' _ => .refused rfl rfl ?_
    rintro (⟨hnull, -⟩ | ⟨-, name', pass', hu', hp', haccepts'⟩)
    · rw [hobj] at hnull
      cases hnull
    · rw [hu, Option.some.injEq] at hu'
      rw [hpass, Option.some.injEq] at hp'
      rw [← Str.ext_octets hu', ← Str.ext_octets hp'] at haccepts'
      exact absurd haccepts' haccepts

/-! ## The two modes -/

theorem ClientSide.Alike.request (hw : c.Alike w) (hready : c.dialog.Ready) :
    w.dialog.Ready ∧ w.dialog.request = c.dialog.request := by
  have haddr : w.dialog.address = c.dialog.address := by
    simp only [Dialog.address, ClientSide.dialog, hw.client, hw.family]
  refine ⟨⟨?_, by rw [haddr]; exact hready.address⟩, ?_⟩
  · show w.self.type ≠ .none
    rw [hw.type]
    exact hready.type
  · rw [Dialog.request, Dialog.request, haddr, show w.dialog.self.type = _ from hw.type]
    rfl

/-- The request, sent when the client is admitted. -/
theorem settles_request (hc : c.Connected) (hs : s.Opened) (hw : c.Alike w) (hadmits : Admits s c)
    (hkept : s.Kept v) :
    Agrees R c s ⟨⟨handshakeStandard.request >>= handshakeEnd, w, []⟩,
      ⟨handshakeBehind 0, v, []⟩, [], []⟩ := by
  obtain ⟨cmd, dest, hcmd, hrequest, hdest⟩ := hc.exists_request
  obtain ⟨hready, hsame⟩ := hw.request hc.ready
  rw [handshakeStandard.request, bind_assoc]
  refine .left_bind (meets_ask hready) ?_
  rintro _ _ ⟨rfl, w', rfl, -⟩
  rw [if_neg (by decide), hsame, hrequest]
  exact settles_reply hcmd (hdest R s) hs hadmits hkept

/-- **A client that waits** for each answer of the server. -/
theorem settles_standard (hc : c.Connected) (hs : s.Opened) (hw : c.Alike w) :
    Agrees R c s ⟨⟨handshakeStandard >>= handshakeEnd, w, []⟩,
      ⟨HevSocks5Server.handshake, s, []⟩, [], []⟩ := by
  rw [handshakeStandard, bind_assoc]
  refine .left_bind meets_greet ?_
  rintro _ _ ⟨rfl, rfl⟩
  rw [if_neg (by decide), hw.client, List.nil_append, ← List.append_nil [_, _, _]]
  by_cases hm : c.client.offered = s.server.method
  swap
  · exact settles_denied rfl hm
  refine settles_greeted (if_pos hm).symm fun v hkept => ?_
  rcases hc.creds_cases with ⟨hoffered, -, hnone⟩ | ⟨name, pass, hoffered, hu, hp, hn, hpf, hlogin⟩
  · rw [hoffered] at hm ⊢
    exact settles_request hc hs hw (.inl ⟨hs.obj_of_none hm.symm, hnone⟩) hkept
  · rw [hoffered] at hm ⊢
    obtain ⟨hobj, hv⟩ := hs.obj_of_user hm.symm
    change Agrees R c s ⟨⟨(do
      let res ← writeAuthCreds
      if res < 0 then return -1
      else
        let res ← readAuthCreds
        if res < 0 then return -1 else handshakeStandard.request) >>= handshakeEnd, w, []⟩, _, _, _⟩
    rw [bind_assoc]
    refine .left_bind meets_login ?_
    rintro _ _ ⟨rfl, rfl⟩
    rw [if_neg (by decide), hw.client, hlogin, List.nil_append, ← List.append_nil (userOctets _ _)]
    refine settles_login hn hpf hu hp hobj hv hkept ?_
    intro hadmits v' hkept'
    exact settles_request hc hs hw hadmits hkept'

/-- **A client that sends everything at once**, and then reads. -/
theorem settles_pipeline (hc : c.Connected) (hs : s.Opened) (hw : c.Alike w) :
    Agrees R c s ⟨⟨handshakePipeline >>= handshakeEnd, w, []⟩,
      ⟨HevSocks5Server.handshake, s, []⟩, [], []⟩ := by
  obtain ⟨cmd, dest, hcmd, hrequest, hdest⟩ := hc.exists_request
  obtain ⟨hready, hsame⟩ := hw.request hc.ready
  rw [handshakePipeline, bind_assoc]
  refine .left_bind meets_greet ?_
  rintro _ _ ⟨rfl, rfl⟩
  rw [if_neg (by decide), bind_assoc]
  refine .left_bind meets_login ?_
  rintro _ _ ⟨rfl, rfl⟩
  rw [if_neg (by decide), bind_assoc]
  refine .left_bind (meets_ask hready) ?_
  rintro _ _ ⟨rfl, w', rfl, -⟩
  rw [if_neg (by decide), hw.client, hsame, hrequest, List.nil_append, List.append_assoc]
  by_cases hm : c.client.offered = s.server.method
  swap
  · exact settles_denied rfl hm
  refine settles_greeted (if_pos hm).symm fun v hkept => ?_
  rcases hc.creds_cases with ⟨hoffered, hlogin, hnone⟩ |
    ⟨name, pass, hoffered, hu, hp, hn, hpf, hlogin⟩
  · rw [hoffered] at hm ⊢
    rw [hlogin]
    exact settles_reply hcmd (hdest R s) hs (.inl ⟨hs.obj_of_none hm.symm, hnone⟩) hkept
  · rw [hoffered] at hm ⊢
    obtain ⟨hobj, hv⟩ := hs.obj_of_user hm.symm
    rw [hlogin]
    refine settles_login hn hpf hu hp hobj hv hkept ?_
    intro hadmits v' hkept'
    exact settles_reply hcmd (hdest R s) hs hadmits hkept'

/-! ## Every run -/

theorem settles_start (pipeline : Bool) (hc : c.Connected) (hs : s.Opened) :
    Agrees R c s (.start pipeline c s) := by
  have hmode (w : ClientSide) (hw : c.Alike w) :
      Agrees R c s ⟨⟨modeOf pipeline >>= handshakeEnd, w, []⟩,
        ⟨HevSocks5Server.handshake, s, []⟩, [], []⟩ := by
    cases pipeline
    · exact settles_standard hc hs hw
    · exact settles_pipeline hc hs hw
  rw [Meeting.start, handshake, ← bind_assoc]
  refine .left_bind meets_clientStart ?_
  rintro _ ⟨w, _, _⟩ ⟨hw, rfl, rfl⟩
  exact hmode w hw

/-- **The agreement of the handshakes.**  A connected client and a server of this library run their
    handshakes against each other, in either mode.  No run of the two is endless, and a run that
    cannot be continued has ended with both handshakes returned: with the same result, unless a
    socket of the client has failed; with success just when the client is admitted, its target is
    resolved and no socket of the server has failed; and then the server has the type of the
    client, has connected to the address that the client has sent, if it is to connect, and both
    channels are empty. -/
theorem handshake_agreement (R : Resolver) (pipeline : Bool) (c : ClientSide) (s : ServerSide)
    (hc : c.Connected) (hs : s.Opened) :
    Acc (fun n' n => Meeting.Step R n n') (.start pipeline c s) ∧
      ∀ n, ReflTransGen (Meeting.Step R) (.start pipeline c s) n →
        (∃ n', Meeting.Step R n n') ∨ Concluded R c s n := by
  refine ⟨acc_step _ _ _, fun n hn => ?_⟩
  exact ((settles_start pipeline hc hs).run hn).imp_right And.right

end

/-- A client that logs in and asks for 192.0.2.7, port 53. -/
def loginClient : ClientSide where
  self := ⟨3, -1, .tcp, false, .ipv4⟩
  client := ⟨some loginName.octets, some loginPass.octets,
    .tcp (some ⟨16, .ofList [1, 192, 0, 2, 7, 0, 53]⟩)⟩
  failed := false

def loginServer : ServerSide where
  self := (HevSocks5Server.construct 4).1
  server := { (HevSocks5Server.construct 4).2 with obj := .auth }
  auth := oneUser
  target := none
  failed := false

theorem loginClient_connected : loginClient.Connected where
  kind := .inl ⟨rfl, _, rfl, by decide⟩
  creds := by
    rintro user pass hu hp
    obtain rfl : loginName.octets = user := Option.some.inj hu
    obtain rfl : loginPass.octets = pass := Option.some.inj hp
    decide
  failed := rfl

theorem loginServer_opened : loginServer.Opened := ⟨.inr ⟨rfl, valid_oneUser⟩, rfl, rfl⟩

theorem loginServer_admits : Admits loginServer loginClient := by
  have hget : HevSocks5Authenticator.get loginName oneUser = some (4, oneUser) := rfl
  have hpass : oneUser.Accepts loginName loginPass :=
    (HevSocks5Authenticator.accepts_iff valid_oneUser hget).2 ⟨by decide, rfl⟩
  exact .inr ⟨rfl, loginName, loginPass, rfl, rfl, hpass⟩

theorem handshake_agreement_login : Admits loginServer loginClient ∧
    (∃ addr, resolved noResolver loginServer loginClient = some addr) ∧
    Acc (fun n' n => Meeting.Step noResolver n n') (.start true loginClient loginServer) ∧
      ∀ n, ReflTransGen (Meeting.Step noResolver) (.start true loginClient loginServer) n →
        (∃ n', Meeting.Step noResolver n n') ∨ Concluded noResolver loginClient loginServer n :=
  ⟨loginServer_admits, ⟨_, rfl⟩,
    handshake_agreement noResolver true _ _ loginClient_connected loginServer_opened⟩

end HevSocks5
