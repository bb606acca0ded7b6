/-
  The client of a meeting.

  One specification for each of its functions: what it takes from the channel
  and what it puts there, whatever else may come (`ClientMeets`).  For the
  messages that come before the reply they are those of any environment in which
  nothing fails (`ClientSide.speaks`).  A result that is negative without the
  server's doing has its cause in a socket of the client (`Sound`).
-/
import HevSocks5.Conversion
import HevSocks5.Meeting

namespace HevSocks5

open Interact Interact.Prog Sys HevSocks5Client

section
variable {w w' : ClientSide} {s out : List Octet}

/-- Nothing that the messages depend on has changed. -/
structure ClientSide.Alike (w w' : ClientSide) : Prop where
  client : w'.client = w.client
  type : w'.self.type = w.self.type
  family : w'.self.addrFamily = w.self.addrFamily
  failed : w'.failed = w.failed

abbrev ClientMeets {α : Type} (x : ClientM α) (f : Fed ClientSide Octet)
    (Q : α → Fed ClientSide Octet → Prop) : Prop :=
  Meets clientWiring.fed clientWiring.Can x f Q

/-- The calls of a client that are answered whatever happens. -/
def Answered {β : Type} (o : Both Op ClientOp β) : Prop :=
  match o with
  | .inl .base | .inl (.setBase _) | .inl (.socket _) | .inl (.setsockopt ..)
  | .inl (.binder ..) | .inl (.socketConnect ..) | .inl (.addFd _) | .inl (.modFd _)
  | .inl (.delFd _) | .inl (.close _) | .inl .tcpTimeout | .inl .udpTimeout => True
  | .inr .client | .inr (.setClient _) | .inr .malloc0 | .inr (.free _) => True
  | _ => False

theorem client_can {f : Fed ClientSide Octet} {β : Type} {o : Both Op ClientOp β}
    (ho : Answered o) : clientWiring.Can f o := by
  match o with
  | .inl .base => exact ⟨f.world.self, f.world, rfl, rfl⟩
  | .inl (.setBase self) => exact ⟨(), _, rfl⟩
  | .inl (.socket type) => exact ⟨0, _, rfl⟩
  | .inl (.setsockopt fd opt) => exact ⟨0, _, rfl⟩
  | .inl (.binder fd saddr) => exact ⟨0, _, rfl⟩
  | .inl (.socketConnect fd saddr) => exact ⟨0, _, rfl⟩
  | .inl (.addFd fd) => exact ⟨0, _, rfl⟩
  | .inl (.modFd fd) => exact ⟨0, _, rfl⟩
  | .inl (.delFd fd) => exact ⟨(), _, rfl⟩
  | .inl (.close fd) => exact ⟨(), _, rfl⟩
  | .inl .tcpTimeout => exact ⟨0, _, rfl⟩
  | .inl .udpTimeout => exact ⟨0, _, rfl⟩
  | .inr .client => exact ⟨f.world.client, f.world, rfl, rfl⟩
  | .inr (.setClient client) => exact ⟨(), _, rfl⟩
  | .inr .malloc0 => exact ⟨some 16, f.world, Option.some_ne_none 16, rfl⟩
  | .inr (.free ptr) => exact ⟨(), _, rfl⟩

theorem meets_clientTimeout (timeout : Int) :
    ClientMeets (liftM (hevSocks5SetTimeout timeout)) ⟨w, s, out⟩ fun _ f =>
      w.Alike f.world ∧ f.input = s ∧ f.output = out := by
  refine ⟨client_can trivial, ?_⟩
  rintro self _ ⟨w₁, ⟨rfl, rfl⟩, rfl⟩
  simp only [Prog.bind]
  split
  · refine ⟨client_can trivial, ?_⟩
    rintro _ _ ⟨w₂, rfl, rfl⟩
    exact ⟨⟨rfl, rfl, rfl, rfl⟩, rfl, rfl⟩
  · exact ⟨⟨rfl, rfl, rfl, rfl⟩, rfl, rfl⟩

theorem meets_clientStart : ClientMeets (do
      let timeout ← hevSocks5GetTcpTimeout
      hevSocks5SetTimeout timeout) ⟨w, s, out⟩ fun _ f =>
    w.Alike f.world ∧ f.input = s ∧ f.output = out := by
  refine ⟨client_can trivial, ?_⟩
  rintro timeout _ ⟨w₁, rfl, rfl⟩
  exact meets_clientTimeout timeout

theorem meets_handshakeEnd (res : Int) :
    ClientMeets (handshakeEnd res) ⟨w, s, out⟩ fun r f =>
      r = res ∧ f.world.failed = w.failed ∧ f.input = s ∧ f.output = out := by
  refine ⟨client_can trivial, ?_⟩
  rintro self _ ⟨w₁, ⟨rfl, rfl⟩, rfl⟩
  simp only [Prog.inl, Prog.bind]
  have htimeout : ClientMeets (do
      hevSocks5SetTimeout (← hevSocks5GetUdpTimeout)
      return res) ⟨w₁, s, out⟩ fun r f =>
        r = res ∧ f.world.failed = w₁.failed ∧ f.input = s ∧ f.output = out := by
    refine ⟨client_can trivial, ?_⟩
    rintro timeout _ ⟨w₂, rfl, rfl⟩
    refine (meets_clientTimeout timeout).bind ?_
    rintro _ f ⟨ha, hin, hout⟩
    exact ⟨rfl, ha.failed, hin, hout⟩
  split
  · exact htimeout
  · exact htimeout
  · exact ⟨rfl, rfl, rfl, rfl⟩

/-! ### What it says and is told -/

/-- A client that is fed from a channel; the rest of it is whether a socket has failed. -/
def ClientSide.speaker : Speaker (Fed ClientSide Octet) Bool where
  self f := f.world.self
  client f := f.world.client
  stream f := f.input
  sent f := f.output
  rest f := f.world.failed

theorem ClientSide.speaks : ClientSide.speaker.Speaks clientWiring.fed clientWiring.Can where
  base f := by
    refine ⟨client_can trivial, ?_⟩
    rintro self _ ⟨w₁, ⟨rfl, rfl⟩, rfl⟩
    exact ⟨rfl, rfl⟩
  client f := by
    refine ⟨client_can trivial, ?_⟩
    rintro client _ ⟨w₁, ⟨rfl, rfl⟩, rfl⟩
    exact ⟨rfl, rfl⟩
  setClient f client := by
    refine ⟨client_can trivial, ?_⟩
    rintro _ _ ⟨w₁, rfl, rfl⟩
    exact ⟨rfl, rfl, rfl, (List.append_nil _).symm, rfl⟩
  malloc0 f := by
    refine ⟨client_can trivial, ?_⟩
    rintro ptr _ ⟨w₁, ⟨hptr, rfl⟩, rfl⟩
    exact ⟨hptr, rfl⟩
  free f ptr := by
    refine ⟨client_can trivial, ?_⟩
    rintro _ _ ⟨w₁, rfl, rfl⟩
    rfl
  send f fd data hdata := by
    refine ⟨trivial, ?_⟩
    rintro res _ ⟨rfl, rfl⟩
    exact ⟨Int.natCast_pos.2 (List.length_pos_iff.2 hdata), rfl, rfl, rfl, rfl, rfl⟩
  sendmsg f fd data hdata := by
    refine ⟨trivial, ?_⟩
    rintro res _ ⟨rfl, rfl⟩
    exact ⟨Int.natCast_pos.2 (List.length_pos_iff.2 hdata), rfl, rfl, rfl, rfl, rfl⟩
  recv f fd n hn := by
    refine ⟨hn, ?_⟩
    rintro res _ ⟨-, rfl, rfl⟩
    exact ⟨rfl, rfl, rfl, (List.take_append_drop n f.input).symm, (List.append_nil _).symm, rfl⟩

theorem fed_of_spoke {read data : List Octet} {client : HevSocks5ClientObj}
    {f f' : Fed ClientSide Octet} (h : ClientSide.speaker.Spoke f read data client f')
    (hin : f.input = read ++ s) : f' = ⟨{ f.world with client }, s, f.output ++ data⟩ := by
  obtain ⟨⟨self, client', failed⟩, input, output⟩ := f'
  obtain ⟨rfl, rfl, hstream, rfl, rfl⟩ := h
  obtain rfl := List.append_cancel_left (hin.symm.trans hstream)
  rfl

theorem meets_greet : ClientMeets writeAuthMethods ⟨w, s, out⟩ fun r f =>
    r = 0 ∧ f = ⟨w, s, out ++ [version5, 1, w.client.offered]⟩ :=
  (ClientSide.speaks.meets_writeAuthMethods _).mono fun _ _ h => ⟨h.1, fed_of_spoke h.2 rfl⟩

theorem meets_login : ClientMeets writeAuthCreds ⟨w, s, out⟩ fun r f =>
    r = 0 ∧ f = ⟨w, s, out ++ w.client.login⟩ :=
  (ClientSide.speaks.meets_writeAuthCreds _).mono fun _ _ h => ⟨h.1, fed_of_spoke h.2 rfl⟩

theorem meets_ask (hready : w.dialog.Ready) : ClientMeets writeRequest ⟨w, s, out⟩ fun r f =>
    r = 0 ∧ ∃ w', f = ⟨w', s, out ++ w.dialog.request⟩ ∧ w'.failed = w.failed := by
  have hready' : (ClientSide.speaker.dialog ⟨w, s, out⟩).Ready := ⟨hready.type, hready.address⟩
  refine (ClientSide.speaks.meets_writeRequest hready').mono ?_
  rintro r f ⟨hr, client, -, hspoke⟩
  exact ⟨hr, _, fed_of_spoke hspoke rfl, rfl⟩

theorem meets_selected (m : Octet) :
    ClientMeets readAuthMethod ⟨w, [version5, m] ++ s, out⟩ fun r f =>
      r = m.toNat ∧ f = ⟨w, s, out⟩ := by
  refine (ClientSide.speaks.meets_readAuthMethod (by simp [ClientSide.speaker])).mono ?_
  rintro r f ⟨hr, hspoke⟩
  refine ⟨hr, (fed_of_spoke hspoke rfl).trans ?_⟩
  rw [List.append_nil]
  rfl

theorem meets_accepted (c : Octet) :
    ClientMeets readAuthCreds ⟨w, [authVersion1, c] ++ s, out⟩ fun r f =>
      r = (if c = HevSocks5ResRep.succ.octet then 0 else -1) ∧ f = ⟨w, s, out⟩ := by
  refine (ClientSide.speaks.meets_readAuthCreds (by simp [ClientSide.speaker])).mono ?_
  rintro r f ⟨hr, hspoke⟩
  refine ⟨hr.trans ?_, (fed_of_spoke hspoke rfl).trans ?_⟩
  · simp [ClientSide.speaker]
  · rw [List.append_nil]
    rfl

/-- The result is a success unless a call about a socket has failed. -/
def Sound (s out : List Octet) (r : Int) (f : Fed ClientSide Octet) : Prop :=
  f.input = s ∧ f.output = out ∧ (r < 0 → f.world.failed = true)

theorem failed_note {w : ClientSide} {res : Int} (h : res < 0) : (w.note res).failed = true := by
  simp [ClientSide.note, h]

/-- The failures of a client are noted. -/
theorem ClientSide.makesSockets : MakesSockets clientWiring.fed.inl (Assert.inl clientWiring.Can)
    (fun f res => { f with world := f.world.note res }) (fun _ => True) (fun _ => True) where
  socket f type := by
    refine ⟨client_can trivial, ?_⟩
    rintro fd _ ⟨w₁, rfl, rfl⟩
    exact ⟨trivial, rfl⟩
  option f fd opt := by
    refine ⟨client_can trivial, ?_⟩
    rintro res _ ⟨w₁, rfl, rfl⟩
    refine ⟨trivial, ?_⟩
    split
    · rfl
    · rfl
  addFd f fd := by
    refine ⟨client_can trivial, ?_⟩
    rintro res _ ⟨w₁, rfl, rfl⟩
    rfl
  modFd f fd := by
    refine ⟨client_can trivial, ?_⟩
    rintro res _ ⟨w₁, rfl, rfl⟩
    rfl
  close f fd res _ _ := by
    refine ⟨client_can trivial, ?_⟩
    rintro _ _ ⟨w₁, rfl, rfl⟩
    rfl
  note_of_nonneg f res h := by simp [ClientSide.note, h]

theorem meets_clientSocket :
    ClientMeets (hevSocks5Socket .dgram).inl ⟨w, s, out⟩ (Sound s out) := by
  rw [ClientMeets, meets_inl]
  refine (ClientSide.makesSockets.meets_hevSocks5Socket .dgram).mono ?_
  rintro fd f (⟨-, res, hres, -, rfl⟩ | ⟨hfd, -, rfl⟩)
  · exact ⟨rfl, rfl, fun _ => failed_note hres⟩
  · exact ⟨rfl, rfl, fun hneg => absurd hneg (Int.not_lt.2 hfd)⟩

/-- A socket is given up behind a call that has failed. -/
theorem meets_clientDrop (fd : Int) (hfailed : w.failed = true) : ClientMeets (do
      (drop fd).inl
      pure (-1)) ⟨w, s, out⟩ (Sound s out) := by
  simp only [drop, inl_bind, inl_op, bind_assoc]
  refine Wiring.meets_own rfl (client_can trivial) ?_
  rintro _ _ rfl
  refine Wiring.meets_own rfl (client_can trivial) ?_
  rintro _ _ rfl
  exact ⟨rfl, rfl, fun _ => hfailed⟩

theorem meets_clientRelay (saddr : SockAddrIn6) :
    ClientMeets (udpSocket saddr).inl ⟨w, s, out⟩ (Sound s out) := by
  simp only [udpSocket, inl_bind, inl_op, inl_ite, inl_pure]
  refine meets_clientSocket.bind ?_
  rintro fd ⟨w₁, _, _⟩ ⟨rfl, rfl, hfd⟩
  rw [meets_ite]
  split
  case isTrue h => exact ⟨rfl, rfl, fun _ => hfd h⟩
  case isFalse h =>
    refine Wiring.meets_own rfl (client_can trivial) ?_
    rintro res _ rfl
    rw [meets_ite]
    split
    case isTrue hres => exact meets_clientDrop fd (failed_note hres)
    case isFalse =>
      refine Wiring.meets_own rfl (client_can trivial) ?_
      rintro res _ rfl
      rw [meets_ite]
      split
      case isTrue hres => exact meets_clientDrop fd (failed_note hres)
      case isFalse => exact ⟨rfl, rfl, fun hneg => absurd hneg h⟩

theorem meets_relay {addr : Mem} (haddr : Numeric addr) :
    ClientMeets (setUpstreamAddr addr) ⟨w, s, out⟩ fun r f =>
      (r = 0 ∨ r = -1) ∧ Sound s out r f := by
  have hzero {w : ClientSide} : ClientMeets (pure 0) ⟨w, s, out⟩ fun r f =>
      (r = 0 ∨ r = -1) ∧ Sound s out r f := ⟨.inl rfl, rfl, rfl, fun h => absurd h (by decide)⟩
  unfold setUpstreamAddr udpSetUpstreamAddr
  simp only [monadLift_eq, inl_op]
  refine Wiring.meets_own rfl (client_can trivial) ?_
  rintro _ w₁ ⟨rfl, rfl⟩
  cases w₁.client.klass with
  | tcp addr' => exact hzero
  | udp fd' =>
    refine Wiring.meets_own rfl (client_can trivial) ?_
    rintro _ _ ⟨rfl, rfl⟩
    rw [meets_ite]
    split
    · exact hzero
    refine Wiring.meets_own rfl (client_can trivial) ?_
    rintro _ _ ⟨rfl, rfl⟩
    rw [hevSocks5AddrIntoSockaddr6_eq haddr, inl_pure, pure_bind]
    dsimp only
    rw [if_neg (by decide)]
    refine (meets_clientRelay _).bind ?_
    rintro fd ⟨w₁, _, _⟩ ⟨rfl, rfl, hfd⟩
    rw [meets_ite]
    split
    case isTrue h => exact ⟨.inr rfl, rfl, rfl, fun _ => hfd h⟩
    case isFalse =>
      refine Wiring.meets_own rfl (client_can trivial) ?_
      rintro _ _ ⟨rfl, rfl⟩
      refine Wiring.meets_own rfl (client_can trivial) ?_
      rintro _ _ rfl
      refine Wiring.meets_own rfl (client_can trivial) ?_
      rintro _ _ ⟨rfl, rfl⟩
      refine Wiring.meets_own rfl (client_can trivial) ?_
      rintro _ _ rfl
      exact hzero

/-- The octets of an address behind its type. -/
theorem SockAddrIn6.exists_octets (saddr : SockAddrIn6) : ∃ atype rest,
    saddr.octets = atype :: rest ∧ addrRest atype = some rest.length := by
  unfold SockAddrIn6.octets
  split
  · exact ⟨_, _, rfl, by simp [addrRest, addrTypeIpv4]⟩
  · exact ⟨_, _, rfl, by simp [addrRest, addrTypeIpv4, addrTypeIpv6]⟩

theorem HevSocks5ResRep.octet_eq_succ {rep : HevSocks5ResRep} :
    rep.octet = HevSocks5ResRep.succ.octet ↔ rep = .succ := by
  cases rep <;> decide

theorem meets_replied (rep : HevSocks5ResRep) (saddr : SockAddrIn6) :
    ClientMeets readResponse ⟨w, replyOctets rep saddr ++ s, out⟩ fun r f =>
      (rep ≠ .succ → r = -1) ∧ (rep = .succ → (r = 0 ∨ r = -1) ∧ Sound s out r f) := by
  obtain ⟨atype, rest, hoctets, hrest⟩ := saddr.exists_octets
  have hreply : replyOctets rep saddr ++ s = [version5, rep.octet, 0, atype] ++ (rest ++ s) := by
    simp [replyOctets, hoctets]
  rw [hreply]
  simp only [readResponse, monadLift_eq, inl_op]
  refine Wiring.meets_own rfl (client_can trivial) ?_
  rintro _ _ ⟨rfl, rfl⟩
  refine Wiring.meets_take rfl rfl ?_
  rw [if_neg (by simp), if_neg (by simp)]
  simp only [List.getD_cons_zero, List.getD_cons_succ]
  rw [meets_ite]
  split
  case isTrue hrep =>
    have hne : rep ≠ .succ := fun h => hrep (HevSocks5ResRep.octet_eq_succ.2 h)
    exact ⟨fun _ => rfl, fun h => absurd h hne⟩
  case isFalse hrep =>
    have hsucc := HevSocks5ResRep.octet_eq_succ.1 (not_not.1 hrep)
    rw [hrest]
    refine Wiring.meets_take rfl rfl ?_
    rw [if_neg (by simp)]
    refine (meets_relay (addrRest_atype hrest)).bind ?_
    rintro r ⟨w₁, _, _⟩ ⟨hr, rfl, rfl, hfailed⟩
    rw [meets_ite]
    split
    case isTrue h =>
      exact ⟨fun hne => absurd hsucc hne, fun _ => ⟨.inr rfl, rfl, rfl, fun _ => hfailed h⟩⟩
    case isFalse h =>
      refine ⟨fun hne => absurd hsucc hne, fun _ => ⟨.inl rfl, rfl, rfl, ?_⟩⟩
      exact fun h => absurd h (by decide)

end

end HevSocks5
