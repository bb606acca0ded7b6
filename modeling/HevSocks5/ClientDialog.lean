/-
  The client and the octets that come from the server.

  In a `Dialog` the server has sent a stream of octets, whatever the client
  says.  What the handshake makes of it is `Sight.answers`: the standard one and
  the pipelined one read the same (`modes_agree`).

  The client does not compare the method that the server selects with the one
  that it has offered.  So a handshake that succeeds has the method that was
  offered when the server does not grant everything with the other one
  (`offered_iff`).

  Each function that sends, or makes a socket, is specified for any environment
  that answers these calls (`Speaks`, `MakesSockets`); the dialogue is one of
  them.
-/
import HevSocks5.Client
import HevSocks5.Resolver

namespace HevSocks5

open Interact Sys HevSocks5Client

/-! ## The dialogue -/

/-- The client, the octets that the server has sent and the client has not read, the octets that
    the client has sent, and the endpoint of its relay socket. -/
structure Dialog where
  self : HevSocks5Obj
  client : HevSocks5ClientObj
  stream : List Octet
  sent : List Octet
  peer : Option SockAddrIn6

/-- A call that waits for `n` octets gets them, or it fails and some are lost. -/
def Dialog.Recv (w : Dialog) (n : Nat) (r : Received) (w' : Dialog) : Prop :=
  (r.res = n ∧ n ≤ w.stream.length ∧ r.data = w.stream.take n ∧
    w' = { w with stream := w.stream.drop n }) ∨
  (r.res ≠ n ∧ ∃ k, w' = { w with stream := w.stream.drop k })

/-- All of the octets are sent, or the call fails. -/
def Dialog.Send (w : Dialog) (data : List Octet) (b : Int) (w' : Dialog) : Prop :=
  (0 < b ∧ w' = { w with sent := w.sent ++ data }) ∨
  (b ≤ 0 ∧ ∃ k, w' = { w with sent := w.sent ++ data.take k })

/-- The calls of the client; all of them may fail. -/
def talk : Env (Both Op ClientOp) Dialog := fun w _ o b w' =>
  match o with
  | .inl .base => b = w.self ∧ w' = w
  | .inl (.setBase self) => w' = { w with self }
  | .inl (.recv _ n _) => w.Recv n b w'
  | .inl (.send _ data) => w.Send data b w'
  | .inl (.sendmsg _ data) => w.Send data b w'
  | .inl (.socketConnect _ saddr) => w' = if b < 0 then w else { w with peer := some saddr }
  | .inr .client => b = w.client ∧ w' = w
  | .inr (.setClient client) => w' = { w with client }
  | _ => w' = w

/-- **Nothing fails** but a call for more octets than there are; a new socket is `fd`. -/
def Succeeds (fd : Int) (w : Dialog) {β : Type} (o : Both Op ClientOp β) (b : β) (w' : Dialog) :
    Prop :=
  match o with
  | .inl (.recv _ n _) => b.res = n ∨ w.stream.length < n ∧ w'.stream = []
  | .inl (.send ..) => 0 < b
  | .inl (.sendmsg ..) => 0 < b
  | .inl (.socket _) => b = fd
  | .inl (.setsockopt ..) => 0 ≤ b
  | .inl (.binder ..) => 0 ≤ b
  | .inl (.socketConnect ..) => 0 ≤ b
  | .inr .malloc0 => b ≠ none
  | _ => True

def smooth (fd : Int) : Env (Both Op ClientOp) Dialog := fun w _ o b w' =>
  talk w o b w' ∧ Succeeds fd w o b w'

/-- The calls that have an answer. -/
def Talks : Assert (Both Op ClientOp) Dialog := fun _ _ o =>
  match o with
  | .inl .base | .inl (.setBase _) | .inl (.recv ..) | .inl (.send ..) | .inl (.sendmsg ..)
  | .inl (.socket _) | .inl (.setsockopt ..) | .inl (.addFd _) | .inl (.modFd _)
  | .inl (.binder ..) | .inl (.socketConnect ..) | .inl .tcpTimeout | .inl .udpTimeout => True
  | .inr .client | .inr (.setClient _) | .inr .malloc0 | .inr (.free _) => True
  | _ => False

/-! ## What is read -/

/-- What both handshakes leave: the octets that were not read, and the state of the client. -/
structure Sight where
  stream : List Octet
  self : HevSocks5Obj
  relay : Option Int
  peer : Option SockAddrIn6

/-- The relay socket. -/
def HevSocks5ClientClass.relay : HevSocks5ClientClass → Option Int
  | .tcp _ => none
  | .udp fd => some fd

def Dialog.view (w : Dialog) : Sight := ⟨w.stream, w.self, w.client.klass.relay, w.peer⟩

namespace Sight

/-- `n` octets are read, or what there is. -/
def skip (v : Sight) (n : Nat) : Sight := { v with stream := v.stream.drop n }

def readMethod (v : Sight) : Int × Sight :=
  (if 2 ≤ v.stream.length ∧ v.stream.getD 0 0 = version5 then (v.stream.getD 1 0).toNat else -1,
    v.skip 2)

def readCreds (v : Sight) : Int × Sight :=
  (if 2 ≤ v.stream.length ∧ v.stream.getD 0 0 = authVersion1 ∧
    v.stream.getD 1 0 = HevSocks5ResRep.succ.octet then 0 else -1, v.skip 2)

/-- The endpoint in a reply. -/
def endpoint (addr : Mem) : SockAddrIn6 :=
  if addr 0 = addrTypeIpv4 then hevSocks5Ipv4IntoSockaddr6 addr else hevSocks5Ipv6IntoSockaddr6 addr

/-- A relay socket is made and connected to the endpoint. -/
def associate (v : Sight) (fd : Int) (addr : Mem) : Sight :=
  if v.relay.isSome ∧ v.self.type = .udpInUdp then
    { v with self := { v.self with udpAssociated := true }, relay := some fd,
             peer := some (endpoint addr) }
  else v

def readReply (v : Sight) (fd : Int) : Int × Sight :=
  if 4 ≤ v.stream.length ∧ v.stream.getD 0 0 = version5 ∧
      v.stream.getD 1 0 = HevSocks5ResRep.succ.octet then
    match addrRest (v.stream.getD 3 0) with
    | none => (-1, v.skip 4)
    | some n =>
      if 4 + n ≤ v.stream.length then
        (0, (v.skip (4 + n)).associate fd
          (.ofList (v.stream.getD 3 0 :: (v.stream.drop 4).take n)))
      else (-1, v.skip (4 + n))
  else (-1, v.skip 4)

/-- **The result of a handshake.** -/
def answers (v : Sight) (fd : Int) : Int × Sight :=
  let v₁ := v.readMethod.2
  if v.readMethod.1 = authMethodUser.toNat then
    if v₁.readCreds.1 < 0 then (-1, v₁.readCreds.2) else v₁.readCreds.2.readReply fd
  else if v.readMethod.1 = authMethodNone.toNat then v₁.readReply fd
  else (-1, v₁)

end Sight

/-! ## What a client has to say -/

/-- The method that the client offers. -/
def HevSocks5ClientObj.offered (client : HevSocks5ClientObj) : Octet :=
  if client.user.isNone ∨ client.pass.isNone then authMethodNone else authMethodUser

/-- The login that a client sends. -/
def HevSocks5ClientObj.login (client : HevSocks5ClientObj) : List Octet :=
  match client.user, client.pass with
  | some user, some pass => authVersion1 :: (cred user ++ cred pass)
  | _, _ => []

/-- The address that a client asks for. -/
def Dialog.address (w : Dialog) : Mem :=
  match w.client.klass, w.self.addrFamily with
  | .tcp (some addr), _ => addr.mem
  | .udp _, .ipv4 => .ofList [addrTypeIpv4]
  | .udp _, .ipv6 => .ofList [addrTypeIpv6]
  | _, _ => Mem.undef

/-- A connected client that has an address to ask for. -/
structure Dialog.Ready (w : Dialog) : Prop where
  type : w.self.type ≠ .none
  address : 0 < hevSocks5AddrLen w.address

/-- The request that a client sends. -/
def Dialog.request (w : Dialog) : List Octet :=
  [version5, (reqCmd w.self.type).getD 0, 0] ++
    w.address.read (hevSocks5AddrLen w.address).toNat

/-! ## Messages, in any environment -/

/-- What the messages of a client depend on and change, of a state: the object and the client, the
    octets that come and those that were sent; and all the rest. -/
structure Speaker (W ρ : Type) where
  self : W → HevSocks5Obj
  client : W → HevSocks5ClientObj
  stream : W → List Octet
  sent : W → List Octet
  rest : W → ρ

namespace Speaker

variable {W ρ : Type} {V : Speaker W ρ} {E : Env (Both Op ClientOp) W}
  {P : Assert (Both Op ClientOp) W} {w : W}

/-- What a client has to say. -/
def dialog (V : Speaker W ρ) (w : W) : Dialog := ⟨V.self w, V.client w, V.stream w, V.sent w, none⟩

/-- The octets `read` have come and the octets `data` were sent; the client is another one. -/
structure Spoke (V : Speaker W ρ) (w : W) (read data : List Octet) (client : HevSocks5ClientObj)
    (w' : W) : Prop where
  self : V.self w' = V.self w
  client : V.client w' = client
  stream : V.stream w = read ++ V.stream w'
  sent : V.sent w' = V.sent w ++ data
  rest : V.rest w' = V.rest w

/-- **An environment of a client** of which no call fails that is about its messages. -/
structure Speaks (V : Speaker W ρ) (E : Env (Both Op ClientOp) W)
    (P : Assert (Both Op ClientOp) W) : Prop where
  base : ∀ w, P w (.inl .base) ∧ ∀ b w', E w (.inl .base) b w' → b = V.self w ∧ w' = w
  client : ∀ w, P w (.inr .client) ∧ ∀ b w', E w (.inr .client) b w' → b = V.client w ∧ w' = w
  setClient : ∀ w client, P w (.inr (.setClient client)) ∧
    ∀ b w', E w (.inr (.setClient client)) b w' → V.Spoke w [] [] client w'
  malloc0 : ∀ w, P w (.inr .malloc0) ∧ ∀ b w', E w (.inr .malloc0) b w' → b ≠ none ∧ w' = w
  free : ∀ w ptr, P w (.inr (.free ptr)) ∧ ∀ b w', E w (.inr (.free ptr)) b w' → w' = w
  send : ∀ w s data, data ≠ [] → P w (.inl (.send s data)) ∧
    ∀ b w', E w (.inl (.send s data)) b w' → 0 < b ∧ V.Spoke w [] data (V.client w) w'
  sendmsg : ∀ w s data, data ≠ [] → P w (.inl (.sendmsg s data)) ∧
    ∀ b w', E w (.inl (.sendmsg s data)) b w' → 0 < b ∧ V.Spoke w [] data (V.client w) w'
  recv : ∀ w s n, n ≤ (V.stream w).length → P w (.inl (.recv s n .waitall)) ∧
    ∀ b w', E w (.inl (.recv s n .waitall)) b w' →
      b = ⟨n, (V.stream w).take n⟩ ∧ V.Spoke w ((V.stream w).take n) [] (V.client w) w'

theorem Speaks.meets_writeAuthMethods (h : V.Speaks E P) (w : W) :
    Meets E P writeAuthMethods w fun r w' => r = 0 ∧
      V.Spoke w [] [version5, 1, (V.client w).offered] (V.client w) w' := by
  refine ⟨(h.client w).1, ?_⟩
  rintro client w₁ hclient
  obtain ⟨rfl, rfl⟩ := (h.client w).2 _ _ hclient
  refine ⟨(h.base w₁).1, ?_⟩
  rintro self w₂ hself
  obtain ⟨rfl, rfl⟩ := (h.base w₁).2 _ _ hself
  have hsend := h.send w₂ (V.self w₂).fd [version5, 1, (V.client w₂).offered] (by simp)
  refine ⟨hsend.1, ?_⟩
  rintro res w₃ he
  obtain ⟨hres, hspoke⟩ := hsend.2 _ _ he
  refine (meets_ite ..).2 ?_
  rw [if_neg (Int.not_le.2 hres)]
  exact ⟨rfl, hspoke⟩

theorem Spoke.refl (V : Speaker W ρ) (w : W) : V.Spoke w [] [] (V.client w) w :=
  ⟨rfl, rfl, rfl, by simp, rfl⟩

theorem Speaks.meets_writeAuthCreds (h : V.Speaks E P) (w : W) :
    Meets E P writeAuthCreds w fun r w' => r = 0 ∧
      V.Spoke w [] (V.client w).login (V.client w) w' := by
  refine ⟨(h.client w).1, ?_⟩
  rintro client w₁ hclient
  obtain ⟨rfl, rfl⟩ := (h.client w).2 _ _ hclient
  simp only [Prog.bind, HevSocks5ClientObj.login]
  cases (V.client w₁).user with
  | none => exact ⟨rfl, .refl V w₁⟩
  | some user =>
    cases (V.client w₁).pass with
    | none => exact ⟨rfl, .refl V w₁⟩
    | some pass =>
      refine ⟨(h.base w₁).1, ?_⟩
      rintro self w₂ hself
      obtain ⟨rfl, rfl⟩ := (h.base w₁).2 _ _ hself
      have hsend := h.sendmsg w₂ (V.self w₂).fd (authVersion1 :: (cred user ++ cred pass))
        (by simp)
      refine ⟨hsend.1, ?_⟩
      rintro res w₃ he
      obtain ⟨hres, hspoke⟩ := hsend.2 _ _ he
      refine (meets_ite ..).2 ?_
      rw [if_neg (Int.not_le.2 hres)]
      exact ⟨rfl, hspoke⟩

theorem Speaks.meets_getUpstreamAddr (h : V.Speaks E P) (hready : (V.dialog w).Ready) :
    Meets E P getUpstreamAddr w fun r w' => ∃ block client, r = some block ∧
      block.mem = (V.dialog w).address ∧ client.klass.relay = (V.client w).klass.relay ∧
        V.Spoke w [] [] client w' := by
  have haddr := hready.address
  refine ⟨(h.client w).1, ?_⟩
  rintro client w₁ hclient
  obtain ⟨rfl, rfl⟩ := (h.client w).2 _ _ hclient
  simp only [Prog.bind]
  unfold Dialog.address at *
  simp only [dialog] at haddr ⊢
  cases hk : (V.client w₁).klass with
  | tcp addr =>
    have hset := h.setClient w₁ { V.client w₁ with klass := .tcp none }
    refine ⟨hset.1, ?_⟩
    rintro _ w₂ he
    cases addr with
    | none =>
      have h0 : hevSocks5AddrLen Mem.undef = -1 := by decide
      rw [hk] at haddr
      exact absurd (h0 ▸ haddr) (by decide)
    | some block => exact ⟨block, _, rfl, rfl, rfl, hset.2 _ _ he⟩
  | udp fd' =>
    have hnew (w : W) (atype : Octet) : Meets E P (newAddr atype) w
        fun r w' => ∃ block, r = some block ∧ block.mem = .ofList [atype] ∧ w' = w := by
      refine ⟨(h.malloc0 w).1, ?_⟩
      rintro ptr w₂ he
      obtain ⟨hptr, rfl⟩ := (h.malloc0 w).2 _ _ he
      cases ptr with
      | none => exact absurd rfl hptr
      | some ptr => exact ⟨_, rfl, rfl, rfl⟩
    refine ⟨(h.base w₁).1, ?_⟩
    rintro self w₂ hself
    obtain ⟨rfl, rfl⟩ := (h.base w₁).2 _ _ hself
    simp only [Prog.inl, Prog.bind]
    cases hf : (V.self w₂).addrFamily with
    | unspec =>
      have h0 : hevSocks5AddrLen Mem.undef = -1 := by decide
      rw [hk, hf] at haddr
      exact absurd (h0 ▸ haddr) (by decide)
    | ipv4 =>
      refine (hnew _ _).mono ?_
      rintro _ _ ⟨block, rfl, hm, rfl⟩
      exact ⟨block, _, rfl, hm, by rw [hk], .refl V _⟩
    | ipv6 =>
      refine (hnew _ _).mono ?_
      rintro _ _ ⟨block, rfl, hm, rfl⟩
      exact ⟨block, _, rfl, hm, by rw [hk], .refl V _⟩

theorem Speaks.meets_writeRequest (h : V.Speaks E P) (hready : (V.dialog w).Ready) :
    Meets E P writeRequest w fun r w' => r = 0 ∧ ∃ client,
      client.klass.relay = (V.client w).klass.relay ∧
        V.Spoke w [] (V.dialog w).request client w' := by
  refine ⟨(h.base w).1, ?_⟩
  rintro self w₁ hself
  obtain ⟨rfl, rfl⟩ := (h.base w).2 _ _ hself
  simp only [Prog.inl, Prog.bind]
  have htype := hready.type
  have hcmd : ∃ cmd, reqCmd (V.self w₁).type = some cmd := by
    cases h : (V.self w₁).type with
    | none => exact absurd h htype
    | _ => exact ⟨_, rfl⟩
  obtain ⟨cmd, hcmd⟩ := hcmd
  rw [hcmd]
  refine (h.meets_getUpstreamAddr hready).bind ?_
  rintro _ w₂ ⟨block, client, rfl, hmem, hrelay, hspoke⟩
  have hlen := hready.address
  dsimp only
  rw [hmem, if_neg (by omega)]
  refine ⟨(h.base w₂).1, ?_⟩
  rintro self w₃ hself
  obtain ⟨-, rfl⟩ := (h.base w₂).2 _ _ hself
  have hsend := h.sendmsg w₃ self.fd (V.dialog w₁).request (by simp [Dialog.request])
  rw [Dialog.request, show (V.dialog w₁).self = V.self w₁ from rfl, hcmd] at hsend
  refine ⟨hsend.1, ?_⟩
  rintro res w₄ he
  obtain ⟨hres, hsent⟩ := hsend.2 _ _ he
  refine (meets_ite ..).2 ?_
  rw [if_neg (Int.not_le.2 hres)]
  refine ⟨(h.free w₄ block.ptr).1, ?_⟩
  rintro _ w₅ he
  obtain rfl := (h.free w₄ block.ptr).2 _ _ he
  refine ⟨rfl, client, hrelay, hsent.self.trans hspoke.self, hsent.client.trans hspoke.client, ?_,
    ?_, hsent.rest.trans hspoke.rest⟩
  · exact hspoke.stream.trans hsent.stream
  · rw [hsent.sent, hspoke.sent, List.append_nil, Dialog.request,
      show (V.dialog w₁).self = V.self w₁ from rfl, hcmd]

theorem Speaks.meets_readAuthMethod (h : V.Speaks E P) (hlen : 2 ≤ (V.stream w).length) :
    Meets E P readAuthMethod w fun r w' =>
      r = (if (V.stream w).getD 0 0 = version5 then ((V.stream w).getD 1 0).toNat else -1 : Int) ∧
        V.Spoke w ((V.stream w).take 2) [] (V.client w) w' := by
  obtain ⟨a, b, stream, hstream⟩ := exists_two hlen
  refine ⟨(h.base w).1, ?_⟩
  rintro self w₁ hself
  obtain ⟨rfl, rfl⟩ := (h.base w).2 _ _ hself
  refine ⟨(h.recv w₁ _ 2 hlen).1, ?_⟩
  rintro _ w₂ he
  obtain ⟨rfl, hspoke⟩ := (h.recv w₁ _ 2 hlen).2 _ _ he
  refine (meets_ite ..).2 ?_
  simp only [hstream, List.take_succ_cons, List.getD_cons_zero, List.getD_cons_succ] at hspoke ⊢
  split
  case isTrue => exact ⟨rfl, hspoke⟩
  case isFalse ha => exact ⟨(if_pos (not_not.1 ha)).symm, hspoke⟩

theorem Speaks.meets_readAuthCreds (h : V.Speaks E P) (hlen : 2 ≤ (V.stream w).length) :
    Meets E P readAuthCreds w fun r w' =>
      r = (if (V.stream w).getD 0 0 = authVersion1 ∧
        (V.stream w).getD 1 0 = HevSocks5ResRep.succ.octet then 0 else -1) ∧
        V.Spoke w ((V.stream w).take 2) [] (V.client w) w' := by
  obtain ⟨a, b, stream, hstream⟩ := exists_two hlen
  refine ⟨(h.base w).1, ?_⟩
  rintro self w₁ hself
  obtain ⟨rfl, rfl⟩ := (h.base w).2 _ _ hself
  refine ⟨(h.recv w₁ _ 2 hlen).1, ?_⟩
  rintro _ w₂ he
  obtain ⟨rfl, hspoke⟩ := (h.recv w₁ _ 2 hlen).2 _ _ he
  refine (meets_ite ..).2 ?_
  simp only [hstream, List.take_succ_cons, List.getD_cons_zero, List.getD_cons_succ] at hspoke ⊢
  split
  case isTrue ha => exact ⟨(if_neg fun hab => ha hab.1).symm, hspoke⟩
  case isFalse ha =>
    refine (meets_ite ..).2 ?_
    split
    case isTrue hb => exact ⟨(if_neg fun hab => hb hab.2).symm, hspoke⟩
    case isFalse hb => exact ⟨(if_pos ⟨not_not.1 ha, not_not.1 hb⟩).symm, hspoke⟩

end Speaker

/-! ## Sockets, in any environment -/

/-- **An environment that makes sockets.**  What is kept of a result is `note`; the results of the
    calls for a socket are in `A`, and those of the calls for its options in `B`. -/
structure MakesSockets {W : Type} (E : Env Op W) (P : Assert Op W) (note : W → Int → W)
    (A B : Int → Prop) : Prop where
  socket : ∀ w type, P w (.socket type) ∧ ∀ b w', E w (.socket type) b w' → A b ∧ w' = note w b
  option : ∀ w fd opt, P w (.setsockopt fd opt) ∧
    ∀ b w', E w (.setsockopt fd opt) b w' → B b ∧ w' = if opt = .rcvbuf then w else note w b
  addFd : ∀ w fd, P w (.addFd fd) ∧ ∀ b w', E w (.addFd fd) b w' → w' = w
  modFd : ∀ w fd, P w (.modFd fd) ∧ ∀ b w', E w (.modFd fd) b w' → w' = w
  /-- a socket is closed again when an option fails -/
  close : ∀ w fd res, B res → res < 0 → P w (.close fd) ∧ ∀ b w', E w (.close fd) b w' → w' = w
  note_of_nonneg : ∀ w res, ¬ res < 0 → note w res = w

namespace MakesSockets

variable {W : Type} {E : Env Op W} {P : Assert Op W} {note : W → Int → W} {A B : Int → Prop}
  {w : W}

theorem meets_addOrModFd (h : MakesSockets E P note A B) (fd : Int) :
    Meets E P (addOrModFd fd) w fun _ w' => w' = w := by
  refine ⟨(h.addFd w fd).1, ?_⟩
  intro res w₁ he
  obtain rfl := (h.addFd w fd).2 _ _ he
  refine (meets_ite ..).2 ?_
  split
  · exact ⟨(h.modFd w₁ fd).1, fun res w₂ he => (h.modFd w₁ fd).2 _ _ he⟩
  · rfl

theorem meets_hevSocks5Socket (h : MakesSockets E P note A B) (type : SockType) :
    Meets E P (hevSocks5Socket type) w fun fd w' =>
      (fd < 0 ∧ ∃ res, res < 0 ∧ (A res ∨ B res) ∧ w' = note w res) ∨
        0 ≤ fd ∧ A fd ∧ w' = w := by
  refine ⟨(h.socket w type).1, ?_⟩
  intro fd w₁ he
  obtain ⟨hA, rfl⟩ := (h.socket w type).2 _ _ he
  refine (meets_ite ..).2 ?_
  split
  case isTrue hfd => exact .inl ⟨by decide, fd, hfd, .inl hA, rfl⟩
  case isFalse hfd =>
    rw [h.note_of_nonneg w fd hfd]
    refine ⟨(h.option w fd .v6only).1, ?_⟩
    intro res w₂ he
    obtain ⟨hB, hw₂⟩ := (h.option w fd .v6only).2 _ _ he
    rw [if_neg (by decide)] at hw₂
    subst hw₂
    refine (meets_ite ..).2 ?_
    split
    case isTrue hres =>
      have hclose := h.close (note w res) fd res hB hres
      refine ⟨hclose.1, ?_⟩
      intro _ w₃ he
      obtain rfl := hclose.2 _ _ he
      exact .inl ⟨by decide, res, hres, .inr hB, rfl⟩
    case isFalse hres =>
      rw [h.note_of_nonneg w res hres]
      refine (h.meets_addOrModFd fd).bind ?_
      rintro _ _ rfl
      refine (meets_ite ..).2 ?_
      split
      · refine ⟨(h.option _ fd .rcvbuf).1, ?_⟩
        intro res' w₄ he
        obtain ⟨-, rfl⟩ := (h.option _ fd .rcvbuf).2 _ _ he
        exact .inr ⟨Int.not_lt.1 hfd, hA, rfl⟩
      · exact .inr ⟨Int.not_lt.1 hfd, hA, rfl⟩

end MakesSockets

/-! ## When nothing fails -/

/-- A dialogue; the rest of it is the endpoint of the relay socket. -/
def Dialog.speaker : Speaker Dialog (Option SockAddrIn6) := ⟨self, client, stream, sent, peer⟩

variable {fd : Int} {w w' : Dialog}

theorem smooth_recv {s : Int} {n : Nat} {flags : MsgFlags} {r : Received}
    (h : smooth fd w (.inl (.recv s n flags)) r w') :
    w' = { w with stream := w.stream.drop n } ∧ (r.res = n ↔ n ≤ w.stream.length) ∧
      (r.res = n → r.data = w.stream.take n) := by
  obtain ⟨⟨hres, hlen, hdata, rfl⟩ | ⟨hres, k, rfl⟩, hs⟩ := h
  · exact ⟨rfl, iff_of_true hres hlen, fun _ => hdata⟩
  · obtain ⟨hlen, hnil⟩ : w.stream.length < n ∧ w.stream.drop k = [] := hs.resolve_left hres
    refine ⟨?_, iff_of_false hres (Nat.not_le.2 hlen), fun h => absurd h hres⟩
    rw [hnil, List.drop_eq_nil_of_le (Nat.le_of_lt hlen)]

theorem smooth_send {s : Int} {data : List Octet} {b : Int}
    (h : smooth fd w (.inl (.send s data)) b w') :
    0 < b ∧ w' = { w with sent := w.sent ++ data } := by
  obtain ⟨⟨hb, hw⟩ | ⟨hb, -⟩, hs⟩ := h
  · exact ⟨hb, hw⟩
  · exact absurd hs (Int.not_lt.2 hb)

theorem smooth_sendmsg {s : Int} {data : List Octet} {b : Int}
    (h : smooth fd w (.inl (.sendmsg s data)) b w') :
    0 < b ∧ w' = { w with sent := w.sent ++ data } := by
  obtain ⟨⟨hb, hw⟩ | ⟨hb, -⟩, hs⟩ := h
  · exact ⟨hb, hw⟩
  · exact absurd hs (Int.not_lt.2 hb)

theorem speaks_smooth (fd : Int) : Dialog.speaker.Speaks (smooth fd) Talks where
  base w := ⟨trivial, fun b w' he => he.1⟩
  client w := ⟨trivial, fun b w' he => he.1⟩
  setClient w client := by
    refine ⟨trivial, ?_⟩
    rintro _ w' ⟨rfl, -⟩
    exact ⟨rfl, rfl, rfl, by simp [Dialog.speaker], rfl⟩
  malloc0 w := ⟨trivial, fun b w' he => ⟨he.2, he.1⟩⟩
  free w ptr := ⟨trivial, fun b w' he => he.1⟩
  send w s data _ := by
    refine ⟨trivial, fun b w' he => ?_⟩
    obtain ⟨hb, rfl⟩ := smooth_send he
    exact ⟨hb, rfl, rfl, rfl, rfl, rfl⟩
  sendmsg w s data _ := by
    refine ⟨trivial, fun b w' he => ?_⟩
    obtain ⟨hb, rfl⟩ := smooth_sendmsg he
    exact ⟨hb, rfl, rfl, rfl, rfl, rfl⟩
  recv w s n hn := by
    refine ⟨trivial, fun r w' he => ?_⟩
    obtain ⟨rfl, hres, hdata⟩ := smooth_recv he
    obtain ⟨res, data⟩ := r
    obtain rfl : res = n := hres.2 hn
    obtain rfl : data = w.stream.take n := hdata rfl
    refine ⟨rfl, rfl, rfl, ?_, (List.append_nil _).symm, rfl⟩
    exact (List.take_append_drop n w.stream).symm

/-- A call for more octets than there are fails, and takes them. -/
theorem smooth_recv_short {s : Int} {n : Nat} {flags : MsgFlags} {r : Received}
    (hn : ¬ n ≤ w.stream.length) (h : smooth fd w (.inl (.recv s n flags)) r w') :
    r.res ≠ n ∧ w' = { w with stream := w.stream.drop n } := by
  obtain ⟨hw, hres, -⟩ := smooth_recv h
  exact ⟨fun h => hn (hres.1 h), hw⟩

/-! ## The functions that read -/

/-- Octets were read, and nothing else has happened. -/
def Skipped (w : Dialog) (r : Int × Sight) (res : Int) (w' : Dialog) : Prop :=
  (res, w'.view) = r ∧ w'.self = w.self ∧ w'.client = w.client ∧ w'.sent = w.sent

/-- The reply was read; nothing was sent. -/
def Reading (w : Dialog) (r : Int × Sight) (res : Int) (w' : Dialog) : Prop :=
  (res, w'.view) = r ∧ w'.sent = w.sent

/-- What was read, as it is seen. -/
theorem Speaker.Spoke.skipped {n : Nat} {r res : Int}
    (h : Dialog.speaker.Spoke w (w.stream.take n) [] w.client w') (hr : res = r) :
    Skipped w (r, w.view.skip n) res w' := by
  obtain ⟨hself, hclient, hstream, hsent, hpeer⟩ := h
  have hdrop : w'.stream = w.stream.drop n :=
    List.append_cancel_left (hstream.symm.trans (List.take_append_drop n w.stream).symm)
  refine ⟨?_, hself, hclient, hsent.trans (List.append_nil _)⟩
  simp only [Dialog.speaker] at hself hclient hpeer
  simp only [Dialog.view, Sight.skip, hr, hself, hclient, hdrop, hpeer]

theorem meets_clientReadAuthMethod :
    Meets (smooth fd) Talks readAuthMethod w (Skipped w w.view.readMethod) := by
  by_cases hlen : 2 ≤ w.stream.length
  · refine ((speaks_smooth fd).meets_readAuthMethod hlen).mono ?_
    rintro r w' ⟨hr, hspoke⟩
    refine hspoke.skipped (hr.trans ?_)
    simp only [Dialog.view, hlen, true_and]
    rfl
  · refine ⟨trivial, ?_⟩
    rintro self w₁ ⟨⟨-, rfl⟩, -⟩
    refine ⟨trivial, ?_⟩
    rintro r w₂ hr
    obtain ⟨hres, rfl⟩ := smooth_recv_short hlen hr
    refine (meets_ite ..).2 ?_
    rw [if_pos (show r.res ≠ 2 from hres)]
    exact ⟨by simp [Sight.readMethod, Dialog.view, Sight.skip, hlen], rfl, rfl, rfl⟩

theorem meets_readAuthCreds :
    Meets (smooth fd) Talks readAuthCreds w (Skipped w w.view.readCreds) := by
  by_cases hlen : 2 ≤ w.stream.length
  · refine ((speaks_smooth fd).meets_readAuthCreds hlen).mono ?_
    rintro r w' ⟨hr, hspoke⟩
    refine hspoke.skipped (hr.trans ?_)
    simp only [Dialog.view, hlen, true_and]
    rfl
  · refine ⟨trivial, ?_⟩
    rintro self w₁ ⟨⟨-, rfl⟩, -⟩
    refine ⟨trivial, ?_⟩
    rintro r w₂ hr
    obtain ⟨hres, rfl⟩ := smooth_recv_short hlen hr
    refine (meets_ite ..).2 ?_
    rw [if_pos (show r.res ≠ 2 from hres)]
    exact ⟨by simp [Sight.readCreds, Dialog.view, Sight.skip, hlen], rfl, rfl, rfl⟩

theorem makesSockets_smooth : MakesSockets (smooth fd).inl (Assert.inl Talks)
    (fun w _ => w) (· = fd) (0 ≤ ·) where
  socket w type := ⟨trivial, fun b w' he => ⟨he.2, he.1⟩⟩
  option w s opt := by
    refine ⟨trivial, ?_⟩
    rintro res w' ⟨rfl, hres⟩
    exact ⟨hres, (ite_self _).symm⟩
  addFd w s := ⟨trivial, fun b w' he => he.1⟩
  modFd w s := ⟨trivial, fun b w' he => he.1⟩
  close w s res hres hneg := absurd hneg (Int.not_lt.2 hres)
  note_of_nonneg w res _ := rfl

/-- A new socket, connected to an endpoint. -/
theorem meets_udpSocket (hfd : 0 ≤ fd) (saddr : SockAddrIn6) :
    Meets (smooth fd).inl (Assert.inl Talks) (udpSocket saddr) w fun r w' =>
      r = fd ∧ w' = { w with peer := some saddr } := by
  have hneg : ¬ fd < 0 := Int.not_lt.2 hfd
  have hsocket : Meets (smooth fd).inl (Assert.inl Talks) (hevSocks5Socket .dgram) w
      fun r w' => r = fd ∧ w' = w := by
    refine (makesSockets_smooth.meets_hevSocks5Socket .dgram).mono ?_
    rintro r w' (⟨-, res, hres, rfl | hpos, -⟩ | ⟨-, rfl, rfl⟩)
    · exact absurd hres hneg
    · exact absurd hres (Int.not_lt.2 hpos)
    · exact ⟨rfl, rfl⟩
  refine hsocket.bind ?_
  rintro _ w₁ ⟨rfl, rfl⟩
  rw [if_neg hneg]
  refine ⟨trivial, ?_⟩
  rintro res w₂ ⟨rfl, hres⟩
  refine (meets_ite ..).2 ?_
  rw [if_neg (Int.not_lt.2 hres)]
  refine ⟨trivial, ?_⟩
  rintro res w₃ ⟨hw₃, hres⟩
  refine (meets_ite ..).2 ?_
  rw [if_neg (Int.not_lt.2 hres)]
  exact ⟨rfl, hw₃.trans (if_neg (Int.not_lt.2 hres))⟩

/-- The relay socket of a client. -/
theorem meets_setUpstreamAddr (hfd : 0 ≤ fd) {addr : Mem}
    (haddr : addr 0 = addrTypeIpv4 ∨ addr 0 = addrTypeIpv6) :
    Meets (smooth fd) Talks (setUpstreamAddr addr) w
      (Reading w (0, w.view.associate fd addr)) := by
  refine ⟨trivial, ?_⟩
  rintro self w₁ ⟨⟨rfl, rfl⟩, -⟩
  simp only [Prog.bind]
  cases hk : w₁.client.klass with
  | tcp addr' =>
    refine ⟨?_, rfl⟩
    simp [Sight.associate, Dialog.view, HevSocks5ClientClass.relay, hk]
  | udp fd' =>
    refine ⟨trivial, ?_⟩
    rintro self w₂ ⟨⟨rfl, rfl⟩, -⟩
    refine (meets_ite ..).2 ?_
    split
    case isTrue ht =>
      refine ⟨?_, rfl⟩
      simp [Sight.associate, Dialog.view, HevSocks5ClientClass.relay, hk, ht]
    case isFalse ht =>
      refine ⟨trivial, ?_⟩
      rintro self w₃ ⟨⟨rfl, rfl⟩, -⟩
      have hinto : Meets (smooth fd).inl (Assert.inl Talks)
          (hevSocks5AddrIntoSockaddr6 addr .zero w₃.self.addrFamily) w₃
          fun r w' => w' = w₃ ∧ r.1 = 0 ∧ r.2.1 = Sight.endpoint addr := by
        unfold hevSocks5AddrIntoSockaddr6 Sight.endpoint
        by_cases h4 : addr 0 = addrTypeIpv4
        · rw [if_pos h4, if_pos h4]
          exact ⟨rfl, rfl, rfl⟩
        · rw [if_neg h4, if_neg h4, if_pos (haddr.resolve_left h4)]
          exact ⟨rfl, rfl, rfl⟩
      refine ((meets_inl ..).2 hinto).bind ?_
      rintro ⟨res, saddr, family⟩ w₄ ⟨rfl, rfl, rfl⟩
      dsimp only
      rw [if_neg (by decide)]
      refine ((meets_inl ..).2 (meets_udpSocket hfd _)).bind ?_
      rintro _ w₅ ⟨rfl, rfl⟩
      rw [if_neg (Int.not_lt.2 hfd)]
      refine ⟨trivial, ?_⟩
      rintro self w₆ ⟨⟨rfl, rfl⟩, -⟩
      refine ⟨trivial, ?_⟩
      rintro _ w₇ ⟨rfl, -⟩
      refine ⟨trivial, ?_⟩
      rintro client w₈ ⟨⟨rfl, rfl⟩, -⟩
      refine ⟨trivial, ?_⟩
      rintro _ w₉ ⟨rfl, -⟩
      refine ⟨?_, rfl⟩
      simp [Sight.associate, Dialog.view, HevSocks5ClientClass.relay, hk, not_not.1 ht]

theorem addrRest_atype {atype : Octet} {n : Nat} (h : addrRest atype = some n) :
    atype = addrTypeIpv4 ∨ atype = addrTypeIpv6 := by
  unfold addrRest at h
  split_ifs at h with h4 h6
  · exact .inl h4
  · exact .inr h6

theorem meets_readResponse (hfd : 0 ≤ fd) :
    Meets (smooth fd) Talks readResponse w (Reading w (w.view.readReply fd)) := by
  refine ⟨trivial, ?_⟩
  rintro self w₁ ⟨⟨-, rfl⟩, -⟩
  refine ⟨trivial, ?_⟩
  rintro r w₂ hr
  obtain ⟨rfl, hres, hdata⟩ := smooth_recv hr
  refine (meets_ite ..).2 ?_
  split
  case isTrue h4 =>
    have hlen : ¬ 4 ≤ w₁.stream.length := fun h => h4 (hres.2 h)
    exact ⟨by simp [Sight.readReply, Dialog.view, Sight.skip, hlen], rfl⟩
  case isFalse h4 =>
    obtain ⟨a, b, c, d, stream, hs⟩ := exists_four (hres.1 (not_not.1 h4))
    rw [hdata (not_not.1 h4)]
    refine (meets_ite ..).2 ?_
    simp only [hs, List.take_succ_cons, List.getD_cons_zero, List.getD_cons_succ]
    split
    case isTrue ha =>
      exact ⟨by simp [Sight.readReply, Dialog.view, Sight.skip, hs, ha], rfl⟩
    case isFalse ha =>
      refine (meets_ite ..).2 ?_
      split
      case isTrue hb =>
        exact ⟨by simp [Sight.readReply, Dialog.view, Sight.skip, hs, hb], rfl⟩
      case isFalse hb =>
        cases hd : addrRest d with
        | none =>
          refine ⟨?_, rfl⟩
          simp [Sight.readReply, Dialog.view, Sight.skip, hs, hd, not_not.1 ha, not_not.1 hb]
        | some n =>
          refine ⟨trivial, ?_⟩
          rintro r' w₃ hr'
          obtain ⟨rfl, hres', hdata'⟩ := smooth_recv hr'
          simp only [List.drop_succ_cons, List.drop_zero] at hres' hdata' ⊢
          refine (meets_ite ..).2 ?_
          split
          case isTrue hn =>
            have hlen : ¬ n ≤ stream.length := fun h => hn (hres'.2 h)
            refine ⟨?_, rfl⟩
            simp [Sight.readReply, Dialog.view, Sight.skip, hs, hd, not_not.1 ha, not_not.1 hb,
              Nat.add_comm 4 n]
            omega
          case isFalse hn =>
            have hlen := hres'.1 (not_not.1 hn)
            rw [hdata' (not_not.1 hn)]
            refine (meets_setUpstreamAddr hfd (addrRest_atype hd)).bind ?_
            rintro res w₄ ⟨hview, hsent⟩
            obtain ⟨rfl, hview⟩ := Prod.mk.inj hview
            rw [if_neg (by decide)]
            refine ⟨?_, hsent⟩
            rw [hview]
            simp [Sight.readReply, Dialog.view, Sight.skip, hs, hd, not_not.1 ha, not_not.1 hb,
              hlen, Nat.add_comm 4 n]

/-! ## A connected client -/

/-- Calls that leave the base as it is. -/
def Baseless {β : Type} : Op β → Prop
  | .setBase _ => False
  | _ => True

theorem Baseless.post {α : Type} {x : SysM α} (hx : x.Only Baseless) :
    Post talk.inl x w fun _ w' => w'.self = w.self ∧ w'.client = w.client := by
  refine hx.always (I := fun w' : Dialog => w'.self = w.self ∧ w'.client = w.client) ?_ ⟨rfl, rfl⟩
  rintro w₁ w₂ β o b ho hw₁ he
  refine ⟨trivial, ?_⟩
  cases o
  case setBase => exact ho.elim
  case base => exact he.2 ▸ hw₁
  case recv =>
    obtain ⟨-, -, -, rfl⟩ | ⟨-, k, rfl⟩ := he
    · exact hw₁
    · exact hw₁
  case send =>
    obtain ⟨-, rfl⟩ | ⟨-, k, rfl⟩ := he
    · exact hw₁
    · exact hw₁
  case sendmsg =>
    obtain ⟨-, rfl⟩ | ⟨-, k, rfl⟩ := he
    · exact hw₁
    · exact hw₁
  case socketConnect =>
    obtain rfl := he
    split
    · exact hw₁
    · exact hw₁
  all_goals exact he ▸ hw₁

theorem baseless_hevSocks5Socket (type : SockType) : (hevSocks5Socket type).Only Baseless := by
  refine ⟨trivial, fun s => .ite trivial ⟨trivial, fun res => .ite ⟨trivial, fun _ => trivial⟩ ?_⟩⟩
  refine .bind ⟨trivial, fun res => .ite ⟨trivial, fun _ => trivial⟩ trivial⟩ fun _ => ?_
  exact .ite ⟨trivial, fun _ => trivial⟩ trivial

/-- A lookup that succeeds says what family it has found. -/
theorem post_family (name : List Octet) (port : UInt16) (saddr : SockAddrIn6)
    (family : HevSocks5AddrFamily) :
    Post talk.inl (hevSocks5NameIntoSockaddr6 name port saddr family) w fun r _ =>
      0 ≤ r.1 → r.2.2 ≠ .unspec := by
  rintro a₄ w₁ -
  refine ⟨trivial, ?_⟩
  cases a₄ with
  | some a₄ => exact fun _ => nofun
  | none =>
    rintro a₆ w₂ -
    refine ⟨trivial, ?_⟩
    cases a₆ with
    | some a₆ => exact fun _ => nofun
    | none =>
      rintro info w₃ -
      refine ⟨trivial, ?_⟩
      rcases info with _ | _ | _ | _
      · exact fun h => absurd h (by decide : ¬ (0 : Int) ≤ -1)
      · exact fun _ => nofun
      · exact fun _ => nofun
      · exact fun h => absurd h (by decide : ¬ (0 : Int) ≤ -1)

/-- **A client that is connected has a family**; its type and its address are as they were. -/
theorem post_connect_talk (addr : List Octet) (port : UInt16) :
    Post talk.inl (connect addr port) w fun r w' => 0 ≤ r →
      w'.self.addrFamily ≠ .unspec ∧ w'.self.type = w.self.type ∧ w'.client = w.client := by
  have hfail {w' : Dialog} {Q : Dialog → Prop} : Post talk.inl (pure (-1) : SysM Int) w'
      fun r w' => 0 ≤ r → Q w' := fun h => absurd h (by decide)
  have hdrop (fd : Int) {w' : Dialog} {Q : Dialog → Prop} : Post talk.inl (do
      drop fd
      return -1 : SysM Int) w' fun r w' => 0 ≤ r → Q w' :=
    fun _ _ _ => ⟨trivial, fun _ _ _ => ⟨trivial, hfail⟩⟩
  have htimeout (timeout : Int) : Post talk.inl (hevSocks5SetTimeout timeout) w fun _ w' =>
      w'.self.type = w.self.type ∧ w'.client = w.client := by
    rintro self w₁ ⟨rfl, rfl⟩
    refine ⟨trivial, (always_ite ..).2 ?_⟩
    split
    · rintro _ w₂ rfl
      exact ⟨trivial, rfl, rfl⟩
    · exact ⟨rfl, rfl⟩
  rintro timeout w₁ rfl
  refine ⟨trivial, (htimeout timeout).bind ?_⟩
  rintro _ w₂ ⟨htype, hclient⟩
  rintro self w₃ ⟨rfl, rfl⟩
  refine ⟨trivial, ?_⟩
  have hlookup {β : Type} {o : Op β} (h : o.Resolves) : Baseless o := by
    cases o <;> trivial
  have hname := (post_family addr port .zero w₃.self.addrFamily (w := w₃)).and
    (Baseless.post (w := w₃) ((only_hevSocks5NameIntoSockaddr6 ..).mono hlookup))
  refine hname.bind ?_
  rintro ⟨res, saddr, family⟩ w₄ ⟨hfamily, hself₄, hclient₄⟩
  refine (always_ite ..).2 ?_
  split
  case isTrue => exact hfail
  case isFalse hres =>
    refine (Baseless.post (baseless_hevSocks5Socket .stream)).bind ?_
    rintro fd w₅ ⟨hself₅, hclient₅⟩
    refine (always_ite ..).2 ?_
    split
    · exact hfail
    rintro bound w₆ rfl
    refine ⟨trivial, (always_ite ..).2 ?_⟩
    split
    · exact hdrop fd
    rintro connected w₇ hw₇
    obtain ⟨hself₇, hclient₇⟩ : w₇.self = w₆.self ∧ w₇.client = w₆.client := by
      obtain rfl := hw₇
      split
      · exact ⟨rfl, rfl⟩
      · exact ⟨rfl, rfl⟩
    refine ⟨trivial, (always_ite ..).2 ?_⟩
    split
    · exact hdrop fd
    rintro self w₈ ⟨rfl, rfl⟩
    refine ⟨trivial, ?_⟩
    rintro _ w₉ rfl
    refine ⟨trivial, ?_⟩
    rintro self w₁₀ ⟨rfl, rfl⟩
    refine ⟨trivial, ?_⟩
    rintro _ w₁₁ rfl
    refine ⟨trivial, fun _ => ⟨hfamily (Int.not_lt.1 hres), ?_, ?_⟩⟩
    · show w₈.self.type = _
      rw [hself₇, hself₅, hself₄, htype]
    · exact hclient₇.trans (hclient₅.trans (hclient₄.trans hclient))

/-- Then it is ready: a client for TCP has the address of its target, -/
theorem Dialog.ready_of_tcp {addr : AddrBlock} (htype : w.self.type ≠ .none)
    (hk : w.client.klass = .tcp (some addr)) (haddr : 0 < hevSocks5AddrLen addr.mem) :
    w.Ready := by
  refine ⟨htype, ?_⟩
  unfold address
  rw [hk]
  exact haddr

/-- and one for UDP the null address of its family. -/
theorem Dialog.ready_of_udp {s : Int} (htype : w.self.type ≠ .none)
    (hk : w.client.klass = .udp s) (hfamily : w.self.addrFamily ≠ .unspec) : w.Ready := by
  refine ⟨htype, ?_⟩
  unfold address
  rw [hk]
  cases h : w.self.addrFamily with
  | unspec => exact absurd h hfamily
  | ipv4 => exact (by decide : 0 < hevSocks5AddrLen (.ofList [addrTypeIpv4]))
  | ipv6 => exact (by decide : 0 < hevSocks5AddrLen (.ofList [addrTypeIpv6]))

/-! ## The functions that write -/

/-- Octets were sent, and nothing else has happened. -/
def Wrote (w : Dialog) (data : List Octet) (w' : Dialog) : Prop :=
  w'.view = w.view ∧ w'.client = w.client ∧ w'.sent = w.sent ++ data

/-- What was sent, as it is seen. -/
theorem Speaker.Spoke.view {data : List Octet} {client : HevSocks5ClientObj}
    (h : Dialog.speaker.Spoke w [] data client w')
    (hrelay : client.klass.relay = w.client.klass.relay) :
    w'.view = w.view ∧ w'.sent = w.sent ++ data := by
  obtain ⟨hself, hclient, hstream, hsent, hpeer⟩ := h
  refine ⟨?_, hsent⟩
  simp only [Dialog.speaker, List.nil_append] at hself hclient hstream hpeer
  simp only [Dialog.view, hself, hclient, hrelay, hstream, hpeer]

theorem Speaker.Spoke.wrote {data : List Octet}
    (h : Dialog.speaker.Spoke w [] data w.client w') : Wrote w data w' :=
  ⟨(h.view rfl).1, h.client, h.sent⟩

theorem meets_writeAuthMethods : Meets (smooth fd) Talks writeAuthMethods w fun r w' =>
    r = 0 ∧ Wrote w [version5, 1, w.client.offered] w' :=
  ((speaks_smooth fd).meets_writeAuthMethods w).mono fun _ _ h => ⟨h.1, h.2.wrote⟩

theorem meets_writeAuthCreds : Meets (smooth fd) Talks writeAuthCreds w fun r w' =>
    r = 0 ∧ Wrote w w.client.login w' :=
  ((speaks_smooth fd).meets_writeAuthCreds w).mono fun _ _ h => ⟨h.1, h.2.wrote⟩

theorem meets_writeRequest (hready : w.Ready) : Meets (smooth fd) Talks writeRequest w
    fun r w' => r = 0 ∧ w'.view = w.view ∧ w'.sent = w.sent ++ w.request := by
  have hready' : (Dialog.speaker.dialog w).Ready := ⟨hready.type, hready.address⟩
  refine ((speaks_smooth fd).meets_writeRequest hready').mono ?_
  rintro r w' ⟨hr, client, hrelay, hspoke⟩
  exact ⟨hr, hspoke.view hrelay⟩

/-! ## The handshakes -/

theorem HevSocks5ClientObj.login_of_none {client : HevSocks5ClientObj}
    (h : client.offered = authMethodNone) : client.login = [] := by
  unfold offered at h
  unfold login
  cases hu : client.user with
  | none => rfl
  | some user =>
    cases hp : client.pass with
    | none => rfl
    | some pass =>
      rw [hu, hp] at h
      cases h

/-- All that a client has to say. -/
def Dialog.hello (w : Dialog) : List Octet :=
  [version5, 1, w.client.offered] ++ w.client.login ++ w.request

theorem Sight.readReply_fst (v : Sight) (fd : Int) :
    (v.readReply fd).1 = 0 ∨ (v.readReply fd).1 = -1 := by
  unfold readReply
  split
  · split
    · exact .inr rfl
    · split
      · exact .inl rfl
      · exact .inr rfl
  · exact .inr rfl

/-- The end of both handshakes. -/
theorem meets_reply (hfd : 0 ≤ fd) : Meets (smooth fd) Talks (do
      let res ← readResponse
      if res < 0 then return -1 else return 0) w (Reading w (w.view.readReply fd)) := by
  refine (meets_readResponse hfd).bind ?_
  rintro res w₁ ⟨hview, hsent⟩
  have hres := w.view.readReply_fst fd
  rw [← hview] at hres
  refine (meets_ite ..).2 ?_
  rcases hres with rfl | rfl
  · rw [if_neg (by decide)]
    exact ⟨hview, hsent⟩
  · rw [if_pos (by decide)]
    exact ⟨hview, hsent⟩

theorem meets_request (hfd : 0 ≤ fd) (hready : w.Ready) :
    Meets (smooth fd) Talks handshakeStandard.request w fun r w' =>
      (r, w'.view) = w.view.readReply fd ∧ w'.sent = w.sent ++ w.request := by
  refine (meets_writeRequest hready).bind ?_
  rintro _ w₁ ⟨rfl, hview, hsent⟩
  rw [if_neg (by decide)]
  refine (meets_reply hfd).mono ?_
  rintro r w₂ ⟨hr, hs⟩
  exact ⟨hr.trans (by rw [hview]), hs.trans hsent⟩

/-- What a handshake comes to: the result and the view that the stream says, and, when the server
    has selected the method that was offered, all was sent. -/
def Agreed (fd : Int) (w : Dialog) (r : Int) (w' : Dialog) : Prop :=
  (r, w'.view) = w.view.answers fd ∧
    (w.view.readMethod.1 = w.client.offered.toNat → r = 0 → w'.sent = w.sent ++ w.hello)

theorem Dialog.Ready.congr {w w' : Dialog} (h : w.Ready) (hself : w'.self = w.self)
    (hclient : w'.client = w.client) : w'.Ready ∧ w'.request = w.request := by
  have haddr : w'.address = w.address := by rw [Dialog.address, Dialog.address, hself, hclient]
  refine ⟨⟨by rw [hself]; exact h.type, by rw [haddr]; exact h.address⟩, ?_⟩
  rw [Dialog.request, Dialog.request, hself, haddr]

theorem meets_handshakeStandard (hfd : 0 ≤ fd) (hready : w.Ready) :
    Meets (smooth fd) Talks handshakeStandard w (Agreed fd w) := by
  refine meets_writeAuthMethods.bind ?_
  rintro _ w₁ ⟨rfl, hview₁, hclient₁, hsent₁⟩
  rw [if_neg (by decide)]
  refine meets_clientReadAuthMethod.bind ?_
  rintro method w₂ ⟨hm, hself₂, hclient₂, hsent₂⟩
  rw [hview₁] at hm
  have hm₁ : method = _ := congrArg Prod.fst hm
  have hm₂ : w₂.view = _ := congrArg Prod.snd hm
  have hself : w₂.self = w.self := hself₂.trans (congrArg Sight.self hview₁)
  have hclient : w₂.client = w.client := hclient₂.trans hclient₁
  unfold Agreed Sight.answers
  rw [← hm₁, ← hm₂]
  refine (meets_ite ..).2 ?_
  split
  case isTrue hneg =>
    have hu : ¬ method = authMethodUser.toNat := by omega
    have hn : ¬ method = authMethodNone.toNat := by omega
    rw [if_neg hu, if_neg hn]
    exact ⟨rfl, fun _ h => absurd h (by decide)⟩
  case isFalse =>
    refine (meets_ite ..).2 ?_
    split
    case isTrue hu =>
      refine meets_writeAuthCreds.bind ?_
      rintro _ w₃ ⟨rfl, hview₃, hclient₃, hsent₃⟩
      rw [if_neg (by decide)]
      refine meets_readAuthCreds.bind ?_
      rintro res w₄ ⟨hc, hself₄, hclient₄, hsent₄⟩
      rw [hview₃] at hc
      have hc₁ : res = _ := congrArg Prod.fst hc
      have hc₂ : w₄.view = _ := congrArg Prod.snd hc
      dsimp only
      rw [← hc₁, ← hc₂]
      refine (meets_ite ..).2 ?_
      split
      case isTrue => exact ⟨rfl, fun _ h => absurd h (by decide)⟩
      case isFalse =>
        obtain ⟨hready₄, hrequest₄⟩ := hready.congr
          (hself₄.trans ((congrArg Sight.self hview₃).trans hself))
          (hclient₄.trans (hclient₃.trans hclient))
        refine (meets_request hfd hready₄).mono ?_
        rintro r w₅ ⟨hr, hs⟩
        refine ⟨hr, fun _ _ => ?_⟩
        rw [hs, hrequest₄, hsent₄, hsent₃, hsent₂, hsent₁, hclient, Dialog.hello]
        simp
    case isFalse hu =>
      refine (meets_ite ..).2 ?_
      split
      case isTrue hn =>
        exact ⟨rfl, fun _ h => absurd h (by decide)⟩
      case isFalse hn =>
        obtain ⟨hready₂, hrequest₂⟩ := hready.congr hself hclient
        refine (meets_request hfd hready₂).mono ?_
        rintro r w₅ ⟨hr, hs⟩
        refine ⟨hr.trans (if_pos (not_not.1 hn)).symm, fun hoff _ => ?_⟩
        have hnone : w.client.offered = authMethodNone := by
          rw [not_not.1 hn] at hoff
          exact UInt8.toNat_inj.1 (by omega)
        rw [hs, hrequest₂, hsent₂, hsent₁, Dialog.hello, HevSocks5ClientObj.login_of_none hnone]
        simp

theorem meets_handshakePipeline (hfd : 0 ≤ fd) (hready : w.Ready) :
    Meets (smooth fd) Talks handshakePipeline w (Agreed fd w) := by
  refine meets_writeAuthMethods.bind ?_
  rintro _ w₁ ⟨rfl, hview₁, hclient₁, hsent₁⟩
  rw [if_neg (by decide)]
  refine meets_writeAuthCreds.bind ?_
  rintro _ w₂ ⟨rfl, hview₂, hclient₂, hsent₂⟩
  rw [if_neg (by decide)]
  obtain ⟨hready₂, hrequest₂⟩ := hready.congr (congrArg Sight.self (hview₂.trans hview₁))
    (hclient₂.trans hclient₁)
  refine (meets_writeRequest hready₂).bind ?_
  rintro _ w₃ ⟨rfl, hview₃, hsent₃⟩
  rw [if_neg (by decide)]
  have hview : w₃.view = w.view := hview₃.trans (hview₂.trans hview₁)
  have hsent : w₃.sent = w.sent ++ w.hello := by
    rw [hsent₃, hrequest₂, hsent₂, hsent₁, hclient₁, Dialog.hello]
    simp
  refine meets_clientReadAuthMethod.bind ?_
  rintro method w₄ ⟨hm, -, -, hsent₄⟩
  rw [hview] at hm
  have hm₁ : method = _ := congrArg Prod.fst hm
  have hm₂ : w₄.view = _ := congrArg Prod.snd hm
  unfold Agreed Sight.answers
  rw [← hm₁, ← hm₂]
  refine (meets_ite ..).2 ?_
  split
  case isTrue hneg =>
    have hu : ¬ method = authMethodUser.toNat := by omega
    have hn : ¬ method = authMethodNone.toNat := by omega
    rw [if_neg hu, if_neg hn]
    exact ⟨rfl, fun _ h => absurd h (by decide)⟩
  case isFalse =>
    refine (meets_ite ..).2 ?_
    split
    case isTrue hu =>
      refine meets_readAuthCreds.bind ?_
      rintro res w₅ ⟨hc, -, -, hsent₅⟩
      have hc₁ : res = _ := congrArg Prod.fst hc
      have hc₂ : w₅.view = _ := congrArg Prod.snd hc
      dsimp only
      rw [← hc₁, ← hc₂]
      refine (meets_ite ..).2 ?_
      split
      case isTrue => exact ⟨rfl, fun _ h => absurd h (by decide)⟩
      case isFalse =>
        refine (meets_reply hfd).mono ?_
        rintro r w₆ ⟨hr, hs⟩
        exact ⟨hr, fun _ _ => hs.trans (hsent₅.trans (hsent₄.trans hsent))⟩
    case isFalse hu =>
      refine (meets_ite ..).2 ?_
      split
      case isTrue hn =>
        exact ⟨rfl, fun _ h => absurd h (by decide)⟩
      case isFalse hn =>
        refine (meets_reply hfd).mono ?_
        rintro r w₆ ⟨hr, hs⟩
        exact ⟨hr.trans (if_pos (not_not.1 hn)).symm, fun _ _ => hs.trans (hsent₄.trans hsent)⟩

/-! ## The two orders -/

/-- There is an answer to every call. -/
theorem exists_smooth {fd : Int} (w : Dialog) {β : Type} {o : Both Op ClientOp β}
    (h : Talks w o) : ∃ b w', smooth fd w o b w' := by
  match o with
  | .inl .base => exact ⟨w.self, w, ⟨rfl, rfl⟩, trivial⟩
  | .inl (.setBase self) => exact ⟨(), _, rfl, trivial⟩
  | .inl (.recv s n flags) =>
    by_cases hn : n ≤ w.stream.length
    · exact ⟨⟨n, w.stream.take n⟩, _, .inl ⟨rfl, hn, rfl, rfl⟩, .inl rfl⟩
    · refine ⟨⟨-1, []⟩, { w with stream := [] }, .inr ⟨?_, w.stream.length, ?_⟩, .inr ⟨?_, rfl⟩⟩
      · show (-1 : Int) ≠ n
        omega
      · rw [List.drop_length]
      · exact Nat.lt_of_not_le hn
  | .inl (.send s data) => exact ⟨1, _, .inl ⟨by decide, rfl⟩, by show (0 : Int) < 1; decide⟩
  | .inl (.sendmsg s data) => exact ⟨1, _, .inl ⟨by decide, rfl⟩, by show (0 : Int) < 1; decide⟩
  | .inl (.socket type) => exact ⟨fd, w, rfl, rfl⟩
  | .inl (.setsockopt s opt) => exact ⟨0, w, rfl, Int.le_refl 0⟩
  | .inl (.addFd s) => exact ⟨0, w, rfl, trivial⟩
  | .inl (.modFd s) => exact ⟨0, w, rfl, trivial⟩
  | .inl (.binder s saddr) => exact ⟨0, w, rfl, Int.le_refl 0⟩
  | .inl (.socketConnect s saddr) => exact ⟨0, _, rfl, Int.le_refl 0⟩
  | .inl .tcpTimeout => exact ⟨0, w, rfl, trivial⟩
  | .inl .udpTimeout => exact ⟨0, w, rfl, trivial⟩
  | .inr .client => exact ⟨w.client, w, ⟨rfl, rfl⟩, trivial⟩
  | .inr (.setClient client) => exact ⟨(), _, rfl, trivial⟩
  | .inr .malloc0 => exact ⟨some 16, w, rfl, by simp [Succeeds]⟩
  | .inr (.free ptr) => exact ⟨(), w, rfl, trivial⟩

/-- A handshake that succeeds has found a method. -/
theorem Sight.readMethod_of_answers {v : Sight} (h : (v.answers fd).1 = 0) :
    v.readMethod.1 = (v.stream.getD 1 0).toNat := by
  by_cases hc : 2 ≤ v.stream.length ∧ v.stream.getD 0 0 = version5
  · exact if_pos hc
  · have hm : v.readMethod.1 = -1 := if_neg hc
    unfold answers at h
    rw [hm, if_neg (by decide), if_neg (by decide)] at h
    exact absurd h (by decide : ¬ (-1 : Int) = 0)

/-- **The two handshakes agree**: when nothing fails, whatever the server has sent. -/
theorem modes_agree (hfd : 0 ≤ fd) (hready : w.Ready) :
    (∃ r w', Returns (smooth fd) handshakeStandard w r w') ∧
    (∃ r w', Returns (smooth fd) handshakePipeline w r w') ∧
    ∀ r w₁ r' w₂, Returns (smooth fd) handshakeStandard w r w₁ →
      Returns (smooth fd) handshakePipeline w r' w₂ →
      r = r' ∧ w₁.view = w₂.view ∧
        (w.stream.getD 1 0 = w.client.offered → r = 0 → w₁.sent = w₂.sent) := by
  refine ⟨(meets_handshakeStandard hfd hready).exists_returns (exists_smooth _),
    (meets_handshakePipeline hfd hready).exists_returns (exists_smooth _), ?_⟩
  intro r w₁ r' w₂ h₁ h₂
  obtain ⟨hr₁, hs₁⟩ := (meets_handshakeStandard hfd hready).returns h₁
  obtain ⟨hr₂, hs₂⟩ := (meets_handshakePipeline hfd hready).returns h₂
  obtain ⟨rfl, hview⟩ := Prod.mk.inj (hr₁.trans hr₂.symm)
  refine ⟨rfl, hview, fun hoff hr => ?_⟩
  have hm : w.view.readMethod.1 = w.client.offered.toNat := by
    rw [Sight.readMethod_of_answers ((congrArg Prod.fst hr₁).symm.trans hr), ← hoff]
    rfl
  rw [hs₁ hm hr, hs₂ hm hr]

/-- A client for a name, with a login, at a server that selects the login, accepts it and grants the
    request; one octet follows. -/
def loginDialog : Dialog where
  self := ⟨3, -1, .tcp, false, .ipv4⟩
  client := ⟨some [117], some [112], .tcp (some ⟨16, .ofList [addrTypeName, 1, 97, 0, 80]⟩)⟩
  stream := [5, 2, 1, 0, 5, 0, 0, 1, 192, 0, 2, 1, 0, 80, 104]
  sent := []
  peer := none

theorem loginDialog_ready : loginDialog.Ready := ⟨by decide, by decide⟩

theorem modes_agree_login : ∃ w₁ w₂, Returns (smooth 7) handshakeStandard loginDialog 0 w₁ ∧
    Returns (smooth 7) handshakePipeline loginDialog 0 w₂ ∧ w₁.view = w₂.view ∧
      w₁.stream = [104] ∧ w₁.sent = w₂.sent ∧
        w₁.sent = [5, 1, 2, 1, 1, 117, 1, 112, 5, 1, 0, 3, 1, 97, 0, 80] := by
  obtain ⟨⟨r, w₁, h₁⟩, ⟨r', w₂, h₂⟩, hall⟩ :=
    modes_agree (by decide : (0 : Int) ≤ 7) loginDialog_ready
  obtain ⟨hr, hsent⟩ := (meets_handshakeStandard (by decide) loginDialog_ready).returns h₁
  obtain rfl : r = 0 := congrArg Prod.fst hr
  obtain ⟨rfl, hview, hsents⟩ := hall 0 w₁ r' w₂ h₁ h₂
  refine ⟨w₁, w₂, h₁, h₂, hview, congrArg (fun v => v.2.stream) hr, hsents rfl rfl, ?_⟩
  rw [hsent rfl rfl]
  rfl

/-! ## What a server has to send -/

/-- The octets begin with a reply that grants the request. -/
def Replies (stream : List Octet) : Prop :=
  ∃ rsv atype addr rest, addrRest atype = some addr.length ∧
    stream = [version5, HevSocks5ResRep.succ.octet, rsv, atype] ++ addr ++ rest

/-- The octets begin with a method, a login that was accepted when the method needs one, and a
    reply that grants the request. -/
def Grants (method : Octet) (stream : List Octet) : Prop :=
  ∃ rest, Replies rest ∧ stream = [version5, method] ++
    (if method = authMethodUser then [authVersion1, HevSocks5ResRep.succ.octet] else []) ++ rest

/-- The known method that a client does not offer. -/
def HevSocks5ClientObj.other (client : HevSocks5ClientObj) : Octet :=
  if client.offered = authMethodNone then authMethodUser else authMethodNone

/-- **A handshake that succeeds has the method that was offered**: the greeting that the client has
    sent offers the one that the server has selected.  With a name and a password the server has
    accepted them, and without there was no login. -/
def OnlyOffered (pipeline : Bool) (w : Dialog) : Prop :=
  ∀ r w', Returns talk (handshake pipeline) w r w' → r = 0 →
    (∃ m, w.sent ++ [version5, 1, m] <+: w'.sent ∧ w.stream[1]? = some m) ∧
      (w.client.user.isSome → w.client.pass.isSome →
        (w.stream.drop 2).take 2 = [authVersion1, HevSocks5ResRep.succ.octet]) ∧
      (w.client.user.isNone ∨ w.client.pass.isNone → w.stream[1]? = some authMethodNone)

/-- Where one step has to succeed for the next one. -/
theorem post_then {x : ClientM Int} {k : Int → ClientM Int} {R : Int → Dialog → Prop}
    {Q : Dialog → Prop} (hx : Post talk x w fun r w' => 0 ≤ r → R r w')
    (hk : ∀ r w', R r w' → Post talk (k r) w' fun r w' => r = 0 → Q w') :
    Post talk (do let r ← x; if r < 0 then return -1 else k r) w fun r w' => r = 0 → Q w' := by
  refine hx.bind ?_
  intro r w' hr
  refine (always_ite ..).2 ?_
  split
  case isTrue => exact fun h => absurd h (by decide)
  case isFalse hneg => exact hk r w' (hr (Int.not_lt.1 hneg))

theorem post_of_forall {α : Type} {x : ClientM α} {Q : α → Dialog → Prop} (h : ∀ a w', Q a w') :
    Post talk x w Q :=
  always_iff.2 ⟨fun _ _ => trivial, fun a w' _ => h a w'⟩

/-- Calls that read nothing. -/
def Unread {β : Type} : Both Op ClientOp β → Prop
  | .inl (.recv ..) => False
  | _ => True

theorem Unread.post {α : Type} {x : ClientM α} (hx : x.Only Unread) :
    Post talk x w fun _ w' => w'.stream = w.stream := by
  refine hx.always (I := fun w' : Dialog => w'.stream = w.stream) ?_ rfl
  rintro w₁ w₂ β (o | o) b ho hw₁ he
  · cases o
    case recv => exact ho.elim
    case base => exact ⟨trivial, he.2 ▸ hw₁⟩
    case setBase => exact ⟨trivial, he ▸ hw₁⟩
    case send =>
      rcases he with ⟨-, rfl⟩ | ⟨-, k, rfl⟩
      · exact ⟨trivial, hw₁⟩
      · exact ⟨trivial, hw₁⟩
    case sendmsg =>
      rcases he with ⟨-, rfl⟩ | ⟨-, k, rfl⟩
      · exact ⟨trivial, hw₁⟩
      · exact ⟨trivial, hw₁⟩
    case socketConnect =>
      obtain rfl := he
      refine ⟨trivial, ?_⟩
      split
      · exact hw₁
      · exact hw₁
    all_goals exact ⟨trivial, he ▸ hw₁⟩
  · cases o
    case client => exact ⟨trivial, he.2 ▸ hw₁⟩
    case setClient => exact ⟨trivial, he ▸ hw₁⟩
    all_goals exact ⟨trivial, he ▸ hw₁⟩

theorem unread_writeAuthMethods : writeAuthMethods.Only Unread := by
  refine ⟨trivial, fun client => ⟨trivial, fun self => ⟨trivial, fun res => ?_⟩⟩⟩
  exact .ite trivial trivial

theorem unread_writeAuthCreds : writeAuthCreds.Only Unread := by
  refine ⟨trivial, fun client => ?_⟩
  simp only [Prog.bind]
  split
  · exact ⟨trivial, fun self => ⟨trivial, fun res => .ite trivial trivial⟩⟩
  · trivial

theorem unread_getUpstreamAddr : getUpstreamAddr.Only Unread := by
  have hnew (atype : Octet) : (newAddr atype).Only Unread := by
    refine ⟨trivial, fun ptr => ?_⟩
    cases ptr <;> trivial
  refine ⟨trivial, fun client => ?_⟩
  simp only [Prog.bind]
  split
  · exact ⟨trivial, fun _ => trivial⟩
  · refine ⟨trivial, fun self => ?_⟩
    simp only [Prog.inl, Prog.bind]
    split
    · exact hnew _
    · exact hnew _
    · trivial

theorem unread_writeRequest : writeRequest.Only Unread := by
  refine ⟨trivial, fun self => ?_⟩
  simp only [Prog.inl, Prog.bind]
  split
  · trivial
  · refine unread_getUpstreamAddr.bind fun addr => ?_
    cases addr with
    | none => exact ⟨trivial, fun e => e.elim⟩
    | some addr =>
      refine .ite trivial ⟨trivial, fun self => ⟨trivial, fun res => .ite trivial ?_⟩⟩
      exact ⟨trivial, fun _ => trivial⟩

theorem post_readAuthMethod_talk : Post talk readAuthMethod w fun r w' => 0 ≤ r →
    ∃ m : Octet, r = m.toNat ∧ w.stream = version5 :: m :: w'.stream := by
  rintro self w₁ ⟨-, rfl⟩
  refine ⟨trivial, ?_⟩
  rintro r w₂ hr
  refine ⟨trivial, (always_ite ..).2 ?_⟩
  split
  case isTrue => exact fun h => absurd h (by decide)
  case isFalse h2 =>
    obtain ⟨-, hlen, hdata, rfl⟩ := hr.resolve_right fun h => h2 h.1
    obtain ⟨a, b, stream, hs⟩ := exists_two hlen
    refine (always_ite ..).2 ?_
    simp only [hdata, hs, List.take_succ_cons, List.getD_cons_zero, List.getD_cons_succ]
    split
    case isTrue => exact fun h => absurd h (by decide)
    case isFalse ha => exact fun _ => ⟨b, rfl, by rw [not_not.1 ha]; rfl⟩

theorem post_readAuthCreds_talk : Post talk readAuthCreds w fun r w' => 0 ≤ r →
    w.stream = authVersion1 :: HevSocks5ResRep.succ.octet :: w'.stream := by
  rintro self w₁ ⟨-, rfl⟩
  refine ⟨trivial, ?_⟩
  rintro r w₂ hr
  refine ⟨trivial, (always_ite ..).2 ?_⟩
  split
  case isTrue => exact fun h => absurd h (by decide)
  case isFalse h2 =>
    obtain ⟨-, hlen, hdata, rfl⟩ := hr.resolve_right fun h => h2 h.1
    obtain ⟨a, b, stream, hs⟩ := exists_two hlen
    refine (always_ite ..).2 ?_
    simp only [hdata, hs, List.take_succ_cons, List.getD_cons_zero, List.getD_cons_succ]
    split
    case isTrue => exact fun h => absurd h (by decide)
    case isFalse ha =>
      refine (always_ite ..).2 ?_
      split
      case isTrue => exact fun h => absurd h (by decide)
      case isFalse hb => exact fun _ => by rw [not_not.1 ha, not_not.1 hb]; rfl

theorem post_readResponse_talk :
    Post talk readResponse w fun r _ => 0 ≤ r → Replies w.stream := by
  rintro self w₁ ⟨-, rfl⟩
  refine ⟨trivial, ?_⟩
  rintro r w₂ hr
  refine ⟨trivial, (always_ite ..).2 ?_⟩
  split
  case isTrue => exact fun h => absurd h (by decide)
  case isFalse h4 =>
    obtain ⟨-, hlen, hdata, rfl⟩ := hr.resolve_right fun h => h4 h.1
    obtain ⟨a, b, c, d, stream, hs⟩ := exists_four hlen
    refine (always_ite ..).2 ?_
    simp only [hdata, hs, List.take_succ_cons, List.getD_cons_zero, List.getD_cons_succ]
    split
    case isTrue => exact fun h => absurd h (by decide)
    case isFalse ha =>
      refine (always_ite ..).2 ?_
      split
      case isTrue => exact fun h => absurd h (by decide)
      case isFalse hb =>
        cases hd : addrRest d with
        | none => exact fun h => absurd h (by decide)
        | some n =>
          rintro r' w₃ hr'
          refine ⟨trivial, (always_ite ..).2 ?_⟩
          split
          case isTrue => exact fun h => absurd h (by decide)
          case isFalse hn =>
            obtain ⟨-, hlen', -, rfl⟩ := hr'.resolve_right fun h => hn h.1
            replace hlen' : n ≤ stream.length := hlen'
            refine post_of_forall fun _ _ _ => ⟨c, d, stream.take n, stream.drop n, ?_, ?_⟩
            · rw [hd, List.length_take, Nat.min_eq_left hlen']
            · rw [not_not.1 ha, not_not.1 hb, List.append_assoc, List.take_append_drop]
              rfl

/-- The two known methods. -/
def KnownMethod (method : Octet) : Prop := method = authMethodUser ∨ method = authMethodNone

theorem post_reply_talk : Post talk (do
      let res ← readResponse
      if res < 0 then return -1 else return 0) w fun r _ => r = 0 → Replies w.stream :=
  post_then (R := fun _ _ => Replies w.stream) (k := fun _ => pure 0) post_readResponse_talk
    fun _ _ h _ => h

theorem post_request_talk :
    Post talk handshakeStandard.request w fun r _ => r = 0 → Replies w.stream := by
  refine post_then (R := fun _ w' => w'.stream = w.stream)
    (Unread.post unread_writeRequest |>.mono fun _ _ h _ => h) ?_
  intro _ w' hw'
  rw [← hw']
  exact post_reply_talk

theorem post_handshakeStandard_talk : Post talk handshakeStandard w fun r _ => r = 0 →
    ∃ m, KnownMethod m ∧ Grants m w.stream := by
  refine post_then (R := fun _ w' => w'.stream = w.stream)
    (Unread.post unread_writeAuthMethods |>.mono fun _ _ h _ => h) ?_
  intro _ w₁ hw₁
  refine post_then post_readAuthMethod_talk ?_
  rintro _ w₂ ⟨m, rfl, hm⟩
  rw [hw₁] at hm
  refine (always_ite ..).2 ?_
  split
  case isTrue hu =>
    obtain rfl : m = authMethodUser := UInt8.toNat_inj.1 (by omega)
    refine post_then (R := fun _ w' => w'.stream = w₂.stream)
      (Unread.post unread_writeAuthCreds |>.mono fun _ _ h _ => h) ?_
    intro _ w₃ hw₃
    refine post_then (R := fun _ w' => w₃.stream = _ :: _ :: w'.stream) post_readAuthCreds_talk ?_
    intro _ w₄ hw₄
    refine post_request_talk.mono fun r _ hr h => ⟨_, .inl rfl, _, hr h, ?_⟩
    rw [hm, ← hw₃, hw₄]
    rfl
  case isFalse hu =>
    refine (always_ite ..).2 ?_
    split
    case isTrue => exact fun h => absurd h (by decide)
    case isFalse hn =>
      obtain rfl : m = authMethodNone := UInt8.toNat_inj.1 (by omega)
      refine post_request_talk.mono fun r _ hr h => ⟨_, .inr rfl, _, hr h, ?_⟩
      rw [hm]
      rfl

theorem post_handshakePipeline_talk : Post talk handshakePipeline w fun r _ => r = 0 →
    ∃ m, KnownMethod m ∧ Grants m w.stream := by
  refine post_then (R := fun _ w' => w'.stream = w.stream)
    (Unread.post unread_writeAuthMethods |>.mono fun _ _ h _ => h) ?_
  intro _ w₁ hw₁
  refine post_then (R := fun _ w' => w'.stream = w.stream)
    (Unread.post unread_writeAuthCreds |>.mono fun _ _ h _ => h.trans hw₁) ?_
  intro _ w₂ hw₂
  refine post_then (R := fun _ w' => w'.stream = w.stream)
    (Unread.post unread_writeRequest |>.mono fun _ _ h _ => h.trans hw₂) ?_
  intro _ w₃ hw₃
  refine post_then post_readAuthMethod_talk ?_
  rintro _ w₄ ⟨m, rfl, hm⟩
  rw [hw₃] at hm
  refine (always_ite ..).2 ?_
  split
  case isTrue hu =>
    obtain rfl : m = authMethodUser := UInt8.toNat_inj.1 (by omega)
    refine post_then (R := fun _ w' => w₄.stream = _ :: _ :: w'.stream) post_readAuthCreds_talk ?_
    intro _ w₅ hw₅
    refine post_reply_talk.mono fun r _ hr h => ⟨_, .inl rfl, _, hr h, ?_⟩
    rw [hm, hw₅]
    rfl
  case isFalse hu =>
    refine (always_ite ..).2 ?_
    split
    case isTrue => exact fun h => absurd h (by decide)
    case isFalse hn =>
      obtain rfl : m = authMethodNone := UInt8.toNat_inj.1 (by omega)
      refine post_reply_talk.mono fun r _ hr h => ⟨_, .inr rfl, _, hr h, ?_⟩
      rw [hm]
      rfl

/-- What was sent stays sent. -/
theorem sent_of_talk {β : Type} {o : Both Op ClientOp β} {b : β} (h : talk w o b w') :
    w.sent <+: w'.sent := by
  have heq (h : w' = w) : w.sent <+: w'.sent := by rw [h]
  have happ {data : List Octet} {res : Int} (h : w.Send data res w') : w.sent <+: w'.sent := by
    obtain ⟨-, rfl⟩ | ⟨-, k, rfl⟩ := h
    · exact List.prefix_append _ _
    · exact List.prefix_append _ _
  cases o with
  | inl o =>
    cases o
    case base => exact heq h.2
    case setBase => exact h ▸ List.prefix_refl _
    case recv =>
      obtain ⟨-, -, -, rfl⟩ | ⟨-, k, rfl⟩ := h
      · exact List.prefix_refl _
      · exact List.prefix_refl _
    case send => exact happ h
    case sendmsg => exact happ h
    case socketConnect =>
      obtain rfl := h
      split
      · exact List.prefix_refl _
      · exact List.prefix_refl _
    all_goals exact heq h
  | inr o =>
    cases o
    case client => exact heq h.2
    case setClient => exact h ▸ List.prefix_refl _
    all_goals exact heq h

theorem post_sent_talk {α : Type} (x : ClientM α) {data : List Octet} (hw : data <+: w.sent) :
    Post talk x w fun _ w' => data <+: w'.sent :=
  always_of_step (I := fun w' : Dialog => data <+: w'.sent)
    (fun hw he => ⟨trivial, hw.trans (sent_of_talk he)⟩) x hw

theorem post_writeAuthMethods_talk : Post talk writeAuthMethods w fun r w' => 0 ≤ r →
    w.sent ++ [version5, 1, w.client.offered] <+: w'.sent := by
  rintro client w₁ ⟨rfl, rfl⟩
  refine ⟨trivial, ?_⟩
  rintro self w₂ ⟨-, rfl⟩
  refine ⟨trivial, ?_⟩
  rintro res w₃ hsend
  refine ⟨trivial, (always_ite ..).2 ?_⟩
  split
  case isTrue => exact fun h => absurd h (by decide)
  case isFalse hres =>
    obtain ⟨-, rfl⟩ := hsend.resolve_right fun h => hres h.1
    exact fun _ => List.prefix_refl _

/-- **The greeting** is the first that both handshakes send. -/
theorem post_modeOf_sent (pipeline : Bool) : Post talk (modeOf pipeline) w fun r w' => r = 0 →
    w.sent ++ [version5, 1, w.client.offered] <+: w'.sent := by
  cases pipeline
  · exact post_then post_writeAuthMethods_talk fun _ _ h => (post_sent_talk _ h).mono
      fun _ _ h _ => h
  · exact post_then post_writeAuthMethods_talk fun _ _ h => (post_sent_talk _ h).mono
      fun _ _ h _ => h

theorem post_setTimeout_talk (timeout : Int) :
    Post talk (liftM (hevSocks5SetTimeout timeout) : ClientM Unit) w fun _ w' =>
      w'.stream = w.stream ∧ w'.client = w.client ∧ w'.sent = w.sent := by
  rintro self w₁ ⟨rfl, rfl⟩
  refine ⟨trivial, ?_⟩
  simp only [Prog.bind]
  split
  · rintro _ w₂ rfl
    exact ⟨trivial, rfl, rfl, rfl⟩
  · exact ⟨rfl, rfl, rfl⟩

theorem post_handshakeEnd_talk (res : Int) :
    Post talk (handshakeEnd res) w fun r _ => r = res := by
  rintro self w₁ ⟨-, rfl⟩
  refine ⟨trivial, ?_⟩
  simp only [Prog.inl, Prog.bind]
  have htimeout : Post talk (do
      hevSocks5SetTimeout (← hevSocks5GetUdpTimeout)
      return res : ClientM Int) w₁ fun r _ => r = res := by
    refine Always.bind (R := fun _ _ => True) (post_of_forall fun _ _ => trivial) ?_
    intro timeout w₂ _
    refine Always.bind (R := fun _ _ => True) (post_of_forall fun _ _ => trivial) ?_
    intro _ w₃ _
    rfl
  split
  · exact htimeout
  · exact htimeout
  · rfl

/-- What a server and a client have sent when a handshake has succeeded. -/
theorem post_handshake_talk (pipeline : Bool) : Post talk (handshake pipeline) w fun r w' =>
    r = 0 → (∃ m, KnownMethod m ∧ Grants m w.stream) ∧
      w.sent ++ [version5, 1, w.client.offered] <+: w'.sent := by
  unfold handshake
  rintro timeout w₁ rfl
  refine ⟨trivial, (post_setTimeout_talk timeout).bind ?_⟩
  rintro _ w₂ ⟨hstream, hclient, hsent⟩
  rw [← hstream, ← hclient, ← hsent]
  have hmode : Post talk (modeOf pipeline) w₂
      fun r _ => r = 0 → ∃ m, KnownMethod m ∧ Grants m w₂.stream := by
    cases pipeline
    · exact post_handshakeStandard_talk
    · exact post_handshakePipeline_talk
  refine (hmode.and (post_modeOf_sent pipeline)).bind ?_
  rintro res w₃ ⟨hgrants, hgreeting⟩
  by_cases hres : res = 0
  · refine ((post_handshakeEnd_talk res).and (post_sent_talk _ (hgreeting hres))).mono ?_
    rintro _ w₄ ⟨rfl, hgreeting'⟩
    exact fun h => ⟨hgrants h, hgreeting'⟩
  · refine (post_handshakeEnd_talk res).mono ?_
    rintro _ w₄ rfl
    exact fun h => absurd h hres

/-! ## What a client makes of it -/

theorem Sight.readReply_of_replies {v : Sight} (h : Replies v.stream) : (v.readReply fd).1 = 0 := by
  obtain ⟨rsv, atype, addr, rest, hlen, hs⟩ := h
  unfold readReply
  simp only [hs, List.cons_append, List.nil_append, List.length_cons, List.length_append,
    List.getD_cons_zero, List.getD_cons_succ, hlen]
  rw [if_pos (by simp), if_pos (by omega)]

/-- What is granted is a success. -/
theorem Sight.answers_of_grants {v : Sight} {m : Octet} (fd : Int) (hm : KnownMethod m)
    (h : Grants m v.stream) : (v.answers fd).1 = 0 := by
  obtain ⟨rest, hreply, hs⟩ := h
  have hmethod : v.readMethod.1 = m.toNat ∧ v.readMethod.2.stream =
      (if m = authMethodUser then [authVersion1, HevSocks5ResRep.succ.octet] else []) ++ rest := by
    constructor
    · unfold readMethod
      rw [if_pos (by simp [hs]), hs]
      rfl
    · show v.stream.drop 2 = _
      rw [hs]
      rfl
  unfold answers
  rw [hmethod.1]
  rcases hm with rfl | rfl
  · have hstream := hmethod.2
    have hcreds : v.readMethod.2.readCreds.1 = 0 := by
      unfold readCreds
      rw [if_pos (by simp [hstream])]
    have hrest : v.readMethod.2.readCreds.2.stream = rest := by
      show v.readMethod.2.stream.drop 2 = _
      rw [hstream]
      rfl
    rw [if_pos rfl, hcreds, if_neg (by decide)]
    exact readReply_of_replies (by rw [hrest]; exact hreply)
  · rw [if_neg (by decide), if_pos rfl]
    exact readReply_of_replies (by rw [hmethod.2]; exact hreply)

theorem meets_setTimeout (timeout : Int) :
    Meets (smooth fd) Talks (liftM (hevSocks5SetTimeout timeout) : ClientM Unit) w fun _ w' =>
      w'.stream = w.stream ∧ w'.client = w.client ∧ w'.self.type = w.self.type ∧
        w'.self.addrFamily = w.self.addrFamily := by
  refine ⟨trivial, ?_⟩
  rintro self w₁ ⟨⟨rfl, rfl⟩, -⟩
  simp only [Prog.bind]
  split
  · refine ⟨trivial, ?_⟩
    rintro _ w₂ ⟨rfl, -⟩
    exact ⟨rfl, rfl, rfl, rfl⟩
  · exact ⟨rfl, rfl, rfl, rfl⟩

/-- Then a handshake of a client that has an address succeeds, when nothing else fails. -/
theorem returns_of_grants {m : Octet} (pipeline : Bool) (hready : w.Ready) (hm : KnownMethod m)
    (h : Grants m w.stream) : ∃ w', Returns talk (handshake pipeline) w 0 w' := by
  have hmode (w : Dialog) (hready : w.Ready) (h : Grants m w.stream) :
      Meets (smooth 0) Talks (modeOf pipeline) w fun r _ => r = 0 := by
    have hanswers := Sight.answers_of_grants (v := w.view) 0 hm h
    cases pipeline
    · refine (meets_handshakeStandard (Int.le_refl 0) hready).mono fun r w' hr => ?_
      rw [← hr.1] at hanswers
      exact hanswers
    · refine (meets_handshakePipeline (Int.le_refl 0) hready).mono fun r w' hr => ?_
      rw [← hr.1] at hanswers
      exact hanswers
  have hend (w : Dialog) : Meets (smooth 0) Talks (handshakeEnd 0) w fun r _ => r = 0 := by
    refine ⟨trivial, ?_⟩
    rintro self w₁ ⟨⟨rfl, rfl⟩, -⟩
    simp only [Prog.inl, Prog.bind]
    have htimeout : Meets (smooth 0) Talks (do
        hevSocks5SetTimeout (← hevSocks5GetUdpTimeout)
        return 0 : ClientM Int) w₁ fun r _ => r = 0 := by
      refine ⟨trivial, ?_⟩
      rintro timeout w₂ -
      refine (meets_setTimeout timeout).bind fun _ w₃ _ => ?_
      rfl
    split
    · exact htimeout
    · exact htimeout
    · rfl
  have hall : Meets (smooth 0) Talks (handshake pipeline) w fun r _ => r = 0 := by
    unfold handshake
    refine ⟨trivial, ?_⟩
    rintro timeout w₁ ⟨rfl, -⟩
    refine (meets_setTimeout timeout).bind ?_
    rintro _ w₂ ⟨hstream, hclient, htype, hfamily⟩
    have haddr : w₂.address = w₁.address := by
      rw [Dialog.address, Dialog.address, hclient, hfamily]
    refine (hmode w₂ ⟨by rw [htype]; exact hready.type, by rw [haddr]; exact hready.address⟩
      (by rw [hstream]; exact h)).bind ?_
    rintro _ w₃ rfl
    exact hend w₃
  obtain ⟨r, w', hr⟩ := hall.exists_returns (exists_smooth _)
  obtain rfl := hall.returns hr
  exact ⟨w', hr.mono fun he => he.1⟩

/-! ## The method that was offered -/

theorem HevSocks5ClientObj.known_iff {client : HevSocks5ClientObj} {m : Octet} :
    KnownMethod m ↔ m = client.offered ∨ m = client.other := by
  unfold KnownMethod other offered
  split_ifs
  · exact or_comm
  · exact absurd rfl ‹authMethodNone ≠ authMethodNone›
  · exact absurd ‹authMethodUser = authMethodNone› (by decide)
  · exact Iff.rfl

theorem HevSocks5ClientObj.other_ne (client : HevSocks5ClientObj) :
    client.other ≠ client.offered := by
  unfold other
  split
  case isTrue h =>
    rw [h]
    decide
  case isFalse h => exact Ne.symm h

theorem HevSocks5ClientObj.offered_user {client : HevSocks5ClientObj}
    (hu : client.user.isSome) (hp : client.pass.isSome) : client.offered = authMethodUser := by
  unfold offered
  rw [if_neg]
  rintro (h | h)
  · rw [Option.isNone_iff_eq_none.1 h] at hu
    cases hu
  · rw [Option.isNone_iff_eq_none.1 h] at hp
    cases hp

/-- A server that grants everything with the other method is believed. -/
theorem not_onlyOffered_of_grants (pipeline : Bool) (hready : w.Ready)
    (hother : Grants w.client.other w.stream) : ¬ OnlyOffered pipeline w := by
  intro honly
  have hknown : KnownMethod w.client.other := HevSocks5ClientObj.known_iff.2 (.inr rfl)
  obtain ⟨w', hr⟩ := returns_of_grants pipeline hready hknown hother
  obtain ⟨rest, -, hs⟩ := hother
  obtain ⟨⟨m, hsent, hsel⟩, -, -⟩ := honly 0 w' hr rfl
  rw [hs] at hsel
  obtain rfl : w.client.other = m := Option.some.inj hsel
  -- the greeting that was sent is that of the client
  have hgreeting := ((post_handshake_talk pipeline).returns hr rfl).2
  have heq := (List.prefix_of_prefix_length_le hsent hgreeting (by simp)).eq_of_length (by simp)
  exact w.client.other_ne (by simpa using heq)

/-- **Only the method that was offered**: just when the server does not grant everything with the
    other one. -/
theorem offered_iff (pipeline : Bool) (hready : w.Ready) :
    OnlyOffered pipeline w ↔ ¬ Grants w.client.other w.stream := by
  refine ⟨fun honly hother => not_onlyOffered_of_grants pipeline hready hother honly, ?_⟩
  intro hother r w' hr hres
  obtain ⟨⟨m, hm, hgrants⟩, hgreeting⟩ := (post_handshake_talk pipeline).returns hr hres
  obtain rfl : m = w.client.offered := by
    refine (HevSocks5ClientObj.known_iff.1 hm).resolve_right ?_
    rintro rfl
    exact hother hgrants
  obtain ⟨rest, -, hs⟩ := hgrants
  rw [hs]
  refine ⟨⟨_, hgreeting, rfl⟩, fun hu hp => ?_, fun h => ?_⟩
  · rw [if_pos (HevSocks5ClientObj.offered_user hu hp)]
    rfl
  · exact congrArg some (if_pos h)

theorem loginDialog_grants : Grants authMethodUser loginDialog.stream :=
  ⟨[5, 0, 0, 1, 192, 0, 2, 1, 0, 80, 104], ⟨0, 1, [192, 0, 2, 1, 0, 80], [104], rfl, rfl⟩, rfl⟩

theorem not_loginDialog_grants : ¬ Grants loginDialog.client.other loginDialog.stream := by
  rintro ⟨rest, -, hs⟩
  have hmethod : (2 : Octet) = 0 := congrArg (·.getD 1 0) hs
  exact absurd hmethod (by decide)

/-- A handshake succeeds, and the method that was selected is the one of the greeting. -/
theorem offered_iff_login : ∃ w' m, Returns talk (handshake true) loginDialog 0 w' ∧
    [version5, 1, m] <+: w'.sent ∧ loginDialog.stream[1]? = some m := by
  obtain ⟨w', hr⟩ := returns_of_grants true loginDialog_ready (.inl rfl) loginDialog_grants
  have honly := (offered_iff true loginDialog_ready).2 not_loginDialog_grants
  obtain ⟨⟨m, hsent, hsel⟩, -, -⟩ := honly 0 w' hr rfl
  exact ⟨w', m, hr, hsent, hsel⟩

/-- The client has a name and a password; the server wants neither. -/
def freeDialog : Dialog where
  self := ⟨3, -1, .udpInTcp, false, .ipv4⟩
  client := ⟨some [97], some [98], .udp (-1)⟩
  stream := [5, 0, 5, 0, 0, 1, 0, 0, 0, 0, 0, 0]
  sent := []
  peer := none

theorem freeDialog_ready : freeDialog.Ready := ⟨by decide, by decide⟩

theorem freeDialog_grants : Grants freeDialog.client.other freeDialog.stream :=
  ⟨[5, 0, 0, 1, 0, 0, 0, 0, 0, 0], ⟨0, 1, [0, 0, 0, 0, 0, 0], [], rfl, rfl⟩, rfl⟩

theorem not_onlyOffered : ¬ ∀ (pipeline : Bool) (w : Dialog), w.Ready → OnlyOffered pipeline w :=
  fun h => not_onlyOffered_of_grants true freeDialog_ready freeDialog_grants
    (h true freeDialog freeDialog_ready)

end HevSocks5
