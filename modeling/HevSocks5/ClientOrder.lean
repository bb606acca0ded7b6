/-
  What the client says, and when.

  A client that waits sends its login only when the server has selected the
  method for it, and its request only when it needs no login or the login was
  accepted.  A client that pipelines has sent all three messages before it
  receives anything.  So it is in every state of a handshake, whatever the
  server sends and whichever call fails (`said_in_order`).
-/
import HevSocks5.ClientDialog
import HevSocks5.Conversion
import HevSocks5.ServerCalls

namespace HevSocks5

open Interact Sys HevSocks5Client

/-! ## The client and its connection -/

/-- The client, the octets that it has handed to its send calls, and those that it has received. -/
structure Caller where
  self : HevSocks5Obj
  client : HevSocks5ClientObj
  sent : List Octet
  read : List Octet
  /-- the addresses to which its sockets are connected -/
  peer : Int → Option SockAddrIn6

/-- The calls of the client.  Any of them may fail; a receive call may get any octets, fewer than
    it asks for too. -/
def caller : Env (Both Op ClientOp) Caller := fun w _ o b w' =>
  match o with
  | .inl .base => b = w.self ∧ w' = w
  | .inl (.setBase self) => w' = { w with self }
  | .inl (.recv _ n _) => b.data.length ≤ n ∧ (b.res = n → b.data.length = n) ∧
      w' = { w with read := w.read ++ b.data }
  | .inl (.send _ data) => w' = { w with sent := w.sent ++ data }
  | .inl (.sendmsg _ data) => w' = { w with sent := w.sent ++ data }
  | .inl (.socket _) => w' = { w with peer := Function.update w.peer b none }
  | .inl (.close fd) => w' = { w with peer := Function.update w.peer fd none }
  | .inl (.socketConnect fd addr) =>
    w' = if b < 0 then w else { w with peer := Function.update w.peer fd (some addr) }
  | .inr .client => b = w.client ∧ w' = w
  | .inr (.setClient client) => w' = { w with client }
  | _ => w' = w

/-! ## What is to be shown -/

namespace Caller

/-- What it asks for. -/
def dialog (c : Caller) : Dialog := ⟨c.self, c.client, [], [], none⟩

def greeting (c : Caller) : List Octet := [version5, 1, c.client.offered]

/-- The octets by which a server selects a method. -/
def selects (m : Octet) : List Octet := [version5, m]

/-- And those by which it accepts a login. -/
def accepts : List Octet := [version5, authMethodUser, authVersion1, HevSocks5ResRep.succ.octet]

/-- **What the client has handed to its send calls** when it has received `read`. -/
inductive Said (c : Caller) : Bool → List Octet → List Octet → Prop
  | silent {pipeline : Bool} : Said c pipeline [] []
  | greeted {read : List Octet} : Said c false c.greeting read
  | loggedIn {read : List Octet} (h : selects authMethodUser <+: read) :
      Said c false (c.greeting ++ c.client.login) read
  | asked {read : List Octet} (h : accepts <+: read) :
      Said c false (c.greeting ++ c.client.login ++ c.dialog.request) read
  | askedFree {read : List Octet} (h : selects authMethodNone <+: read) :
      Said c false (c.greeting ++ c.dialog.request) read
  -- nothing is received before everything was sent
  | begun : Said c true c.greeting []
  | begunLogin : Said c true (c.greeting ++ c.client.login) []
  | all {read : List Octet} :
      Said c true (c.greeting ++ c.client.login ++ c.dialog.request) read

/-- A reply of success, with the address in it. -/
def Reply (l : List Octet) : Prop :=
  ∃ (rsv atype : Octet) (rest : List Octet), addrRest atype = some rest.length ∧
    l = [version5, HevSocks5ResRep.succ.octet, rsv, atype] ++ rest

/-- **What the client has received and sent** when its handshake succeeds. -/
inductive Done (c : Caller) (pipeline : Bool) (sent read : List Octet) : Prop
  | login {reply : List Octet} (hreply : Reply reply) (hread : read = accepts ++ reply)
      (hsent : sent = c.greeting ++ c.client.login ++ c.dialog.request)
  | free {reply : List Octet} (hreply : Reply reply)
      (hread : read = selects authMethodNone ++ reply)
      (hsent : sent = c.greeting ++ (if pipeline then c.client.login else []) ++ c.dialog.request)

/-- A client for UDP, which makes a socket when it reads the reply. -/
def Joins (c : Caller) : Prop := c.self.type = .udpInUdp ∧ ∃ fd, c.client.klass = .udp fd

/-- That socket is connected to the address in the reply. -/
def Meets (w : Caller) (reply : List Octet) : Prop :=
  ∃ fd, w.client.klass = .udp fd ∧ w.peer fd = some (intoSockaddr6 (.ofList (reply.drop 3)))

/-- **The reply and the socket** when the handshake of a client succeeds. -/
def Joined (c w : Caller) : Prop :=
  c.Joins → ∃ first reply, (first = selects authMethodNone ∨ first = accepts) ∧ Reply reply ∧
    w.read = first ++ reply ∧ w.Meets reply

/-- Nothing that the messages depend on has changed. -/
structure Alike (c w : Caller) : Prop where
  client : w.client = c.client
  type : w.self.type = c.self.type
  family : w.self.addrFamily = c.self.addrFamily

theorem Alike.address {c w : Caller} (h : c.Alike w) : w.dialog.address = c.dialog.address := by
  simp only [Dialog.address, dialog, h.client, h.family]

end Caller

open Caller

/-! ## The functions of the client -/

section
variable {G : List Octet → List Octet → Prop} {w w' : Caller} {α : Type}

/-- In every state `G` relates what was sent and what was received. -/
abbrev Orderly (G : List Octet → List Octet → Prop) (x : ClientM α) (w : Caller)
    (Q : α → Caller → Prop) : Prop :=
  Always caller (fun w' => G w'.sent w'.read) x w Q

/-- Where one step has to succeed for the next one. -/
theorem orderly_then {x : ClientM Int} {k : Int → ClientM Int} {R : Int → Caller → Prop}
    {Q : Caller → Prop} (hx : Orderly G x w fun r w' => 0 ≤ r → R r w')
    (hk : ∀ r w', R r w' → Orderly G (k r) w' fun r w' => r = 0 → Q w') :
    Orderly G (do let r ← x; if r < 0 then return -1 else k r) w fun r w' => r = 0 → Q w' := by
  refine hx.bind ?_
  intro r w' hr
  refine (always_ite ..).2 ?_
  split
  case isTrue => exact fun h => absurd h (by decide)
  case isFalse hneg => exact hk r w' (hr (Int.not_lt.1 hneg))

/-- Calls that neither send nor receive. -/
def Wordless {β : Type} : Both Op ClientOp β → Prop
  | .inl (.recv ..) | .inl (.send ..) | .inl (.sendmsg ..) => False
  | _ => True

theorem wordless_step {β : Type} {o : Both Op ClientOp β} {b : β} (ho : Wordless o)
    (he : caller w o b w') : w'.sent = w.sent ∧ w'.read = w.read := by
  rcases o with o | o
  · cases o
    case recv | send | sendmsg => exact ho.elim
    case base =>
      obtain ⟨-, rfl⟩ := he
      exact ⟨rfl, rfl⟩
    case socketConnect fd addr =>
      obtain rfl := he
      split <;> exact ⟨rfl, rfl⟩
    all_goals
      obtain rfl := he
      exact ⟨rfl, rfl⟩
  · cases o
    case client =>
      obtain ⟨-, rfl⟩ := he
      exact ⟨rfl, rfl⟩
    all_goals
      obtain rfl := he
      exact ⟨rfl, rfl⟩

theorem orderly_wordless {x : ClientM α} (hx : x.Only Wordless) (hG : G w.sent w.read) :
    Orderly G x w fun _ w' => w'.sent = w.sent ∧ w'.read = w.read := by
  refine hx.always (I := fun w' : Caller => w'.sent = w.sent ∧ w'.read = w.read) ?_ ⟨rfl, rfl⟩
  rintro w₁ w₂ β o b ho ⟨hsent, hread⟩ he
  obtain ⟨hsent', hread'⟩ := wordless_step ho he
  rw [hsent', hread', hsent, hread]
  exact ⟨hG, rfl, rfl⟩

/-! ## The functions that read -/

theorem orderly_readAuthMethod (hG : ∀ data, G w.sent (w.read ++ data)) :
    Orderly G readAuthMethod w fun r w' => 0 ≤ r →
      ∃ m : Octet, r = m.toNat ∧ w' = { w with read := w.read ++ selects m } := by
  have hG₀ : G w.sent w.read := by simpa using hG []
  rintro self w₁ ⟨-, rfl⟩
  refine ⟨hG₀, ?_⟩
  rintro r w₂ ⟨-, hlen, rfl⟩
  refine ⟨hG r.data, (always_ite ..).2 ?_⟩
  split
  case isTrue => exact fun h => absurd h (by decide)
  case isFalse h2 =>
    obtain ⟨a, b, hdata⟩ := List.length_eq_two.1 (hlen (not_not.1 h2))
    refine (always_ite ..).2 ?_
    simp only [hdata, List.getD_cons_zero, List.getD_cons_succ]
    split
    case isTrue => exact fun h => absurd h (by decide)
    case isFalse ha => exact fun _ => ⟨b, rfl, by rw [not_not.1 ha]; rfl⟩

theorem orderly_readAuthCreds (hG : ∀ data, G w.sent (w.read ++ data)) :
    Orderly G readAuthCreds w fun r w' => 0 ≤ r →
      w' = { w with read := w.read ++ [authVersion1, HevSocks5ResRep.succ.octet] } := by
  have hG₀ : G w.sent w.read := by simpa using hG []
  rintro self w₁ ⟨-, rfl⟩
  refine ⟨hG₀, ?_⟩
  rintro r w₂ ⟨-, hlen, rfl⟩
  refine ⟨hG r.data, (always_ite ..).2 ?_⟩
  split
  case isTrue => exact fun h => absurd h (by decide)
  case isFalse h2 =>
    obtain ⟨a, b, hdata⟩ := List.length_eq_two.1 (hlen (not_not.1 h2))
    refine (always_ite ..).2 ?_
    simp only [hdata, List.getD_cons_zero, List.getD_cons_succ]
    split
    case isTrue => exact fun h => absurd h (by decide)
    case isFalse ha =>
      refine (always_ite ..).2 ?_
      split
      case isTrue => exact fun h => absurd h (by decide)
      case isFalse hb => exact fun _ => by rw [not_not.1 ha, not_not.1 hb]

/-- The calls by which a socket is made and connected. -/
def Dials {β : Type} : Op β → Prop
  | .binder .. | .socketConnect .. => True
  | o => o.Makes

theorem dials_udpSocket (saddr : SockAddrIn6) : (udpSocket saddr).Only Dials := by
  have hmakes : ∀ {β : Type} {o : Op β}, o.Makes → Dials o := by
    intro β o ho
    cases o <;> first | exact trivial | exact ho.elim
  refine .bind ((makes_hevSocks5Socket .dgram).mono hmakes) fun fd => .ite (only_pure _) ?_
  refine .bind ((only_op _).2 trivial) fun res => .ite ?_ ?_
  · exact .bind ((makes_drop fd).mono hmakes) fun _ => only_pure _
  refine .bind ((only_op _).2 trivial) fun res => .ite ?_ (only_pure _)
  exact .bind ((makes_drop fd).mono hmakes) fun _ => only_pure _

theorem wordless_udpSocket (saddr : SockAddrIn6) : (udpSocket saddr).inl.Only Wordless := by
  refine (only_inl _).2 ((dials_udpSocket saddr).mono ?_)
  intro β o ho
  cases o <;> first | exact trivial | exact ho.elim

theorem wordless_setUpstreamAddr (addr : Mem) : (setUpstreamAddr addr).Only Wordless := by
  have hlook (family : HevSocks5AddrFamily) :
      (hevSocks5AddrIntoSockaddr6 addr .zero family).inl.Only Wordless := by
    refine (only_inl _).2 ((only_hevSocks5AddrIntoSockaddr6 addr .zero family).mono ?_)
    intro β o ho
    cases o <;> first | exact trivial | exact ho.elim
  have hudp : (udpSetUpstreamAddr addr).Only Wordless := by
    refine .bind ((only_op _).2 trivial) fun self => .ite (only_pure _) ?_
    refine .bind ((only_op _).2 trivial) fun self' => ?_
    refine .bind (hlook _) fun r => .ite (only_pure _) ?_
    refine .bind (wordless_udpSocket _) fun fd => .ite (only_pure _) ?_
    refine .bind ((only_op _).2 trivial) fun _ => .bind ((only_op _).2 trivial) fun _ => ?_
    exact .bind ((only_op _).2 trivial) fun _ => .bind ((only_op _).2 trivial) fun _ => only_pure _
  refine .bind ((only_op _).2 trivial) fun client => ?_
  cases client.klass with
  | tcp addr => exact only_pure _
  | udp fd => exact hudp

/-- Calls that touch neither the object nor the client. -/
def Aloof {β : Type} : Both Op ClientOp β → Prop
  | .inl (.setBase _) | .inr (.setClient _) => False
  | _ => True

theorem aloof_step {β : Type} {o : Both Op ClientOp β} {b : β} (ho : Aloof o)
    (he : caller w o b w') : w'.self = w.self ∧ w'.client = w.client := by
  rcases o with o | o
  · cases o
    case setBase => exact ho.elim
    case base =>
      obtain ⟨-, rfl⟩ := he
      exact ⟨rfl, rfl⟩
    case recv =>
      obtain ⟨-, -, rfl⟩ := he
      exact ⟨rfl, rfl⟩
    case socketConnect fd addr =>
      obtain rfl := he
      split <;> exact ⟨rfl, rfl⟩
    all_goals
      obtain rfl := he
      exact ⟨rfl, rfl⟩
  · cases o
    case setClient => exact ho.elim
    case client =>
      obtain ⟨-, rfl⟩ := he
      exact ⟨rfl, rfl⟩
    all_goals
      obtain rfl := he
      exact ⟨rfl, rfl⟩

theorem post_aloof {x : ClientM α} (hx : x.Only Aloof) (w : Caller) :
    Post caller x w fun _ w' => w'.self = w.self ∧ w'.client = w.client := by
  refine hx.always (I := fun w' : Caller => w'.self = w.self ∧ w'.client = w.client) ?_ ⟨rfl, rfl⟩
  rintro w₁ w₂ β o b ho ⟨hself, hclient⟩ he
  obtain ⟨hself', hclient'⟩ := aloof_step ho he
  exact ⟨trivial, hself'.trans hself, hclient'.trans hclient⟩

theorem aloof_udpSocket (saddr : SockAddrIn6) : (udpSocket saddr).inl.Only Aloof := by
  refine (only_inl _).2 ((dials_udpSocket saddr).mono ?_)
  intro β o ho
  cases o <;> first | exact trivial | exact ho.elim

/-- The socket that is made is connected. -/
theorem post_udpSocket (saddr : SockAddrIn6) (w : Caller) :
    Post caller (udpSocket saddr).inl w fun fd w' => 0 ≤ fd → w'.peer fd = some saddr := by
  have hnothing {α : Type} (x : ClientM α) (w : Caller) : Post caller x w fun _ _ => True :=
    always_of_step (I := fun _ => True) (fun _ _ => ⟨trivial, trivial⟩) x trivial
  have hdrop (fd : Int) (w : Caller) : Post caller (do drop fd; return -1 : SysM Int).inl w
      fun fd w' => 0 ≤ fd → w'.peer fd = some saddr := by
    rw [inl_bind]
    exact (hnothing _ w).bind fun _ _ _ h => absurd h (by decide)
  simp only [udpSocket, inl_bind]
  refine (hnothing _ w).bind fun fd w₁ _ => ?_
  rw [inl_ite, always_ite]
  split
  · exact fun h => absurd h (by decide)
  rw [inl_bind]
  refine (hnothing _ w₁).bind fun res w₂ _ => ?_
  rw [inl_ite, always_ite]
  split
  · exact hdrop fd w₂
  rw [inl_bind, inl_op, always_bind]
  refine (always_op ..).2 ?_
  rintro res' w₃ rfl
  refine ⟨trivial, ?_⟩
  rw [inl_ite, always_ite]
  split
  · exact hdrop fd _
  · exact fun _ => Function.update_self ..

/-- A client for UDP has the socket, and it is connected to the address. -/
theorem post_setUpstreamAddr {addr : Mem} (haddr : Numeric addr) (w : Caller) :
    Post caller (setUpstreamAddr addr) w fun res w' => 0 ≤ res → w.Joins →
      ∃ fd, w'.client.klass = .udp fd ∧ w'.peer fd = some (intoSockaddr6 addr) := by
  rintro client w₁ ⟨rfl, rfl⟩
  refine ⟨trivial, ?_⟩
  simp only [Prog.bind]
  cases hk : w₁.client.klass with
  | tcp block =>
    rintro - ⟨-, fd, hfd⟩
    cases hk.symm.trans hfd
  | udp fd =>
    rintro self w₂ ⟨rfl, rfl⟩
    refine ⟨trivial, ?_⟩
    refine (always_ite ..).2 ?_
    split
    case isTrue htype => exact fun _ h => absurd h.1 htype
    rintro self' w₃ ⟨-, rfl⟩
    refine ⟨trivial, ?_⟩
    simp only [Prog.bind, Prog.inl, hevSocks5AddrIntoSockaddr6_eq haddr, monadLift_eq, inl_pure,
      pure_bind]
    refine (always_ite ..).2 ?_
    rw [if_neg (by decide)]
    refine ((post_udpSocket _ w₃).and (post_aloof (aloof_udpSocket _) w₃)).bind ?_
    rintro fd' w₄ ⟨hpeer, -, -⟩
    refine (always_ite ..).2 ?_
    split
    case isTrue => exact fun h => absurd h (by decide)
    case isFalse hfd =>
      rintro self'' w₅ ⟨-, rfl⟩
      refine ⟨trivial, ?_⟩
      rintro _ w₆ rfl
      refine ⟨trivial, ?_⟩
      rintro client' w₇ ⟨-, rfl⟩
      refine ⟨trivial, ?_⟩
      rintro _ w₈ rfl
      exact ⟨trivial, fun _ _ => ⟨fd', rfl, hpeer (Int.not_lt.1 hfd)⟩⟩

/-- The address of a reply has no name. -/
theorem numeric_of_addrRest {atype : Octet} {n : Nat} {l : List Octet}
    (h : addrRest atype = some n) : Numeric (.ofList (atype :: l)) := by
  unfold addrRest at h
  split_ifs at h with h4 h6
  · exact .inl h4
  · exact .inr h6

theorem orderly_readResponse (hG : ∀ data, G w.sent (w.read ++ data)) :
    Orderly G readResponse w fun r w' => 0 ≤ r → ∃ reply, Reply reply ∧ w'.sent = w.sent ∧
      w'.read = w.read ++ reply ∧ (w.Joins → w'.Meets reply) := by
  have hG₀ : G w.sent w.read := by simpa using hG []
  rintro self w₁ ⟨-, rfl⟩
  refine ⟨hG₀, ?_⟩
  rintro r w₂ ⟨-, hlen, rfl⟩
  refine ⟨hG r.data, (always_ite ..).2 ?_⟩
  split
  case isTrue => exact fun h => absurd h (by decide)
  case isFalse h4 =>
    have hdata := hlen (not_not.1 h4)
    obtain ⟨a, b, c, d, tail, hr⟩ := exists_four (Nat.le_of_eq hdata.symm)
    obtain rfl : tail = [] := by simpa [hr] using hdata
    refine (always_ite ..).2 ?_
    simp only [hr, List.getD_cons_zero, List.getD_cons_succ]
    split
    case isTrue => exact fun h => absurd h (by decide)
    case isFalse ha =>
      refine (always_ite ..).2 ?_
      split
      case isTrue => exact fun h => absurd h (by decide)
      case isFalse hb =>
        cases hd : addrRest d with
        | none => exact fun h => absurd h (by decide)
        | some n =>
          rintro r' w₃ ⟨-, hlen', rfl⟩
          have hG₃ : G w₁.sent (w₁.read ++ [a, b, c, d] ++ r'.data) := by
            rw [List.append_assoc]
            exact hG _
          refine ⟨hG₃, (always_ite ..).2 ?_⟩
          split
          case isTrue => exact fun h => absurd h (by decide)
          case isFalse hn =>
            have hreply : Reply ([a, b, c, d] ++ r'.data) :=
              ⟨c, d, r'.data, by rw [hd, hlen' (not_not.1 hn)], by rw [not_not.1 ha, not_not.1 hb]⟩
            refine ((orderly_wordless (wordless_setUpstreamAddr _) hG₃).and
              (post_setUpstreamAddr (numeric_of_addrRest hd) _)).bind ?_
            rintro res w₄ ⟨⟨hsent, hread⟩, hmeets⟩
            refine (always_ite ..).2 ?_
            split
            case isTrue => exact fun h => absurd h (by decide)
            case isFalse hres =>
              exact fun _ => ⟨_, hreply, hsent, by rw [hread, List.append_assoc],
                hmeets (Int.not_lt.1 hres)⟩

/-! ## The functions that write -/

theorem orderly_writeAuthMethods (hG : G w.sent w.read)
    (hnext : G (w.sent ++ w.greeting) w.read) :
    Orderly G writeAuthMethods w fun _ w' => w' = { w with sent := w.sent ++ w.greeting } := by
  rintro client w₁ ⟨rfl, rfl⟩
  refine ⟨hG, ?_⟩
  rintro self w₂ ⟨-, rfl⟩
  refine ⟨hG, ?_⟩
  rintro res w₃ rfl
  refine ⟨hnext, (always_ite ..).2 ?_⟩
  split
  · rfl
  · rfl

theorem orderly_writeAuthCreds (hG : G w.sent w.read)
    (hnext : G (w.sent ++ w.client.login) w.read) :
    Orderly G writeAuthCreds w fun _ w' => w' = { w with sent := w.sent ++ w.client.login } := by
  rintro client w₁ ⟨rfl, rfl⟩
  refine ⟨hG, ?_⟩
  simp only [Prog.bind]
  cases hu : w₁.client.user with
  | none =>
    rw [HevSocks5ClientObj.login, hu]
    simp
  | some user =>
    cases hp : w₁.client.pass with
    | none =>
      rw [HevSocks5ClientObj.login, hu, hp]
      simp
    | some pass =>
      rw [HevSocks5ClientObj.login, hu, hp] at hnext ⊢
      rintro self w₂ ⟨-, rfl⟩
      refine ⟨hG, ?_⟩
      rintro res w₃ rfl
      refine ⟨hnext, (always_ite ..).2 ?_⟩
      split
      · rfl
      · rfl

/-- The address is taken, and nothing else has changed. -/
theorem orderly_getUpstreamAddr (hG : G w.sent w.read) :
    Orderly G getUpstreamAddr w fun r w' => w'.sent = w.sent ∧ w'.read = w.read ∧
      (∀ block, r = some block → block.mem = w.dialog.address) ∧ (w.Joins → w'.Joins) := by
  have hnew (v : Caller) (hv : v = w) (atype : Octet) : Orderly G (newAddr atype) v fun r w' =>
      w'.sent = w.sent ∧ w'.read = w.read ∧
        (∀ block, r = some block → block.mem = .ofList [atype]) ∧ (w.Joins → w'.Joins) := by
    subst hv
    rintro ptr w₁ rfl
    refine ⟨hG, ?_⟩
    cases ptr with
    | none => exact ⟨rfl, rfl, fun _ h => (nomatch h), id⟩
    | some ptr => exact ⟨rfl, rfl, fun block h => by rw [← Option.some.inj h], id⟩
  rintro client w₁ ⟨rfl, rfl⟩
  refine ⟨hG, ?_⟩
  simp only [Prog.bind, Dialog.address, dialog]
  cases hk : w₁.client.klass with
  | tcp addr =>
    rintro _ w₂ rfl
    refine ⟨hG, rfl, rfl, fun block h => by rw [h], ?_⟩
    rintro ⟨-, fd, hfd⟩
    cases hk.symm.trans hfd
  | udp fd =>
    rintro self w₂ ⟨rfl, rfl⟩
    refine ⟨hG, ?_⟩
    simp only [Prog.inl, Prog.bind]
    cases w₂.self.addrFamily with
    | unspec => exact ⟨rfl, rfl, fun _ h => (nomatch h), id⟩
    | ipv4 => exact hnew w₂ rfl _
    | ipv6 => exact hnew w₂ rfl _

theorem orderly_writeRequest (hready : w.dialog.Ready) (hG : G w.sent w.read)
    (hnext : G (w.sent ++ w.dialog.request) w.read) :
    Orderly G writeRequest w fun r w' => 0 ≤ r →
      w'.sent = w.sent ++ w.dialog.request ∧ w'.read = w.read ∧ (w.Joins → w'.Joins) := by
  rintro self w₁ ⟨rfl, rfl⟩
  refine ⟨hG, ?_⟩
  simp only [Prog.inl, Prog.bind]
  have hlen := hready.address
  cases hcmd : reqCmd w₁.self.type with
  | none => exact fun h => absurd h (by decide)
  | some cmd =>
    refine (orderly_getUpstreamAddr hG).bind ?_
    rintro addr w₂ ⟨hsent, hread, hmem, hjoins⟩
    have hG₂ : G w₂.sent w₂.read := by rwa [hsent, hread]
    cases addr with
    | none => exact fun e => e.elim
    | some block =>
      have hrequest : [version5, cmd, 0] ++ block.mem.read (hevSocks5AddrLen block.mem).toNat =
          w₁.dialog.request := by
        rw [hmem block rfl, Dialog.request, show w₁.dialog.self.type = w₁.self.type from rfl, hcmd]
        rfl
      dsimp only
      rw [if_neg (by rw [hmem block rfl]; omega)]
      rintro self w₃ ⟨-, rfl⟩
      refine ⟨hG₂, ?_⟩
      rintro res w₄ rfl
      have hG₄ : G (w₃.sent ++ w₁.dialog.request) w₃.read := by rwa [hsent, hread]
      rw [hrequest]
      refine ⟨hG₄, (always_ite ..).2 ?_⟩
      split
      case isTrue => exact fun h => absurd h (by decide)
      case isFalse =>
        rintro _ w₅ rfl
        exact ⟨hG₄, fun _ => ⟨by rw [hsent], hread, hjoins⟩⟩

/-! ## The handshakes -/

end

section
variable {c w : Caller} {pipeline : Bool}

theorem Caller.Alike.request {c w : Caller} (h : c.Alike w) :
    w.dialog.request = c.dialog.request := by
  have htype : w.dialog.self.type = c.dialog.self.type := h.type
  rw [Dialog.request, Dialog.request, h.address, htype]

theorem Caller.Alike.ready {c w : Caller} (h : c.Alike w) (hc : c.dialog.Ready) : w.dialog.Ready :=
  ⟨h.type ▸ hc.type, h.address ▸ hc.address⟩

theorem Caller.Alike.greeting {c w : Caller} (h : c.Alike w) : w.greeting = c.greeting := by
  rw [Caller.greeting, Caller.greeting, h.client]

theorem Caller.Alike.joins {c w : Caller} (h : c.Alike w) (hc : c.Joins) : w.Joins := by
  obtain ⟨htype, fd, hfd⟩ := hc
  exact ⟨h.type.trans htype, fd, by rw [h.client, hfd]⟩

/-- The end of both handshakes. -/
theorem orderly_reply {G : List Octet → List Octet → Prop}
    (hG : ∀ data, G w.sent (w.read ++ data)) : Orderly G (do
      let res ← readResponse
      if res < 0 then return -1 else return 0) w fun r w' => r = 0 → ∃ reply, Reply reply ∧
        w'.sent = w.sent ∧ w'.read = w.read ++ reply ∧ (w.Joins → w'.Meets reply) :=
  orderly_then (k := fun _ => pure 0) (orderly_readResponse hG) fun _ _ h _ => h

theorem orderly_response {G : List Octet → List Octet → Prop}
    (hG : ∀ data, G w.sent (w.read ++ data)) : Orderly G handshakePipeline.response w fun r w' =>
      r = 0 → ∃ reply, Reply reply ∧ w'.sent = w.sent ∧ w'.read = w.read ++ reply ∧
        (w.Joins → w'.Meets reply) :=
  orderly_reply hG

/-- The request and the reply. -/
theorem orderly_request {G : List Octet → List Octet → Prop} (hready : w.dialog.Ready)
    (hG : G w.sent w.read) (hnext : ∀ data, G (w.sent ++ w.dialog.request) (w.read ++ data)) :
    Orderly G handshakeStandard.request w fun r w' => r = 0 → ∃ reply, Reply reply ∧
      w'.sent = w.sent ++ w.dialog.request ∧ w'.read = w.read ++ reply ∧
        (w.Joins → w'.Meets reply) := by
  have hasked : G (w.sent ++ w.dialog.request) w.read := by simpa using hnext []
  refine orderly_then (orderly_writeRequest hready hG hasked) ?_
  rintro _ w₁ ⟨hsent, hread, hjoins⟩
  rw [← hsent, ← hread] at hnext ⊢
  refine (orderly_reply hnext).mono fun r w' h hr => ?_
  obtain ⟨reply, hreply, hsent', hread', hmeets⟩ := h hr
  exact ⟨reply, hreply, hsent', hread', fun hw => hmeets (hjoins hw)⟩

/-- **A client that waits** for each answer of the server. -/
theorem orderly_handshakeStandard (hc : c.dialog.Ready) (hw : c.Alike w) (hsent : w.sent = [])
    (hread : w.read = []) :
    Orderly (Said c false) handshakeStandard w fun r w' =>
      r = 0 → Done c false w'.sent w'.read ∧ c.Joined w' := by
  have hgreeting := hw.greeting
  have hrequest := hw.request
  have hready := hw.ready hc
  have hlogin : w.client.login = c.client.login := by rw [hw.client]
  refine orderly_then (R := fun _ w' => w' = { w with sent := c.greeting }) ?_ ?_
  · refine (orderly_writeAuthMethods ?_ ?_).mono ?_
    · rw [hsent, hread]
      exact .silent
    · rw [hsent, List.nil_append, hgreeting]
      exact .greeted
    · rintro _ _ rfl -
      rw [hsent, List.nil_append, hgreeting]
  rintro _ _ rfl
  refine orderly_then (orderly_readAuthMethod fun _ => .greeted) ?_
  rintro _ _ ⟨m, rfl, rfl⟩
  simp only [hread, List.nil_append]
  refine (always_ite ..).2 ?_
  split
  case isTrue hm =>
    obtain rfl : m = authMethodUser := UInt8.toNat_inj.1 (by omega)
    refine orderly_then (R := fun _ w' => w' = { w with
      sent := c.greeting ++ c.client.login, read := selects authMethodUser }) ?_ ?_
    · refine (orderly_writeAuthCreds .greeted ?_).mono ?_
      · rw [hlogin]
        exact .loggedIn List.prefix_rfl
      · rintro _ _ rfl -
        rw [hlogin]
    rintro _ _ rfl
    refine orderly_then (orderly_readAuthCreds fun data => .loggedIn (List.prefix_append _ _)) ?_
    rintro _ _ rfl
    have hin : Said c false (c.greeting ++ c.client.login) accepts := .loggedIn (by decide)
    refine (orderly_request (w := { w with sent := c.greeting ++ c.client.login, read := accepts })
      ⟨hready.type, hready.address⟩ hin fun data => ?_).mono ?_
    · show Said c false (_ ++ w.dialog.request) _
      rw [hrequest]
      exact .asked (List.prefix_append _ _)
    · rintro r w' h rfl
      obtain ⟨reply, hreply, hsent', hread', hmeets⟩ := h rfl
      refine ⟨.login hreply hread' (hsent'.trans ?_), fun hjoins =>
        ⟨_, reply, .inr rfl, hreply, hread', hmeets (hw.joins hjoins)⟩⟩
      show _ ++ w.dialog.request = _
      rw [hrequest]
  case isFalse =>
    refine (always_ite ..).2 ?_
    split
    case isTrue => exact fun h => absurd h (by decide)
    case isFalse hm =>
      obtain rfl : m = authMethodNone := UInt8.toNat_inj.1 (by omega)
      have hin : Said c false c.greeting (selects authMethodNone) := .greeted
      refine (orderly_request (w := { w with sent := c.greeting, read := selects authMethodNone })
        ⟨hready.type, hready.address⟩ hin fun data => ?_).mono ?_
      · show Said c false (_ ++ w.dialog.request) _
        rw [hrequest]
        exact .askedFree (List.prefix_append _ _)
      · rintro r w' h rfl
        obtain ⟨reply, hreply, hsent', hread', hmeets⟩ := h rfl
        refine ⟨.free hreply hread' (hsent'.trans ?_), fun hjoins =>
          ⟨_, reply, .inl rfl, hreply, hread', hmeets (hw.joins hjoins)⟩⟩
        show _ ++ w.dialog.request = _
        rw [hrequest, if_neg (by decide), List.append_nil]

/-- **A client that sends everything at once**, and then reads. -/
theorem orderly_handshakePipeline (hc : c.dialog.Ready) (hw : c.Alike w) (hsent : w.sent = [])
    (hread : w.read = []) :
    Orderly (Said c true) handshakePipeline w fun r w' =>
      r = 0 → Done c true w'.sent w'.read ∧ c.Joined w' := by
  have hgreeting := hw.greeting
  have hrequest := hw.request
  have hready := hw.ready hc
  have hlogin : w.client.login = c.client.login := by rw [hw.client]
  have hsilent : Said c true w.sent w.read := by
    rw [hsent, hread]
    exact .silent
  refine orderly_then (R := fun _ w' => w' = { w with sent := c.greeting }) ?_ ?_
  · refine (orderly_writeAuthMethods hsilent ?_).mono ?_
    · rw [hsent, hread, List.nil_append, hgreeting]
      exact .begun
    · rintro _ _ rfl -
      rw [hsent, List.nil_append, hgreeting]
  rintro _ _ rfl
  refine orderly_then (R := fun _ w' => w' = { w with sent := c.greeting ++ c.client.login }) ?_ ?_
  · refine (orderly_writeAuthCreds ?_ ?_).mono ?_
    · rw [hread]
      exact .begun
    · rw [hread, hlogin]
      exact .begunLogin
    · rintro _ _ rfl -
      rw [hlogin]
  rintro _ _ rfl
  have hasked : Said c true (c.greeting ++ c.client.login ++ w.dialog.request) w.read := by
    rw [hrequest]
    exact .all
  refine orderly_then (orderly_writeRequest ⟨hready.type, hready.address⟩ ?_ hasked) ?_
  · rw [hread]
    exact .begunLogin
  rintro _ w₁ ⟨hsent₁, hread₁, hjoins₁⟩
  replace hsent₁ : w₁.sent = c.greeting ++ c.client.login ++ c.dialog.request :=
    hsent₁.trans (congrArg _ hrequest)
  replace hread₁ : w₁.read = [] := hread₁.trans hread
  have hall {w' : Caller} (h : w'.sent = w₁.sent) (data : List Octet) :
      Said c true w'.sent (w'.read ++ data) := by
    rw [h, hsent₁]
    exact .all
  refine orderly_then (orderly_readAuthMethod (hall rfl)) ?_
  rintro _ _ ⟨m, rfl, rfl⟩
  refine (always_ite ..).2 ?_
  split
  case isTrue hm =>
    obtain rfl : m = authMethodUser := UInt8.toNat_inj.1 (by omega)
    refine orderly_then (orderly_readAuthCreds (hall rfl)) ?_
    rintro _ _ rfl
    refine (orderly_response (w := { w₁ with
      read := w₁.read ++ selects authMethodUser ++ [authVersion1, HevSocks5ResRep.succ.octet] })
      (hall rfl)).mono ?_
    rintro r w' h rfl
    obtain ⟨reply, hreply, hsent', hread', hmeets⟩ := h rfl
    replace hread' : w'.read = accepts ++ reply := by
      rw [hread', hread₁]
      rfl
    exact ⟨.login hreply hread' (hsent'.trans hsent₁), fun hjoins =>
      ⟨_, reply, .inr rfl, hreply, hread', hmeets (hjoins₁ (hw.joins hjoins))⟩⟩
  case isFalse =>
    refine (always_ite ..).2 ?_
    split
    case isTrue => exact fun h => absurd h (by decide)
    case isFalse hm =>
      obtain rfl : m = authMethodNone := UInt8.toNat_inj.1 (by omega)
      refine (orderly_response (w := { w₁ with read := w₁.read ++ selects authMethodNone })
        (hall rfl)).mono ?_
      rintro r w' h rfl
      obtain ⟨reply, hreply, hsent', hread', hmeets⟩ := h rfl
      replace hread' : w'.read = selects authMethodNone ++ reply := by
        rw [hread', hread₁]
        rfl
      refine ⟨.free hreply hread' (hsent'.trans ?_), fun hjoins =>
        ⟨_, reply, .inl rfl, hreply, hread', hmeets (hjoins₁ (hw.joins hjoins))⟩⟩
      rw [if_pos rfl]
      exact hsent₁

/-! ## Every run -/

theorem orderly_setTimeout {G : List Octet → List Octet → Prop} (timeout : Int)
    (hG : G w.sent w.read) : Orderly G (liftM (hevSocks5SetTimeout timeout)) w fun _ w' =>
      w.Alike w' ∧ w'.sent = w.sent ∧ w'.read = w.read ∧ w'.peer = w.peer := by
  rintro self w₁ ⟨rfl, rfl⟩
  refine ⟨hG, ?_⟩
  simp only [Prog.bind]
  split
  · rintro _ w₂ rfl
    exact ⟨hG, ⟨rfl, rfl, rfl⟩, rfl, rfl, rfl⟩
  · exact ⟨⟨rfl, rfl, rfl⟩, rfl, rfl, rfl⟩

theorem orderly_handshakeEnd {G : List Octet → List Octet → Prop} (res : Int)
    (hG : G w.sent w.read) : Orderly G (handshakeEnd res) w fun r w' =>
      r = res ∧ w'.sent = w.sent ∧ w'.read = w.read ∧ ∀ reply, w.Meets reply → w'.Meets reply := by
  have hudp : Orderly G (do
      hevSocks5SetTimeout (← hevSocks5GetUdpTimeout)
      return res : ClientM Int) w fun r w' => r = res ∧ w'.sent = w.sent ∧ w'.read = w.read ∧
        ∀ reply, w.Meets reply → w'.Meets reply := by
    rintro timeout w₁ rfl
    refine ⟨hG, ?_⟩
    refine (orderly_setTimeout timeout hG).bind ?_
    rintro _ w₂ ⟨halike, hsent, hread, hpeer⟩
    refine ⟨rfl, hsent, hread, ?_⟩
    rintro reply ⟨fd, hfd, haddr⟩
    exact ⟨fd, by rw [halike.client, hfd], by rw [hpeer, haddr]⟩
  rintro self w₁ ⟨rfl, rfl⟩
  refine ⟨hG, ?_⟩
  simp only [Prog.inl, Prog.bind]
  split
  · exact hudp
  · exact hudp
  · exact ⟨rfl, rfl, rfl, fun _ => id⟩

theorem orderly_handshake (pipeline : Bool) (hc : c.dialog.Ready) (hsent : c.sent = [])
    (hread : c.read = []) : Orderly (Said c pipeline) (handshake pipeline) c fun r w' =>
      r = 0 → Done c pipeline w'.sent w'.read ∧ c.Joined w' := by
  have hsilent : Said c pipeline c.sent c.read := by
    rw [hsent, hread]
    exact .silent
  unfold handshake
  rintro timeout w₁ rfl
  refine ⟨hsilent, ?_⟩
  refine (orderly_setTimeout timeout hsilent).bind ?_
  rintro _ w₂ ⟨halike, hsent₂, hread₂, -⟩
  rw [← hsent₂, ← hread₂] at hsilent
  have hmode : Orderly (Said w₁ pipeline) (modeOf pipeline) w₂ fun r w' =>
      r = 0 → Done w₁ pipeline w'.sent w'.read ∧ w₁.Joined w' := by
    cases pipeline
    · exact orderly_handshakeStandard hc halike (hsent₂.trans hsent) (hread₂.trans hread)
    · exact orderly_handshakePipeline hc halike (hsent₂.trans hsent) (hread₂.trans hread)
  refine (hmode.last hsilent).bind ?_
  rintro res w₃ ⟨hsaid, hdone⟩
  refine (orderly_handshakeEnd res hsaid).mono ?_
  rintro _ w₄ ⟨rfl, hsent₄, hread₄, hmeets⟩ hres
  obtain ⟨hdone, hjoined⟩ := hdone hres
  rw [hsent₄, hread₄]
  refine ⟨hdone, fun hjoins => ?_⟩
  obtain ⟨first, reply, hfirst, hreply, hread', hmeets'⟩ := hjoined hjoins
  exact ⟨first, reply, hfirst, hreply, hread₄.trans hread', hmeets reply hmeets'⟩

/-- **The client speaks in order.**  Whatever the server sends and whichever call fails: in every
    state of a handshake, a client that waits has sent its login only when the user method was
    selected, and its request only when no login was asked for or the login was accepted; a client
    that pipelines has sent everything before it receives anything.  A handshake that succeeds has
    received the selection of a method, the acceptance of the login if it is the user method, and
    a reply of success, and no octet more. -/
theorem said_in_order (pipeline : Bool) (hc : c.dialog.Ready) (hsent : c.sent = [])
    (hread : c.read = []) :
    (∀ w, Reaches caller (handshake pipeline) c w → Said c pipeline w.sent w.read) ∧
      ∀ w, Returns caller (handshake pipeline) c 0 w → Done c pipeline w.sent w.read := by
  obtain ⟨hreaches, hreturns⟩ := always_iff.1 (orderly_handshake pipeline hc hsent hread)
  exact ⟨hreaches, fun w hr => (hreturns 0 w hr rfl).1⟩

end

/-! ## A client that logs in -/

/-- A client for TCP with the name u and the password p. -/
def userCaller : Caller where
  self := ⟨3, -1, .tcp, false, .ipv4⟩
  client := ⟨some [117], some [112], .tcp (some ⟨16, .ofList [1, 192, 0, 2, 7, 0, 53]⟩)⟩
  sent := []
  read := []
  peer := fun _ => none

theorem userCaller_ready : userCaller.dialog.Ready := ⟨by decide, by decide⟩

/-- A server whose answers are the octets `heard`. -/
def grants (heard : List Octet) : Caller → {β : Type} → Both Op ClientOp β → Option (β × Caller) :=
  fun w _ o =>
  match o with
  | .inl .base => some (w.self, w)
  | .inl (.setBase self) => some ((), { w with self })
  | .inl (.recv _ n _) =>
    let data := (heard.drop w.read.length).take n
    if data.length = n then some (⟨n, data⟩, { w with read := w.read ++ data }) else none
  | .inl (.send _ data) => some (data.length, { w with sent := w.sent ++ data })
  | .inl (.sendmsg _ data) => some (data.length, { w with sent := w.sent ++ data })
  | .inl .tcpTimeout => some (-1, w)
  | .inl .udpTimeout => some (-1, w)
  | .inl (.socket _) => some (6, { w with peer := Function.update w.peer 6 none })
  | .inl (.setsockopt ..) => some (0, w)
  | .inl (.addFd _) => some (0, w)
  | .inl (.binder ..) => some (0, w)
  | .inl (.socketConnect fd addr) =>
    some (0, { w with peer := Function.update w.peer fd (some addr) })
  | .inr .client => some (w.client, w)
  | .inr (.setClient self) => some ((), { w with client := self })
  | .inr .malloc0 => some (some 16, w)
  | .inr (.free _) => some ((), w)
  | _ => none

theorem caller_of_grants (heard : List Octet) (w : Caller) {β : Type} (o : Both Op ClientOp β)
    (b : β) (w' : Caller) (h : grants heard w o = some (b, w')) : caller w o b w' := by
  rcases o with o | o
  · cases o <;> simp only [grants, Option.some.injEq, Prod.mk.injEq, reduceCtorEq] at h
    case base =>
      obtain ⟨rfl, rfl⟩ := h
      exact ⟨rfl, rfl⟩
    case recv =>
      split at h
      · rename_i hn
        obtain ⟨rfl, rfl⟩ := Prod.mk.inj (Option.some.inj h)
        exact ⟨Nat.le_of_eq hn, fun _ => hn, rfl⟩
      · cases h
    case socket | socketConnect =>
      obtain ⟨rfl, rfl⟩ := h
      rfl
    all_goals
      obtain ⟨-, rfl⟩ := h
      rfl
  · cases o <;> simp only [grants, Option.some.injEq, Prod.mk.injEq, reduceCtorEq] at h
    case client =>
      obtain ⟨rfl, rfl⟩ := h
      exact ⟨rfl, rfl⟩
    all_goals
      obtain ⟨-, rfl⟩ := h
      rfl

/-- The user method is selected, and the login and the request are accepted. -/
def granted : List Octet := [5, 2, 1, 0, 5, 0, 0, 1, 192, 0, 2, 7, 0, 53]

theorem said_in_order_login : ∃ w, Returns caller (handshake false) userCaller 0 w ∧
    Done userCaller false w.sent w.read := by
  obtain ⟨r, w, hrun, hr⟩ := exists_returns_of_exec (caller_of_grants granted)
    (x := handshake false) (w := userCaller) (fun r _ => r = 0) (by decide +kernel)
  obtain rfl : r = 0 := of_decide_eq_true hr
  exact ⟨w, hrun, (said_in_order false userCaller_ready rfl rfl).2 w hrun⟩

end HevSocks5
