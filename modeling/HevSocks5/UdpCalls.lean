/-
  Which calls the parts of the splicer make.

  The receiving half of `fwd_f`, its sending half and the yielder call different
  parts of the system, so what one of them does not touch is known without
  following it.
-/
import HevSocks5.Udp
import HevSocks5.Resolver

namespace HevSocks5

open Interact Sys

namespace Sys.Op

/-- The calls that take octets from a stream. -/
def Takes {β : Type} : Op β → Prop
  | recv .. | recvmsg .. => True
  | _ => False

/-- The calls that receive from a stream. -/
def ReceivesTcp {β : Type} : Op β → Prop
  | getFd | recv .. | recvmsg .. => True
  | _ => False

/-- The calls of the receiving half of `fwd_f`. -/
def Receives {β : Type} : Op β → Prop
  | base | setBase _ | getFd | recv .. | recvmsg .. | recvmmsg .. | connect .. => True
  | _ => False

/-- The calls of the sending half of `fwd_f` but for the send. -/
def Prepares {β : Type} : Op β → Prop
  | base | errno | undefAddr | undefMsg | binder .. => True
  | inetPton4 _ | inetPton6 _ | getaddrinfo .. => True
  | _ => False

/-- The calls of the sending half of `fwd_f`. -/
def Forwards {β : Type} : Op β → Prop
  | base | errno | undefAddr | undefMsg | binder .. | sendmmsg .. => True
  | inetPton4 _ | inetPton6 _ | getaddrinfo .. => True
  | _ => False

/-- The calls of the yielder. -/
def Yields {β : Type} : Op β → Prop
  | base | setBase _ | recvRaw _ | errno | taskYield _ | taskSleep _ => True
  | _ => False

/-- The calls of the splicer before its loop. -/
def Sets {β : Type} : Op β → Prop
  | udpCopyBufferNums | malloc | getFd | addFd _ | modFd _ => True
  | _ => False

/-- The calls that hand no datagram on. -/
def Keeps {β : Type} : Op β → Prop
  | sendmmsg .. => False
  | _ => True

/-- The calls that hand nothing on. -/
def Holds {β : Type} : Op β → Prop
  | sendmmsg .. | sendmsg .. => False
  | _ => True

/-- The calls that are not about datagrams. -/
def Aside {β : Type} : Op β → Prop
  | recvmmsg .. | sendmmsg .. | sendmsg .. => False
  | _ => True

theorem Takes.receivesTcp {β : Type} {o : Op β} (h : o.Takes) : o.ReceivesTcp := by
  cases o <;> first | exact h | exact h.elim

theorem ReceivesTcp.receives {β : Type} {o : Op β} (h : o.ReceivesTcp) : o.Receives := by
  cases o <;> first | exact h | exact h.elim

theorem Resolves.prepares {β : Type} {o : Op β} (h : o.Resolves) : o.Prepares := by
  cases o <;> first | exact h | exact h.elim

theorem Prepares.forwards {β : Type} {o : Op β} (h : o.Prepares) : o.Forwards := by
  cases o <;> first | exact h | exact h.elim

theorem Holds.keeps {β : Type} {o : Op β} (h : o.Holds) : o.Keeps := by
  cases o <;> first | exact h.elim | trivial

theorem Aside.holds {β : Type} {o : Op β} (h : o.Aside) : o.Holds := by
  cases o <;> first | exact h.elim | trivial

end Sys.Op

open Sys.Op

namespace HevSocks5UDP

variable {fd : Int} {nonblock bind : Bool} {slots : List Slot}

/-! ## Receiving from a stream -/

theorem only_recvHead : (recvHead fd nonblock).Only Takes :=
  .bind ((only_op _).2 trivial) fun _ =>
    .ite (.bind ((only_op _).2 trivial) fun _ => only_pure _) (only_pure _)

theorem only_recvSlot (s : Slot) : (recvSlot fd nonblock s).Only Takes := by
  refine .bind only_recvHead fun r => .ite (only_pure _) ?_
  refine .ite (only_pure _) (.ite (only_pure _) ?_)
  exact .bind ((only_op _).2 trivial) fun _ => .ite (only_pure _) (only_pure _)

theorem only_recvmmsgTcpLoop (done : List Slot) :
    (recvmmsgTcpLoop fd nonblock slots done).Only Takes := by
  induction slots generalizing done with
  | nil => exact only_pure _
  | cons s slots ih =>
    refine .bind (only_recvSlot s) fun t => ?_
    cases t with
    | head res => exact only_pure _
    | refused => exact only_pure _
    | body res s => exact only_pure _
    | message s => exact ih _

theorem only_recvmmsgTcp : (recvmmsgTcp slots nonblock).Only ReceivesTcp :=
  .bind ((only_op _).2 trivial) fun _ => (only_recvmmsgTcpLoop _).mono Takes.receivesTcp

/-! ## The receiving half of `fwd_f` -/

theorem only_associate (ds : List Datagram) : (associate fd ds).Only Receives := by
  refine .bind ((only_op _).2 trivial) fun self => .ite (only_pure _) ?_
  refine .bind ((only_op _).2 trivial) fun res => .ite (only_pure _) ?_
  refine .bind ((only_op _).2 trivial) fun self => ?_
  exact .bind ((only_op _).2 trivial) fun _ => only_pure _

theorem only_recvmmsgUdp : (recvmmsgUdp slots nonblock).Only Receives := by
  refine .bind ((only_op _).2 trivial) fun fd => .bind ((only_op _).2 trivial) fun r => ?_
  refine .ite (only_pure _) (.bind (only_associate r.2) fun ok => .ite (only_pure _) ?_)
  cases parseUdp (fill slots r.2) (r.2.take r.1.toNat) <;> exact only_pure _

theorem only_recvmmsg : (recvmmsg slots nonblock).Only Receives := by
  refine .bind ((only_op _).2 trivial) fun self => ?_
  cases self.type
  case udpInTcp => exact only_recvmmsgTcp.mono ReceivesTcp.receives
  case udpInUdp => exact only_recvmmsgUdp
  all_goals exact only_pure _

/-! ## The sending half of `fwd_f` -/

theorem only_fwdResult (res : Int) : (fwdResult res).Only Prepares :=
  .ite (.ite (.bind ((only_op _).2 trivial) fun _ => .ite (only_pure _) (only_pure _))
    (only_pure _)) (only_pure _)

theorem only_fields (m : Option HevSocks5UDPMsg) : (fields m).Only Prepares := by
  rcases m with _ | ⟨_ | _ | _, _, _⟩
  · exact (only_op _).2 trivial
  · exact .bind ((only_op _).2 trivial) fun _ => only_pure _
  · exact only_pure _
  · exact only_pure _

theorem only_resolveAll (ms : List (Option HevSocks5UDPMsg)) : (resolveAll ms).Only Prepares := by
  induction ms with
  | nil => exact only_pure _
  | cons m ms ih =>
    refine .bind (only_fields m) fun r => ?_
    obtain ⟨_ | addr, buf, len⟩ := r
    · exact only_pure _
    refine .ite (only_pure _) (.bind ((only_op _).2 trivial) fun self => ?_)
    refine .bind ((only_hevSocks5AddrIntoSockaddr6 _ _ _).mono Resolves.prepares) fun r => ?_
    refine .ite (only_pure _) (.bind ih fun r => ?_)
    cases r <;> exact only_pure _

theorem only_bindFirst (fd : Int) (bind : Bool) (dvec : List (SockAddrIn6 × List Octet)) :
    (bindFirst fd dvec bind).Only Prepares :=
  .ite (only_pure _) (.bind ((only_op _).2 trivial) fun _ => only_pure _)

theorem only_fwdRest (fd : Int) (bind : Bool) (slots : List Slot) (res : Int) :
    (fwdRest fd res slots bind).Only Forwards := by
  refine .ite ?_ (.bind ((only_fwdResult res).mono Prepares.forwards) fun _ => only_pure _)
  refine .bind ((only_resolveAll _).mono Prepares.forwards) fun r => ?_
  cases r with
  | none => exact only_pure _
  | some dvec =>
    refine .bind ((only_bindFirst fd bind dvec).mono Prepares.forwards) fun _ => ?_
    refine .ite (only_pure _) (.bind ((only_op _).2 trivial) fun res => ?_)
    exact .bind ((only_fwdResult res).mono Prepares.forwards) fun _ => only_pure _

/-! ## The yielder -/

theorem only_hevSocks5TaskIoYielder (type : HevTaskYieldType) :
    (hevSocks5TaskIoYielder type).Only Yields := by
  cases type with
  | yield => exact .bind ((only_op _).2 trivial) fun _ => only_pure _
  | waitio =>
    refine .bind ((only_op _).2 trivial) fun self => .ite ?_ ?_
    · exact .bind ((only_op _).2 trivial) fun _ => only_pure _
    · exact .bind ((only_op _).2 trivial) fun _ => .ite (only_pure _) (only_pure _)

theorem only_hevSocks5SetTimeout (timeout : Int) : (hevSocks5SetTimeout timeout).Only Yields :=
  .bind ((only_op _).2 trivial) fun _ => .ite ((only_op _).2 trivial) (only_pure _)

theorem only_taskIoYielder (type : HevTaskYieldType) : (taskIoYielder type).Only Yields := by
  have hstop : (do hevSocks5SetTimeout 0; return -1 : SysM Int).Only Yields :=
    .bind (only_hevSocks5SetTimeout 0) fun _ => only_pure _
  refine .bind ((only_op _).2 trivial) fun self => .ite ?_ (only_hevSocks5TaskIoYielder type)
  refine .bind ((only_op _).2 trivial) fun res => .ite hstop ?_
  refine .ite ?_ (only_hevSocks5TaskIoYielder type)
  exact .bind ((only_op _).2 trivial) fun _ => .ite hstop (only_hevSocks5TaskIoYielder type)

/-! ## The splicer -/

theorem only_modOrAddFd : (modOrAddFd fd).Only Sets :=
  .bind ((only_op _).2 trivial) fun _ =>
    .ite (.bind ((only_op _).2 trivial) fun _ => only_pure _) (only_pure _)

theorem only_addOrModFd : (addOrModFd fd).Only Sets :=
  .bind ((only_op _).2 trivial) fun _ =>
    .ite (.bind ((only_op _).2 trivial) fun _ => only_pure _) (only_pure _)

/-- **The splicer does as its loop does**, from a state that the calls before it preserve. -/
theorem always_splicer_of_loop {W : Type} {E : Env Op W} {I J Q : W → Prop} {rounds : Nat} {w : W}
    (hset : ∀ {w w' : W} {β : Type} {o : Op β} {b : β}, o.Sets → I w → E w o b w' → J w' ∧ I w')
    (hstop : ∀ {w : W}, I w → Q w)
    (hloop : ∀ {w : W} (bufsF bufsB : List Mem), I w →
      Always E J (splicerLoop fd rounds 1 1 false bufsF bufsB) w fun _ w' => Q w') (hw : I w) :
    Always E J (splicer fd rounds) w fun _ w' => Q w' := by
  have hop : ∀ {α : Type} {x : SysM α} {w : W}, x.Only Sets → I w →
      Always E J x w fun _ w' => I w' := by
    intro α x w hx hw
    exact hx.always (fun ho h he => hset ho h he) hw
  unfold splicer
  refine (hop ((only_op Op.udpCopyBufferNums).2 trivial) hw).bind fun num w₁ h₁ => ?_
  refine (hop ((only_op Op.malloc).2 trivial) h₁).bind fun buf w₂ h₂ => ?_
  cases buf with
  | none => exact hstop h₂
  | some buf =>
    refine (hop ((only_op Op.getFd).2 trivial) h₂).bind fun fdA w₃ h₃ => ?_
    refine (hop only_modOrAddFd h₃).bind fun _ w₄ h₄ => ?_
    refine (hop only_addOrModFd h₄).bind fun _ w₅ h₅ => ?_
    exact (hloop _ _ h₅).bind fun _ _ h => h

end HevSocks5UDP

end HevSocks5
