/-
  Errors that are taken for "would block".

  `fwd_f` and `fwd_b` return 0, and the splicer goes on, when the last result is
  -1 and `errno` is `EAGAIN`.  But -1 is also the result for input that was
  received and refused, and then `errno` is what an earlier call has left there.

  `Minus` says which calls have such a result, from what the system calls have
  answered; an error is then taken for "would block" exactly when `errno` is
  `EAGAIN`.  Two more errors do not fail: a send that has failed after a part,
  and a refused frame before a frame that has come in part, whose octets are
  taken for a number of messages (`errorsFail_iff`).
-/
import HevSocks5.UdpAccept
import HevSocks5.UdpCalls

namespace HevSocks5

open Interact Sys HevSocks5UDP

/-- A system call that takes input, sends it on or connects, and what it has answered. -/
inductive IoEvent where
  | recv (len : Nat) (waitall : Bool) (r : Received)
  | recvmsg (len : Nat) (r : Received)
  | recvmmsg (ds : List Datagram)
  | connect (res : Int)
  | sendmsg (len : Nat) (res : Int)
  | sendmmsg (num : Nat) (res : Int)

def ioEvent {β : Type} (o : Op β) (b : β) : List IoEvent :=
  match o with
  | .recv _ n flags => [.recv n (flags = .waitall) b]
  | .recvmsg _ n => [.recvmsg n b]
  | .recvmmsg .. => [.recvmmsg b.2]
  | .connect .. => [.connect b]
  | .sendmsg _ data => [.sendmsg data.length b]
  | .sendmmsg _ msgs => [.sendmmsg msgs.length b]
  | _ => []

/-- The relay: its fields, and what is in `errno`. -/
structure Io where
  self : HevSocks5Obj
  errno : Errno

/-- The system calls of `fwd_f` and `fwd_b`.  Each of them may leave anything in `errno`. -/
def io : Env Op Io := fun w _ o b w' =>
  match o with
  | .base => b = w.self ∧ w' = w
  | .setBase self => w' = { w with self }
  | .errno => b = w.errno ∧ w' = w
  | .recv _ n flags => (∃ e, w' = { w with errno := e }) ∧ b.data.length ≤ n ∧
      if flags = .waitall then b.res = n → b.data.length = n
      else b.res = b.data.length ∨ b.res ≤ 0 ∧ b.data = []
  | .recvmsg _ n => (∃ e, w' = { w with errno := e }) ∧ b.data.length ≤ n ∧
      (b.res = n → b.data.length = n)
  | .recvmmsg _ lens _ => (∃ e, w' = { w with errno := e }) ∧ b.2.length ≤ lens.length ∧
      (b.1 = b.2.length ∨ b.1 ≤ 0 ∧ b.2 = [])
  | _ => ∃ e, w' = { w with errno := e }

/-- The relay, and the calls so far, the last one first. -/
def recordedIo : Env Op (Io × List IoEvent) := Env.Recorded io ioEvent

/-! ## What the calls have answered -/

/-- Something was taken from the socket. -/
def Consumed (log : List IoEvent) : Prop :=
  ∃ e ∈ log, match e with
    | .recv _ _ r | .recvmsg _ r => r.data ≠ []
    | .recvmmsg ds => ds ≠ []
    | _ => False

/-- What a send call was to send, and what it has answered. -/
def IoEvent.send? : IoEvent → Option (Nat × Int)
  | .sendmsg n res | .sendmmsg n res => some (n, res)
  | _ => none

/-- Something was sent on. -/
def Sent (log : List IoEvent) : Prop := ∃ e ∈ log, ∃ s ∈ e.send?, 0 < s.2

/-- Not all was sent: the send has failed, or it was aborted. -/
def NotAllSent (log : List IoEvent) : Prop := ∃ e ∈ log, ∃ s ∈ e.send?, s.2 < s.1

/-- A send has failed after a part. -/
def SentInPart (log : List IoEvent) : Prop := ∃ e ∈ log, ∃ s ∈ e.send?, 0 < s.2 ∧ s.2 < s.1

/-- The head of a frame that the slots of `fwd_f` refuse: the header is too short, or the payload
    does not fit. -/
def refusesHead (udp : List Octet) : Bool :=
  let c := udp.getD 2 0
  c < 5 || (ntohs (udp.getD 0 0, udp.getD 1 0)).toUInt64 >
    UInt64.ofNat udpBufSize - UInt64.ofNat (c.toNat - 3)

/-- A datagram that is refused: the address type is unknown, or the header is longer than the
    datagram. -/
def refusesDatagram (data : List Octet) : Bool :=
  let addrlen := hevSocks5AddrLen (.ofList (data.drop 3))
  4 ≤ data.length && (addrlen ≤ 0 || 3 + addrlen > data.length)

/-- A frame that is refused for what is behind the lengths of its head: the address type is
    unknown, or there is no payload. -/
def refusesFrame (udp : List Octet) : Bool :=
  hevSocks5AddrLen (.ofList (udp.drop 3)) ≤ 0 || ntohs (udp.getD 0 0, udp.getD 1 0) = 0

/-- A datagram of which nothing is sent: it is refused, or there is no payload. -/
def refusesPacket (data : List Octet) : Bool :=
  data.length < 4 || refusesDatagram data ||
    3 + hevSocks5AddrLen (.ofList (data.drop 3)) = data.length

/-- The head that the last calls have received. -/
def headOf : List IoEvent → Option (List Octet)
  | .recv n true r' :: .recv _ false r :: _ => if r'.res = n then some (r.data ++ r'.data) else none
  | .recv n false r :: _ => if r.res = n then some r.data else none
  | _ => none

/-- The last call has received what is refused whatever follows: a frame or a datagram. -/
def RefusedLast : List IoEvent → Prop
  | .recvmsg n r :: before => r.res = n ∧ ∃ udp ∈ headOf before, refusesFrame udp = true
  | .recvmmsg ds :: _ => ∃ d ∈ ds, refusesPacket d.data = true
  | _ => False

/-- **Input of `fwd_f` was refused**: a head, a frame or a datagram. -/
def Refused : List IoEvent → Prop
  | [] => False
  | e :: before => (∃ udp ∈ headOf (e :: before), refusesHead udp = true) ∨
      RefusedLast (e :: before) ∨ Refused before

def isBody : IoEvent → Bool
  | .recvmsg .. => true
  | _ => false

/-- **The result of the calls is -1**: the last one has failed so, or its input is refused. -/
def Minus : List IoEvent → Prop
  | .recv n true r' :: .recv _ false r :: before =>
    if r'.res = n then refusesHead (r.data ++ r'.data) = true
    else before.all (!isBody ·) = true ∧ r.res + r'.res = -1
  | .recv n false r :: _ => r.res = n ∧ refusesHead r.data = true
  | .recvmsg _ r :: _ => r.res = -1
  | .recvmmsg ds :: _ => ∃ d ∈ ds, refusesDatagram d.data
  | .connect res :: .recvmmsg ds :: _ => res < 0 ∨ ∃ d ∈ ds, refusesDatagram d.data
  | .sendmsg _ res :: _ => res ≤ 0
  | .sendmmsg _ res :: _ => res = -1
  | _ => False

/-- A frame was refused that came before a frame of which only a part has come: `fwd_f` takes the
    number of these octets for a number of messages. -/
def Miscounted : List IoEvent → Prop
  | .recvmsg n r :: before => 0 < r.res ∧ r.res ≠ n ∧ Refused before
  | _ => False

/-- A refused frame was not looked at, and others were sent on. -/
def Overlooked : List IoEvent → Prop
  | .sendmmsg _ res :: log => 0 < res ∧ Miscounted log
  | _ => False

/-- What `fwd_f` and `fwd_b` return for a result. -/
def resultOf (res : Int) (e : Errno) : Int :=
  if res ≤ 0 then if res = -1 ∧ e = .eagain then 0 else -1 else 1

theorem post_fwdResult_recorded (res : Int) (w : Io) (log : List IoEvent) :
    Post recordedIo (fwdResult res) (w, log) fun r w' =>
      r = resultOf res w.errno ∧ w' = (w, log) := by
  unfold fwdResult resultOf
  by_cases h : res ≤ 0
  · rw [if_pos h, if_pos h]
    by_cases hres : res = -1
    · simp only [if_pos hres, always_bind, always_op, always_ite, always_pure]
      rintro e ⟨w', log'⟩ ⟨⟨rfl, hw⟩, hlog⟩
      obtain rfl : w' = w := hw
      obtain rfl : log' = log := hlog
      simp [hres]
    · simp [hres]
  · simp [h]

/-! ## Receiving -/

section
variable {fd : Int} {nonblock : Bool} {w : Io} {log : List IoEvent}

theorem Consumed.cons {e : IoEvent} (h : Consumed log) : Consumed (e :: log) := by
  obtain ⟨e', he', htakes⟩ := h
  exact ⟨e', List.mem_cons_of_mem e he', htakes⟩

/-- The result of a receive call, as the log tells it. -/
def Tells (res : Int) (log : List IoEvent) : Prop := Consumed log → (res = -1 ↔ Minus log)

/-- What a head that was read, or not, says about the log. -/
structure HeadTells (log : List IoEvent) (res : Int) (udp : List Octet) (log' : List IoEvent) :
    Prop where
  complete : res = 5 → headOf log' = some udp ∧ (Minus log' ↔ refusesHead udp = true)
  incomplete : res ≠ 5 → headOf log' = none ∧ (log = [] → Tells res log') ∧
    (log.any isBody → ¬ Minus log')
  consumed : 0 < res ∨ Consumed log → Consumed log'
  refused : Refused log' → (∃ udp ∈ headOf log', refusesHead udp = true) ∨ Refused log

theorem post_recvHead_io :
    Post recordedIo (recvHead fd nonblock) (w, log) fun r w' =>
      w'.1.self = w.self ∧ HeadTells log r.1 r.2 w'.2 := by
  have hflags : dontwaitIf nonblock ≠ .waitall := by cases nonblock <;> decide
  simp only [recvHead, always_bind, always_op, always_ite, always_pure]
  rintro r ⟨w₁, _⟩ ⟨⟨⟨e, hw⟩, hle, hr⟩, hlog⟩
  simp only [ioEvent, hflags, decide_false, if_false, List.singleton_append] at hr hlog
  subst hlog hw
  have hconsumed : 0 < r.res ∨ Consumed log → Consumed (.recv 5 false r :: log) := by
    rintro (hpos | h)
    · refine ⟨_, List.mem_cons_self, fun hnil => ?_⟩
      rcases hr with hr | hr
      · rw [hnil, List.length_nil] at hr
        omega
      · omega
    · exact h.cons
  refine ⟨trivial, ?_⟩
  split
  · rename_i hlt
    rintro r' ⟨w₂, _⟩ ⟨⟨⟨e', hw'⟩, hle', hr'⟩, hlog'⟩
    simp only [ioEvent, decide_true, if_true, List.singleton_append] at hr' hlog'
    subst hlog' hw'
    have hn : ((5 - r.res).toNat : Int) = 5 - r.res := by omega
    have h5 : r.res + r'.res = 5 ↔ r'.res = ((5 - r.res).toNat : Int) := by omega
    refine ⟨trivial, rfl, fun hres => ?_, fun hres => ?_, fun _ => (hconsumed (.inl hlt.1)).cons,
      fun hrefused => ?_⟩
    · have hfull := h5.1 hres
      simp only [headOf, Minus, if_pos hfull, true_and]
    · have hpart := mt h5.2 hres
      simp only [headOf, Tells, Minus, if_neg hpart, true_and]
      constructor
      · rintro rfl -
        simp
      · rintro hany ⟨hall, -⟩
        simp [List.any_eq_not_all_not, hall] at hany
    · -- the first step alone has not received a head
      have hnot : r.res ≠ 5 := by omega
      have hfirst : Refused (.recv 5 false r :: log) → Refused log := by
        simp [Refused, RefusedLast, headOf, hnot]
      rcases hrefused with h | h | h
      · exact .inl h
      · exact h.elim
      · exact .inr (hfirst h)
  · refine ⟨rfl, fun hres => ?_, fun hres => ?_, hconsumed, fun hrefused => ?_⟩
    · simp [headOf, Minus, hres]
    · have hnil : r.data = [] := by
        rcases hr with hr | hr
        · exact List.eq_nil_of_length_eq_zero (by omega)
        · exact hr.2
      refine ⟨by simp [headOf, hres], ?_, ?_⟩
      · rintro rfl ⟨e, he, hdata⟩
        obtain rfl := List.mem_singleton.1 he
        exact absurd hnil hdata
      · rintro - ⟨hfull, -⟩
        exact hres hfull
    · rcases hrefused with h | h | h
      · exact .inl h
      · exact h.elim
      · exact .inr h

/-- A message that is refused when it is to be sent on: it has no address or one of an unknown
    type, or it has no payload. -/
def HevSocks5UDPMsg.Invalid (m : HevSocks5UDPMsg) : Prop :=
  match m.addr with
  | .addr a => m.len = 0 ∨ hevSocks5AddrLen a ≤ 0
  | .null => True
  | .unset => False

/-- What a slot that was to receive a frame says about the log. -/
def SlotTells (log log' : List IoEvent) : Turn → Prop
  | .head res => (Refused log' → Refused log) ∧ (0 < res ∨ Consumed log → Consumed log') ∧
      (log = [] → Tells res log') ∧ (log.any isBody → ¬ Minus log')
  | .refused => Consumed log' ∧ Minus log'
  | .body res _ => Consumed log' ∧ (res = -1 ↔ Minus log') ∧
      (0 < res → Refused log' → Miscounted log')
  | .message s => Consumed log' ∧ ¬ Minus log' ∧ log'.any isBody ∧
      (Refused log' → s.msg.Invalid ∨ Refused log)

/-- The type of an address, and the octet behind it, are in the head. -/
theorem hevSocks5AddrLen_head (mem : Mem) {udp : List Octet} :
    hevSocks5AddrLen (mem.write 0 [udp.getD 3 0, udp.getD 4 0]) =
      hevSocks5AddrLen (.ofList (udp.drop 3)) := by
  refine hevSocks5AddrLen_congr ?_ ?_ <;>
    rw [Mem.write_zero_apply _ (by simp)] <;> simp [Mem.ofList]

theorem post_recvSlot_io {s : Slot} (hs : s.msg.len = UInt64.ofNat udpBufSize) :
    Post recordedIo (recvSlot fd nonblock s) (w, log) fun t w' =>
      w'.1.self = w.self ∧ SlotTells log w'.2 t := by
  unfold recvSlot
  refine post_recvHead_io.bind ?_
  rintro ⟨res, udp⟩ ⟨w₁, log₁⟩ ⟨hself, htells⟩
  dsimp only at hself htells ⊢
  by_cases h5 : res = 5
  swap
  · obtain ⟨hhead, htells', hnot⟩ := htells.incomplete h5
    rw [if_pos h5]
    refine ⟨hself, fun hrefused => ?_, htells.consumed, htells', hnot⟩
    rcases htells.refused hrefused with ⟨udp, hudp, -⟩ | h
    · rw [hhead] at hudp
      cases hudp
    · exact h
  rw [if_neg (fun h => h h5)]
  obtain ⟨hhead, hminus⟩ := htells.complete h5
  have hconsumed := htells.consumed (.inl (by omega))
  simp only [refusesHead, Bool.or_eq_true, decide_eq_true_eq, ← hs] at hminus
  by_cases hc : udp.getD 2 0 < 5
  · rw [if_pos hc]
    exact ⟨hself, hconsumed, hminus.2 (.inl hc)⟩
  rw [if_neg hc]
  by_cases hd : (ntohs (udp.getD 0 0, udp.getD 1 0)).toUInt64 >
      s.msg.len - UInt64.ofNat ((udp.getD 2 0).toNat - 3)
  · rw [if_pos hd]
    exact ⟨hself, hconsumed, hminus.2 (.inr hd)⟩
  rw [if_neg hd]
  -- a head that is not refused: what was refused before it is all
  have hbefore : Refused log₁ → Refused log := by
    intro hrefused
    rcases htells.refused hrefused with ⟨udp', hudp', h⟩ | h
    · rw [hhead, Option.mem_some_iff] at hudp'
      subst hudp'
      simp only [refusesHead, Bool.or_eq_true, decide_eq_true_eq, ← hs] at h
      exact absurd h (not_or.2 ⟨hc, hd⟩)
    · exact h
  have hc' : 5 ≤ (udp.getD 2 0).toNat := by simpa [UInt8.lt_iff_toNat_lt] using hc
  simp only [always_bind, always_op]
  rintro r ⟨w₂, _⟩ ⟨⟨⟨e, hw⟩, -, hr⟩, hlog⟩
  simp only [ioEvent, List.singleton_append] at hlog
  subst hlog hw
  refine ⟨trivial, ?_⟩
  rw [always_ite]
  split
  · rename_i hshort
    have hne : r.res ≠ (((udp.getD 2 0).toNat - 3 - 2 +
        (ntohs (udp.getD 0 0, udp.getD 1 0)).toNat : Nat) : Int) := by
      omega
    refine ⟨hself, hconsumed.cons, Iff.rfl, fun hpos hrefused => ⟨hpos, hne, ?_⟩⟩
    rcases hrefused with ⟨udp', hudp', -⟩ | ⟨hfull, -⟩ | h
    · cases hudp'
    · exact absurd hfull hne
    · exact h
  · rename_i hall
    refine ⟨hself, hconsumed.cons, ?_, by simp [isBody], fun hrefused => ?_⟩
    · show ¬ r.res = -1
      omega
    · rcases hrefused with ⟨udp', hudp', -⟩ | ⟨-, udp', hudp', h⟩ | h
      · cases hudp'
      · rw [hhead, Option.mem_some_iff] at hudp'
        subst hudp'
        rw [refusesFrame, Bool.or_eq_true, decide_eq_true_eq, decide_eq_true_eq] at h
        refine .inl (h.symm.imp (fun hempty => ?_) fun hunknown => ?_)
        · show (ntohs (udp.getD 0 0, udp.getD 1 0)).toUInt64 = 0
          rw [hempty]
          rfl
        · exact (hevSocks5AddrLen_head _).trans_le hunknown
      · exact .inr (hbefore h)

/-- What a receive call says about the log. -/
structure ReceiveTells (res : Int) (svec : List Slot) (log : List IoEvent) : Prop where
  tells : Tells res log
  consumed : 0 < res ∨ Refused log → Consumed log
  refused : 0 < res → Refused log →
    (∃ m, some m ∈ entries svec res.toNat ∧ m.Invalid) ∨ Miscounted log

theorem mem_entries {s : Slot} {svec : List Slot} {n : Nat} (h : s ∈ svec.take n) :
    some s.msg ∈ entries svec n :=
  List.mem_append_left _ (List.mem_map_of_mem h)

/-- When no slot was filled, nothing was received; else what was refused is in a slot. -/
def LoopTells (done : List Slot) (log : List IoEvent) : Prop :=
  (if done = [] then log = [] else Consumed log ∧ ¬ Minus log ∧ log.any isBody) ∧
    (Refused log → ∃ s ∈ done, s.msg.Invalid)

/-- The slots that are done are what the loop returns. -/
theorem receiveTells_done {done slots : List Slot} {log : List IoEvent}
    (hconsumed : Consumed log) (hminus : ¬ Minus log)
    (hrefused : Refused log → ∃ s ∈ done, s.msg.Invalid) :
    ReceiveTells done.length (done ++ slots) log where
  tells _ := iff_of_false (by omega) hminus
  consumed _ := hconsumed
  refused _ h := by
    obtain ⟨s, hs, hinvalid⟩ := hrefused h
    exact .inl ⟨s.msg, mem_entries (by simpa using hs), hinvalid⟩

/-- **The result of a receive call on a stream** is what the log tells. -/
theorem post_recvmmsgTcpLoop_io {slots done : List Slot}
    (hs : ∀ s ∈ slots, s.msg.len = UInt64.ofNat udpBufSize) (hlog : LoopTells done log) :
    Post recordedIo (recvmmsgTcpLoop fd nonblock slots done) (w, log) fun r w' =>
      w'.1.self = w.self ∧ ReceiveTells r.1 r.2 w'.2 := by
  induction slots generalizing done w log with
  | nil =>
    obtain ⟨hlog, hrefused⟩ := hlog
    refine ⟨rfl, ?_⟩
    by_cases hdone : done = []
    · rw [if_pos hdone] at hlog
      subst hlog hdone
      exact ⟨fun ⟨e, he, _⟩ => absurd he List.not_mem_nil, fun h => h.elim (by simp) False.elim,
        fun _ h => h.elim⟩
    · rw [if_neg hdone] at hlog
      have h : ReceiveTells done.length (done ++ []) log :=
        receiveTells_done hlog.1 hlog.2.1 hrefused
      rwa [List.append_nil] at h
  | cons s slots ih =>
    obtain ⟨hs, hslots⟩ := List.forall_mem_cons.1 hs
    obtain ⟨hlog, hrefused⟩ := hlog
    unfold recvmmsgTcpLoop
    refine (post_recvSlot_io hs).bind ?_
    rintro (res | _ | ⟨res, s'⟩ | s') ⟨w₁, log₁⟩ ⟨hself, ht⟩ <;>
      dsimp only [SlotTells] at hself ht ⊢
    · -- no head, or a part of one
      obtain ⟨hbefore, hconsumed, htells, hminus⟩ := ht
      refine ⟨hself, ?_⟩
      by_cases hdone : done = []
      · rw [if_pos hdone] at hlog
        rw [if_neg (by simp [hdone])]
        subst hlog
        exact ⟨htells rfl, fun h => hconsumed (h.imp_right fun h => (hbefore h).elim),
          fun _ h => (hbefore h).elim⟩
      · rw [if_neg hdone] at hlog
        rw [if_pos (List.length_pos_iff.2 hdone)]
        exact receiveTells_done (hconsumed (.inr hlog.1)) (hminus hlog.2.2)
          fun h => hrefused (hbefore h)
    · obtain ⟨hconsumed, hminus⟩ := ht
      exact ⟨hself, fun _ => iff_of_true rfl hminus, fun _ => hconsumed,
        fun (h : (0 : Int) < -1) => absurd h (by decide)⟩
    · obtain ⟨hconsumed, hminus, hmis⟩ := ht
      exact ⟨hself, fun _ => hminus, fun _ => hconsumed, fun hpos h => .inr (hmis hpos h)⟩
    · obtain ⟨hconsumed, hminus, hbody, hslot⟩ := ht
      rw [← hself]
      refine ih hslots ⟨?_, fun h => ?_⟩
      · rw [if_neg (by simp)]
        exact ⟨hconsumed, hminus, hbody⟩
      · rcases hslot h with h | h
        · exact ⟨s', by simp, h⟩
        · obtain ⟨s, hs, hinvalid⟩ := hrefused h
          exact ⟨s, List.mem_append_left _ hs, hinvalid⟩

/-! ## Receiving datagrams -/

/-- The length of the address of a datagram is in its own octets. -/
theorem hevSocks5AddrLen_datagram (m : Mem) {data : List Octet} (h : 5 ≤ data.length) :
    hevSocks5AddrLen ((m.write 0 data).drop 3) = hevSocks5AddrLen (.ofList (data.drop 3)) := by
  have hoct : ∀ i, 3 + i < data.length →
      ((m.write 0 data).drop 3) i = Mem.ofList (data.drop 3) i := by
    intro i hi
    rw [Mem.drop_apply, Mem.write_zero_eq_ofList hi]
    simp [Mem.ofList]
  exact hevSocks5AddrLen_congr (hoct 0 (by omega)) (hoct 1 (by omega))

/-- Whether a datagram is refused is known from its own octets. -/
theorem parseDatagram_eq_none (m : Mem) (msg : HevSocks5UDPMsg) (data : List Octet) :
    parseDatagram { msg, mem := m.write 0 data } data.length = none ↔
      refusesDatagram data = true := by
  simp only [parseDatagram, refusesDatagram, Bool.and_eq_true, Bool.or_eq_true, decide_eq_true_eq]
  by_cases h4 : data.length < 4
  · rw [if_pos h4]
    simp
    omega
  rw [if_neg h4]
  by_cases h5 : data.length = 4
  · -- no address is that short
    have hlong : ∀ m : Mem, hevSocks5AddrLen m ≤ 0 ∨ 3 + hevSocks5AddrLen m > data.length := by
      intro m
      by_cases hm : hevSocks5AddrLen m ≤ 0
      · exact .inl hm
      · have := four_le_hevSocks5AddrLen (Int.not_le.1 hm)
        exact .inr (by omega)
    have hleft := hlong ((m.write 0 data).drop 3)
    refine iff_of_true ?_ ⟨by omega, hlong _⟩
    split
    · rfl
    · exact if_pos (hleft.resolve_left ‹_›)
  · rw [hevSocks5AddrLen_datagram m (by omega)]
    split_ifs <;> simp_all

/-- A datagram of which nothing is sent is refused, or it leaves no message to send on. -/
theorem parseDatagram_invalid {m : Mem} {msg : HevSocks5UDPMsg} {data : List Octet} {s : Slot}
    (hp : parseDatagram { msg, mem := m.write 0 data } data.length = some s)
    (h : refusesPacket data = true) : s.msg.Invalid := by
  have hnot : refusesDatagram data ≠ true := fun hrefused => by
    rw [(parseDatagram_eq_none m msg data).2 hrefused] at hp
    cases hp
  simp only [refusesPacket, Bool.or_eq_true, decide_eq_true_eq] at h
  simp only [parseDatagram] at hp
  split_ifs at hp with h4 hle hgt
  · obtain rfl := Option.some.inj hp
    trivial
  · obtain rfl := Option.some.inj hp
    have hempty := h.resolve_left (not_or.2 ⟨h4, hnot⟩)
    have hlong := four_le_hevSocks5AddrLen (Int.not_le.1 hle)
    have hlen : 5 ≤ data.length := by omega
    refine .inl ?_
    rw [hevSocks5AddrLen_datagram m hlen, hempty, Int.toNat_natCast, Nat.sub_self]
    rfl

theorem parseUdp_eq_none {slots : List Slot} {ds : List Datagram} (h : ds.length ≤ slots.length) :
    parseUdp (fill slots ds) ds = none ↔ ∃ d ∈ ds, refusesDatagram d.data = true := by
  induction ds generalizing slots with
  | nil => cases slots <;> simp [fill, parseUdp]
  | cons d ds ih =>
    cases slots with
    | nil => simp at h
    | cons s slots =>
      have hd := parseDatagram_eq_none s.mem { s.msg with buf := s.mem.write 0 d.data } d.data
      have hds := ih (by simpa using h)
      simp only [fill, parseUdp, List.exists_mem_cons_iff, ← hds, ← hd]
      cases parseDatagram _ d.data.length with
      | none => simp
      | some s' =>
        cases parseUdp (fill slots ds) ds <;> simp

theorem parseUdp_invalid {slots svec : List Slot} {ds : List Datagram}
    (hlen : ds.length ≤ slots.length) (hp : parseUdp (fill slots ds) ds = some svec)
    (h : ∃ d ∈ ds, refusesPacket d.data = true) : ∃ s ∈ svec.take ds.length, s.msg.Invalid := by
  induction ds generalizing slots svec with
  | nil =>
    obtain ⟨d, hd, -⟩ := h
    cases hd
  | cons d ds ih =>
    cases slots with
    | nil => simp at hlen
    | cons s slots =>
      simp only [fill, parseUdp, Option.bind_eq_bind, Option.bind_eq_some_iff, Option.pure_def,
        Option.some.injEq] at hp
      obtain ⟨s', hs', svec', hsvec', rfl⟩ := hp
      rcases (List.exists_mem_cons_iff ..).1 h with h | h
      · exact ⟨s', List.mem_cons_self, parseDatagram_invalid hs' h⟩
      · obtain ⟨s, hs, hinvalid⟩ := ih (by simpa using hlen) hsvec' h
        exact ⟨s, List.mem_cons_of_mem _ hs, hinvalid⟩

/-- What is refused of datagrams is known from them. -/
theorem refused_recvmmsg {ds : List Datagram} :
    Refused [.recvmmsg ds] ↔ ∃ d ∈ ds, refusesPacket d.data = true := by
  simp [Refused, RefusedLast, headOf]

theorem post_associate_io {ds : List Datagram} :
    Post recordedIo (associate fd ds) (w, [.recvmmsg ds]) fun ok w' =>
      w'.1.self.type = w.self.type ∧ (Consumed [.recvmmsg ds] → Consumed w'.2) ∧
        (Refused w'.2 → Refused [.recvmmsg ds]) ∧
        if ok then Minus w'.2 ↔ ∃ d ∈ ds, refusesDatagram d.data = true else Minus w'.2 := by
  simp only [associate, always_bind, always_op, always_ite, always_pure]
  rintro _ ⟨w₁, _⟩ ⟨⟨rfl, hw₁⟩, rfl⟩
  obtain rfl : w₁ = w := hw₁
  refine ⟨trivial, ?_⟩
  split
  · exact ⟨rfl, id, id, Iff.rfl⟩
  rintro res ⟨w₂, _⟩ ⟨⟨e, rfl⟩, rfl⟩
  have hrefused : Refused (.connect res :: [.recvmmsg ds]) → Refused [.recvmmsg ds] := by
    rintro (⟨udp, hudp, -⟩ | h | h)
    · cases hudp
    · exact h.elim
    · exact h
  refine ⟨trivial, ?_⟩
  split
  · rename_i hneg
    exact ⟨rfl, fun h => h.cons, hrefused, .inl hneg⟩
  · rename_i hneg
    rintro _ ⟨w₃, _⟩ ⟨⟨rfl, rfl⟩, rfl⟩
    refine ⟨trivial, ?_⟩
    rintro _ ⟨w₄, _⟩ ⟨rfl, rfl⟩
    exact ⟨trivial, rfl, fun h => h.cons, hrefused, or_iff_right hneg⟩

/-- A datagram socket: the same. -/
theorem post_recvmmsgUdp_io {slots : List Slot} :
    Post recordedIo (recvmmsgUdp slots nonblock) (w, []) fun r w' =>
      w'.1.self.type = w.self.type ∧ ReceiveTells r.1 r.2 w'.2 := by
  simp only [recvmmsgUdp, always_bind, always_op]
  rintro fd ⟨w₁, _⟩ ⟨⟨e₁, rfl⟩, rfl⟩
  refine ⟨trivial, ?_⟩
  rintro ⟨res, ds⟩ ⟨w₂, _⟩ ⟨⟨⟨e₂, rfl⟩, hlen, hres⟩, rfl⟩
  refine ⟨trivial, ?_⟩
  dsimp only at hlen hres ⊢
  rw [List.length_map] at hlen
  have hrefused : Refused [.recvmmsg ds] → Consumed [.recvmmsg ds] := by
    rw [refused_recvmmsg]
    rintro ⟨d, hd, -⟩
    exact ⟨_, List.mem_cons_self, List.ne_nil_of_mem hd⟩
  rw [always_ite]
  split
  · rename_i hle
    have hnil : ds = [] := by
      rcases hres with hres | hres
      · exact List.eq_nil_of_length_eq_zero (by omega)
      · exact hres.2
    have hnot : ¬ Consumed [.recvmmsg ds] := by
      rintro ⟨e, he, hdata⟩
      obtain rfl := List.mem_singleton.1 he
      exact hdata hnil
    exact ⟨rfl, fun h => absurd h hnot,
      fun h => h.elim (fun hpos => absurd hpos (by omega)) hrefused,
      fun hpos => absurd hpos (by omega)⟩
  · rename_i hpos
    have hcount : res = ds.length := by
      rcases hres with hres | hres
      · exact hres
      · omega
    subst hcount
    have hne : ds ≠ [] := by
      rintro rfl
      exact hpos le_rfl
    refine post_associate_io.bind ?_
    rintro ok ⟨w₃, log₃⟩ ⟨htype, hkeep, hrefused₃, hok⟩
    have hconsumed : Consumed log₃ := hkeep ⟨_, List.mem_cons_self, hne⟩
    rw [Int.toNat_natCast, List.take_length]
    have hfail (hminus : Minus log₃) (svec : List Slot) : ReceiveTells (-1) svec log₃ :=
      ⟨fun _ => iff_of_true rfl hminus, fun _ => hconsumed,
        fun (h : (0 : Int) < -1) => absurd h (by decide)⟩
    cases ok with
    | false => exact ⟨htype, hfail hok _⟩
    | true =>
      have hparse := (parseUdp_eq_none hlen).trans hok.symm
      simp only [Bool.not_true, Bool.false_eq_true, if_false]
      cases hp : parseUdp (fill slots ds) ds with
      | none => exact ⟨htype, hfail (hparse.1 hp) _⟩
      | some svec =>
        refine ⟨htype, fun _ => iff_of_false (by dsimp only; omega) fun hminus => ?_,
          fun _ => hconsumed, fun _ h => ?_⟩
        · simp [hparse.2 hminus] at hp
        · obtain ⟨s, hs, hinvalid⟩ := parseUdp_invalid hlen hp (refused_recvmmsg.1 (hrefused₃ h))
          exact .inl ⟨s.msg, mem_entries hs, hinvalid⟩

theorem post_recvmmsg_io {bufs : List Mem}
    (htype : w.self.type = .udpInTcp ∨ w.self.type = .udpInUdp) :
    Post recordedIo (recvmmsg (bufs.map fwdSlot) nonblock) (w, []) fun r w' =>
      ReceiveTells r.1 r.2 w'.2 := by
  simp only [recvmmsg, always_bind, always_op]
  rintro _ ⟨w₁, _⟩ ⟨⟨rfl, hw₁⟩, rfl⟩
  obtain rfl : w₁ = w := hw₁
  refine ⟨trivial, ?_⟩
  rcases htype with htype | htype
  · simp only [htype, recvmmsgTcp, always_bind, always_op]
    rintro fd ⟨w₂, _⟩ ⟨⟨e, rfl⟩, rfl⟩
    refine ⟨trivial, ?_⟩
    refine (post_recvmmsgTcpLoop_io ?_ ⟨?_, False.elim⟩).mono fun _ _ h => h.2
    · intro s hs
      obtain ⟨mem, -, rfl⟩ := List.mem_map.1 hs
      rfl
    · rw [if_pos rfl]
      rfl
  · simp only [htype]
    exact post_recvmmsgUdp_io.mono fun _ _ h => h.2

/-! ## Sending -/

theorem post_prepare {α : Type} {x : SysM α} (hx : x.Only Op.Prepares) :
    Post recordedIo x (w, log) fun _ w' => w'.2 = log := by
  refine hx.always ?_ rfl
  rintro ⟨w₁, l₁⟩ ⟨w₂, l₂⟩ β o b ho rfl ⟨-, hlog⟩
  refine ⟨trivial, hlog.trans ?_⟩
  cases o <;> first | exact ho.elim | rfl

/-- An address of an unknown type is refused without a lookup. -/
theorem hevSocks5AddrIntoSockaddr6_unknown {addr : Mem} (h : hevSocks5AddrLen addr ≤ 0)
    (saddr : SockAddrIn6) (family : HevSocks5AddrFamily) :
    hevSocks5AddrIntoSockaddr6 addr saddr family = pure (-1, saddr, family) := by
  unfold hevSocks5AddrLen at h
  unfold hevSocks5AddrIntoSockaddr6
  split_ifs at h ⊢ with h4 h6 hname
  · exact absurd h (by decide)
  · exact absurd h (by decide)
  · omega
  · rfl

/-- A message that is refused is not sent, and no other one of its batch. -/
theorem post_resolveAll_invalid {ms : List (Option HevSocks5UDPMsg)} {m : HevSocks5UDPMsg}
    (hm : some m ∈ ms) (hinvalid : m.Invalid) {W : Type} {E : Env Op W} {w : W} :
    Post E (resolveAll ms) w fun dvec _ => dvec = none := by
  have hany : ∀ {α : Type} (x : SysM α) (w : W), Post E x w fun _ _ => True := fun x w =>
    always_of_step (I := fun _ => True) (fun _ _ => ⟨trivial, trivial⟩) x trivial
  induction ms generalizing w with
  | nil => cases hm
  | cons m' ms ih =>
    unfold resolveAll
    rcases List.mem_cons.1 hm with rfl | hm
    · obtain ⟨_ | _ | addr, buf, len⟩ := m
      · exact hinvalid.elim
      · exact rfl
      · simp only [fields, pure_bind]
        by_cases hlen : len = 0
        · rw [if_pos hlen]
          exact rfl
        · have hunknown : hevSocks5AddrLen addr ≤ 0 := hinvalid.resolve_left hlen
          simp only [if_neg hlen, hevSocks5AddrIntoSockaddr6_unknown hunknown, always_bind,
            always_op]
          exact fun self w₁ _ => ⟨trivial, rfl⟩
    · refine (hany (fields m') w).bind fun r w₁ _ => ?_
      obtain ⟨_ | addr, buf, len⟩ := r
      · exact rfl
      dsimp only
      rw [always_ite]
      split
      · exact rfl
      simp only [always_bind, always_op]
      refine fun self w₂ _ => ⟨trivial, (hany _ w₂).mono fun r w₃ _ => ?_⟩
      rw [always_ite]
      split
      · exact rfl
      refine (ih hm).bind ?_
      rintro _ w₄ rfl
      exact rfl

/-- Nothing was sent so far. -/
def Receiving (log : List IoEvent) : Prop := ∀ e ∈ log, e.send? = none

namespace Receiving

theorem not_send (h : Receiving log) {P : Nat × Int → Prop} :
    ¬ ∃ e ∈ log, ∃ s ∈ e.send?, P s := by
  rintro ⟨e, he, s, hs, -⟩
  rw [h e he] at hs
  cases hs

theorem send_cons (h : Receiving log) {e : IoEvent} {P : Nat × Int → Prop} :
    (∃ e' ∈ e :: log, ∃ s ∈ e'.send?, P s) ↔ ∃ s ∈ e.send?, P s := by
  rw [List.exists_mem_cons_iff, or_iff_left h.not_send]

theorem not_overlooked (h : Receiving log) : ¬ Overlooked log := by
  rcases log with _ | ⟨e, log⟩
  · exact id
  · have he := h e List.mem_cons_self
    cases e <;> first | exact id | cases he

end Receiving

theorem post_receiving {α : Type} {x : SysM α} (hx : x.Only Op.Receives)
    (hlog : Receiving log) : Post recordedIo x (w, log) fun _ w' => Receiving w'.2 := by
  refine hx.always (I := fun w' : Io × List IoEvent => Receiving w'.2) ?_ hlog
  rintro ⟨w₁, l₁⟩ ⟨w₂, _⟩ β o b ho hw ⟨-, rfl⟩
  refine ⟨trivial, fun e he => ?_⟩
  rcases List.mem_append.1 he with he | he
  · cases o
    case recv | recvmsg | recvmmsg | connect =>
      obtain rfl := List.mem_singleton.1 he
      rfl
    all_goals first | exact ho.elim | exact absurd he List.not_mem_nil
  · exact hw e he

/-- The sending half of `fwd_f`: it fails before it sends, or it ends with the result of the
    send, and then no message was refused. -/
theorem post_forward_io {n : Nat} {svec : List Slot} {bind : Bool} :
    Post recordedIo (forward fd n svec bind) (w, log) fun r w' =>
      (r.1 = -1 ∧ w'.2 = log) ∨
        (¬ ∃ m, some m ∈ entries svec n ∧ m.Invalid) ∧
          ∃ num res, w'.2 = .sendmmsg num res :: log ∧ r.1 = resultOf res w'.1.errno := by
  unfold forward
  have hvalid : Post recordedIo (resolveAll (entries svec n)) (w, log) fun dvec w' =>
      w'.2 = log ∧ ((∃ m, some m ∈ entries svec n ∧ m.Invalid) → dvec = none) := by
    by_cases h : ∃ m, some m ∈ entries svec n ∧ m.Invalid
    · obtain ⟨m, hm, hinvalid⟩ := h
      exact ((post_prepare (only_resolveAll _)).and (post_resolveAll_invalid hm hinvalid)).mono
        fun _ _ h => ⟨h.1, fun _ => h.2⟩
    · exact (post_prepare (only_resolveAll _)).mono fun _ _ hlog => ⟨hlog, fun h' => absurd h' h⟩
  refine hvalid.bind ?_
  rintro (_ | dvec) ⟨w₁, _⟩ ⟨rfl, hnone⟩
  · exact .inl ⟨rfl, rfl⟩
  refine (post_prepare (only_bindFirst _ _ dvec)).bind ?_
  rintro ok ⟨w₂, _⟩ rfl
  rw [always_ite]
  split
  · exact .inl ⟨rfl, rfl⟩
  simp only [always_bind, always_op, always_pure]
  rintro res ⟨w₃, _⟩ ⟨⟨e, rfl⟩, rfl⟩
  refine ⟨trivial, (post_fwdResult_recorded res _ _).mono ?_⟩
  rintro r ⟨w₄, _⟩ ⟨rfl, hw⟩
  obtain ⟨rfl, rfl⟩ := Prod.mk.inj hw
  exact .inr ⟨fun h => absurd (hnone h) (Option.some_ne_none _), _, res, rfl, rfl⟩

/-- Messages are sent to the client: in one call, the result of which is known. -/
theorem post_sendmmsg_io {bufs : List Mem} {ds : List Datagram}
    (htype : w.self.type = .udpInTcp ∨ w.self.type = .udpInUdp)
    (hne : List.zipWith outMsg bufs ds ≠ []) :
    Post recordedIo (sendmmsg (List.zipWith outMsg bufs ds)) (w, log) fun res w' =>
      ∃ e s, w'.2 = e :: log ∧ e.send? = some s ∧ (0 < s.2 ↔ 0 < res) ∧
        (res = -1 ↔ Minus w'.2) := by
  simp only [sendmmsg, always_bind, always_op]
  rintro _ ⟨w₁, log₁⟩ ⟨⟨rfl, hw₁⟩, hlog₁⟩
  obtain rfl : w₁ = w := hw₁
  obtain rfl : log₁ = log := hlog₁
  refine ⟨trivial, ?_⟩
  rcases htype with htype | htype
  · simp only [htype, sendmmsgTcp, gather_eq _ addr_outMsg, always_bind, always_op]
    rintro fd ⟨w₂, log₂⟩ ⟨⟨e, rfl⟩, hlog₂⟩
    obtain rfl : log₂ = log₁ := hlog₂
    refine ⟨trivial, ?_⟩
    rintro res ⟨w₃, _⟩ ⟨⟨e', rfl⟩, rfl⟩
    refine ⟨trivial, ?_⟩
    rw [always_ite]
    split
    · rename_i hle
      exact ⟨_, _, rfl, rfl, iff_of_false (by dsimp only; omega) (by decide),
        iff_of_true rfl hle⟩
    · rename_i hpos
      have hlen := List.length_pos_iff.2 hne
      exact ⟨_, _, rfl, rfl, iff_of_true (Int.not_le.1 hpos) (by omega),
        iff_of_false (by omega) hpos⟩
  · simp only [htype, sendmmsgUdp, gather_eq _ addr_outMsg, always_bind, always_op]
    rintro fd ⟨w₂, log₂⟩ ⟨⟨e, rfl⟩, hlog₂⟩
    obtain rfl : log₂ = log₁ := hlog₂
    refine ⟨trivial, ?_⟩
    rintro res ⟨w₃, _⟩ ⟨⟨e', rfl⟩, rfl⟩
    exact ⟨trivial, _, _, rfl, rfl, Iff.rfl, Iff.rfl⟩

end

/-! ## One call -/

inductive Direction where
  | f
  | b

/-- A call of `fwd_f` or `fwd_b`. -/
def fwd (direction : Direction) (fd : Int) (bufs : List Mem) (bind : Bool) : SysM Int :=
  match direction with
  | .f => do return (← fwdF fd bufs bind).1
  | .b => do return (← fwdB fd bufs).1

/-- **Errors fail**: a call returns 0 only if it has taken no input, and it returns -1 when it has
    taken some and sent nothing on, when its input was refused, and when the send has failed or
    was aborted, be it after a part. -/
structure ErrorsFail (direction : Direction) (ret : Int) (log : List IoEvent) : Prop where
  of_zero : ret = 0 → ¬ Consumed log
  eq_neg_one : Consumed log → ¬ Sent log → ret = -1
  refused : direction = .f → Refused log → ret = -1
  notAllSent : NotAllSent log → ret = -1

/-- Input was taken, the result is -1, and `errno` is `EAGAIN`. -/
def Mistaken (w : Io × List IoEvent) : Prop :=
  Consumed w.2 ∧ Minus w.2 ∧ w.1.errno = .eagain

theorem errorsFail_neg_one (direction : Direction) (log : List IoEvent) :
    ErrorsFail direction (-1) log :=
  ⟨fun h => absurd h (by decide), fun _ _ => rfl, fun _ _ => rfl, fun _ => rfl⟩

/-- A call has ended with the result `res`. -/
structure CallEnds (direction : Direction) (res : Int) (log : List IoEvent) : Prop where
  tells : Tells res log
  sent : Sent log ↔ 0 < res
  consumed : NotAllSent log ∨ direction = .f ∧ Refused log → Consumed log
  inPart : Sent log → NotAllSent log → SentInPart log
  overlooked : direction = .f → Refused log → Sent log → Overlooked log
  direction_eq : Overlooked log → direction = .f

theorem SentInPart.sent {log : List IoEvent} (h : SentInPart log) : Sent log := by
  obtain ⟨e, he, s, hs, hpos, -⟩ := h
  exact ⟨e, he, s, hs, hpos⟩

theorem SentInPart.notAllSent {log : List IoEvent} (h : SentInPart log) : NotAllSent log := by
  obtain ⟨e, he, s, hs, -, hlt⟩ := h
  exact ⟨e, he, s, hs, hlt⟩

theorem Overlooked.sent {log : List IoEvent} (h : Overlooked log) : Sent log := by
  rcases log with _ | ⟨e, log⟩
  · exact h.elim
  · cases e with
    | sendmmsg num res => exact ⟨_, List.mem_cons_self, _, rfl, h.1⟩
    | _ => exact h.elim

theorem Overlooked.refused {log : List IoEvent} (h : Overlooked log) : Refused log := by
  rcases log with _ | ⟨e, _ | ⟨e', log⟩⟩
  · exact h.elim
  · cases e <;> first | exact h.elim | exact h.2.elim
  · cases e with
    | sendmmsg num res =>
      cases e' with
      | recvmsg n r => exact .inr (.inr (.inr (.inr h.2.2.2)))
      | _ => exact h.2.elim
    | _ => exact h.elim

/-- **The result of a call** is right unless it is one of three. -/
theorem CallEnds.fails_iff {direction : Direction} {res : Int} {w : Io × List IoEvent}
    (h : CallEnds direction res w.2) :
    ErrorsFail direction (resultOf res w.1.errno) w.2 ↔
      ¬ (Mistaken w ∨ SentInPart w.2 ∨ Overlooked w.2) := by
  have hsent : Sent w.2 → resultOf res w.1.errno = 1 := fun hsent => by
    have := h.sent.1 hsent
    rw [resultOf, if_neg (by omega)]
  constructor
  · rintro herr (⟨hconsumed, hminus, heagain⟩ | hpart | hover)
    · have hres := (h.tells hconsumed).2 hminus
      exact herr.of_zero (by simp [resultOf, hres, heagain]) hconsumed
    · have hret := herr.notAllSent hpart.notAllSent
      rw [hsent hpart.sent] at hret
      exact absurd hret (by decide)
    · have hret := herr.refused (h.direction_eq hover) hover.refused
      rw [hsent hover.sent] at hret
      exact absurd hret (by decide)
  · intro hnot
    by_cases hpos : 0 < res
    · have hs := h.sent.2 hpos
      rw [hsent hs]
      exact ⟨fun h => absurd h (by decide), fun _ hunsent => absurd hs hunsent,
        fun hf href => absurd (h.overlooked hf href hs) fun h => hnot (.inr (.inr h)),
        fun hunsent => absurd (h.inPart hs hunsent) fun h => hnot (.inr (.inl h))⟩
    · rw [resultOf, if_pos (Int.not_lt.1 hpos)]
      split
      · -- taken for "would block"
        rename_i hagain
        have hnone : ¬ Consumed w.2 := fun hconsumed =>
          hnot (.inl ⟨hconsumed, (h.tells hconsumed).1 hagain.1, hagain.2⟩)
        exact ⟨fun _ => hnone, fun hc => absurd hc hnone,
          fun hf href => absurd (h.consumed (.inr ⟨hf, href⟩)) hnone,
          fun hunsent => absurd (h.consumed (.inl hunsent)) hnone⟩
      · exact errorsFail_neg_one _ _

/-- A call has ended without a send. -/
theorem callEnds_receiving {direction : Direction} {res : Int} {log : List IoEvent}
    (htells : Tells res log) (hle : ¬ 0 < res) (hrecv : Receiving log)
    (hconsumed : direction = .f → Refused log → Consumed log) : CallEnds direction res log where
  tells := htells
  sent := iff_of_false hrecv.not_send hle
  consumed := by
    rintro (h | ⟨hf, h⟩)
    · exact absurd h hrecv.not_send
    · exact hconsumed hf h
  inPart h := absurd h hrecv.not_send
  overlooked _ _ h := absurd h hrecv.not_send
  direction_eq h := absurd h hrecv.not_overlooked

/-- A call has ended with a send. -/
theorem callEnds_send {direction : Direction} {res : Int} {e : IoEvent} {s : Nat × Int}
    {log : List IoEvent} (htells : Tells res (e :: log)) (he : e.send? = some s)
    (hres : 0 < s.2 ↔ 0 < res) (hrecv : Receiving log) (hconsumed : Consumed log)
    (hover : direction = .f → Refused (e :: log) → 0 < s.2 → Overlooked (e :: log))
    (hdirection : Overlooked (e :: log) → direction = .f) : CallEnds direction res (e :: log) where
  tells := htells
  sent := by
    rw [Sent, hrecv.send_cons, he]
    simpa using hres
  consumed _ := hconsumed.cons
  inPart h h' := by
    rw [Sent, hrecv.send_cons, he] at h
    rw [NotAllSent, hrecv.send_cons, he] at h'
    rw [SentInPart, hrecv.send_cons, he]
    exact ⟨s, rfl, by simpa using h, by simpa using h'⟩
  overlooked hf href h := by
    rw [Sent, hrecv.send_cons, he] at h
    exact hover hf href (by simpa using h)
  direction_eq := hdirection

theorem post_fwdF_io {fd : Int} {bufs : List Mem} {bind : Bool} {w : Io}
    (htype : w.self.type = .udpInTcp ∨ w.self.type = .udpInUdp) :
    Post recordedIo (fwdF fd bufs bind) (w, []) fun r w' =>
      ErrorsFail .f r.1 w'.2 ↔ ¬ (Mistaken w' ∨ SentInPart w'.2 ∨ Overlooked w'.2) := by
  unfold fwdF
  refine ((post_recvmmsg_io htype).and
    (post_receiving only_recvmmsg fun _ h => absurd h List.not_mem_nil)).bind ?_
  rintro ⟨res, svec⟩ ⟨w₁, log₁⟩ ⟨hreceive, hrecv⟩
  simp only [always_bind, always_pure, fwdRest]
  dsimp only at hreceive hrecv
  split
  · rename_i hpos
    refine post_forward_io.mono ?_
    rintro ⟨ret, bind'⟩ ⟨w₂, _⟩ (⟨rfl, rfl⟩ | ⟨hvalid, num, res', rfl, rfl⟩)
    · refine iff_of_true (errorsFail_neg_one _ _) ?_
      rintro (⟨hconsumed, hminus, -⟩ | hpart | hover)
      · have hres := (hreceive.tells hconsumed).2 hminus
        omega
      · exact hrecv.not_send hpart
      · exact hrecv.not_overlooked hover
    · have hend : CallEnds .f res' (.sendmmsg num res' :: log₁) := by
        refine callEnds_send (s := (num, res')) (fun _ => Iff.rfl) rfl Iff.rfl hrecv
          (hreceive.consumed (.inl hpos)) (fun _ href hsent => ?_) fun _ => rfl
        have href : Refused log₁ := by
          rcases href with ⟨udp, hudp, -⟩ | h | h
          · cases hudp
          · exact h.elim
          · exact h
        exact ⟨hsent, (hreceive.refused hpos href).resolve_left hvalid⟩
      exact hend.fails_iff (w := (w₂, _))
  · rename_i hle
    simp only [always_bind, always_pure]
    refine (post_fwdResult_recorded res w₁ log₁).mono ?_
    rintro ret ⟨w₂, _⟩ ⟨rfl, hw⟩
    obtain ⟨rfl, rfl⟩ := Prod.mk.inj hw
    exact (callEnds_receiving hreceive.tells hle hrecv fun _ h =>
      hreceive.consumed (.inr h)).fails_iff (w := (w₂, _))

theorem post_fwdB_io {fd : Int} {bufs : List Mem} {w : Io}
    (htype : w.self.type = .udpInTcp ∨ w.self.type = .udpInUdp) :
    Post recordedIo (fwdB fd bufs) (w, []) fun r w' =>
      ErrorsFail .b r.1 w'.2 ↔ ¬ (Mistaken w' ∨ SentInPart w'.2 ∨ Overlooked w'.2) := by
  simp only [fwdB, always_bind, always_op]
  rintro ⟨res, ds⟩ ⟨w₁, _⟩ ⟨⟨⟨e, rfl⟩, hlen, hres⟩, rfl⟩
  dsimp only at hlen hres
  rw [List.length_map] at hlen
  have hrecv : Receiving [.recvmmsg ds] := fun e he => by
    obtain rfl := List.mem_singleton.1 he
    rfl
  refine ⟨trivial, ?_⟩
  rw [always_ite]
  split
  · rename_i hpos
    have hcount : res = ds.length := hres.resolve_right fun h => by omega
    have hne : ds ≠ [] := by
      rintro rfl
      exact absurd hpos (by simp [hcount])
    have hmsgs : List.zipWith outMsg bufs (ds.take res.toNat) ≠ [] := by
      rw [hcount, Int.toNat_natCast, List.take_length]
      cases ds with
      | nil => exact absurd rfl hne
      | cons d ds =>
        cases bufs with
        | nil => simp at hlen
        | cons buf bufs => simp
    simp only [always_bind, always_pure]
    refine (post_sendmmsg_io (w := { w with errno := e }) htype hmsgs).mono ?_
    rintro res' ⟨w₂, _⟩ ⟨e, s, rfl, he, hsent, hminus⟩
    refine (post_fwdResult_recorded res' w₂ _).mono ?_
    rintro ret ⟨w₃, _⟩ ⟨rfl, hw⟩
    obtain ⟨rfl, rfl⟩ := Prod.mk.inj hw
    have hend : CallEnds .b res' (e :: [.recvmmsg ds]) := by
      refine callEnds_send (fun _ => hminus) he hsent hrecv ⟨_, List.mem_cons_self, hne⟩
        (fun h => by cases h) fun h => ?_
      cases e with
      | sendmmsg num res => exact h.2.elim
      | _ => exact h.elim
    exact hend.fails_iff (w := (w₃, _))
  · rename_i hle
    simp only [always_bind, always_pure]
    refine (post_fwdResult_recorded res _ _).mono ?_
    rintro ret ⟨w₃, _⟩ ⟨rfl, hw⟩
    obtain ⟨rfl, rfl⟩ := Prod.mk.inj hw
    have hnot : ¬ Consumed [.recvmmsg ds] := by
      rintro ⟨e, he, hdata⟩
      obtain rfl := List.mem_singleton.1 he
      have hnil : ds = [] := by
        rcases hres with hres | hres
        · exact List.eq_nil_of_length_eq_zero (by omega)
        · exact hres.2
      exact hdata hnil
    have hend : CallEnds .b res [.recvmmsg ds] :=
      callEnds_receiving (fun h => absurd h hnot) hle hrecv fun h => by cases h
    exact hend.fails_iff (w := (_, _))

/-- **Errors fail, but for three cases**: `EAGAIN` is in `errno` as the result of a call that has
    taken input is -1; the send has failed after a part; or a refused frame was overlooked. -/
theorem errorsFail_iff {direction : Direction} {fd : Int} {bufs : List Mem} {bind : Bool}
    {w w' : Io} {log : List IoEvent} {ret : Int}
    (htype : w.self.type = .udpInTcp ∨ w.self.type = .udpInUdp)
    (h : Returns recordedIo (fwd direction fd bufs bind) (w, []) ret (w', log)) :
    ErrorsFail direction ret log ↔ ¬ (Mistaken (w', log) ∨ SentInPart log ∨ Overlooked log) := by
  cases direction with
  | f =>
    simp only [fwd, returns_bind, returns_pure] at h
    obtain ⟨r, w₁, hrun, rfl, rfl⟩ := h
    exact (post_fwdF_io htype).returns hrun
  | b =>
    simp only [fwd, returns_bind, returns_pure] at h
    obtain ⟨r, w₁, hrun, rfl, rfl⟩ := h
    exact (post_fwdB_io htype).returns hrun

/-! ## A head that is refused -/

/-- A head with a header length of 4. -/
def badHead : Received := ⟨5, [0, 1, 4, 1, 2]⟩

/-- The run in which this head arrives, with what an earlier call has left in `errno`. -/
def stale : Io × List IoEvent → {β : Type} → Op β → Option (β × Io × List IoEvent) := fun w _ o =>
  match o with
  | .base => some (w.1.self, w)
  | .getFd => some (3, w)
  | .errno => some (w.1.errno, w)
  | .recv _ n flags =>
    if n = 5 ∧ flags ≠ .waitall then some (badHead, w.1, .recv 5 false badHead :: w.2) else none
  | _ => none

theorem recordedIo_of_stale (w : Io × List IoEvent) {β : Type} (o : Op β) (b : β)
    (w' : Io × List IoEvent) (h : stale w o = some (b, w')) : recordedIo w o b w' := by
  cases o <;> simp only [stale, Option.some.injEq, Prod.mk.injEq, reduceCtorEq] at h
  case base | errno =>
    obtain ⟨rfl, rfl⟩ := h
    exact ⟨⟨rfl, rfl⟩, rfl⟩
  case getFd =>
    obtain ⟨rfl, rfl⟩ := h
    exact ⟨⟨_, rfl⟩, rfl⟩
  case recv fd n flags =>
    rw [Option.ite_none_right_eq_some, Option.some.injEq, Prod.mk.injEq] at h
    obtain ⟨⟨rfl, hflags⟩, rfl, rfl⟩ := h
    refine ⟨⟨⟨w.1.errno, rfl⟩, by decide, ?_⟩, ?_⟩
    · rw [if_neg hflags]
      exact .inl rfl
    · simp [ioEvent, hflags]

/-- The relay with `e` in `errno`. -/
def staleIo (e : Errno) : Io := ⟨⟨3, -1, .udpInTcp, false, .unspec⟩, e⟩

/-- Octets that were received. -/
def IoEvent.takes : IoEvent → Bool
  | .recv _ _ r => r.data ≠ []
  | _ => false

/-- The call takes the octets and sends nothing. -/
theorem returns_stale (e : Errno) : ∃ ret w' log,
    Returns recordedIo (fwd .f 4 [.undef] false) (staleIo e, []) ret (w', log) ∧
      ret = (if e = .eagain then 0 else -1) ∧ w'.errno = e ∧ Consumed log ∧ Receiving log := by
  obtain ⟨ret, ⟨w', log⟩, hrun, h⟩ := exists_returns_of_exec recordedIo_of_stale
    (x := fwd .f 4 [.undef] false) (w := (staleIo e, []))
    (fun ret w' => ret = (if e = .eagain then 0 else -1) ∧ w'.1.errno = e ∧
      w'.2.any IoEvent.takes ∧ w'.2.all (·.send? = none)) (by cases e <;> decide)
  obtain ⟨hret, herrno, hany, hall⟩ := of_decide_eq_true h
  obtain ⟨event, hmem, hdata⟩ := List.any_eq_true.1 hany
  refine ⟨ret, w', log, hrun, hret, herrno, ⟨event, hmem, ?_⟩, fun e he => ?_⟩
  · cases event <;> simp_all [IoEvent.takes]
  · exact of_decide_eq_true (List.all_eq_true.1 hall e he)

theorem errorsFail_stale : ∃ ret w' log,
    Returns recordedIo (fwd .f 4 [.undef] false) (staleIo .other, []) ret (w', log) ∧
      ErrorsFail .f ret log ∧ Consumed log ∧ ret = -1 := by
  obtain ⟨ret, w', log, hrun, hret, herrno, hconsumed, hrecv⟩ := returns_stale .other
  refine ⟨ret, w', log, hrun, (errorsFail_iff (.inl rfl) hrun).2 ?_, hconsumed, hret⟩
  rintro (⟨-, -, heagain⟩ | hpart | hover)
  · exact absurd (herrno.symm.trans heagain) (by decide)
  · exact hrecv.not_send hpart
  · exact hrecv.not_overlooked hover

/-- With `EAGAIN` in `errno` the refused head is taken for no head. -/
theorem not_errorsFail : ¬ ∀ direction fd bufs bind w ret w' log,
    (w.self.type = .udpInTcp ∨ w.self.type = .udpInUdp) →
      Returns recordedIo (fwd direction fd bufs bind) (w, []) ret (w', log) →
        ErrorsFail direction ret log := by
  intro hall
  obtain ⟨ret, w', log, hrun, hret, -, hconsumed, -⟩ := returns_stale .eagain
  exact (hall _ _ _ _ _ _ _ _ (.inl rfl) hrun).of_zero hret hconsumed

end HevSocks5
