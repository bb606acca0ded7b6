/-
  The buffers that `recvmmsg_tcp` stores into.

  A frame is stored from the second octet of its buffer on: the address part,
  whose length its header says, and the payload behind it.  The check takes the
  length of the address part from the capacity, without a sign; a capacity that
  is smaller becomes a very large one, and the frame is not refused.  So a call
  stays within its buffers when the address parts of the frames that it gets
  fit into them (`stores_within_iff`).
-/
import HevSocks5.UdpSync
import HevSocks5.Base.Threads

namespace HevSocks5

open Interact Sys HevSocks5UDP

/-! ## The check -/

/-- `addrlen`, of a header length. -/
def addrPart (hdrlen : Octet) : Nat := hdrlen.toNat - 3

/-- `udp.datlen > (msgv[i].len - addrlen)` -/
def refuses (len : UInt64) (hdrlen : Octet) (datlen : UInt16) : Prop :=
  datlen.toUInt64 > len - UInt64.ofNat (addrPart hdrlen)

instance (len : UInt64) (hdrlen : Octet) (datlen : UInt16) :
    Decidable (refuses len hdrlen datlen) :=
  inferInstanceAs (Decidable (_ > _))

variable {len : UInt64} {hdrlen : Octet} {datlen : UInt16}

theorem toNat_addrPart (hdrlen : Octet) :
    (UInt64.ofNat (addrPart hdrlen)).toNat = addrPart hdrlen := by
  have h := hdrlen.toNat_lt
  rw [UInt64.toNat_ofNat_of_lt']
  unfold addrPart
  show hdrlen.toNat - 3 < 2 ^ 64
  omega

/-- **The comparison is exact** when the address part fits. -/
theorem refuses_iff (h : addrPart hdrlen ≤ len.toNat) :
    refuses len hdrlen datlen ↔ len.toNat < addrPart hdrlen + datlen.toNat := by
  have hle : UInt64.ofNat (addrPart hdrlen) ≤ len := by
    rw [UInt64.le_iff_toNat_le, toNat_addrPart]
    exact h
  rw [refuses, gt_iff_lt, UInt64.lt_iff_toNat_lt, UInt64.toNat_sub_of_le _ _ hle, toNat_addrPart,
    UInt16.toNat_toUInt64]
  omega

/-- Nothing is refused when it does not. -/
theorem not_refuses (h : len.toNat < addrPart hdrlen) : ¬ refuses len hdrlen datlen := by
  have hh := hdrlen.toNat_lt
  have hd := datlen.toNat_lt
  have hl := len.toNat_lt
  have hwrap : (len - UInt64.ofNat (addrPart hdrlen)).toNat =
      2 ^ 64 - addrPart hdrlen + len.toNat := by
    rw [UInt64.toNat_sub, toNat_addrPart]
    exact Nat.mod_eq_of_lt (by omega)
  rw [refuses, gt_iff_lt, UInt64.lt_iff_toNat_lt, hwrap, UInt16.toNat_toUInt64]
  unfold addrPart at *
  omega

/-! ## The calls that store -/

/-- The connection, and the slots that have not been stored into yet. -/
def filling : Env Op (Conn × List Slot) := fun w _ o b w' =>
  conn w.1 o b w'.1 ∧
    match o with
    | .recvmsg _ _ => w'.2 = w.2.tail
    | _ => w'.2 = w.2

/-- **What is asked for lies within the buffer**: it is stored from the second octet on. -/
def Within : Assert Op (Conn × List Slot) := fun w _ o =>
  match o with
  | .recvmsg _ n => ∃ s ∈ w.2.head?, 2 + n ≤ s.msg.len.toNat
  | _ => True

/-- Behind its capacity the buffer is as it was. -/
def Untouched (s s' : Slot) : Prop := ∀ i, s.msg.len.toNat ≤ i → s'.mem i = s.mem i

/-- A call stores within its buffers, and refuses what does not fit. -/
def StoresWithin (slots : List Slot) (nonblock : Bool) (w : Conn) : Prop :=
  Meets filling Within (recvmmsgTcp slots nonblock) (w, slots) fun r _ =>
    List.Forall₂ Untouched slots r.2

/-- The address parts of the frames fit, as far as the slots take them. -/
def HeadsFit : List Slot → List Octet → Prop
  | s :: slots, a :: b :: hdrlen :: _ :: _ :: stream => 5 ≤ hdrlen.toNat →
    let n := addrPart hdrlen - 2 + (ntohs (a, b)).toNat
    addrPart hdrlen ≤ s.msg.len.toNat ∧
      (2 + n ≤ s.msg.len.toNat → n ≤ stream.length → HeadsFit slots (stream.drop n))
  | _, _ => True

theorem meets_recvHead (fd : Int) (nonblock : Bool) (w : Conn × List Slot) :
    Meets filling Within (recvHead fd nonblock) w fun r w' =>
      w'.2 = w.2 ∧ (r.1 = 5 → r.2.length = 5 ∧ w.1.rest = r.2 ++ w'.1.rest) := by
  have hflags : dontwaitIf nonblock ≠ .waitall := by cases nonblock <;> decide
  simp only [recvHead, meets_bind, meets_op, meets_ite, meets_pure]
  refine ⟨trivial, ?_⟩
  rintro r w₁ ⟨hr, hslots⟩
  simp only [conn, if_neg hflags] at hr
  obtain ⟨hreads, hlen⟩ := hr.reads
  split
  case isTrue h =>
    refine ⟨trivial, ?_⟩
    rintro r' w₂ ⟨hr', hslots'⟩
    simp only [conn, if_true] at hr'
    obtain ⟨hreads', hlen'⟩ := hr'.reads
    refine ⟨hslots'.trans hslots, fun h5 => ?_⟩
    have hall := hlen' (by omega)
    refine ⟨?_, (hreads.trans hreads').rest⟩
    rw [List.length_append]
    omega
  case isFalse h => exact ⟨hslots, fun h5 => ⟨by omega, hreads.rest⟩⟩

/-- What a slot has come to. -/
def SlotWithin (s : Slot) (slots : List Slot) (t : Turn) (w : Conn × List Slot) : Prop :=
  match t with
  | .body _ s' => Untouched s s'
  | .message s' => Untouched s s' ∧ w.2 = slots ∧ HeadsFit slots w.1.rest
  | _ => True

theorem untouched_write {s s' : Slot} {data : List Octet}
    (hlen : 2 + data.length ≤ s.msg.len.toNat) (hs' : s'.mem = s.mem.write 2 data) :
    Untouched s s' := by
  intro i hi
  rw [hs']
  exact Mem.write_apply_of_ge i (by omega)

/-- A slot whose frames have address parts that fit. -/
theorem meets_recvSlot (fd : Int) (nonblock : Bool) {s : Slot} {slots : List Slot}
    {w : Conn × List Slot} (hw : w.2 = s :: slots) (hfit : HeadsFit (s :: slots) w.1.rest) :
    Meets filling Within (recvSlot fd nonblock s) w (SlotWithin s slots) := by
  unfold recvSlot
  refine (meets_recvHead fd nonblock w).bind ?_
  rintro ⟨res, udp⟩ w₁ ⟨hslots, hhead⟩
  dsimp only at hhead ⊢
  rw [meets_ite]
  split
  case isTrue => trivial
  case isFalse h5 =>
    obtain ⟨hlen, hrest⟩ := hhead (not_not.1 h5)
    obtain ⟨a, b, h, d, e, rfl⟩ := exists_five hlen
    rw [hrest] at hfit
    simp only [List.getD_cons_zero, List.getD_cons_succ, meets_ite]
    split
    case isTrue => trivial
    case isFalse hh =>
      have hh' : 5 ≤ h.toNat := by simpa [UInt8.lt_iff_toNat_lt] using hh
      obtain ⟨hpart, hnext⟩ := hfit hh'
      split
      case isTrue => trivial
      case isFalse hd =>
        have hsum := mt (refuses_iff hpart).2 hd
        have hn : 2 + (h.toNat - 3 - 2 + (ntohs (a, b)).toNat) ≤ s.msg.len.toNat := by
          unfold addrPart at hsum
          omega
        simp only [meets_bind, meets_op, meets_ite]
        refine ⟨⟨s, by rw [hslots, hw]; rfl, hn⟩, ?_⟩
        rintro r w₂ ⟨hr, htail⟩
        obtain ⟨hreads, hall⟩ := Conn.Waitall.reads hr
        have hdata : r.data.length ≤ h.toNat - 3 - 2 + (ntohs (a, b)).toNat := by
          obtain ⟨k, -, hk, -, hdata, -⟩ := hr
          rw [hdata, List.length_take]
          omega
        split
        case isTrue => exact untouched_write (by omega) rfl
        case isFalse hres =>
          have hlen' := hall (by have := not_not.1 hres; omega)
          refine ⟨?_, by rw [htail, hslots, hw]; rfl, ?_⟩
          · intro i hi
            show (Mem.write _ 0 _) i = _
            rw [Mem.write_apply_of_ge i (by simp; omega)]
            exact Mem.write_apply_of_ge i (by omega)
          · have hbehind := hnext hn (by
              show addrPart h - 2 + _ ≤ w₁.1.rest.length
              rw [hreads.rest, List.length_append, hlen']
              unfold addrPart
              omega)
            show HeadsFit slots w₂.1.rest
            have hdrop : ([] ++ w₁.1.rest).drop (addrPart h - 2 + (ntohs (a, b)).toNat) =
                w₂.1.rest := by
              rw [hreads.rest]
              exact List.drop_left' hlen'
            rw [← hdrop]
            exact hbehind

/-- From slot to slot. -/
theorem meets_recvmmsgTcpLoop (fd : Int) (nonblock : Bool) {slots olds done : List Slot}
    {w : Conn × List Slot} (hw : w.2 = slots) (hfit : HeadsFit slots w.1.rest)
    (hdone : List.Forall₂ Untouched olds done) :
    Meets filling Within (recvmmsgTcpLoop fd nonblock slots done) w fun r _ =>
      List.Forall₂ Untouched (olds ++ slots) r.2 := by
  have hrefl (slots : List Slot) : List.Forall₂ Untouched slots slots :=
    List.forall₂_same.2 fun _ _ _ _ => rfl
  induction slots generalizing olds done w with
  | nil =>
    rw [List.append_nil]
    exact hdone
  | cons s slots ih =>
    unfold recvmmsgTcpLoop
    refine (meets_recvSlot fd nonblock hw hfit).bind ?_
    rintro (res | _ | ⟨res, s'⟩ | s') w₁ ht
    · exact List.rel_append hdone (hrefl (s :: slots))
    · exact List.rel_append hdone (hrefl (s :: slots))
    · exact List.rel_append hdone (.cons ht (hrefl slots))
    · obtain ⟨hs', hw₁, hfit₁⟩ := ht
      have hdone₁ : List.Forall₂ Untouched (olds ++ [s]) (done ++ [s']) :=
        List.rel_append hdone (.cons hs' .nil)
      have h := ih hw₁ hfit₁ hdone₁
      simpa using h

/-! ## The frame that does not fit -/

/-- A head that is there may be read at once. -/
theorem returns_recvHead (fd : Int) (nonblock : Bool) {w : Conn × List Slot} {a b h d e : Octet}
    {stream : List Octet} (hrest : w.1.rest = a :: b :: h :: d :: e :: stream) :
    Returns filling (recvHead fd nonblock) w (5, [a, b, h, d, e]) (w.1.take 5 w.1.errno, w.2) := by
  have hflags : dontwaitIf nonblock ≠ .waitall := by cases nonblock <;> decide
  unfold recvHead
  have h5 : ¬ (0 < (5 : Int) ∧ (5 : Int) < 5) := by decide
  refine returns_bind.2 ⟨⟨5, [a, b, h, d, e]⟩, (w.1.take 5 w.1.errno, w.2),
    returns_op.2 ⟨?_, rfl⟩, by rw [if_neg h5]; exact .ret _ _⟩
  simp only [conn, if_neg hflags]
  exact ⟨5, w.1.errno, Nat.le_refl _, by simp [hrest], by rw [hrest]; rfl, rfl, .inl rfl⟩

/-- A call that asks only for what lies within has address parts that fit. -/
theorem headsFit_of_meets (fd : Int) (nonblock : Bool) {slots done : List Slot}
    {w : Conn × List Slot} (hw : w.2 = slots) {Q : Int × List Slot → Conn × List Slot → Prop}
    (h : Meets filling Within (recvmmsgTcpLoop fd nonblock slots done) w Q) :
    HeadsFit slots w.1.rest := by
  induction slots generalizing done w with
  | nil => trivial
  | cons s slots ih =>
    unfold HeadsFit
    split
    case h_2 => trivial
    case h_1 s' slots' a b hdrlen d e stream hs hrest =>
      obtain ⟨rfl, rfl⟩ := List.cons.inj hs
      intro h5
      unfold recvmmsgTcpLoop recvSlot at h
      simp only [meets_bind] at h
      replace h := h.returns (returns_recvHead fd nonblock hrest)
      have hh : ¬ hdrlen < 5 := by simpa [UInt8.lt_iff_toNat_lt] using h5
      simp only [ne_eq, not_true_eq_false, if_false, List.getD_cons_zero, List.getD_cons_succ,
        if_neg hh] at h
      by_cases hr : refuses s.msg.len hdrlen (ntohs (a, b))
      · have hpart : addrPart hdrlen ≤ s.msg.len.toNat :=
          Nat.le_of_not_lt fun hlt => not_refuses hlt hr
        have hsum := (refuses_iff hpart).1 hr
        refine ⟨hpart, fun hn => absurd hn ?_⟩
        unfold addrPart at *
        omega
      · have hr' : ¬ (ntohs (a, b)).toUInt64 > s.msg.len - UInt64.ofNat (hdrlen.toNat - 3) := hr
        rw [if_neg hr'] at h
        simp only [meets_bind, meets_op, hw] at h
        obtain ⟨⟨s', hs', hn⟩, hnext⟩ := h
        obtain rfl : s = s' := by simpa using hs'
        refine ⟨by unfold addrPart; omega, fun _ hstream => ?_⟩
        have hdrop : stream = (w.1.take 5 w.1.errno).rest := by rw [Conn.take, hrest]; rfl
        have hget : conn (w.1.take 5 w.1.errno)
            (.recvmsg fd (addrPart hdrlen - 2 + (ntohs (a, b)).toNat))
            ⟨_, stream.take (addrPart hdrlen - 2 + (ntohs (a, b)).toNat)⟩ _ :=
          ⟨_, w.1.errno, Nat.le_refl _, by rw [← hdrop]; exact hstream, by rw [← hdrop], rfl,
            .inl ⟨rfl, rfl⟩⟩
        replace hnext := hnext _ (_, slots) ⟨hget, rfl⟩
        have hres : ¬ ((addrPart hdrlen - 2 + (ntohs (a, b)).toNat : Nat) : Int) ≠
            ((hdrlen.toNat - 3 : Nat) : Int) - 2 + (ntohs (a, b)).toNat := by
          unfold addrPart
          omega
        rw [if_neg hres] at hnext
        have hfit : HeadsFit slots ((w.1.take 5 w.1.errno).rest.drop _) := ih rfl hnext
        rwa [← hdrop] at hfit

theorem storesWithin_iff_headsFit (slots : List Slot) (nonblock : Bool) (w : Conn) :
    StoresWithin slots nonblock w ↔ HeadsFit slots w.rest := by
  unfold StoresWithin recvmmsgTcp
  simp only [hevSocks5UdpGetFd, meets_bind, meets_op]
  constructor
  · rintro ⟨-, h⟩
    exact headsFit_of_meets (w := (w, slots)) 0 nonblock rfl (h 0 (w, slots) ⟨rfl, rfl⟩)
  · intro h
    refine ⟨trivial, ?_⟩
    rintro fd ⟨w₁, slots₁⟩ ⟨rfl, rfl⟩
    exact meets_recvmmsgTcpLoop fd nonblock rfl h .nil

end HevSocks5
