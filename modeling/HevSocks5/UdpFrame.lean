/-
  The frames of a UDP-in-TCP stream.

  A frame is the length of the payload (2 octets), the length of the header
  (1 octet), an address and a payload.  Any three octets are the lengths of a
  frame, and they say how many octets follow, so frames are a prefix code.

  `Slot.receive` is what a slot holds after a frame was received into it, and
  `Slot.Takes` says which frames it takes.
-/
import HevSocks5.Base.PrefixCode
import HevSocks5.Udp

namespace HevSocks5

/-! ## Frames -/

/-- A frame, well formed or not. -/
@[ext] structure Frame where
  hdrlen : Octet
  addr : List Octet
  data : List Octet
  length_addr : addr.length = hdrlen.toNat - 3
  length_data : data.length < 65536

namespace Frame

def datlen (f : Frame) : UInt16 := UInt16.ofNat f.data.length

def octets (f : Frame) : List Octet :=
  (htons f.datlen).1 :: (htons f.datlen).2 :: f.hdrlen :: (f.addr ++ f.data)

variable (f g : Frame)

@[simp] theorem toNat_datlen : f.datlen.toNat = f.data.length := by
  simpa [datlen] using f.length_data

theorem length_octets : f.octets.length = 3 + (f.hdrlen.toNat - 3) + f.data.length := by
  simp [octets, f.length_addr]
  omega

/-- A frame is known from its lengths on. -/
theorem eq_of_octets_prefix (h : f.octets <+: g.octets) : f = g := by
  obtain ⟨t, ht⟩ := h
  simp only [octets, List.cons_append, List.cons.injEq, List.append_assoc] at ht
  obtain ⟨h₁, h₂, h₃, ht⟩ := ht
  have hdat : f.datlen = g.datlen := by
    rw [← ntohs_htons f.datlen, ← ntohs_htons g.datlen, Prod.ext h₁ h₂]
  have hlen : f.data.length = g.data.length := by rw [← toNat_datlen, ← toNat_datlen, hdat]
  obtain ⟨ha, ht⟩ := List.append_inj ht (by rw [f.length_addr, g.length_addr, h₃])
  exact Frame.ext h₃ ha (List.append_inj_left (ht.trans (List.append_nil _).symm) hlen)

end Frame

/-- Frames as words of a stream. -/
def frames : PrefixCode Frame Octet where
  word := Frame.octets
  ne_nil _ := List.cons_ne_nil _ _
  eq_of_prefix := Frame.eq_of_octets_prefix

/-! ## Slots and frames -/

namespace Slot

/-- The slot takes the frame: the header is long enough and the payload fits. -/
def Takes (s : Slot) (f : Frame) : Prop :=
  ¬ f.hdrlen < 5 ∧ ¬ f.datlen.toUInt64 > s.msg.len - UInt64.ofNat (f.hdrlen.toNat - 3)

instance (s : Slot) (f : Frame) : Decidable (s.Takes f) := inferInstanceAs (Decidable (_ ∧ _))

/-- The slot after the frame was received into it. -/
def receive (s : Slot) (f : Frame) : Slot :=
  let mem := s.mem.write 0 (f.addr ++ f.data)
  { msg := { addr := .addr mem, buf := mem.drop f.addr.length, len := f.datlen.toUInt64 }, mem }

variable {s : Slot} {f : Frame}

theorem Takes.length_addr (h : s.Takes f) : 2 ≤ f.addr.length := by
  have h5 := h.1
  rw [f.length_addr]
  simp [UInt8.lt_iff_toNat_lt] at h5
  omega

/-- A frame fits when the capacity is enough for address and payload. -/
theorem takes_of_length_le (hh : 5 ≤ f.hdrlen.toNat)
    (h : f.addr.length + f.data.length ≤ s.msg.len.toNat) : s.Takes f := by
  have hlt := s.msg.len.toNat_lt
  rw [f.length_addr] at h
  refine ⟨by simpa [UInt8.lt_iff_toNat_lt] using hh, ?_⟩
  rw [gt_iff_lt, UInt64.not_lt, UInt64.le_iff_toNat_le, UInt64.toNat_sub_of_le]
  · simp
    omega
  · rw [UInt64.le_iff_toNat_le]
    simp
    omega

@[simp] theorem receive_data : (s.receive f).msg.buf.read (s.receive f).msg.len.toNat = f.data := by
  have h : (s.receive f).msg.len.toNat = f.data.length := by simp [receive]
  rw [h]
  simp only [receive]
  have := Mem.read_write_zero s.mem (f.addr ++ f.data)
  rw [List.length_append, Mem.read_add] at this
  exact (List.append_inj this (by simp)).2

/-- The two address octets of the head are put back in front of the rest. -/
theorem write_head (m : Mem) (a b : Octet) (l : List Octet) :
    (m.write 2 l).write 0 [a, b] = m.write 0 (a :: b :: l) := by
  funext i
  match i with
  | 0 => simp [Mem.write]
  | 1 => simp [Mem.write]
  | i + 2 =>
    simp only [Mem.write, List.length_cons, List.length_nil]
    grind

end Slot

/-! ## Addresses in memory -/

/-- The length of an address is known from its first two octets. -/
theorem hevSocks5AddrLen_congr {m m' : Mem} (h₀ : m 0 = m' 0) (h₁ : m 1 = m' 1) :
    hevSocks5AddrLen m = hevSocks5AddrLen m' := by
  simp only [hevSocks5AddrLen, h₀, h₁]

theorem four_le_hevSocks5AddrLen {m : Mem} (h : 0 < hevSocks5AddrLen m) :
    4 ≤ hevSocks5AddrLen m := by
  unfold hevSocks5AddrLen at h ⊢
  split_ifs at h ⊢ <;> omega

/-- A message: the octets of the address and the payload. -/
@[ext] structure Message where
  addr : List Octet
  data : List Octet
deriving DecidableEq

/-- The message that a received entry points to. -/
def HevSocks5UDPMsg.message (m : HevSocks5UDPMsg) : Option Message :=
  match m.addr with
  | .addr a => some ⟨a.read (hevSocks5AddrLen a).toNat, m.buf.read m.len.toNat⟩
  | _ => none

/-! ## Messages to send -/

namespace HevSocks5UDP

namespace OutMsg

def addrlen (m : OutMsg) : Nat := (hevSocks5AddrLen m.addr).toNat

def message (m : OutMsg) : Message := ⟨m.addr.read m.addrlen, m.buf.read m.len.toNat⟩

/-- The address is valid, and the lengths fit into the header. -/
def Valid (m : OutMsg) : Prop :=
  0 < hevSocks5AddrLen m.addr ∧ 3 + hevSocks5AddrLen m.addr ≤ 255 ∧ m.len.toNat ≤ 65535

instance (m : OutMsg) : Decidable m.Valid := inferInstanceAs (Decidable (_ ∧ _))

end OutMsg

/-- A message that can be sent in a frame. -/
def ValidMsg := { m : OutMsg // m.Valid }

namespace ValidMsg

variable (m : ValidMsg)

theorem four_le_addrlen : 4 ≤ m.1.addrlen := by
  have h := four_le_hevSocks5AddrLen m.2.1
  unfold OutMsg.addrlen
  omega

theorem addrlen_le : 3 + m.1.addrlen ≤ 255 := by
  have h := m.2.2.1
  have h₀ := m.2.1
  unfold OutMsg.addrlen
  omega

def toFrame : Frame where
  hdrlen := UInt8.ofNat (3 + m.1.addrlen)
  addr := m.1.message.addr
  data := m.1.message.data
  length_addr := by
    have h := m.addrlen_le
    simp [OutMsg.message]
    omega
  length_data := by
    have h := m.2.2.2
    simp [OutMsg.message]
    omega

theorem toNat_hdrlen : m.toFrame.hdrlen.toNat = 3 + m.1.addrlen := by
  have h := m.addrlen_le
  simp [toFrame]
  omega

/-- The three pieces of the gather list are the frame. -/
theorem frame_eq_octets : m.1.frame m.1.addrlen = m.toFrame.octets := by
  have hlen : m.toFrame.datlen = m.1.len.toUInt16 := by
    rw [← UInt16.toNat_inj, Frame.toNat_datlen]
    have := m.2.2.2
    simp [toFrame, OutMsg.message]
    omega
  simp only [OutMsg.frame, Frame.octets, datlenOctets, hlen]
  simp [toFrame, OutMsg.message]

end ValidMsg

theorem gather_eq (piece : OutMsg → Nat → List Octet) {msgv : List OutMsg}
    (h : ∀ m ∈ msgv, 0 < hevSocks5AddrLen m.addr) :
    gather piece msgv = some (msgv.map fun m => piece m m.addrlen) := by
  induction msgv with
  | nil => rfl
  | cons m msgv ih =>
    obtain ⟨hm, hmsgv⟩ := List.forall_mem_cons.1 h
    simp only [gather, if_neg (show ¬ hevSocks5AddrLen m.addr ≤ 0 by omega), ih hmsgv,
      Option.map_some, List.map_cons]
    rfl

theorem gather_valid (msgv : List ValidMsg) :
    gather OutMsg.frame (msgv.map (·.1)) = some (msgv.map fun m => m.toFrame.octets) := by
  rw [gather_eq _ fun m hm => ?_, List.map_map]
  · simp only [← ValidMsg.frame_eq_octets]
    rfl
  · obtain ⟨m, -, rfl⟩ := List.mem_map.1 hm
    exact m.2.1

/-- A valid message arrives as it was sent. -/
theorem receive_message (s : Slot) (m : ValidMsg) :
    (s.receive m.toFrame).msg.message = some m.1.message := by
  have h4 := m.four_le_addrlen
  have hread := Mem.read_write_zero s.mem (m.toFrame.addr ++ m.toFrame.data)
  rw [List.length_append, Mem.read_add] at hread
  have haddr := (List.append_inj hread (by simp)).1
  have hlen : m.toFrame.addr.length = m.1.addrlen := by simp [ValidMsg.toFrame, OutMsg.message]
  have hoct : ∀ i < m.1.addrlen,
      s.mem.write 0 (m.toFrame.addr ++ m.toFrame.data) i = m.1.addr i := by
    intro i hi
    rw [Mem.write_zero_apply i (by simp; omega), List.getElem_append_left (by omega)]
    simp [ValidMsg.toFrame, OutMsg.message, Mem.read]
  have ha : hevSocks5AddrLen (s.mem.write 0 (m.toFrame.addr ++ m.toFrame.data)) =
      hevSocks5AddrLen m.1.addr :=
    hevSocks5AddrLen_congr (hoct 0 (by omega)) (hoct 1 (by omega))
  have hdata := Slot.receive_data (s := s) (f := m.toFrame)
  rw [hlen] at haddr
  have hmsg : (s.receive m.toFrame).msg.message =
      some ⟨(s.mem.write 0 (m.toFrame.addr ++ m.toFrame.data)).read m.1.addrlen,
        (s.receive m.toFrame).msg.buf.read (s.receive m.toFrame).msg.len.toNat⟩ := by
    simp only [HevSocks5UDPMsg.message, Slot.receive, ha]
    rfl
  rw [hmsg, haddr, hdata]
  rfl

end HevSocks5UDP

end HevSocks5
