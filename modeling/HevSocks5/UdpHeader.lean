/-
  The headers of the frames that `recvmmsg_tcp` accepts.

  The length of an address is said twice, by the header length of the frame and
  by the address itself, and `recvmmsg_tcp` does not compare them.  When they
  agree, the destination of a message is known from the address octets of its
  frame; when they do not, it is not.

  So the headers are consistent for the streams whose frames are, as far as the
  slots take them, and for no others (`headersConsistent_iff`).
-/
import HevSocks5.UdpCount

namespace HevSocks5

open Interact Sys HevSocks5UDP

/-! ## An address in memory -/

/-- What an address resolves to depends on its own octets only. -/
theorem hevSocks5AddrIntoSockaddr6_congr {m m' : Mem} (hpos : 0 < hevSocks5AddrLen m)
    (h : ∀ i : Nat, i < hevSocks5AddrLen m → m i = m' i) (saddr : SockAddrIn6)
    (family : HevSocks5AddrFamily) :
    hevSocks5AddrIntoSockaddr6 m saddr family = hevSocks5AddrIntoSockaddr6 m' saddr family := by
  have h4 := four_le_hevSocks5AddrLen hpos
  have h₀ : m 0 = m' 0 := h 0 (by omega)
  have h₁ : m 1 = m' 1 := h 1 (by omega)
  have hvec : ∀ {k n : Nat}, (k + n : Nat) ≤ hevSocks5AddrLen m →
      vectorAt m k n = vectorAt m' k n := by
    intro k n hle
    refine Vector.ext fun i hi => ?_
    simp only [vectorAt, Vector.getElem_ofFn]
    exact h _ (by omega)
  simp only [hevSocks5AddrIntoSockaddr6, ← h₀, ← h₁]
  unfold hevSocks5AddrLen at h hvec
  split_ifs at h hvec ⊢
  · simp only [hevSocks5Ipv4IntoSockaddr6, h 5 (by omega), h 6 (by omega),
      hvec (k := 1) (n := 4) (by omega)]
  · simp only [hevSocks5Ipv6IntoSockaddr6, h 17 (by omega), h 18 (by omega),
      hvec (k := 1) (n := 16) (by omega)]
  · have hname : (m.drop 2).read (m 1).toNat = (m'.drop 2).read (m 1).toNat :=
      Mem.read_congr fun i hi => h _ (by omega)
    simp only [hname, h (2 + (m 1).toNat) (by omega), h (2 + (m 1).toNat + 1) (by omega)]
  · rfl

/-! ## Consistent frames -/

/-- The header length is that of the address in the frame. -/
def Frame.Consistent (f : Frame) : Prop :=
  (f.hdrlen.toNat : Int) = 3 + hevSocks5AddrLen (.ofList f.addr)

instance (f : Frame) : Decidable f.Consistent := inferInstanceAs (Decidable (_ = _))

/-- The destination that the octets of an address stand for. -/
def destination (addr : List Octet) (family : HevSocks5AddrFamily) :
    SysM (Int × SockAddrIn6 × HevSocks5AddrFamily) :=
  hevSocks5AddrIntoSockaddr6 (.ofList addr) .zero family

/-- **The entry of a frame with a consistent header**: address and payload lie next to each
    other, and the destination is that of the address octets of the frame. -/
structure Faithful (f : Frame) (s : Slot) : Prop where
  consistent : f.Consistent
  message : s.msg.message = some ⟨f.addr, f.data⟩
  destination : ∃ m, s.msg.addr = .addr m ∧
    ∀ family, hevSocks5AddrIntoSockaddr6 m .zero family = destination f.addr family

section
variable {s : Slot} {f : Frame} {fs : List Frame} {slots done : List Slot} {w : Conn} {fd : Int}
  {nonblock : Bool} {tail : List Octet}

theorem Frame.Consistent.faithful (h : f.Consistent) (ht : s.Takes f) :
    Faithful f (s.receive f) := by
  have h2 := ht.length_addr
  have hlen : hevSocks5AddrLen (.ofList f.addr) = f.addr.length := by
    have haddr := f.length_addr
    unfold Consistent at h
    omega
  have hoct : ∀ i < f.addr.length, Mem.ofList f.addr i = s.mem.write 0 (f.addr ++ f.data) i := by
    intro i hi
    rw [Mem.write_zero_apply i (by simp; omega), List.getElem_append_left hi]
    simp [Mem.ofList, hi]
  have hlen' : hevSocks5AddrLen (s.mem.write 0 (f.addr ++ f.data)) = f.addr.length := by
    rw [← hlen]
    exact (hevSocks5AddrLen_congr (hoct 0 (by omega)) (hoct 1 (by omega))).symm
  refine ⟨h, ?_, _, rfl, fun family => ?_⟩
  · have hread := Mem.read_write_zero s.mem (f.addr ++ f.data)
    rw [List.length_append, Mem.read_add] at hread
    have hdata := Slot.receive_data (s := s) (f := f)
    simp only [Slot.receive] at hdata ⊢
    simp only [HevSocks5UDPMsg.message, hlen', Int.toNat_natCast, hdata,
      (List.append_inj hread (by simp)).1]
  · refine (hevSocks5AddrIntoSockaddr6_congr (by omega) (fun i hi => ?_) _ _).symm
    exact hoct i (by omega)

theorem forall₂_faithful (hlen : fs.length ≤ slots.length) (ht : ∀ p ∈ slots.zip fs, p.1.Takes p.2)
    (hc : ∀ f ∈ fs, f.Consistent) :
    List.Forall₂ Faithful fs (List.zipWith Slot.receive slots fs) := by
  induction fs generalizing slots with
  | nil => simp
  | cons f fs ih =>
    cases slots with
    | nil => simp at hlen
    | cons s slots =>
      rw [List.zip_cons_cons] at ht
      obtain ⟨hf, ht⟩ := List.forall_mem_cons.1 ht
      obtain ⟨hcf, hc⟩ := List.forall_mem_cons.1 hc
      exact .cons (hcf.faithful hf) (ih (by simpa using hlen) ht hc)

theorem consistent_of_forall₂ {svec : List Slot} (h : List.Forall₂ Faithful fs svec) :
    ∀ f ∈ fs, f.Consistent := by
  induction h with
  | nil => simp
  | cons hf _ ih => exact List.forall_mem_cons.2 ⟨hf.consistent, ih⟩

/-- **The accepted frames have consistent headers**, in every call of `recvmmsg_tcp`. -/
def HeadersConsistent (slots : List Slot) (nonblock : Bool) (w : Conn) : Prop :=
  ∀ res svec w' fs, Returns stopConn (recvmmsgTcp slots nonblock) w (res, svec) w' →
    (fs.length : Int) ≤ res → Fills slots w svec w' fs →
    List.Forall₂ Faithful fs (svec.take fs.length)

/-- The frames at the front of the stream are consistent, as far as the slots take them. -/
def Consistent (slots : List Slot) (stream : List Octet) : Prop :=
  ∀ fs, frames.words fs <+: stream → fs.length ≤ slots.length →
    (∀ p ∈ slots.zip fs, p.1.Takes p.2) → ∀ f ∈ fs, f.Consistent

/-! ## A call that receives the frames -/

theorem Slot.Takes.octets_eq (h : s.Takes f) : ∃ d e data,
    f.octets = [(htons f.datlen).1, (htons f.datlen).2, f.hdrlen, d, e] ++ data ∧
      f.addr ++ f.data = d :: e :: data ∧
      data.length = f.hdrlen.toNat - 3 - 2 + f.datlen.toNat := by
  have h2 := h.length_addr
  have hlen := f.length_addr
  obtain ⟨d, e, addr, haddr⟩ := exists_two h2
  refine ⟨d, e, addr ++ f.data, by simp [Frame.octets, haddr], by simp [haddr], ?_⟩
  rw [haddr] at hlen
  simp at hlen ⊢
  omega

theorem returns_recvSlot (ht : s.Takes f) (hw : w.rest = f.octets ++ tail) :
    ∃ w', Returns stopConn (recvSlot fd nonblock s) w (.message (s.receive f)) w' ∧
      Reads w f.octets w' := by
  obtain ⟨d, e, data, hoct, hadd, hdata⟩ := ht.octets_eq
  rw [hoct] at hw
  have hflags : dontwaitIf nonblock ≠ .waitall := by cases nonblock <;> decide
  let w₁ := w.take 5 .other
  let w₂ := w₁.take data.length .other
  have hrest : w₁.rest = data ++ tail := by simp [w₁, Conn.take, hw]
  have hhead : Returns stopConn (recvHead fd nonblock) w
      (5, [(htons f.datlen).1, (htons f.datlen).2, f.hdrlen, d, e]) w₁ := by
    simp only [recvHead, returns_bind, returns_op]
    refine ⟨⟨5, w.rest.take 5⟩, w₁, ⟨?_, fun h => absurd h hflags⟩, ?_⟩
    · simp only [conn, if_neg hflags]
      exact ⟨5, .other, Nat.le_refl 5, by simp [hw], rfl, rfl, .inl rfl⟩
    · rw [if_neg (fun h => absurd h.2 (Int.lt_irrefl 5)), hw]
      exact .ret _ _
  refine ⟨w₂, ?_, ?_⟩
  · unfold recvSlot
    refine returns_bind.2 ⟨_, w₁, hhead, ?_⟩
    have hdat : ntohs ((htons f.datlen).1, (htons f.datlen).2) = f.datlen := ntohs_htons _
    simp only [List.getD_cons_zero, List.getD_cons_succ, hdat]
    rw [if_neg (fun h => h rfl), if_neg ht.1, if_neg ht.2]
    simp only [returns_bind, returns_op, ← hdata]
    refine ⟨⟨data.length, w₁.rest.take data.length⟩, w₂, ⟨?_, fun h => absurd rfl h⟩, ?_⟩
    · exact ⟨data.length, .other, Nat.le_refl _, by simp [hrest], rfl, rfl, .inl ⟨rfl, rfl⟩⟩
    · have h5 : 5 ≤ f.hdrlen.toNat := by simpa [UInt8.lt_iff_toNat_lt] using ht.1
      rw [hrest, List.take_left]
      dsimp only
      rw [if_neg (by omega), Slot.receive, f.length_addr, hadd, Slot.write_head]
      exact .ret _ _
  · have h₁ : Reads w [(htons f.datlen).1, (htons f.datlen).2, f.hdrlen, d, e] w₁ := by
      have h := Reads.take (w := w) 5 .other
      rwa [hw] at h
    have h₂ : Reads w₁ data w₂ := by
      have h := Reads.take (w := w₁) data.length .other
      rwa [hrest, List.take_left] at h
    rw [hoct]
    exact h₁.trans h₂

/-- A head does not come. -/
theorem returns_recvSlot_stop :
    Returns stopConn (recvSlot fd nonblock s) w (.head (-1)) (w.take 0 .other) := by
  have hflags : dontwaitIf nonblock ≠ .waitall := by cases nonblock <;> decide
  refine returns_bind.2 ⟨(-1, []), w.take 0 .other, ?_, .ret _ _⟩
  simp only [recvHead, returns_bind, returns_op]
  refine ⟨⟨-1, []⟩, w.take 0 .other, ⟨?_, fun h => absurd h hflags⟩, .ret _ _⟩
  simp only [conn, if_neg hflags]
  exact ⟨0, .other, Nat.zero_le _, Nat.zero_le _, rfl, rfl, .inr ⟨rfl, by decide⟩⟩

/-- A call that receives the frames and then stops. -/
theorem returns_recvmmsgTcpLoop (done : List Slot) (hw : w.rest = frames.words fs ++ tail)
    (hlen : fs.length ≤ slots.length) (ht : ∀ p ∈ slots.zip fs, p.1.Takes p.2)
    (hne : fs = [] → done ≠ []) :
    ∃ (svec : List Slot) (w' : Conn), Returns stopConn (recvmmsgTcpLoop fd nonblock slots done) w
        ((done.length + fs.length : Nat), svec) w' ∧
      Reads w (frames.words fs) w' ∧
      svec.take (done.length + fs.length) = done ++ List.zipWith Slot.receive slots fs := by
  induction slots generalizing done w fs with
  | nil =>
    obtain rfl : fs = [] := List.eq_nil_of_length_eq_zero (Nat.le_zero.1 hlen)
    exact ⟨done, w, .ret _ _, .refl, by simp⟩
  | cons s slots ih =>
    unfold recvmmsgTcpLoop
    cases fs with
    | nil =>
      have hpos : done.length > 0 := List.length_pos_iff.2 (hne rfl)
      refine ⟨done ++ s :: slots, _, returns_bind.2 ⟨_, _, returns_recvSlot_stop, ?_⟩,
        .take 0 .other, ?_⟩
      · dsimp only
        rw [if_pos hpos]
        exact .ret _ _
      · simp
    | cons f fs =>
      rw [List.zip_cons_cons] at ht
      obtain ⟨hf, ht⟩ := List.forall_mem_cons.1 ht
      rw [PrefixCode.words_cons, List.append_assoc] at hw
      obtain ⟨w₁, hrun, hreads⟩ := returns_recvSlot hf hw
      have hw₁ : w₁.rest = frames.words fs ++ tail :=
        List.append_cancel_left (hreads.rest.symm.trans hw)
      obtain ⟨svec, w', hrun', hreads', hsvec⟩ :=
        ih (done ++ [s.receive f]) hw₁ (by simpa using hlen) ht (by simp)
      rw [List.length_append, List.length_singleton, Nat.add_assoc, Nat.add_comm 1] at hrun' hsvec
      refine ⟨svec, w', returns_bind.2 ⟨_, w₁, hrun, hrun'⟩, ?_, by simpa using hsvec⟩
      rw [PrefixCode.words_cons]
      exact hreads.trans hreads'

theorem HeadersConsistent.consistent (h : HeadersConsistent slots nonblock w) :
    Consistent slots w.rest := by
  intro fs hpre hlen ht f hf
  obtain ⟨tail, hw⟩ := hpre
  obtain ⟨svec, w', hrun, hreads, hsvec⟩ := returns_recvmmsgTcpLoop []
    hw.symm hlen ht (fun h => by simp [h] at hf)
  rw [List.length_nil, Nat.zero_add] at hrun hsvec
  have hcall : Returns stopConn (recvmmsgTcp slots nonblock) w ((fs.length : Nat), svec) w' :=
    returns_bind.2 ⟨0, w, returns_op.2 ⟨rfl, trivial⟩, hrun⟩
  have hfills : Fills slots w svec w' fs := ⟨⟨[], by simpa using hreads⟩, hlen, ht, hsvec⟩
  exact consistent_of_forall₂ (h _ _ _ fs hcall (Int.le_refl _) hfills) f hf

/-- **The accepted headers are consistent for the streams of consistent frames**, and for no
    others. -/
theorem headersConsistent_iff (slots : List Slot) (nonblock : Bool) (w : Conn) :
    HeadersConsistent slots nonblock w ↔ Consistent slots w.rest := by
  refine ⟨HeadersConsistent.consistent, fun h res svec w' fs hrun hres hfills => ?_⟩
  obtain ⟨l, hreads⟩ := hfills.reads
  have hpre : frames.words fs <+: w.rest := by
    rw [hreads.rest, List.append_assoc]
    exact List.prefix_append _ _
  rw [hfills.svec_eq]
  exact forall₂_faithful hfills.length_le hfills.takes (h fs hpre hfills.length_le hfills.takes)

end

theorem length_short : [(3 : Octet), 255].length = (5 : Octet).toNat - 3 := rfl

theorem length_letter : [(104 : Octet)].length < 65536 := by decide

/-- An address of the type of names, the name of which is not in the frame. -/
def shortAddress : Frame := ⟨5, [3, 255], [104], length_short, length_letter⟩

/-- It is accepted. -/
theorem not_headersConsistent : ¬ ∀ slots nonblock w, HeadersConsistent slots nonblock w := by
  intro hall
  have h := (hall [fwdSlot .undef] true ⟨[], shortAddress.octets, .other, 0⟩).consistent
  have hc := h [shortAddress] (by simp [frames]) (by simp) (by decide) shortAddress (by simp)
  exact absurd hc (by decide)

end HevSocks5
