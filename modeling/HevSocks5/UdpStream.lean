/-
  Reading a stream of frames.

  `Delivers` says what the receive calls of an environment are assumed to do
  here: they take octets from the front of a stream, in pieces of any size, and
  a call with `MSG_WAITALL` takes all that it asks for.  A plain call may also
  stop without taking any.

  Then a slot receives the next frame or refuses it (`always_recvSlot`), and a
  call receives the next frames, one for each slot, until it stops at the end
  of a frame or refuses the next one (`always_recvmmsgTcpLoop`).
-/
import HevSocks5.UdpFrame

namespace HevSocks5

open Interact Sys HevSocks5UDP

section
variable {W : Type}

/-- The environment delivers the octets of `rest`, and of what comes after them when a call
    waits for more.  `Same` holds between the states before and after octets were taken,
    `Stop` says when a plain call takes none. -/
structure Delivers (E : Env Op W) (rest : W → List Octet) (Same : W → W → Prop)
    (Stop : Bool → W → Int → W → Prop) : Prop where
  refl : ∀ {w}, Same w w
  trans : ∀ {w₁ w₂ w₃}, Same w₁ w₂ → Same w₂ w₃ → Same w₁ w₃
  recv : ∀ {w fd nonblock w'} {r : Received},
    E w (.recv fd 5 (dontwaitIf nonblock)) r w' →
      (0 < r.res ∧ r.res ≤ 5 ∧ r.data.length = r.res ∧ rest w = r.data ++ rest w' ∧ Same w w') ∨
      (r.res ≤ 0 ∧ rest w' = rest w ∧ Stop nonblock w r.res w')
  waitall : ∀ {w fd n w'} {r : Received}, E w (.recv fd n .waitall) r w' →
    r.res = n ∧ r.data.length = n ∧ Same w w' ∧
      (rest w = r.data ++ rest w' ∨ ((rest w).length < n ∧ rest w <+: r.data))
  recvmsg : ∀ {w fd n w'} {r : Received}, E w (.recvmsg fd n) r w' →
    r.res = n ∧ r.data.length = n ∧ Same w w' ∧
      (n ≤ (rest w).length → rest w = r.data ++ rest w')

variable {E : Env Op W} {rest : W → List Octet} {Same : W → W → Prop}
  {Stop : Bool → W → Int → W → Prop} {fd : Int} {nonblock : Bool}

theorem always_recvHead (h : Delivers E rest Same Stop) (w : W) :
    Post E (recvHead fd nonblock) w fun r w' =>
      (r.1 ≤ 0 ∧ rest w' = rest w ∧ Stop nonblock w r.1 w') ∨
      (r.1 = 5 ∧ r.2.length = 5 ∧ rest w ≠ [] ∧ Same w w' ∧
        (rest w = r.2 ++ rest w' ∨ ((rest w).length < 5 ∧ rest w <+: r.2))) := by
  simp only [recvHead, always_bind, always_op, always_ite, always_pure]
  intro r w₁ hr
  refine ⟨trivial, ?_⟩
  rcases h.recv hr with ⟨h₀, h₅, hlen, hrest, hsame⟩ | ⟨h₀, hrest, hstop⟩
  · have hne : rest w ≠ [] := by
      rw [hrest]
      exact List.append_ne_nil_of_left_ne_nil (List.length_pos_iff.1 (by omega)) _
    split
    · rename_i hlt
      intro r' w₂ hr'
      obtain ⟨hres', hlen', hsame', hrest'⟩ := h.waitall hr'
      refine ⟨trivial, .inr ⟨?_, ?_, hne, h.trans hsame hsame', ?_⟩⟩
      · omega
      · simp only [List.length_append]
        omega
      · rcases hrest' with hrest' | ⟨hshort, hpre⟩
        · exact .inl (by rw [hrest, hrest', List.append_assoc])
        · refine .inr ⟨?_, ?_⟩
          · simp only [hrest, List.length_append]
            omega
          · rw [hrest]
            exact (List.prefix_append_right_inj _).2 hpre
    · exact .inr ⟨by omega, by omega, hne, hsame, .inl hrest⟩
  · rw [if_neg (by omega)]
    exact .inl ⟨h₀, hrest, hstop⟩

/-- **One slot** receives the next frame of the stream or refuses it, unless it stops. -/
theorem always_recvSlot (h : Delivers E rest Same Stop) {w : W} {s : Slot} {f : Frame}
    {tail : List Octet} (hw : rest w = f.octets ++ tail) :
    Post E (recvSlot fd nonblock s) w fun t w' =>
      (∃ res, t = .head res ∧ res ≤ 0 ∧ rest w' = rest w ∧ Stop nonblock w res w') ∨
      (t = .refused ∧ ¬ s.Takes f ∧ Same w w') ∨
      (t = .message (s.receive f) ∧ s.Takes f ∧ Same w w' ∧ rest w' = tail) := by
  unfold recvSlot
  refine (always_recvHead h w).bind ?_
  rintro ⟨res, udp⟩ w₁ (⟨h₀, hrest, hstop⟩ | ⟨h5, hlen, -, hsame, hrest⟩) <;> dsimp only at *
  · rw [if_pos (by omega)]
    exact .inl ⟨_, rfl, h₀, hrest, hstop⟩
  -- the head has the lengths of the frame
  obtain ⟨d, e, rfl⟩ : ∃ d e,
      udp = [(htons f.datlen).1, (htons f.datlen).2, f.hdrlen, d, e] := by
    have hpre : f.octets ++ tail <+: udp ++ rest w₁ ∨ f.octets ++ tail <+: udp := by
      rcases hrest with hrest | ⟨-, hrest⟩
      · exact .inl ((hw.symm.trans hrest) ▸ List.prefix_rfl)
      · exact .inr (hw ▸ hrest)
    obtain ⟨a, b, c, d, e, rfl⟩ := exists_five hlen
    refine ⟨d, e, ?_⟩
    rcases hpre with hpre | hpre <;>
      simp only [Frame.octets, List.cons_append, List.nil_append, List.cons_prefix_cons] at hpre <;>
      rw [hpre.1, hpre.2.1, hpre.2.2.1]
  obtain rfl : res = 5 := h5
  have hdat : ntohs ((htons f.datlen).1, (htons f.datlen).2) = f.datlen := ntohs_htons _
  simp only [List.getD_cons_zero, List.getD_cons_succ, hdat]
  rw [if_neg (by simp)]
  by_cases hh : f.hdrlen < 5
  · rw [if_pos hh]
    exact .inr (.inl ⟨rfl, fun ht => ht.1 hh, hsame⟩)
  rw [if_neg hh]
  by_cases hl : f.datlen.toUInt64 > s.msg.len - UInt64.ofNat (f.hdrlen.toNat - 3)
  · rw [if_pos hl]
    exact .inr (.inl ⟨rfl, fun ht => ht.2 hl, hsame⟩)
  rw [if_neg hl]
  have ht : s.Takes f := ⟨hh, hl⟩
  have h2 : 2 ≤ f.hdrlen.toNat - 3 := f.length_addr ▸ ht.length_addr
  -- and it ends with the first two octets of the address
  have hrest : f.addr ++ f.data ++ tail = d :: e :: rest w₁ := by
    rcases hrest with hrest | ⟨hshort, -⟩
    · simpa [hw, Frame.octets] using hrest
    · rw [hw, List.length_append, f.length_octets] at hshort
      omega
  obtain ⟨addr, haddr⟩ : ∃ addr, f.addr = d :: e :: addr := by
    obtain ⟨x, y, addr, hf⟩ := exists_two ht.length_addr
    simp only [hf, List.cons_append, List.cons.injEq] at hrest
    exact ⟨addr, by rw [hf, hrest.1, hrest.2.1]⟩
  have hlen' : addr.length = f.hdrlen.toNat - 3 - 2 := by
    have := f.length_addr
    simp only [haddr, List.length_cons] at this
    omega
  simp only [haddr, List.cons_append, List.cons.injEq, true_and] at hrest
  simp only [always_bind, always_op]
  intro r w₂ hr
  obtain ⟨hres, hdlen, hsame', hrest'⟩ := h.recvmsg hr
  refine ⟨trivial, ?_⟩
  have hrest' := hrest' (by simp [← hrest, hlen'])
  rw [← hrest] at hrest'
  obtain ⟨hdata, htail⟩ := List.append_inj hrest' (by simp [hdlen, hlen'])
  rw [if_neg (by rw [hres]; omega)]
  refine .inr (.inr ⟨?_, ht, h.trans hsame hsame', htail.symm⟩)
  rw [Slot.receive, f.length_addr]
  simp only [Slot.write_head, haddr, ← hdata, List.cons_append]

/-- At the end of the stream the slot stays as it is. -/
theorem always_recvSlot_nil (h : Delivers E rest Same Stop) {w : W} {s : Slot} (hw : rest w = []) :
    Post E (recvSlot fd nonblock s) w fun t w' =>
      ∃ res, t = .head res ∧ res ≤ 0 ∧ rest w' = [] ∧ Stop nonblock w res w' := by
  unfold recvSlot
  refine (always_recvHead h w).bind ?_
  rintro ⟨res, udp⟩ w₁ (⟨h₀, hrest, hstop⟩ | ⟨-, -, hne, -⟩) <;> dsimp only at *
  · rw [if_pos (by omega)]
    exact ⟨_, rfl, h₀, hrest.trans hw, hstop⟩
  · exact absurd hw hne

/-- How a call ends that has received `n` of the frames `fs`, `k` of them and of those
    before in all: every slot is used, or it stops, or it refuses the next frame. -/
def TcpEnd (rest : W → List Octet) (Same : W → W → Prop) (Stop : Bool → W → Int → W → Prop)
    (nonblock : Bool) (slots : List Slot) (fs : List Frame) (k : Nat) (w : W) (res : Int) (w' : W)
    (n : Nat) : Prop :=
  (n = slots.length ∧ res = k ∧ rest w' = frames.words (fs.drop n) ∧ Same w w') ∨
  (∃ w₁ r, r ≤ 0 ∧ Same w w₁ ∧ rest w₁ = frames.words (fs.drop n) ∧
    rest w' = frames.words (fs.drop n) ∧ Stop nonblock w₁ r w' ∧
    res = if 0 < k then (k : Int) else r) ∨
  (∃ s ∈ slots[n]?, ∃ f ∈ fs[n]?, ¬ s.Takes f ∧ res = -1 ∧ Same w w')

theorem TcpEnd.cons {s : Slot} {slots : List Slot} {f : Frame} {fs : List Frame} {k n : Nat}
    {w w₁ w' : W} {res : Int} (h : TcpEnd rest Same Stop nonblock slots fs k w₁ res w' n)
    (hsame : Same w w₁) (htrans : ∀ {w₁ w₂ w₃}, Same w₁ w₂ → Same w₂ w₃ → Same w₁ w₃) :
    TcpEnd rest Same Stop nonblock (s :: slots) (f :: fs) k w res w' (n + 1) := by
  rcases h with ⟨hn, hres, hrest, hs⟩ | ⟨w₂, r, hr, hs, h₁, h₂, hstop, hres⟩ |
    ⟨t, ht, g, hg, hts, hres, hs⟩
  · exact .inl ⟨by simpa using hn, hres, by simpa using hrest, htrans hsame hs⟩
  · exact .inr (.inl
      ⟨w₂, r, hr, htrans hsame hs, by simpa using h₁, by simpa using h₂, hstop, hres⟩)
  · exact .inr (.inr ⟨t, by simpa using ht, g, by simpa using hg, hts, hres, htrans hsame hs⟩)

/-- **One call** receives the next frames, each into its slot. -/
theorem always_recvmmsgTcpLoop (h : Delivers E rest Same Stop) {slots done : List Slot} {w : W}
    {fs : List Frame} (hw : rest w = frames.words fs) :
    Post E (recvmmsgTcpLoop fd nonblock slots done) w fun r w' =>
      ∃ n, n ≤ slots.length ∧ n ≤ fs.length ∧ (∀ p ∈ slots.zip (fs.take n), p.1.Takes p.2) ∧
        r.2 = done ++ (List.zipWith Slot.receive slots (fs.take n) ++ slots.drop n) ∧
        TcpEnd rest Same Stop nonblock slots fs (done.length + n) w r.1 w' n := by
  induction slots generalizing done w fs with
  | nil => exact ⟨0, by simp [TcpEnd, hw, h.refl]⟩
  | cons s slots ih =>
    unfold recvmmsgTcpLoop
    cases fs with
    | nil =>
      refine (always_recvSlot_nil h hw).bind ?_
      rintro _ w' ⟨res, rfl, h₀, hrest, hstop⟩
      refine ⟨0, by simp, by simp, by simp, by simp, .inr (.inl ⟨w, res, h₀, h.refl, ?_⟩)⟩
      simp_all
    | cons f fs =>
      rw [PrefixCode.words_cons] at hw
      refine (always_recvSlot h hw).bind ?_
      rintro _ w₁ (⟨res, rfl, h₀, hrest, hstop⟩ | ⟨rfl, ht, hsame⟩ |
        ⟨rfl, ht, hsame, hrest⟩)
      · refine ⟨0, by simp, by simp, by simp, by simp, .inr (.inl ⟨w, res, h₀, h.refl, ?_⟩)⟩
        simp_all
      · exact ⟨0, by simp, by simp, by simp, by simp,
          .inr (.inr ⟨s, by simp, f, by simp, ht, rfl, hsame⟩)⟩
      · refine (ih hrest).mono ?_
        rintro ⟨res, svec⟩ w' ⟨n, hn, hnf, htakes, hsvec, hend⟩
        refine ⟨n + 1, by simpa using hn, by simpa using hnf, ?_, ?_, ?_⟩
        · rw [List.take_succ_cons, List.zip_cons_cons]
          exact List.forall_mem_cons.2 ⟨ht, htakes⟩
        · simpa using hsvec
        · rw [List.length_append, List.length_singleton, Nat.add_assoc, Nat.add_comm 1] at hend
          exact hend.cons hsame h.trans

end

end HevSocks5
