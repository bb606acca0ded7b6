/-
  The result of `hev_socks5_udp_recvmmsg_tcp`.

  A call of it receives whole frames until every slot has one, until it stops
  inside of a frame, or until it refuses one.  The result is the number of
  frames unless it is the raw result of a receive call that has stopped inside
  of a frame: then it may be a number of octets.

  `Harmless` says which answers of the receive calls exclude this, and the
  result is right for these answers and for no others (`counts_iff`).
-/
import HevSocks5.UdpSync

namespace HevSocks5

open Interact Sys HevSocks5UDP

/-- A receive call and its result: for a head, for the rest of one, for the octets behind it. -/
inductive RecvEvent where
  | head (res : Int)
  | headRest (len : Nat) (res : Int)
  | body (len : Nat) (res : Int)
deriving DecidableEq

def recvEvent {β : Type} (o : Op β) (b : β) : List RecvEvent :=
  match o with
  | .recv _ n flags => [if flags = .waitall then .headRest n b.res else .head b.res]
  | .recvmsg _ n => [.body n b.res]
  | _ => []

/-- A call that waits for all it asks for returns their number when it has got them. -/
def Stops {β : Type} (o : Op β) (b : β) : Prop :=
  match o with
  | .recv _ n flags => flags = .waitall → b.res ≠ n → b.data.length < n
  | .recvmsg _ n => b.res ≠ n → b.data.length < n
  | _ => True

def stopConn : Env Op Conn := fun w _ o b w' => conn w o b w' ∧ Stops o b

/-- The connection, and the receive calls so far, the last one first. -/
def recorded : Env Op (Conn × List RecvEvent) := Env.Recorded stopConn recvEvent

/-- How many calls were for the octets behind a head. -/
def bodies (log : List RecvEvent) : Nat :=
  log.countP fun
    | .body .. => true
    | _ => false

/-- **The receive calls of one call do no harm**: when the first head is begun but not completed,
    the results of its two calls do not add up to a positive number; and when the octets behind a
    head are not completed, their call does not return more than the number of frames before. -/
def Harmless : List RecvEvent → Prop
  | [.headRest n res, .head _] => res = n ∨ 5 - n + res ≤ 0
  | .body n res :: before => res = n ∨ res ≤ bodies before
  | _ => True

/-! ## One slot -/

/-- What has happened when a head was read, or not. -/
structure HeadRead (w : Conn) (log : List RecvEvent) (res : Int) (udp : List Octet) (w' : Conn)
    (log' : List RecvEvent) : Prop where
  reads : ∃ l, Reads w l w' ∧ (if res = 5 then l = udp ∧ l.length = 5 else l.length < 5)
  bodies : bodies log' = bodies log
  ne_nil : log' ≠ []
  harmless : Harmless log' ↔ (res = 5 ∨ log ≠ [] ∨ res ≤ 0)

theorem always_recvHead_recorded {fd : Int} {nonblock : Bool} (w : Conn) (log : List RecvEvent) :
    Post recorded (recvHead fd nonblock) (w, log) fun r w' =>
      HeadRead w log r.1 r.2 w'.1 w'.2 := by
  have hflags : dontwaitIf nonblock ≠ .waitall := by cases nonblock <;> decide
  simp only [recvHead, always_bind, always_op, always_ite, always_pure]
  rintro r ⟨w₁, _⟩ ⟨⟨hr, -⟩, hlog⟩
  simp only [conn, recvEvent, if_neg hflags] at hr hlog
  subst hlog
  obtain ⟨hreads, ⟨h0, h5, hlen⟩ | ⟨h0, hnil⟩⟩ := hr.reads
  · refine ⟨trivial, ?_⟩
    by_cases hlt : r.res < 5
    · rw [if_pos ⟨h0, hlt⟩]
      rintro r' ⟨w₂, _⟩ ⟨⟨hr', hstop⟩, hlog'⟩
      simp only [conn, recvEvent, if_true] at hr' hlog'
      subst hlog'
      obtain ⟨hreads', hlen'⟩ := hr'.reads
      refine ⟨trivial, ⟨_, hreads.trans hreads', ?_⟩, by simp [bodies], by simp, ?_⟩
      · rw [List.length_append]
        split
        · exact ⟨rfl, by rw [hlen' (by omega)]; omega⟩
        · have hshort := hstop rfl (by omega)
          omega
      · cases log with
        | nil => simp [Harmless]; omega
        | cons e log => simp [Harmless]
    · rw [if_neg (fun h => hlt h.2)]
      refine ⟨⟨_, hreads, ?_⟩, by simp [bodies], by simp, ?_⟩
      · rw [if_pos (by omega)]
        exact ⟨rfl, by omega⟩
      · simp [Harmless]
        omega
  · refine ⟨trivial, ?_⟩
    rw [if_neg (by omega)]
    refine ⟨⟨_, hreads, ?_⟩, by simp [bodies], by simp, ?_⟩
    · rw [if_neg (by omega), hnil]
      decide
    · simp [Harmless]
      omega

/-- What has happened when a slot was to receive a frame. -/
def SlotRead (s : Slot) (w : Conn) (log : List RecvEvent) (w' : Conn) (log' : List RecvEvent) :
    Turn → Prop
  | .head res => (∃ l, Reads w l w' ∧ l.length < 5) ∧ (Harmless log' ↔ log ≠ [] ∨ res ≤ 0)
  | .refused => (∃ l, Reads w l w') ∧ Harmless log'
  | .body res _ => (∃ l, Reads w l w' ∧ ∀ f : Frame, ¬ f.hdrlen < 5 → ¬ f.octets <+: l) ∧
      (Harmless log' ↔ res ≤ bodies log)
  | .message s' => ∃ f, s' = s.receive f ∧ s.Takes f ∧ Reads w f.octets w' ∧
      bodies log' = bodies log + 1 ∧ log' ≠ [] ∧ Harmless log'

/-- The octets of a head and of less than what is behind it are not those of a frame. -/
theorem not_octets_prefix {a b c d e : Octet} {data : List Octet}
    (hshort : data.length < c.toNat - 3 - 2 + (ntohs (a, b)).toNat) {f : Frame}
    (hf : ¬ f.hdrlen < 5) : ¬ f.octets <+: [a, b, c, d, e] ++ data := by
  intro hpre
  have hlen := hpre.length_le
  simp only [Frame.octets, List.cons_append, List.cons_prefix_cons] at hpre
  obtain ⟨h₁, h₂, h₃, -⟩ := hpre
  have hdat : f.datlen = ntohs (a, b) := by rw [← h₁, ← h₂, ntohs_htons]
  rw [f.length_octets, ← f.toNat_datlen, hdat, h₃] at hlen
  have h5 : 5 ≤ c.toNat := by simpa [UInt8.lt_iff_toNat_lt, h₃] using hf
  simp at hlen
  omega

theorem always_recvSlot_recorded {fd : Int} {nonblock : Bool} (s : Slot) (w : Conn)
    (log : List RecvEvent) :
    Post recorded (recvSlot fd nonblock s) (w, log) fun t w' =>
      SlotRead s w log w'.1 w'.2 t := by
  unfold recvSlot
  refine (always_recvHead_recorded w log).bind ?_
  rintro ⟨res, udp⟩ ⟨w₁, log₁⟩ ⟨⟨l, hreads, hl⟩, hbodies, hne, hharm⟩
  dsimp only at hreads hl hbodies hne hharm ⊢
  by_cases h5 : res = 5
  swap
  · rw [if_neg h5] at hl
    rw [if_pos h5]
    exact ⟨⟨l, hreads, hl⟩, by simpa [h5] using hharm⟩
  rw [if_pos h5] at hl
  rw [if_neg (fun h => h h5)]
  obtain ⟨rfl, hlen⟩ := hl
  obtain ⟨a, b, c, d, e, rfl⟩ := exists_five hlen
  simp only [List.getD_cons_zero, List.getD_cons_succ]
  have hhead : Harmless log₁ := hharm.2 (.inl h5)
  by_cases hc : c < 5
  · rw [if_pos hc]
    exact ⟨⟨_, hreads⟩, hhead⟩
  rw [if_neg hc]
  by_cases hd : (ntohs (a, b)).toUInt64 > s.msg.len - UInt64.ofNat (c.toNat - 3)
  · rw [if_pos hd]
    exact ⟨⟨_, hreads⟩, hhead⟩
  rw [if_neg hd]
  simp only [always_bind, always_op]
  rintro r ⟨w₂, _⟩ ⟨⟨hr, hstop⟩, hlog⟩
  refine ⟨trivial, ?_⟩
  simp only [conn, recvEvent, List.singleton_append] at hr hlog
  subst hlog
  obtain ⟨hreads', hlen'⟩ := hr.reads
  have hc' : 5 ≤ c.toNat := by simpa [UInt8.lt_iff_toNat_lt] using hc
  by_cases hall : r.res = (c.toNat - 3 - 2 + (ntohs (a, b)).toNat : Nat)
  · rw [if_neg (by omega)]
    obtain ⟨f, hoct, hhdr, hdat, hadd⟩ := exists_frame (d := d) (e := e) hc (hlen' hall)
    refine ⟨f, ?_, ?_, hoct ▸ hreads.trans hreads', ?_, by simp, .inl hall⟩
    · rw [Slot.receive, f.length_addr, hhdr, hadd, hdat, Slot.write_head]
    · exact ⟨hhdr ▸ hc, by rw [hdat, hhdr]; exact hd⟩
    · simpa [bodies] using hbodies
  · rw [if_pos (by omega)]
    refine ⟨⟨_, hreads.trans hreads', ?_⟩, ?_⟩
    · exact fun f hf => not_octets_prefix (hstop hall) hf
    · rw [← hbodies]
      exact or_iff_right hall

/-! ## One call -/

/-- **The first slots have been filled** from the first frames that were read. -/
structure Fills (slots : List Slot) (w : Conn) (svec : List Slot) (w' : Conn) (fs : List Frame) :
    Prop where
  reads : ∃ l, Reads w (frames.words fs ++ l) w'
  length_le : fs.length ≤ slots.length
  takes : ∀ p ∈ slots.zip fs, p.1.Takes p.2
  svec_eq : svec.take fs.length = List.zipWith Slot.receive slots fs

/-- The frames of a call, whose result is their number if the receive calls do no harm. -/
structure LoopRead (slots done : List Slot) (w : Conn) (res : Int) (svec : List Slot) (w' : Conn)
    (log : List RecvEvent) (fs : List Frame) (l : List Octet) : Prop where
  reads : Reads w (frames.words fs ++ l) w'
  length_le : fs.length ≤ slots.length
  takes : ∀ p ∈ slots.zip fs, p.1.Takes p.2
  svec_eq : svec.take (done.length + fs.length) = done ++ List.zipWith Slot.receive slots fs
  harmless : Harmless log ↔ res ≤ done.length + fs.length
  no_more : done.length + fs.length < res → ∀ f : Frame, ¬ f.hdrlen < 5 → ¬ f.octets <+: l

section
variable {s : Slot} {slots done svec : List Slot} {w w₁ w' : Conn} {log : List RecvEvent}
  {res : Int} {l : List Octet}

theorem loopRead_nil (hreads : Reads w l w') (hsvec : svec.take done.length = done)
    (hharm : Harmless log ↔ res ≤ done.length)
    (hmore : done.length < res → ∀ f : Frame, ¬ f.hdrlen < 5 → ¬ f.octets <+: l) :
    LoopRead slots done w res svec w' log [] l where
  reads := by simpa using hreads
  length_le := Nat.zero_le _
  takes := by simp
  svec_eq := by simpa using hsvec
  harmless := by simpa using hharm
  no_more := by simpa using hmore

theorem LoopRead.cons {f : Frame} {fs : List Frame} (hreads : Reads w f.octets w₁)
    (ht : s.Takes f) (h : LoopRead slots (done ++ [s.receive f]) w₁ res svec w' log fs l) :
    LoopRead (s :: slots) done w res svec w' log (f :: fs) l where
  reads := by
    rw [PrefixCode.words_cons, List.append_assoc]
    exact hreads.trans h.reads
  length_le := Nat.succ_le_succ h.length_le
  takes := by
    rw [List.zip_cons_cons]
    exact List.forall_mem_cons.2 ⟨ht, h.takes⟩
  svec_eq := by
    have hsvec := h.svec_eq
    rw [List.length_append, List.length_singleton, Nat.add_assoc, Nat.add_comm 1] at hsvec
    simpa using hsvec
  harmless := by
    rw [h.harmless]
    simp
    omega
  no_more hlt := h.no_more (by simp at hlt ⊢; omega)

theorem not_octets_prefix_of_length {l : List Octet} (hl : l.length < 5) {f : Frame}
    (hf : ¬ f.hdrlen < 5) : ¬ f.octets <+: l := by
  intro hpre
  have hlen := hpre.length_le
  rw [f.length_octets] at hlen
  have h5 : 5 ≤ f.hdrlen.toNat := by simpa [UInt8.lt_iff_toNat_lt] using hf
  omega

theorem always_recvmmsgTcpLoop_recorded {fd : Int} {nonblock : Bool}
    (hbodies : bodies log = done.length) (hlog : log = [] ↔ done = []) (hharm : Harmless log) :
    Post recorded (recvmmsgTcpLoop fd nonblock slots done) (w, log) fun r w' =>
      ∃ fs l, LoopRead slots done w r.1 r.2 w'.1 w'.2 fs l := by
  induction slots generalizing done w log with
  | nil =>
    refine ⟨[], [], loopRead_nil .refl (by simp) ?_ fun h => absurd h (Int.lt_irrefl _)⟩
    exact iff_of_true hharm (Int.le_refl _)
  | cons s slots ih =>
    unfold recvmmsgTcpLoop
    refine (always_recvSlot_recorded s w log).bind ?_
    rintro (res | _ | ⟨res, s'⟩ | s') ⟨w₁, log₁⟩ ht <;> dsimp only [SlotRead] at ht ⊢
    · obtain ⟨⟨l, hreads, hl⟩, hharm⟩ := ht
      refine ⟨[], l, loopRead_nil hreads (by simp) ?_ fun _ f => not_octets_prefix_of_length hl⟩
      rw [hharm]
      split <;> rename_i h
      · exact ⟨fun _ => by omega, fun _ => .inl fun h' => by simp [hlog.1 h'] at h⟩
      · obtain rfl : done = [] := List.eq_nil_of_length_eq_zero (by omega)
        simp [hlog.2 rfl]
    · obtain ⟨⟨l, hreads⟩, hharm⟩ := ht
      refine ⟨[], l, loopRead_nil hreads (by simp) ?_ fun h => by omega⟩
      exact ⟨fun _ => by omega, fun _ => hharm⟩
    · obtain ⟨⟨l, hreads, hnot⟩, hharm⟩ := ht
      exact ⟨[], l, loopRead_nil hreads (by simp) (by rw [hharm, hbodies]) fun _ => hnot⟩
    · obtain ⟨f, rfl, htakes, hreads, hb, hne, hharm'⟩ := ht
      refine (ih (by simp [hb, hbodies]) (by simp [hne]) hharm').mono ?_
      rintro r w₂ ⟨fs, l, h⟩
      exact ⟨f :: fs, l, .cons hreads htakes h⟩

theorem LoopRead.fills {fs : List Frame} (h : LoopRead slots [] w res svec w' log fs l) :
    Fills slots w svec w' fs where
  reads := ⟨l, h.reads⟩
  length_le := h.length_le
  takes := h.takes
  svec_eq := by simpa using h.svec_eq

/-- The shorter list decides. -/
theorem zipWith_take {α β γ : Type} (f : α → β → γ) (xs : List α) (ys : List β) (k : Nat) :
    List.zipWith f xs (ys.take k) = (List.zipWith f xs ys).take k := by
  induction ys generalizing xs k with
  | nil => simp
  | cons y ys ih =>
    cases xs <;> cases k <;> simp [ih]

theorem Fills.take {fs : List Frame} (h : Fills slots w svec w' fs) (k : Nat) :
    Fills slots w svec w' (fs.take k) where
  reads := by
    obtain ⟨l, hl⟩ := h.reads
    refine ⟨frames.words (fs.drop k) ++ l, ?_⟩
    rw [← List.append_assoc, ← PrefixCode.words_append, List.take_append_drop]
    exact hl
  length_le := Nat.le_trans (List.length_take_le' _ _) h.length_le
  takes p hp := by
    rw [List.zip_eq_zipWith, zipWith_take] at hp
    exact h.takes p (List.mem_of_mem_take hp)
  svec_eq := by
    have hsvec := congrArg (List.take k) h.svec_eq
    rw [List.take_take] at hsvec
    rw [List.length_take, hsvec, zipWith_take]

/-- A frame behind those that a call has read would have been read whole. -/
theorem Fills.exists_octets_prefix {fs gs : List Frame} (h : Fills slots w svec w' gs)
    (hreads : Reads w (frames.words fs ++ l) w') (hlt : fs.length < gs.length) :
    ∃ f : Frame, ¬ f.hdrlen < 5 ∧ f.octets <+: l := by
  obtain ⟨l', hl'⟩ := h.reads
  have hrest : frames.words gs ++ l' = frames.words fs ++ l :=
    List.append_cancel_right (hl'.rest.symm.trans hreads.rest)
  have hpre : fs <+: gs := by
    rcases PrefixCode.prefix_or_prefix (hrest ▸ List.prefix_append _ _)
      (List.prefix_append (frames.words fs) l) with hp | hp
    · exact absurd hp.length_le (by omega)
    · exact hp
  obtain ⟨_ | ⟨f, rest⟩, rfl⟩ := hpre
  · simp at hlt
  refine ⟨f, ?_, ?_⟩
  · have hlen := h.length_le
    simp at hlen
    have hmem : (slots[fs.length], f) ∈ slots.zip (fs ++ f :: rest) := by
      refine List.mem_iff_getElem.2 ⟨fs.length, by simp; omega, ?_⟩
      simp
    exact (h.takes _ hmem).1
  · rw [PrefixCode.words_append, PrefixCode.words_cons, List.append_assoc,
      List.append_assoc] at hrest
    exact ⟨_, List.append_cancel_left hrest⟩

/-- **The result counts frames**: a positive result is the number of frames, the first ones that
    the call has read, which have filled the first slots. -/
def Counts (slots : List Slot) (w : Conn) (res : Int) (svec : List Slot) (w' : Conn) : Prop :=
  0 < res → ∃ fs, (fs.length : Int) = res ∧ Fills slots w svec w' fs

theorem LoopRead.agrees_iff {fs : List Frame} (h : LoopRead slots [] w res svec w' log fs l) :
    Counts slots w res svec w' ↔ Harmless log := by
  rw [h.harmless, List.length_nil]
  constructor
  · intro hcounts
    by_contra hlt
    obtain ⟨gs, hgs, hfills⟩ := hcounts (by omega)
    obtain ⟨f, hf, hpre⟩ := hfills.exists_octets_prefix h.reads (by omega)
    exact h.no_more (by simp; omega) f hf hpre
  · intro hle hpos
    refine ⟨fs.take res.toNat, ?_, h.fills.take _⟩
    rw [List.length_take]
    omega

/-- **The result is right for harmless answers, and for no others.** -/
theorem counts_iff {nonblock : Bool}
    (h : Returns recorded (recvmmsgTcp slots nonblock) (w, []) (res, svec) (w', log)) :
    Counts slots w res svec w' ↔ Harmless log := by
  simp only [recvmmsgTcp, returns_bind, returns_op] at h
  obtain ⟨fd, ⟨w₁, log₁⟩, ⟨⟨hw, -⟩, hlog⟩, hrun⟩ := h
  obtain rfl : w₁ = w := hw
  obtain rfl : log₁ = [] := hlog
  obtain ⟨fs, l, hread⟩ :=
    (always_recvmmsgTcpLoop_recorded rfl (by simp) (show Harmless [] from trivial)).returns hrun
  exact hread.agrees_iff

end

/-! ## Streams that end -/

/-- The run in which a call gets what it asks for, as far as the stream goes. -/
def ending : Conn × List RecvEvent → {β : Type} → Op β → Option (β × Conn × List RecvEvent) :=
  fun w _ o =>
  let get (n : Nat) : Received :=
    ⟨(min n w.1.rest.length : Nat), w.1.rest.take (min n w.1.rest.length)⟩
  let next (n : Nat) : Conn := w.1.take (min n w.1.rest.length) .other
  match o with
  | .getFd => some (3, w)
  | .recv fd n flags => some (get n, next n, recvEvent (.recv fd n flags) (get n) ++ w.2)
  | .recvmsg fd n => some (get n, next n, recvEvent (.recvmsg fd n) (get n) ++ w.2)
  | _ => none

theorem recorded_of_ending (w : Conn × List RecvEvent) {β : Type} (o : Op β) (b : β)
    (w' : Conn × List RecvEvent) (h : ending w o = some (b, w')) : recorded w o b w' := by
  have hstop : ∀ n, ((min n w.1.rest.length : Nat) : Int) ≠ n →
      (w.1.rest.take (min n w.1.rest.length)).length < n := by
    intro n hn
    rw [List.length_take]
    omega
  cases o <;> simp only [ending, Option.some.injEq, Prod.mk.injEq, reduceCtorEq] at h
  case getFd =>
    obtain ⟨rfl, rfl⟩ := h
    exact ⟨⟨rfl, trivial⟩, rfl⟩
  case recv fd n flags =>
    obtain ⟨rfl, rfl⟩ := h
    refine ⟨⟨?_, fun _ => hstop n⟩, rfl⟩
    simp only [conn]
    split
    · exact ⟨_, .other, Nat.min_le_left _ _, Nat.min_le_right _ _, rfl, rfl, .inr (.inr rfl)⟩
    · exact ⟨_, .other, Nat.min_le_left _ _, Nat.min_le_right _ _, rfl, rfl, .inl rfl⟩
  case recvmsg fd n =>
    obtain ⟨rfl, rfl⟩ := h
    exact ⟨⟨⟨_, .other, Nat.min_le_left _ _, Nat.min_le_right _ _, rfl, rfl, .inr (.inr rfl)⟩,
      hstop n⟩, rfl⟩

/-- Two frames, of which the second one is cut: the result is 1. -/
theorem counts_iff_one : ∃ svec w' log,
    Returns recorded (recvmmsgTcp [fwdSlot .undef, fwdSlot .undef] true)
      (⟨[], octetFrame.octets ++ [0, 1, 10], .other, 0⟩, []) (((1 : Nat) : Int), svec) (w', log) ∧
    Counts [fwdSlot .undef, fwdSlot .undef] ⟨[], octetFrame.octets ++ [0, 1, 10], .other, 0⟩
      ((1 : Nat) : Int) svec w' := by
  obtain ⟨⟨res, svec⟩, ⟨w', log⟩, hrun, h⟩ := exists_returns_of_exec recorded_of_ending
    (x := recvmmsgTcp [fwdSlot .undef, fwdSlot .undef] true)
    (w := (⟨[], octetFrame.octets ++ [0, 1, 10], .other, 0⟩, []))
    (fun r w' => r.1 = ((1 : Nat) : Int) ∧
      w'.2 = [.headRest 2 ((0 : Nat) : Int), .head ((3 : Nat) : Int),
        .body 6 ((6 : Nat) : Int), .head ((5 : Nat) : Int)]) (by decide)
  obtain ⟨rfl, hlog⟩ : res = ((1 : Nat) : Int) ∧ log = _ := of_decide_eq_true h
  exact ⟨svec, w', log, hrun, (counts_iff hrun).2 (hlog ▸ trivial)⟩

/-- The stream ends behind three octets, and the call returns 3. -/
theorem not_counts : ¬ ∀ slots nonblock w res svec w' log,
    Returns recorded (recvmmsgTcp slots nonblock) (w, []) (res, svec) (w', log) →
      Counts slots w res svec w' := by
  intro hall
  obtain ⟨⟨res, svec⟩, ⟨w', log⟩, hrun, h⟩ := exists_returns_of_exec recorded_of_ending
    (x := recvmmsgTcp [fwdSlot .undef] true) (w := (⟨[], [0, 1, 10], .other, 0⟩, []))
    (fun r _ => r.1 = ((3 : Nat) : Int)) (by decide)
  obtain rfl : res = ((3 : Nat) : Int) := of_decide_eq_true h
  obtain ⟨fs, hlen, hfills⟩ := hall _ _ _ _ _ _ _ hrun (by decide)
  have hle : fs.length ≤ 1 := hfills.length_le
  omega

end HevSocks5
