/-
  The frames that the splicer writes in UDP-in-TCP mode.

  `fwd_b` writes the frames of a batch with one call, which waits until all is
  written, but may stop after any part of it: the yielder aborts it, or the
  connection fails.  It then returns no positive number, or the part.

  A part of a frame on the connection is harmless only when `fwd_b` returns -1,
  for then the splicer does not call it again.  `CleanSend` says when that is
  so.  In runs of clean calls, what is written are the frames of the datagrams
  that have arrived, in order, and nothing follows a part of a frame
  (`splicer_intact`).
-/
import HevSocks5.UdpCalls
import HevSocks5.UdpAccept

namespace HevSocks5

open Interact Sys HevSocks5UDP

/-- The two sockets of the splicer as the writer sees them. -/
structure Line where
  /-- the datagrams that were received from the one -/
  arrived : List Datagram
  /-- what each call has written to the other -/
  writes : List (List Octet)
  errno : Errno

/-- The frames of the datagrams that have arrived. -/
def Line.frames (w : Line) : List Octet := HevSocks5.frames.words (w.arrived.map (·.toFrame))

/-- The system calls of the splicer, with a stream on one side.  All that is not about the two
    sockets may answer anything, and leave anything in `errno`. -/
def line : Env Op Line := fun w _ o b w' =>
  match o with
  | .base => b.type = .udpInTcp ∧ w' = w
  | .errno => b = w.errno ∧ w' = w
  | .recvmmsg _ lens _ => ∃ e, w' = { w with arrived := w.arrived ++ b.2, errno := e } ∧
      (b.1 = b.2.length ∧ b.2.length ≤ lens.length ∨ b.1 ≤ 0 ∧ b.2 = []) ∧
      ∀ d ∈ b.2, d.data.length ≤ udpBufSize
  | .sendmsg _ data => ∃ k e, k ≤ data.length ∧
      w' = { w with writes := w.writes ++ [data.take k], errno := e } ∧ (b < 0 ∨ b = k)
  | _ => ∃ e, w' = { w with errno := e }

/-- **The sends that do no harm**: all is written, or `fwd_b` fails. -/
def CleanSend {β : Type} (o : Op β) (b : β) (w : Line) (w' : Line) : Prop :=
  match o with
  | .sendmsg _ data => w'.writes = w.writes ++ [data] ∨ b ≤ 0 ∧ w'.errno ≠ .eagain
  | _ => True

def cleanLine : Env Op Line := fun w _ o b w' => line w o b w' ∧ CleanSend o b w w'

/-- What is on the connection is a part of the frames of the datagrams, in order, and every
    write begins at the end of a frame. -/
structure Line.Intact (w : Line) : Prop where
  inOrder : w.writes.flatten <+: w.frames
  boundary : ∀ l₁ l₂, w.writes = l₁ ++ l₂ → l₂ ≠ [] → ∃ fs, l₁.flatten = HevSocks5.frames.words fs

/-- All frames have been written, each write beginning at the end of a frame. -/
structure Line.Complete (w : Line) : Prop where
  all : w.writes.flatten = w.frames
  boundary : ∀ l, l <+: w.writes → ∃ fs, l.flatten = HevSocks5.frames.words fs

theorem Line.Intact.errno {w : Line} {e : Errno} (h : w.Intact) :
    ({ w with errno := e } : Line).Intact :=
  ⟨h.inOrder, h.boundary⟩

theorem Line.Complete.errno {w : Line} {e : Errno} (h : w.Complete) :
    ({ w with errno := e } : Line).Complete :=
  ⟨h.all, h.boundary⟩

/-! ## One batch -/

section
variable {w : Line} {ds : List Datagram} {data : List Octet} {k : Nat} {e : Errno}

/-- Datagrams arrive. -/
def Line.arrive (w : Line) (ds : List Datagram) (e : Errno) : Line :=
  { w with arrived := w.arrived ++ ds, errno := e }

/-- A write. -/
def Line.write (w : Line) (l : List Octet) (e : Errno) : Line :=
  { w with writes := w.writes ++ [l], errno := e }

theorem Line.frames_arrive :
    (w.arrive ds e).frames = w.frames ++ HevSocks5.frames.words (ds.map (·.toFrame)) := by
  simp [Line.arrive, Line.frames]

namespace Line.Complete

theorem intact (h : w.Complete) : w.Intact where
  inOrder := h.all ▸ List.prefix_rfl
  boundary l₁ _ hl _ := h.boundary l₁ (hl ▸ List.prefix_append _ _)

theorem intact_arrive (h : w.Complete) : (w.arrive ds e).Intact where
  inOrder := by
    rw [frames_arrive, ← h.all]
    exact List.prefix_append _ _
  boundary := h.intact.boundary

/-- A write of a part. -/
theorem intact_write (k : Nat) (ds : List Datagram) (e e' : Errno) (h : w.Complete) :
    ((w.arrive ds e).write ((HevSocks5.frames.words (ds.map (·.toFrame))).take k) e').Intact where
  inOrder := by
    change (w.writes ++ [_]).flatten <+: (w.arrive ds e).frames
    rw [frames_arrive, List.flatten_append, h.all, List.flatten_singleton]
    exact (List.prefix_append_right_inj _).2 (List.take_prefix _ _)
  boundary l₁ l₂ hl hne := by
    refine h.boundary l₁ ?_
    obtain ⟨l₂, x, rfl⟩ := List.eq_nil_or_concat' l₂ |>.resolve_left hne
    rw [← List.append_assoc] at hl
    exact ⟨l₂, (List.append_inj_left' hl rfl).symm⟩

theorem flatten_write (e' : Errno) (h : w.Complete) :
    ((w.arrive ds e).write (HevSocks5.frames.words (ds.map (·.toFrame))) e').writes.flatten =
      (w.arrive ds e).frames := by
  change (w.writes ++ [_]).flatten = (w.arrive ds e).frames
  rw [frames_arrive, List.flatten_append, h.all, List.flatten_singleton]

/-- A write of the whole. -/
theorem complete_write (ds : List Datagram) (e e' : Errno) (h : w.Complete) :
    ((w.arrive ds e).write (HevSocks5.frames.words (ds.map (·.toFrame))) e').Complete where
  all := h.flatten_write e'
  boundary l hl := by
    rcases List.prefix_concat_iff.1 hl with rfl | hl
    · exact ⟨_, h.flatten_write e'⟩
    · exact h.boundary l hl

end Line.Complete

end

/-! ## Runs -/

/-- The calls that are not about the two sockets. -/
def Quiet {β : Type} : Op β → Prop
  | .recvmmsg .. | .sendmsg .. => False
  | _ => True

theorem always_quiet {α : Type} {x : SysM α} (hx : x.Only Quiet) {w : Line} (hw : w.Intact) :
    Always cleanLine Line.Intact x w fun _ w' => ∃ e, w' = { w with errno := e } := by
  refine hx.always ?_ ⟨w.errno, rfl⟩
  rintro _ w₂ β o b ho ⟨e, rfl⟩ ⟨he, -⟩
  have hw' : ∃ e', w₂ = { w with errno := e' } := by
    cases o <;> first | exact ho.elim | skip
    case base | errno =>
      obtain ⟨-, rfl⟩ := he
      exact ⟨e, rfl⟩
    all_goals
      obtain ⟨e', rfl⟩ := he
      exact ⟨e', rfl⟩
  obtain ⟨e', rfl⟩ := hw'
  exact ⟨hw.errno, e', rfl⟩

theorem quiet_of_forwards {β : Type} {o : Op β} (h : o.Forwards) : Quiet o := by
  cases o <;> trivial

theorem quiet_of_receivesTcp {β : Type} {o : Op β} (h : o.ReceivesTcp) : Quiet o := by
  cases o <;> trivial

theorem quiet_of_yields {β : Type} {o : Op β} (h : o.Yields) : Quiet o := by
  cases o <;> trivial

variable {w : Line} {fd res : Int} {bufs : List Mem} {bind : Bool}

theorem always_fwdResult_line (hw : w.Intact) :
    Always cleanLine Line.Intact (fwdResult res) w fun ret w' =>
      (∃ e, w' = { w with errno := e }) ∧ (res ≤ 0 → w.errno ≠ .eagain → ret < 0) := by
  have hquiet := always_quiet ((only_fwdResult res).mono fun h => quiet_of_forwards h.forwards) hw
  refine hquiet.and ?_
  unfold fwdResult
  by_cases h0 : res ≤ 0
  swap
  · rw [if_neg h0]
    exact fun h => absurd h h0
  rw [if_pos h0]
  by_cases h1 : res = -1
  · simp only [if_pos h1, always_bind, always_op, always_ite, always_pure]
    rintro e w' ⟨⟨rfl, rfl⟩, -⟩
    refine ⟨trivial, ?_⟩
    split
    · rename_i he
      exact fun _ hne => absurd he hne
    · exact fun _ _ => by decide
  · rw [if_neg h1]
    exact fun _ _ => by decide

/-- **One call of `fwd_b`** writes the frames of its batch, or it fails. -/
theorem always_fwdB_line (hw : w.Complete) :
    Always cleanLine Line.Intact (fwdB fd bufs) w fun r w' =>
      w'.Intact ∧ (0 ≤ r.1 → w'.Complete) := by
  have hcomplete : ∀ {w₁ w₂ : Line}, w₁.Complete → (∃ e, w₂ = { w₁ with errno := e }) →
      w₂.Complete := by
    rintro w₁ _ h ⟨e, rfl⟩
    exact h.errno
  simp only [fwdB, always_bind, always_op]
  rintro ⟨res, ds⟩ w₁ ⟨⟨e, rfl, hres, hlen⟩, -⟩
  dsimp only at hres hlen ⊢
  refine ⟨hw.intact_arrive, ?_⟩
  simp only [always_ite]
  by_cases h0 : res > 0
  swap
  · -- nothing has arrived
    obtain rfl : ds = [] := by
      rcases hres with ⟨rfl, -⟩ | ⟨-, rfl⟩
      · exact List.eq_nil_of_length_eq_zero (by omega)
      · rfl
    rw [if_neg h0]
    have hw₁ : ({ w with arrived := w.arrived ++ [], errno := e } : Line).Complete :=
      ⟨by simpa [Line.frames] using hw.all, hw.boundary⟩
    refine (always_fwdResult_line hw₁.intact).bind ?_
    rintro ret w' ⟨hw', -⟩
    exact ⟨(hcomplete hw₁ hw').intact, fun _ => hcomplete hw₁ hw'⟩
  obtain ⟨rfl, hcount⟩ := hres.resolve_right fun h => by omega
  rw [List.length_map] at hcount
  rw [if_pos h0]
  simp only [Int.toNat_natCast, List.take_length, sendmmsg, always_bind, always_op]
  rintro self w₂ ⟨⟨htype, rfl⟩, -⟩
  refine ⟨hw.intact_arrive, ?_⟩
  simp only [htype, sendmmsgTcp_outMsg hcount hlen, always_bind, always_op, always_ite, always_pure]
  rintro fd' w₃ ⟨⟨e', rfl⟩, -⟩
  refine ⟨hw.intact_arrive, ?_⟩
  rintro n w₄ ⟨⟨k, e'', hk, rfl, hn⟩, hclean⟩
  have hintact := hw.intact_write k ds e' e''
  refine ⟨hintact, ?_⟩
  rcases hclean with hall | ⟨hn0, he⟩
  · have hw₄ : Line.Complete _ := hw.complete_write ds e' e''
    rw [show (w.arrive ds e').write (frames.words (ds.map (·.toFrame))) e'' = _ from
      congrArg (fun l => { w.arrive ds e' with writes := l, errno := e'' }) hall.symm] at hw₄
    split
    all_goals
      refine (always_fwdResult_line hintact).mono ?_
      rintro ret w' ⟨hw', -⟩
      exact ⟨(hcomplete hw₄ hw').intact, fun _ => hcomplete hw₄ hw'⟩
  · rw [if_pos hn0]
    refine (always_fwdResult_line hintact).mono ?_
    rintro ret w' ⟨⟨e₀, rfl⟩, hret⟩
    exact ⟨hintact.errno, fun h => absurd (hret (by decide) he) (by omega)⟩

/-- `fwd_f` writes nothing. -/
theorem always_fwdF_line (hw : w.Intact) :
    Always cleanLine Line.Intact (fwdF fd bufs bind) w fun _ w' =>
      ∃ e, w' = { w with errno := e } := by
  simp only [fwdF, recvmmsg, always_bind, always_op]
  rintro self w₁ ⟨⟨htype, rfl⟩, -⟩
  refine ⟨hw, ?_⟩
  simp only [htype]
  refine (always_quiet (only_recvmmsgTcp.mono quiet_of_receivesTcp) hw).mono ?_
  rintro r w₁ ⟨e, rfl⟩
  refine (always_quiet ((only_fwdRest _ _ _ _).mono quiet_of_forwards) hw.errno).mono ?_
  rintro r w₂ ⟨e', rfl⟩
  exact ⟨e', rfl⟩

/-- `fwd_b` is called as long as all frames have been written. -/
theorem always_splicerLoop_line {rounds : Nat} {resF resB : Int} {bufsF bufsB : List Mem}
    (hw : w.Intact) (hB : 0 ≤ resB → w.Complete) :
    Always cleanLine Line.Intact (splicerLoop fd rounds resF resB bind bufsF bufsB) w
      fun _ w' => w'.Intact := by
  induction rounds generalizing resF resB bind bufsF bufsB w with
  | zero => exact hw
  | succ rounds ih =>
    have hF : Always cleanLine Line.Intact (stepF fd resF bind bufsF) w fun _ w' =>
        ∃ e, w' = { w with errno := e } := by
      unfold stepF
      split
      · exact always_fwdF_line hw
      · exact ⟨w.errno, rfl⟩
    refine hF.bind ?_
    rintro ⟨resF, bind, bufsF⟩ _ ⟨e, rfl⟩
    have hB' : Always cleanLine Line.Intact (stepB fd resB bufsB) { w with errno := e }
        fun r w' => w'.Intact ∧ (0 ≤ r.1 → w'.Complete) := by
      unfold stepB
      split
      · rename_i h0
        exact always_fwdB_line (hB h0).errno
      · rename_i h0
        exact ⟨hw.errno, fun h => absurd h h0⟩
    refine hB'.bind ?_
    rintro ⟨resB, bufsB⟩ w₁ ⟨hw₁, hB₁⟩
    dsimp only at hB₁ ⊢
    cases yieldType resF resB with
    | none => exact hw₁
    | some type =>
      refine (always_quiet ((only_taskIoYielder type).mono quiet_of_yields) hw₁).bind ?_
      rintro ret _ ⟨e', rfl⟩
      split
      · exact hw₁.errno
      · exact ih hw₁.errno fun h => (hB₁ h).errno

theorem quiet_modOrAddFd : (modOrAddFd fd).Only Quiet :=
  .bind ((only_op _).2 trivial) fun _ =>
    .ite (.bind ((only_op _).2 trivial) fun _ => only_pure _) (only_pure _)

theorem quiet_addOrModFd : (addOrModFd fd).Only Quiet :=
  .bind ((only_op _).2 trivial) fun _ =>
    .ite (.bind ((only_op _).2 trivial) fun _ => only_pure _) (only_pure _)

/-- **Nothing is torn** by sends that do no harm, in any run of the splicer. -/
theorem splicer_intact {rounds : Nat} {w' : Line} (hw : w.arrived = [] ∧ w.writes = [])
    (h : Reaches cleanLine (splicer fd rounds) w w') : w'.Intact := by
  have hcomplete : w.Complete := by
    refine ⟨by simp [Line.frames, hw], fun l hl => ⟨[], ?_⟩⟩
    rw [hw.2, List.prefix_nil] at hl
    rw [hl]
    rfl
  suffices Always cleanLine Line.Intact (splicer fd rounds) w fun _ w' => w'.Intact from
    (always_iff.1 this).1 w' h
  simp only [splicer, always_bind, always_op]
  rintro num _ ⟨⟨e₁, rfl⟩, -⟩
  refine ⟨hcomplete.intact.errno, ?_⟩
  rintro buf _ ⟨⟨e₂, rfl⟩, -⟩
  refine ⟨hcomplete.intact.errno, ?_⟩
  cases buf with
  | none => exact hcomplete.intact.errno
  | some buf =>
    simp only [always_bind, always_op]
    rintro fdA _ ⟨⟨e₃, rfl⟩, -⟩
    refine ⟨hcomplete.intact.errno, ?_⟩
    refine (always_quiet quiet_modOrAddFd hcomplete.intact.errno).mono ?_
    rintro _ _ ⟨e₄, rfl⟩
    refine (always_quiet quiet_addOrModFd hcomplete.intact.errno).mono ?_
    rintro _ _ ⟨e₅, rfl⟩
    exact always_splicerLoop_line hcomplete.errno.intact fun _ => hcomplete.errno

/-! ## Two runs -/

/-- Before the splicer begins. -/
def freshLine : Line := ⟨[], [], .other⟩

/-- A run in which two datagrams arrive, and the first write stops after one octet and leaves
    `e` behind. -/
def stall (e : Errno) : Line → {β : Type} → Op β → Option (β × Line) := fun w _ o =>
  match o with
  | .base => some (⟨3, -1, .udpInTcp, false, .unspec⟩, w)
  | .getFd => some (3, w)
  | .errno => some (w.errno, w)
  | .udpCopyBufferNums => some (1, w)
  | .malloc => some (some fun _ => .undef, w)
  | .modFd _ => some (0, w)
  | .addFd _ => some (0, w)
  | .taskYield _ => some ((), w)
  | .recv _ _ _ => some (⟨-1, []⟩, { w with errno := .eagain })
  | .recvmmsg _ lens _ =>
    if w.arrived.length < 2 ∧ 0 < lens.length then
      some ((1, [octetDatagram]), w.arrive [octetDatagram] .other)
    else some ((-1, []), w.arrive [] .eagain)
  | .sendmsg _ data =>
    if w.writes = [] then some (-2, w.write (data.take 1) e)
    else some (data.length, w.write data .other)
  | _ => none

theorem line_of_stall {e : Errno} (w : Line) {β : Type} (o : Op β) (b : β) (w' : Line)
    (h : stall e w o = some (b, w')) : line w o b w' ∧ (e ≠ .eagain → CleanSend o b w w') := by
  cases o <;> simp only [stall, Option.some.injEq, Prod.mk.injEq, reduceCtorEq] at h
  case base | errno =>
    obtain ⟨rfl, rfl⟩ := h
    exact ⟨⟨rfl, rfl⟩, fun _ => trivial⟩
  case getFd | udpCopyBufferNums | malloc | modFd | addFd | taskYield | recv =>
    obtain ⟨-, rfl⟩ := h
    exact ⟨⟨_, rfl⟩, fun _ => trivial⟩
  case recvmmsg fd lens flags =>
    split at h
    · rename_i hlen
      obtain ⟨rfl, rfl⟩ := Prod.mk.inj (Option.some.inj h)
      refine ⟨⟨_, rfl, .inl ⟨rfl, hlen.2⟩, ?_⟩, fun _ => trivial⟩
      simp [octetDatagram, udpBufSize]
    · obtain ⟨rfl, rfl⟩ := Prod.mk.inj (Option.some.inj h)
      exact ⟨⟨_, rfl, .inr ⟨by decide, rfl⟩, by simp⟩, fun _ => trivial⟩
  case sendmsg fd data =>
    split at h
    · obtain ⟨rfl, rfl⟩ := Prod.mk.inj (Option.some.inj h)
      have htake : data.take 1 = data.take (min 1 data.length) := by
        simp [List.take_eq_take_iff]
      refine ⟨⟨_, e, Nat.min_le_right 1 _, ?_, .inl (by decide)⟩, fun he => .inr ⟨by decide, he⟩⟩
      rw [htake]
      rfl
    · obtain ⟨rfl, rfl⟩ := Prod.mk.inj (Option.some.inj h)
      refine ⟨⟨data.length, .other, Nat.le_refl _, ?_, .inr rfl⟩, fun _ => .inl rfl⟩
      rw [List.take_length]
      rfl

theorem splicer_intact_stall : ∃ w', Reaches cleanLine (splicer 4 2) freshLine w' ∧ w'.Intact ∧
    w'.writes = [[0]] := by
  have hstall : ∀ w {β : Type} (o : Op β) b w', stall .other w o = some (b, w') →
      cleanLine w o b w' := fun w _ o b w' h =>
    ⟨(line_of_stall w o b w' h).1, (line_of_stall w o b w' h).2 (by decide)⟩
  obtain ⟨r, w, hrun, hw⟩ := exists_returns_of_exec hstall (x := splicer 4 2) (w := freshLine)
    (fun _ w => w.writes = [[0]]) (by decide)
  have hwrites : w.writes = [[0]] := of_decide_eq_true hw
  have hreach := hrun.eq_or_reaches.resolve_left fun h => by
    rw [h] at hwrites
    exact absurd hwrites (by decide)
  exact ⟨w, hreach, splicer_intact ⟨rfl, rfl⟩ hreach, hwrites⟩

/-- A frame follows a part of a frame. -/
theorem not_splicer_intact : ¬ ∀ fd rounds w w', w.arrived = [] ∧ w.writes = [] →
    Reaches line (splicer fd rounds) w w' → w'.Intact := by
  intro hall
  obtain ⟨r, w, hrun, hw⟩ := exists_returns_of_exec (f := stall .eagain)
    (fun w _ o b w' h => (line_of_stall w o b w' h).1) (x := splicer 4 2) (w := freshLine)
    (fun _ w => ¬ w.writes.flatten <+: w.frames) (by decide)
  have hnot : ¬ w.writes.flatten <+: w.frames := of_decide_eq_true hw
  rcases hrun.eq_or_reaches with rfl | hreach
  · exact hnot (by decide)
  · exact hnot (hall 4 2 freshLine w ⟨rfl, rfl⟩ hreach).inOrder

end HevSocks5
