/-
  The end of a UDP association.

  The client keeps the control connection open as long as it uses the relay.
  The yielder polls it for one octet each time, so a closed connection is
  noticed only when nothing is left to read on it: every octet that the client
  has sent after its request hides the end for one more call.

  When nothing is left unread at the end, the first later call of the yielder
  fails, wherever it is made, and so do all that follow; then at most one more
  batch is relayed in each direction (`association_ends`).
-/
import HevSocks5.UdpCalls

namespace HevSocks5

open Interact Interact.Prog Sys HevSocks5UDP

/-- The control connection. -/
structure Control where
  /-- what the client has sent on it and was not read -/
  unread : List Octet
  /-- whether the client has closed or reset it -/
  ended : Bool
  errno : Errno
  /-- how many batches were relayed since: by `fwd_f`, by `fwd_b` -/
  late : Nat × Nat

namespace Control

/-- The client acts: it sends, or it ends the connection. -/
def Acts (w w' : Control) : Prop :=
  w'.late = w.late ∧ (w.ended = true → w'.ended = true) ∧
    ∃ data, w'.unread = w.unread ++ data ∧ (w.ended = true → data = [])

/-- **The connection ends when all is read.** -/
def EndsRead (w w' : Control) : Prop :=
  w.Acts w' ∧ (w.ended = false → w'.ended = true → w'.unread = [])

/-- The calls of the yielder. -/
def yielding (Act : Control → Control → Prop) : Env Op Control := fun w _ o b w' =>
  match o with
  | .base => b.type = .udpInUdp ∧ w' = w
  | .setBase _ => w' = w
  | .errno => b = w.errno ∧ w' = w
  | .recvRaw _ =>
    match w.unread with
    | _ :: unread => b = 1 ∧ w' = { w with unread }
    | [] =>
      if w.ended then b = 0 ∧ w' = w ∨ b < 0 ∧ w' = { w with errno := .other }
      else b < 0 ∧ ∃ e, w' = { w with errno := e }
  | _ => Act w w'

/-- What can have happened since a call of the system began: it has called the yielder any
    number of times, and the client has acted. -/
inductive During (Act : Control → Control → Prop) : Control → Control → Prop
  | start {w w₁ : Control} : Act w w₁ → During Act w w₁
  | wait {w w₁ w₂ w₃ : Control} : During Act w w₁ →
      Returns (yielding Act) (taskIoYielder .waitio) w₁ 0 w₂ → Act w₂ w₃ → During Act w w₃

/-- A call that takes a yielder is done, or it fails because the yielder does. -/
def Answers (Act : Control → Control → Prop) (w : Control) (res : Int) (w' : Control) : Prop :=
  During Act w w' ∨ ∃ w₁ ret, During Act w w₁ ∧
    Returns (yielding Act) (taskIoYielder .waitio) w₁ ret w' ∧ ret ≠ 0 ∧ res < 0

/-- A batch was relayed. -/
def relayed (w : Control) (msgs : List (Option SockAddrIn6 × List Octet)) (res : Int) : Control :=
  if w.ended = true ∧ 0 < res then
    if msgs.any (·.1.isSome) then { w with late := (w.late.1 + 1, w.late.2) }
    else { w with late := (w.late.1, w.late.2 + 1) }
  else w

end Control

open Control

/-- The system calls of the splicer of a UDP association.  What is not about the control
    connection may answer anything, and meanwhile the client may act. -/
def control (Act : Control → Control → Prop) : Env Op Control := fun w _ o b w' =>
  match o with
  | .recvmmsg .. => Answers Act w b.1 w'
  | .sendmmsg _ msgs => ∃ w₁, Answers Act w b w₁ ∧ w' = w₁.relayed msgs b
  | o => yielding Act w o b w'

/-! ## The yielder -/

section
variable {Act : Control → Control → Prop} {w w' : Control}

/-- The end of the connection can be noticed. -/
def Control.Plain (w : Control) : Prop := w.ended = true → w.unread = []

/-- **At the end of the connection** the yielder fails. -/
theorem post_taskIoYielder_ended (type : HevTaskYieldType) (hended : w.ended = true)
    (hplain : w.Plain) :
    Post (yielding Act) (taskIoYielder type) w fun ret w' => ret ≠ 0 ∧ w'.ended = true := by
  have hunread : w.unread = [] := hplain hended
  have hstop : ∀ w : Control, w.ended = true →
      Post (yielding Act) (do hevSocks5SetTimeout 0; return -1) w fun ret w' =>
        ret ≠ 0 ∧ w'.ended = true := by
    intro w hended
    simp only [hevSocks5SetTimeout, always_bind, always_op, always_ite, always_pure]
    rintro self _ ⟨-, rfl⟩
    refine ⟨trivial, ?_⟩
    split
    · rintro _ _ rfl
      exact ⟨trivial, by decide, hended⟩
    · exact ⟨by decide, hended⟩
  unfold taskIoYielder
  refine (always_bind _ _ _).2 ((always_op _ _).2 ?_)
  rintro self _ ⟨htype, rfl⟩
  refine ⟨trivial, ?_⟩
  rw [if_pos htype]
  simp only [always_bind, always_op]
  intro res w₁ he
  simp only [yielding, hunread, if_pos hended] at he
  refine ⟨trivial, ?_⟩
  rcases he with ⟨rfl, rfl⟩ | ⟨hneg, rfl⟩
  · rw [if_pos rfl]
    exact hstop _ hended
  · rw [if_neg (by omega), if_pos hneg]
    simp only [always_bind, always_op]
    rintro _ _ ⟨rfl, rfl⟩
    refine ⟨trivial, ?_⟩
    rw [if_pos (by simp)]
    exact hstop _ hended

/-! ## What every call preserves -/

/-- **So many batches were relayed** since the end, which can be noticed. -/
structure Control.Bounded (f b : Nat) (w : Control) : Prop where
  plain : w.Plain
  forward : w.late.1 ≤ f
  back : w.late.2 ≤ b
  ended : w.ended = false → w.late = (0, 0)

variable {f b : Nat}

theorem Control.Bounded.acts (h : w.Bounded f b) (ha : w.EndsRead w') : w'.Bounded f b := by
  obtain ⟨⟨hlate, hended, data, hunread, hdata⟩, hread⟩ := ha
  refine ⟨fun he' => ?_, hlate ▸ h.forward, hlate ▸ h.back, fun he' => ?_⟩
  · cases he : w.ended with
    | true => rw [hunread, h.plain he, hdata he, List.nil_append]
    | false => exact hread he he'
  · rw [hlate]
    refine h.ended (Bool.eq_false_iff.2 fun he => ?_)
    simp [hended he] at he'

theorem Control.Bounded.step {β : Type} {o : Op β} {r : β} (h : w.Bounded f b)
    (he : yielding EndsRead w o r w') : w'.Bounded f b := by
  cases o
  case base | errno =>
    obtain ⟨-, rfl⟩ := he
    exact h
  case setBase =>
    obtain rfl := he
    exact h
  case recvRaw =>
    simp only [yielding] at he
    split at he
    · rename_i octet unread hunread
      obtain ⟨-, rfl⟩ := he
      refine ⟨fun hended => ?_, h.forward, h.back, h.ended⟩
      simp [h.plain hended] at hunread
    · split at he
      · rcases he with ⟨-, rfl⟩ | ⟨-, rfl⟩
        · exact h
        · exact ⟨h.plain, h.forward, h.back, h.ended⟩
      · obtain ⟨-, e, rfl⟩ := he
        exact ⟨h.plain, h.forward, h.back, h.ended⟩
  all_goals exact h.acts he

theorem Control.Bounded.run {α : Type} {x : SysM α} {a : α} (h : w.Bounded f b)
    (hx : Returns (yielding EndsRead) x w a w') : w'.Bounded f b :=
  (always_of_step (J := fun _ => True) (fun h he => ⟨trivial, h.step he⟩) x h).returns hx

theorem Control.Bounded.during (h : w.Bounded f b) (hd : During EndsRead w w') :
    w'.Bounded f b := by
  induction hd with
  | start ha => exact h.acts ha
  | wait _ hy ha ih => exact (ih.run hy).acts ha

theorem Control.Bounded.answers {res : Int} (h : w.Bounded f b) (hc : Answers EndsRead w res w') :
    w'.Bounded f b := by
  rcases hc with hd | ⟨w₁, ret, hd, hy, -, -⟩
  · exact h.during hd
  · exact (h.during hd).run hy

/-! ## The splicer -/

/-- The calls that relay nothing. -/
def Sys.Op.Unsent {β : Type} : Op β → Prop
  | .sendmmsg .. => False
  | _ => True

/-- In every state a call of the yielder fails if the connection has ended, also one that is made
    by the next call of the system; and at most one batch was relayed since the end in each
    direction. -/
structure Control.Over (Act : Control → Control → Prop) (w : Control) : Prop where
  yields : ∀ w₁ type ret w', (w₁ = w ∨ During Act w w₁) → w₁.ended = true →
    Returns (yielding Act) (taskIoYielder type) w₁ ret w' → ret ≠ 0 ∧ w'.ended = true
  forward : w.late.1 ≤ 1
  back : w.late.2 ≤ 1

theorem Control.Bounded.over (h : w.Bounded f b) (hf : f ≤ 1) (hb : b ≤ 1) : w.Over EndsRead where
  yields w₁ type ret w' hw hended hrun := by
    refine (post_taskIoYielder_ended type hended ?_).returns hrun
    rcases hw with rfl | hd
    · exact h.plain
    · exact (h.during hd).plain
  forward := Nat.le_trans h.forward hf
  back := Nat.le_trans h.back hb

theorem Control.Bounded.mono {f' b' : Nat} (h : w.Bounded f b) (hf : f ≤ f') (hb : b ≤ b') :
    w.Bounded f' b' :=
  ⟨h.plain, Nat.le_trans h.forward hf, Nat.le_trans h.back hb, h.ended⟩

theorem Control.Bounded.unsent {β : Type} {o : Op β} {r : β} (h : w.Bounded f b) (ho : o.Unsent)
    (he : control EndsRead w o r w') : w'.Bounded f b := by
  cases o
  case sendmmsg => exact ho.elim
  case recvmmsg => exact h.answers he
  all_goals
    simp only [control] at he
    exact h.step he

theorem Control.Bounded.always {α : Type} {x : SysM α} (h : w.Bounded f b) (hf : f ≤ 1) (hb : b ≤ 1)
    (hx : x.Only Op.Unsent) :
    Always (control EndsRead) (·.Over EndsRead) x w fun _ w' => w'.Bounded f b :=
  hx.always (fun ho h he => ⟨(h.unsent ho he).over hf hb, h.unsent ho he⟩) h

/-- A batch is relayed by `fwd_f`. -/
theorem Control.Bounded.relayed_forward {msgs : List (Option SockAddrIn6 × List Octet)} (res : Int)
    (h : w.Bounded f b) (hmsgs : msgs.any (·.1.isSome) = true) :
    (w.relayed msgs res).Bounded (f + 1) b := by
  unfold relayed
  split
  · rename_i hlate
    exact ⟨h.plain, Nat.succ_le_succ h.forward, h.back,
      fun he => absurd (hlate.1.symm.trans he) nofun⟩
  · exact h.mono (Nat.le_succ f) (Nat.le_refl b)

theorem Control.Bounded.relayed_back {msgs : List (Option SockAddrIn6 × List Octet)} (res : Int)
    (h : w.Bounded f b) (hmsgs : msgs.any (·.1.isSome) = false) :
    (w.relayed msgs res).Bounded f (b + 1) := by
  unfold relayed
  split
  · rename_i hlate
    rw [if_neg (by simp [hmsgs])]
    exact ⟨h.plain, h.forward, Nat.succ_le_succ h.back,
      fun he => absurd (hlate.1.symm.trans he) nofun⟩
  · exact h.mono (Nat.le_refl f) (Nat.le_succ b)

theorem Sys.Op.Receives.unsent {β : Type} {o : Op β} (h : o.Receives) : o.Unsent := by
  cases o <;> first | exact h.elim | trivial

theorem Sys.Op.Prepares.unsent {β : Type} {o : Op β} (h : o.Prepares) : o.Unsent := by
  cases o <;> first | exact h.elim | trivial

/-- There is a destination for each message. -/
theorem post_length_resolveAll {W : Type} {E : Env Op W} (ms : List (Option HevSocks5UDPMsg))
    (w : W) : Post E (resolveAll ms) w fun r _ => ∀ dvec ∈ r, dvec.length = ms.length := by
  have hany : ∀ {α : Type} (x : SysM α) (w : W), Post E x w fun _ _ => True := fun x w =>
    always_of_step (fun _ _ => ⟨trivial, trivial⟩) x trivial
  induction ms generalizing w with
  | nil =>
    rintro dvec ⟨⟩
    rfl
  | cons m ms ih =>
    unfold resolveAll
    refine (hany _ _).bind ?_
    rintro ⟨_ | addr, buf, len⟩ w₁ -
    · exact nofun
    dsimp only
    rw [always_ite]
    split
    · exact nofun
    refine (hany _ _).bind fun self w₂ _ => (hany _ _).bind fun r w₃ _ => ?_
    rw [always_ite]
    split
    · exact nofun
    refine (ih w₃).bind ?_
    rintro (_ | dvec) w₄ hlen
    · exact nofun
    · rintro _ ⟨⟩
      rw [List.length_cons, List.length_cons, hlen dvec rfl]

theorem length_entries (svec : List Slot) (res : Nat) : (entries svec res).length = res := by
  simp only [entries, List.length_append, List.length_map, List.length_take, List.length_replicate]
  omega

/-- `fwd_f` relays at most one batch. -/
theorem always_forward_control {fd : Int} {res : Nat} {svec : List Slot} {bind : Bool}
    (h : w.Bounded 0 0) (hres : 0 < res) :
    Always (control EndsRead) (·.Over EndsRead) (forward fd res svec bind) w fun _ w' =>
      w'.Bounded 1 0 := by
  unfold forward
  refine ((h.always (Nat.zero_le 1) (Nat.zero_le 1)
    ((only_resolveAll _).mono Op.Prepares.unsent)).and (post_length_resolveAll _ w)).bind ?_
  rintro (_ | dvec) w₁ ⟨h₁, hlen⟩
  · exact h₁.mono (Nat.zero_le 1) (Nat.le_refl 0)
  refine (h₁.always (Nat.zero_le 1) (Nat.zero_le 1)
    ((only_bindFirst _ _ dvec).mono Op.Prepares.unsent)).bind fun ok w₂ h₂ => ?_
  rw [always_ite]
  split
  · exact h₂.mono (Nat.zero_le 1) (Nat.le_refl 0)
  simp only [always_bind, always_op, always_pure]
  rintro res' _ ⟨w₃, hcalls, rfl⟩
  have hmsgs : (dvec.map fun d => (some d.1, d.2)).any (·.1.isSome) = true := by
    have hdvec := hlen dvec rfl
    rw [length_entries] at hdvec
    obtain ⟨d, hd⟩ := List.exists_mem_of_length_pos (l := dvec) (by omega)
    simp only [List.any_map, List.any_eq_true]
    exact ⟨d, hd, rfl⟩
  have h₃ := (h₂.answers hcalls).relayed_forward res' hmsgs
  exact ⟨h₃.over (Nat.le_refl 1) (Nat.zero_le 1), h₃.always (Nat.le_refl 1) (Nat.zero_le 1)
    ((only_fwdResult res').mono Op.Prepares.unsent)⟩

theorem always_fwdF_control {fd : Int} {bufs : List Mem} {bind : Bool} (h : w.Bounded 0 0) :
    Always (control EndsRead) (·.Over EndsRead) (fwdF fd bufs bind) w
      fun _ w' => w'.Bounded 1 0 := by
  unfold fwdF
  refine (h.always (Nat.zero_le 1) (Nat.zero_le 1)
    (only_recvmmsg.mono Op.Receives.unsent)).bind ?_
  rintro ⟨res, svec⟩ w₁ h₁
  simp only [always_bind, always_pure, fwdRest]
  split
  · rename_i hpos
    exact always_forward_control h₁ (by omega)
  · simp only [always_bind, always_pure]
    exact (h₁.mono (Nat.zero_le 1) (Nat.le_refl 0)).always (Nat.le_refl 1) (Nat.zero_le 1)
      ((only_fwdResult res).mono Op.Prepares.unsent)

theorem always_sendmmsg_control {msgv : List OutMsg} (h : w.Bounded 1 0) :
    Always (control EndsRead) (·.Over EndsRead) (sendmmsg msgv) w fun _ w' => w'.Bounded 1 1 := by
  have hover : ∀ {w : Control}, w.Bounded 1 0 → w.Over EndsRead := fun h =>
    h.over (Nat.le_refl 1) (Nat.zero_le 1)
  have hmono : ∀ {w : Control}, w.Bounded 1 0 → w.Bounded 1 1 := fun h =>
    h.mono (Nat.le_refl 1) (Nat.zero_le 1)
  simp only [sendmmsg, always_bind, always_op]
  rintro self _ ⟨htype, rfl⟩
  refine ⟨hover h, ?_⟩
  simp only [htype, sendmmsgUdp]
  cases gather OutMsg.packet msgv with
  | none => exact hmono h
  | some iov =>
    simp only [always_bind, always_op]
    intro fd w₁ hfd
    have h₁ := h.unsent (o := .getFd) trivial hfd
    refine ⟨hover h₁, ?_⟩
    rintro res _ ⟨w₂, hcalls, rfl⟩
    have hmsgs : (iov.map fun d => ((none : Option SockAddrIn6), d)).any (·.1.isSome) = false := by
      simp
    have h₂ := (h₁.answers hcalls).relayed_back res hmsgs
    exact ⟨h₂.over (Nat.le_refl 1) (Nat.le_refl 1), h₂⟩

/-- `fwd_b` relays at most one batch. -/
theorem always_fwdB_control {fd : Int} {bufs : List Mem} (h : w.Bounded 1 0) :
    Always (control EndsRead) (·.Over EndsRead) (fwdB fd bufs) w fun _ w' => w'.Bounded 1 1 := by
  have hresult : ∀ (res : Int) {w : Control}, w.Bounded 1 1 →
      Always (control EndsRead) (·.Over EndsRead) (fwdResult res) w fun _ w' => w'.Bounded 1 1 :=
    fun res _ h => h.always (Nat.le_refl 1) (Nat.le_refl 1)
      ((only_fwdResult res).mono Op.Prepares.unsent)
  simp only [fwdB, always_bind, always_op]
  rintro ⟨res, ds⟩ w₁ hcalls
  have h₁ := h.answers hcalls
  refine ⟨h₁.over (Nat.le_refl 1) (Nat.zero_le 1), ?_⟩
  rw [always_ite]
  split
  · simp only [always_bind, always_pure]
    exact (always_sendmmsg_control h₁).mono fun res' w₂ h₂ => hresult res' h₂
  · simp only [always_bind, always_pure]
    exact hresult res (h₁.mono (Nat.le_refl 1) (Nat.zero_le 1))

/-- The yielder lets the splicer go on only if the connection had not ended: then nothing was
    relayed since the end. -/
theorem always_taskIoYielder_control (type : HevTaskYieldType) (h : w.Bounded 1 1) :
    Always (control EndsRead) (·.Over EndsRead) (taskIoYielder type) w fun ret w' =>
      ret = 0 → w'.Bounded 0 0 := by
  have hyields : ∀ {β : Type} {o : Op β}, o.Yields → o.Unsent := by
    intro β o ho
    cases o <;> first | exact ho.elim | trivial
  have hunsent := (only_taskIoYielder type).mono hyields
  cases hended : w.ended with
  | true =>
    have hfails : Post (control EndsRead) (taskIoYielder type) w fun ret w' =>
        ret ≠ 0 ∧ w'.ended = true := by
      refine (only_taskIoYielder type).always_env (E := yielding EndsRead) ?_
        (post_taskIoYielder_ended type hended h.plain)
      intro w w' β o b ho he
      cases o <;> first | exact ho.elim | exact he
    refine ((h.always (Nat.le_refl 1) (Nat.le_refl 1) hunsent).and hfails).mono ?_
    rintro ret w' ⟨-, hne, -⟩ hret
    exact absurd hret hne
  | false =>
    have hlate := h.ended hended
    have h₀ : w.Bounded 0 0 := ⟨h.plain, by simp [hlate], by simp [hlate], h.ended⟩
    exact (h₀.always (Nat.zero_le 1) (Nat.zero_le 1) hunsent).mono fun _ _ h _ => h

/-- **One round** relays at most one batch in each direction, and no other follows it when the
    connection has ended. -/
theorem always_splicerLoop_control {fdB : Int} {rounds : Nat} {resF resB : Int} {bind : Bool}
    {bufsF bufsB : List Mem} (h : w.Bounded 0 0) :
    Always (control EndsRead) (·.Over EndsRead)
      (splicerLoop fdB rounds resF resB bind bufsF bufsB) w fun _ _ => True := by
  induction rounds generalizing w resF resB bind bufsF bufsB with
  | zero => trivial
  | succ rounds ih =>
    unfold splicerLoop
    refine Always.bind (R := fun _ w' => w'.Bounded 1 0) ?_ ?_
    · unfold stepF
      rw [always_ite]
      split
      · exact always_fwdF_control h
      · exact h.mono (Nat.zero_le 1) (Nat.le_refl 0)
    rintro ⟨resF', bind', bufsF'⟩ w₁ h₁
    refine Always.bind (R := fun _ w' => w'.Bounded 1 1) ?_ ?_
    · unfold stepB
      rw [always_ite]
      split
      · exact always_fwdB_control h₁
      · exact h₁.mono (Nat.le_refl 1) (Nat.zero_le 1)
    rintro ⟨resB', bufsB'⟩ w₂ h₂
    dsimp only
    cases yieldType resF' resB' with
    | none => trivial
    | some type =>
      refine (always_taskIoYielder_control type h₂).bind fun ret w₃ h₃ => ?_
      rw [always_ite]
      split
      · trivial
      · rename_i hret
        exact ih (h₃ (by simpa using hret))

theorem always_splicer_control {fdB : Int} {rounds : Nat} (h : w.Bounded 0 0) :
    Always (control EndsRead) (·.Over EndsRead) (splicer fdB rounds) w fun _ _ => True := by
  have hop : ∀ {β : Type} (o : Op β) {w : Control}, o.Unsent → w.Bounded 0 0 →
      Always (control EndsRead) (·.Over EndsRead) (op o) w fun _ w' => w'.Bounded 0 0 :=
    fun o _ ho h => h.always (Nat.zero_le 1) (Nat.zero_le 1) ((only_op o).2 ho)
  unfold splicer
  refine (hop .udpCopyBufferNums trivial h).bind fun num w₁ h₁ => ?_
  refine (hop .malloc trivial h₁).bind ?_
  rintro (_ | buf) w₂ h₂
  · trivial
  refine (hop .getFd trivial h₂).bind fun fdA w₃ h₃ => ?_
  refine Always.bind (R := fun _ w' => w'.Bounded 0 0) ?_ fun _ w₄ h₄ => ?_
  · refine h₃.always (Nat.zero_le 1) (Nat.zero_le 1) ?_
    exact .bind ((only_op _).2 trivial) fun _ =>
      .ite (.bind ((only_op _).2 trivial) fun _ => only_pure _) (only_pure _)
  refine Always.bind (R := fun _ w' => w'.Bounded 0 0) ?_ fun _ w₅ h₅ => ?_
  · refine h₄.always (Nat.zero_le 1) (Nat.zero_le 1) ?_
    exact .bind ((only_op _).2 trivial) fun _ =>
      .ite (.bind ((only_op _).2 trivial) fun _ => only_pure _) (only_pure _)
  exact (always_splicerLoop_control h₅).bind fun _ _ _ => trivial

/-- **A UDP association ends with its control connection**, if nothing is left unread on the
    connection when it ends: from then on every call of the yielder fails, and at most one more
    batch is relayed in each direction. -/
theorem association_ends {fdB : Int} {rounds : Nat} (hopen : w.ended = false)
    (hlate : w.late = (0, 0)) (h : Reaches (control EndsRead) (splicer fdB rounds) w w') :
    w'.Over EndsRead := by
  have h₀ : w.Bounded 0 0 :=
    ⟨fun he => absurd (hopen.symm.trans he) nofun, by simp [hlate], by simp [hlate], fun _ => hlate⟩
  exact (always_iff.1 (always_splicer_control h₀)).1 w' h

end

/-! ## Two ends -/

def openControl : Control := ⟨[], false, .eagain, (0, 0)⟩

/-- An octet for 192.0.2.7, port 53. -/
def lastDatagram : Datagram := ⟨.zero, [0, 0, 0, 1, 192, 0, 2, 7, 0, 53, 104]⟩

/-- The client ends the connection as its last datagram is received. -/
def leaving : Control → {β : Type} → Op β → Option (β × Control) := fun w _ o =>
  match o with
  | .udpCopyBufferNums => some (1, w)
  | .malloc => some (some fun _ => .undef, w)
  | .getFd => some (5, w)
  | .modFd _ => some (0, w)
  | .addFd _ => some (0, w)
  | .base => some (⟨3, -1, .udpInUdp, true, .unspec⟩, w)
  | .setBase _ => some ((), w)
  | .errno => some (w.errno, w)
  | .recvmmsg fd lens _ =>
    if fd = 5 ∧ lens.length = 1 ∧ w.unread = [] then
      some ((1, [lastDatagram]), { w with ended := true })
    else some ((-1, []), w)
  | .binder _ _ => some (0, w)
  | .sendmmsg _ msgs => some (1, w.relayed msgs 1)
  | .recvRaw _ => if w.ended ∧ w.unread = [] then some (0, w) else none
  | _ => none

theorem control_of_leaving (w : Control) {β : Type} (o : Op β) (b : β) (w' : Control)
    (h : leaving w o = some (b, w')) : control EndsRead w o b w' := by
  have hrefl : w.EndsRead w :=
    ⟨⟨rfl, id, [], by simp, fun _ => rfl⟩, fun he he' => absurd (he.symm.trans he') nofun⟩
  cases o <;> simp only [leaving, Option.some.injEq, Prod.mk.injEq, reduceCtorEq] at h
  case base | errno =>
    obtain ⟨rfl, rfl⟩ := h
    exact ⟨rfl, rfl⟩
  case setBase =>
    obtain ⟨-, rfl⟩ := h
    rfl
  case recvmmsg fd lens flags =>
    split at h
    · rename_i hc
      obtain ⟨-, rfl⟩ := Prod.mk.inj (Option.some.inj h)
      refine .inl (.start ⟨⟨rfl, fun _ => rfl, [], by simp, fun _ => rfl⟩, fun _ _ => hc.2.2⟩)
    · obtain ⟨-, rfl⟩ := Prod.mk.inj (Option.some.inj h)
      exact .inl (.start hrefl)
  case sendmmsg fd msgs =>
    obtain ⟨rfl, rfl⟩ := h
    exact ⟨w, .inl (.start hrefl), rfl⟩
  case recvRaw =>
    rw [Option.ite_none_right_eq_some, Option.some.injEq, Prod.mk.injEq] at h
    obtain ⟨⟨hended, hunread⟩, rfl, rfl⟩ := h
    simp [control, yielding, hunread, hended]
  all_goals
    obtain ⟨-, rfl⟩ := h
    exact hrefl

theorem association_ends_one : ∃ w', Reaches (control EndsRead) (splicer 4 2) openControl w' ∧
    w'.ended = true ∧ w'.late = (1, 0) ∧ w'.Over EndsRead := by
  obtain ⟨ret, w', hrun, h⟩ := exists_returns_of_exec control_of_leaving
    (x := splicer 4 2) (w := openControl)
    (fun _ w' => w'.ended = true ∧ w'.late = (1, 0)) (by decide +kernel)
  obtain ⟨hended, hlate⟩ := of_decide_eq_true h
  have hreach : Reaches (control EndsRead) (splicer 4 2) openControl w' := by
    rcases hrun.eq_or_reaches with rfl | hreach
    · exact absurd hended (by decide)
    · exact hreach
  exact ⟨w', hreach, hended, hlate, association_ends rfl rfl hreach⟩

/-- The client has sent an octet and has ended the connection: the next call of the yielder reads
    the octet and does not fail. -/
theorem not_association_ends : ¬ ∀ fdB rounds w w', w.ended = false → w.late = (0, 0) →
    Reaches (control Acts) (splicer fdB rounds) w w' → w'.Over Acts := by
  intro hall
  let w' : Control := ⟨[104], true, .eagain, (0, 0)⟩
  have hreach : Reaches (control Acts) (splicer 4 1) openControl w' :=
    .here (b := 1) ⟨rfl, fun _ => rfl, [104], rfl, fun he => absurd he nofun⟩
  have hrun : Returns (yielding Acts) (taskIoYielder .yield) w' 0 { w' with unread := [] } := by
    unfold taskIoYielder
    simp only [returns_bind, returns_op]
    refine ⟨⟨3, -1, .udpInUdp, true, .unspec⟩, w', ⟨rfl, rfl⟩, ?_⟩
    rw [if_pos rfl]
    simp only [returns_bind, returns_op]
    refine ⟨1, { w' with unread := [] }, ⟨rfl, rfl⟩, ?_⟩
    rw [if_neg (by decide), if_neg (by decide)]
    refine returns_bind.2 ⟨(), _, returns_op.2 ⟨rfl, id, [], by simp, fun _ => rfl⟩, .ret _ _⟩
  exact ((hall _ _ _ _ rfl rfl hreach).yields _ _ _ _ (.inl rfl) rfl hrun).1 rfl

end HevSocks5
