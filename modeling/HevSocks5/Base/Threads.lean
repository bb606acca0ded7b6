/-
  Programs that share a state and run until they wait.

  A program that is `Paused` has returned or is about to make a call in which
  it waits; from there a `Piece` of it runs without interruption to where it is
  paused again.  `Meets E P x w Q`: every call of a run from `w` is made in a
  state that meets `P`, and what is returned meets `Q`.

  While a program waits the others change the state, within its rely.
  `Stable` says that what is shown of a program takes this into account: then
  it is still true of a paused program whatever the others did (`Meets.interfere`),
  and each piece stays within the guarantee (`Meets.resumes`).
-/
import HevSocks5.Base.Prog

namespace Interact

open Prog

variable {Op : Type → Type} {W α β : Type}

/-- What is true of a state when a call is made. -/
def Assert (Op : Type → Type) (W : Type) := W → {β : Type} → Op β → Prop

/-- **In every run** the calls are made where `P` is true, and `Q` is true of what is returned. -/
def Meets (E : Env Op W) (P : Assert Op W) : Prog Op α → W → (α → W → Prop) → Prop
  | .ret a, w, Q => Q a w
  | .call o k, w, Q => P w o ∧ ∀ b w', E w o b w' → Meets E P (k b) w' Q

section
variable {E : Env Op W} {P : Assert Op W} {w : W}

@[simp] theorem meets_pure (a : α) (Q : α → W → Prop) :
    Meets E P (pure a : Prog Op α) w Q ↔ Q a w := Iff.rfl

@[simp] theorem meets_op (o : Op β) (Q : β → W → Prop) :
    Meets E P (op o) w Q ↔ P w o ∧ ∀ b w', E w o b w' → Q b w' := Iff.rfl

@[simp] theorem meets_bind (x : Prog Op α) (f : α → Prog Op β) (Q : β → W → Prop) :
    Meets E P (x >>= f) w Q ↔ Meets E P x w fun a w' => Meets E P (f a) w' Q := by
  rw [bind_eq]
  induction x generalizing w with
  | ret a => exact Iff.rfl
  | call o k ih => simp only [Prog.bind, Meets, ih]

/-- A call that has just one answer. -/
theorem meets_op_unique {o : Op β} {k : β → Prog Op α} {b : β} {w₁ : W} {Q : α → W → Prop}
    (hP : P w o) (hE : ∀ b' w', E w o b' w' ↔ b' = b ∧ w' = w₁) :
    Meets E P (op o >>= k) w Q ↔ Meets E P (k b) w₁ Q := by
  refine (meets_bind ..).trans ⟨fun h => h.2 b w₁ ((hE b w₁).2 ⟨rfl, rfl⟩), fun h => ⟨hP, ?_⟩⟩
  intro b' w' he
  obtain ⟨rfl, rfl⟩ := (hE b' w').1 he
  exact h

@[simp] theorem meets_ite (c : Prop) [Decidable c] (x y : Prog Op α) (Q : α → W → Prop) :
    Meets E P (if c then x else y) w Q ↔ if c then Meets E P x w Q else Meets E P y w Q := by
  split <;> rfl

theorem Meets.mono {x : Prog Op α} {Q R : α → W → Prop} (h : Meets E P x w Q)
    (hQR : ∀ a w', Q a w' → R a w') : Meets E P x w R := by
  induction x generalizing w with
  | ret a => exact hQR a w h
  | call o k ih => exact ⟨h.1, fun b w' he => ih b (h.2 b w' he)⟩

theorem Meets.bind {x : Prog Op α} {f : α → Prog Op β} {R : α → W → Prop} {Q : β → W → Prop}
    (h : Meets E P x w R) (hf : ∀ a w', R a w' → Meets E P (f a) w' Q) :
    Meets E P (x >>= f) w Q :=
  (meets_bind x f Q).2 (h.mono hf)

/-- What the runs meet that return, besides. -/
theorem Meets.and {x : Prog Op α} {Q R : α → W → Prop} (h : Meets E P x w Q)
    (hR : Post E x w R) : Meets E P x w fun a w' => Q a w' ∧ R a w' := by
  induction x generalizing w with
  | ret a => exact ⟨h, hR⟩
  | call o k ih => exact ⟨h.1, fun b w' he => ih b (h.2 b w' he) (hR b w' he).2⟩

theorem Meets.returns {x : Prog Op α} {Q : α → W → Prop} (h : Meets E P x w Q) {a : α} {w' : W}
    (hr : Returns E x w a w') : Q a w' := by
  induction hr with
  | ret => exact h
  | call he _ ih => exact ih (h.2 _ _ he)

/-- A program of which every call has an answer returns in some run. -/
theorem Meets.exists_returns {x : Prog Op α} {Q : α → W → Prop} (h : Meets E P x w Q)
    (hP : ∀ {w : W} {β : Type} {o : Op β}, P w o → ∃ b w', E w o b w') :
    ∃ a w', Returns E x w a w' := by
  induction x generalizing w with
  | ret a => exact ⟨a, w, .ret a w⟩
  | call o k ih =>
    obtain ⟨b, w₁, he⟩ := hP h.1
    obtain ⟨a, w', hr⟩ := ih b (h.2 b w₁ he)
    exact ⟨a, w', .call he hr⟩

/-- A program all of whose calls are made where `P` is true because of what they preserve. -/
theorem Prog.Only.meets {C : {β : Type} → Op β → Prop} {x : Prog Op α} (hx : x.Only C)
    {I : W → Prop}
    (hstep : ∀ {w : W} {β : Type} {o : Op β}, C o → I w → P w o ∧ ∀ b w', E w o b w' → I w')
    (hw : I w) : Meets E P x w fun _ w' => I w' := by
  induction x generalizing w with
  | ret a => exact hw
  | call o k ih =>
    have h := hstep hx.1 hw
    exact ⟨h.1, fun b w' he => ih b (hx.2 b) (h.2 b w' he)⟩

end

/-! ## Pieces -/

/-- The program has returned or is about to wait. -/
def Prog.Paused (waits : (β : Type) → Op β → Prop) : Prog Op α → Prop
  | .ret _ => True
  | .call o _ => waits _ o

/-- A run from one state to another, without waiting, until the program is paused. -/
inductive Piece (A : Env Op W) (waits : (β : Type) → Op β → Prop) :
    Prog Op α → W → Prog Op α → W → Prop
  | paused {x : Prog Op α} {w : W} (h : x.Paused waits) : Piece A waits x w x w
  | call {β : Type} {o : Op β} {k : β → Prog Op α} {x' : Prog Op α} {b : β} {w w₁ w' : W}
      (ho : ¬ waits _ o) (he : A w o b w₁) (h : Piece A waits (k b) w₁ x' w') :
      Piece A waits (.call o k) w x' w'

/-- The program waits, and then a piece of it runs. -/
inductive Resumes (A : Env Op W) (waits : (β : Type) → Op β → Prop) :
    Prog Op α → W → Prog Op α → W → Prop
  | mk {β : Type} {o : Op β} {k : β → Prog Op α} {x' : Prog Op α} {b : β} {w w₁ w' : W}
      (he : A w o b w₁) (h : Piece A waits (k b) w₁ x' w') :
      Resumes A waits (.call o k) w x' w'

/-- **A run by itself**: a piece of the program runs, and then it is resumed until it returns. -/
theorem Returns.resumes {A : Env Op W} (waits : (β : Type) → Op β → Prop) {x : Prog Op α} {a : α}
    {w w' : W} (h : Returns A x w a w') : ∃ x₁ w₁, Piece A waits x w x₁ w₁ ∧
      Relation.ReflTransGen (fun s s' : Prog Op α × W => Resumes A waits s.1 s.2 s'.1 s'.2)
        (x₁, w₁) (.ret a, w') := by
  induction h with
  | ret a w => exact ⟨.ret a, w, .paused trivial, .refl⟩
  | @call β o k w w₁ w₂ b a he _ ih =>
    obtain ⟨x₂, w₂, hpiece, hrest⟩ := ih
    by_cases ho : waits _ o
    · exact ⟨_, w, .paused ho, hrest.head (.mk he hpiece)⟩
    · exact ⟨x₂, w₂, .call ho he hpiece, hrest⟩

/-- How a program that is checked in the environment `E` runs in `A`, where the others may change
    the state within `rely` while it waits. -/
structure Stable (A E : Env Op W) (waits : (β : Type) → Op β → Prop) (P : Assert Op W)
    (rely guarantee : W → W → Prop) : Prop where
  env : ∀ (w w' : W) {β : Type} (o : Op β) (b : β), P w o → A w o b w' → E w o b w'
  assert : ∀ (w w' : W) {β : Type} (o : Op β), waits _ o → rely w w' → P w o → P w' o
  wait : ∀ (w w₁ w' : W) {β : Type} (o : Op β) (b : β), waits _ o → rely w w₁ → E w₁ o b w' →
    E w o b w'
  refl : ∀ w, guarantee w w
  trans : ∀ w₁ w₂ w₃, guarantee w₁ w₂ → guarantee w₂ w₃ → guarantee w₁ w₃
  step : ∀ (w w' : W) {β : Type} (o : Op β) (b : β), P w o → A w o b w' → guarantee w w'

section
variable {A E : Env Op W} {waits : (β : Type) → Op β → Prop} {P : Assert Op W}
  {rely guarantee : W → W → Prop} {x x' : Prog Op α} {w w' : W} {Q : α → W → Prop}

theorem Piece.eq_of_paused (h : Piece A waits x w x' w') (hx : x.Paused waits) :
    x' = x ∧ w' = w := by
  cases h with
  | paused => exact ⟨rfl, rfl⟩
  | call ho => exact absurd hx ho

theorem Piece.isPaused (h : Piece A waits x w x' w') : x'.Paused waits := by
  induction h with
  | paused h => exact h
  | call _ _ _ ih => exact ih

theorem Meets.piece (h : Meets E P x w Q) (hS : Stable A E waits P rely guarantee)
    (hp : Piece A waits x w x' w') : Meets E P x' w' Q ∧ guarantee w w' := by
  induction hp with
  | paused => exact ⟨h, hS.refl _⟩
  | call ho he _ ih =>
    obtain ⟨hP, hk⟩ := h
    obtain ⟨h', hg⟩ := ih (hk _ _ (hS.env _ _ _ _ hP he))
    exact ⟨h', hS.trans _ _ _ (hS.step _ _ _ _ hP he) hg⟩

/-- **A program that waits goes on**: what is shown of it is true where it is paused again. -/
theorem Meets.resumes (h : Meets E P x w Q) (hS : Stable A E waits P rely guarantee)
    (hr : Resumes A waits x w x' w') : Meets E P x' w' Q ∧ x'.Paused waits ∧ guarantee w w' := by
  cases hr with
  | mk he hp =>
    obtain ⟨hP, hk⟩ := h
    obtain ⟨h', hg⟩ := (hk _ _ (hS.env _ _ _ _ hP he)).piece hS hp
    exact ⟨h', hp.isPaused, hS.trans _ _ _ (hS.step _ _ _ _ hP he) hg⟩

/-- **A program that waits can go on**, when every call has an answer. -/
theorem Meets.exists_resumes (h : Meets E P x w Q) (hS : Stable A E waits P rely guarantee)
    (hA : ∀ {w : W} {β : Type} {o : Op β}, P w o → ∃ b w', A w o b w') (hx : x.Paused waits) :
    (∃ a, x = .ret a) ∨ ∃ x' w', Resumes A waits x w x' w' := by
  have hpiece : ∀ (x : Prog Op α) (w : W), Meets E P x w Q → ∃ x' w', Piece A waits x w x' w' := by
    intro x
    induction x with
    | ret a => exact fun w _ => ⟨_, w, .paused trivial⟩
    | call o k ih =>
      intro w h
      by_cases ho : waits _ o
      · exact ⟨_, w, .paused ho⟩
      · obtain ⟨b, w₁, he⟩ := hA h.1
        obtain ⟨x', w', hp⟩ := ih b w₁ (h.2 _ _ (hS.env _ _ _ _ h.1 he))
        exact ⟨x', w', .call ho he hp⟩
  cases x with
  | ret a => exact .inl ⟨a, rfl⟩
  | call o k =>
    obtain ⟨b, w₁, he⟩ := hA h.1
    obtain ⟨x', w', hp⟩ := hpiece (k b) w₁ (h.2 _ _ (hS.env _ _ _ _ h.1 he))
    exact .inr ⟨x', w', .mk he hp⟩

/-- **The others run** while a program is paused. -/
theorem Meets.interfere (h : Meets E P x w Q) (hS : Stable A E waits P rely guarantee)
    (hx : x.Paused waits) (hw : rely w w') (hQ : ∀ a, Q a w → Q a w') : Meets E P x w' Q := by
  cases x with
  | ret a => exact hQ a h
  | call o k =>
    exact ⟨hS.assert _ _ o hx hw h.1, fun b w₁ he => h.2 b w₁ (hS.wait _ _ _ o b hx hw he)⟩

end

end Interact
