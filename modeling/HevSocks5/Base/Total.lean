/-
  Total correctness for programs over a state that can get stuck.

  A program of `Stuck σ` reads and changes a state `σ`; it may also get stuck
  (an access through a null pointer, a loop that never ends), and then it has
  no result.  `Ends x s Q`: from `s` the program `x` does not get stuck, and
  its result and final state satisfy `Q`.  The rules below are equivalences,
  so `simp` runs a program symbolically.
-/
import Mathlib

namespace Total

/-- Programs over a state `σ` that either return or get stuck. -/
abbrev Stuck (σ : Type) := StateT σ Option

variable {σ α β : Type}

/-- The program that is stuck at once. -/
def stuck : Stuck σ α := fun _ => none

/-- **Total correctness**: from `s`, `x` returns, with `Q` for its result and
    final state. -/
def Ends (x : Stuck σ α) (s : σ) (Q : α → σ → Prop) : Prop :=
  ∃ a s', x s = some (a, s') ∧ Q a s'

@[simp] theorem ends_pure (a : α) (s : σ) (Q : α → σ → Prop) :
    Ends (pure a : Stuck σ α) s Q ↔ Q a s := by
  simp [Ends, pure, StateT.pure]

@[simp] theorem ends_stuck (s : σ) (Q : α → σ → Prop) : ¬ Ends stuck s Q := by
  simp [Ends, stuck]

@[simp] theorem ends_bind (x : Stuck σ α) (f : α → Stuck σ β) (s : σ) (Q : β → σ → Prop) :
    Ends (x >>= f) s Q ↔ Ends x s fun a s' => Ends (f a) s' Q := by
  simp only [Ends, bind, StateT.bind]
  cases h : x s with
  | none => simp
  | some r =>
    obtain ⟨a, s'⟩ := r
    simp

@[simp] theorem ends_map (f : α → β) (x : Stuck σ α) (s : σ) (Q : β → σ → Prop) :
    Ends (f <$> x) s Q ↔ Ends x s fun a s' => Q (f a) s' := by
  rw [map_eq_pure_bind, ends_bind]
  simp

@[simp] theorem ends_get (s : σ) (Q : σ → σ → Prop) :
    Ends (get : Stuck σ σ) s Q ↔ Q s s := by
  simp [Ends, get, getThe, MonadStateOf.get, StateT.get, pure]

@[simp] theorem ends_modify (g : σ → σ) (s : σ) (Q : PUnit → σ → Prop) :
    Ends (modify g : Stuck σ PUnit) s Q ↔ Q ⟨⟩ (g s) := by
  simp only [Ends, modify, modifyGet, MonadStateOf.modifyGet, StateT.modifyGet, pure,
    Option.some.injEq, Prod.mk.injEq]
  exact ⟨fun ⟨_, _, ⟨_, rfl⟩, h⟩ => h, fun h => ⟨⟨⟩, _, ⟨trivial, rfl⟩, h⟩⟩

@[simp] theorem ends_ite (c : Prop) [Decidable c] (x y : Stuck σ α) (s : σ)
    (Q : α → σ → Prop) :
    Ends (if c then x else y) s Q ↔ if c then Ends x s Q else Ends y s Q := by
  split <;> rfl

theorem Ends.mono {x : Stuck σ α} {s : σ} {Q R : α → σ → Prop} (h : Ends x s Q)
    (hQR : ∀ a s', Q a s' → R a s') : Ends x s R := by
  obtain ⟨a, s', hx, hq⟩ := h
  exact ⟨a, s', hx, hQR a s' hq⟩

theorem ends_congr {x : Stuck σ α} {s : σ} {Q R : α → σ → Prop} (h : ∀ a s', Q a s' ↔ R a s') :
    Ends x s Q ↔ Ends x s R :=
  ⟨fun hx => hx.mono fun a s' => (h a s').1, fun hx => hx.mono fun a s' => (h a s').2⟩

theorem ends_eq_iff {x : Stuck σ Unit} {s s' : σ} :
    x s = some ((), s') ↔ Ends x s fun _ s₁ => s₁ = s' := by
  constructor
  · exact fun h => ⟨(), s', h, rfl⟩
  · rintro ⟨_, s₁, h, rfl⟩
    exact h

/-- Sequencing with a known specification of the first program. -/
theorem Ends.bind {x : Stuck σ α} {f : α → Stuck σ β} {s : σ} {R : α → σ → Prop}
    {Q : β → σ → Prop} (h : Ends x s R) (hf : ∀ a s', R a s' → Ends (f a) s' Q) :
    Ends (x >>= f) s Q :=
  (ends_bind x f s Q).2 (h.mono hf)

/-- The result of a program that is known to return. -/
theorem Ends.eq_of_run {x : Stuck σ α} {s : σ} {Q : α → σ → Prop} (h : Ends x s Q) {a : α} {s' : σ}
    (hx : x s = some (a, s')) : Q a s' := by
  obtain ⟨a', s'', hx', hq⟩ := h
  rw [hx] at hx'
  cases hx'
  exact hq

end Total
