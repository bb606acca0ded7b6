/-
  Programs whose outcome is determined.

  An environment may answer a call in several ways that a program does not
  distinguish: what it then returns, and what it leaves behind as far as `p`
  shows, follow from what `p` shows of the first state.  Such a program also
  has a run from every state.
-/
import HevSocks5.Base.Prog

namespace Interact

open Prog

variable {Op : Type → Type} {W C α β : Type} {E : Env Op W} {p : W → C}

/-- **The outcome** of `x` from `w` is `a`, and `c` as far as `p` shows. -/
structure Outcome (E : Env Op W) (p : W → C) (x : Prog Op α) (w : W) (a : α) (c : C) : Prop where
  run : ∃ w', Returns E x w a w'
  unique : Post E x w fun a' w' => a' = a ∧ p w' = c

/-- The outcome follows from what `p` shows, as long as that is in `I`. -/
def Prog.Determined (E : Env Op W) (p : W → C) (I : C → Prop) (x : Prog Op α) : Prop :=
  ∀ c, I c → ∃ a c', I c' ∧ ∀ w, p w = c → Outcome E p x w a c'

theorem Outcome.bind {x : Prog Op α} {f : α → Prog Op β} {w : W} {a : α} {b : β} {c c' : C}
    (h : Outcome E p x w a c) (hf : ∀ w, p w = c → Outcome E p (f a) w b c') :
    Outcome E p (x >>= f) w b c' where
  run := by
    obtain ⟨w₁, h₁⟩ := h.run
    obtain ⟨w₂, h₂⟩ := (hf w₁ (h.unique.returns h₁).2).run
    exact ⟨w₂, returns_bind.2 ⟨a, w₁, h₁, h₂⟩⟩
  unique := by
    refine h.unique.bind ?_
    rintro a' w₁ ⟨rfl, hp⟩
    exact (hf w₁ hp).unique

namespace Prog.Determined

variable {I : C → Prop}

theorem pure (a : α) : (Pure.pure a : Prog Op α).Determined E p I := fun c hc =>
  ⟨a, c, hc, fun w hw => ⟨⟨w, .ret a w⟩, rfl, hw⟩⟩

theorem bind {x : Prog Op α} {f : α → Prog Op β} (hx : x.Determined E p I)
    (hf : ∀ a, (f a).Determined E p I) : (x >>= f).Determined E p I := by
  intro c hc
  obtain ⟨a, c', hc', hx⟩ := hx c hc
  obtain ⟨b, c'', hc'', hf⟩ := hf a c' hc'
  exact ⟨b, c'', hc'', fun w hw => (hx w hw).bind hf⟩

theorem ite {i : Prop} [Decidable i] {x y : Prog Op α} (hx : x.Determined E p I)
    (hy : y.Determined E p I) : (if i then x else y).Determined E p I := by
  split
  · exact hx
  · exact hy

/-- A call with one answer. -/
theorem op {o : Op β} (b : C → β) (next : C → C) (hI : ∀ c, I c → I (next c))
    (hrun : ∀ w, I (p w) → ∃ w', E w o (b (p w)) w')
    (h : ∀ {w b' w'}, I (p w) → E w o b' w' → b' = b (p w) ∧ p w' = next (p w)) :
    (Prog.op o).Determined E p I := by
  intro c hc
  refine ⟨b c, next c, hI c hc, ?_⟩
  rintro w rfl
  obtain ⟨w', he⟩ := hrun w hc
  exact ⟨⟨w', returns_op.2 he⟩, fun b' w' he => ⟨trivial, h hc he⟩⟩

/-- A call with several answers that lead to the same outcome. -/
theorem call {o : Op β} {k : β → Prog Op α} (hrun : ∀ w, I (p w) → ∃ b w', E w o b w')
    (h : ∀ c, I c → ∃ a c', I c' ∧ ∀ {w b w'}, p w = c → E w o b w' → Outcome E p (k b) w' a c') :
    (Prog.op o >>= k).Determined E p I := by
  intro c hc
  obtain ⟨a, c', hc', hk⟩ := h c hc
  refine ⟨a, c', hc', ?_⟩
  rintro w rfl
  refine ⟨?_, fun b w' he => ⟨trivial, (hk rfl he).unique⟩⟩
  obtain ⟨b, w', he⟩ := hrun w hc
  obtain ⟨w'', hr⟩ := (hk rfl he).run
  exact ⟨w'', returns_bind.2 ⟨b, w', returns_op.2 he, hr⟩⟩

/-- Two runs from states that look the same. -/
theorem returns {x : Prog Op α} (h : x.Determined E p I) {w₁ w₂ w₁' w₂' : W} {a₁ a₂ : α}
    (hI : I (p w₁)) (hp : p w₁ = p w₂) (h₁ : Returns E x w₁ a₁ w₁') (h₂ : Returns E x w₂ a₂ w₂') :
    a₁ = a₂ ∧ p w₁' = p w₂' := by
  obtain ⟨a, c, -, hx⟩ := h (p w₁) hI
  obtain ⟨rfl, hc₁⟩ := (hx w₁ rfl).unique.returns h₁
  obtain ⟨rfl, hc₂⟩ := (hx w₂ hp.symm).unique.returns h₂
  exact ⟨rfl, hc₁.trans hc₂.symm⟩

theorem exists_returns {x : Prog Op α} (h : x.Determined E p I) {w : W} (hI : I (p w)) :
    ∃ a w', Returns E x w a w' := by
  obtain ⟨a, c, -, hx⟩ := h (p w) hI
  exact ⟨a, (hx w rfl).run⟩

end Prog.Determined

end Interact
