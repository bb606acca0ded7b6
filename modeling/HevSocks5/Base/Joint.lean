/-
  Two programs side by side.

  Each of the two has its own world and environment.  All that they have in
  common is a relation `L` of their worlds: a call is answered only in a way
  that keeps it.  So what each of them keeps in every run of its own is kept
  here, whatever the order of their steps (`Kept.run`).
-/
import HevSocks5.Base.Prog

namespace Interact

open Prog Relation

/-- Two programs and their worlds. -/
structure Joint (A : Type → Type) (W α : Type) (B : Type → Type) (V β : Type) where
  left : Prog A α
  leftWorld : W
  right : Prog B β
  rightWorld : V

variable {A B : Type → Type} {W V α β : Type}

namespace Joint

/-- **One of the two makes a call**; the answer keeps `L`. -/
inductive Step (E : Env A W) (F : Env B V) (L : W → V → Prop) :
    Joint A W α B V β → Joint A W α B V β → Prop
  | left {δ : Type} {o : A δ} {k : δ → Prog A α} {y : Prog B β} {w w' : W} {v : V} {b : δ}
      (he : E w o b w') (hl : L w' v) : Step E F L ⟨.call o k, w, y, v⟩ ⟨k b, w', y, v⟩
  | right {δ : Type} {o : B δ} {k : δ → Prog B β} {x : Prog A α} {w : W} {v v' : V} {b : δ}
      (he : F v o b v') (hl : L w v') : Step E F L ⟨x, w, .call o k, v⟩ ⟨x, w, k b, v'⟩

/-- What is known of the two: what holds of their worlds, and what will hold at their ends. -/
structure Kept (E : Env A W) (F : Env B V) (L : W → V → Prop) (I : W → Prop) (J : V → Prop)
    (P : α → W → Prop) (Q : β → V → Prop) (n : Joint A W α B V β) : Prop where
  left : Always E I n.left n.leftWorld P
  right : Always F J n.right n.rightWorld Q
  leftWorld : I n.leftWorld
  rightWorld : J n.rightWorld
  link : L n.leftWorld n.rightWorld

variable {E : Env A W} {F : Env B V} {L : W → V → Prop} {I : W → Prop} {J : V → Prop}
  {P : α → W → Prop} {Q : β → V → Prop} {n n' : Joint A W α B V β}

theorem Kept.step (h : Kept E F L I J P Q n) (hs : Step E F L n n') : Kept E F L I J P Q n' := by
  obtain ⟨hleft, hright, hi, hj, -⟩ := h
  cases hs with
  | left he hl =>
    obtain ⟨hi', hleft'⟩ := hleft _ _ he
    exact ⟨hleft', hright, hi', hj, hl⟩
  | right he hl =>
    obtain ⟨hj', hright'⟩ := hright _ _ he
    exact ⟨hleft, hright', hi, hj', hl⟩

/-- **In every run of the two.** -/
theorem Kept.run (h : Kept E F L I J P Q n) (hr : ReflTransGen (Step E F L) n n') :
    Kept E F L I J P Q n' := by
  induction hr with
  | refl => exact h
  | tail _ hs ih => exact ih.step hs

/-- The left one has returned. -/
theorem Kept.left_ret (h : Kept E F L I J P Q n) {a : α} (hn : n.left = .ret a) :
    P a n.leftWorld := by
  have hleft := h.left
  rw [hn] at hleft
  exact hleft

/-! ## Scripted runs -/

/-- The left one makes a call that `f` answers, as far as that keeps `L`. -/
def nextLeft (f : W → {δ : Type} → A δ → Option (δ × W)) (L : W → V → Bool) :
    Joint A W α B V β → Option (Joint A W α B V β)
  | ⟨.ret _, _, _, _⟩ => none
  | ⟨.call o k, w, y, v⟩ => (f w o).bind fun r =>
    if L r.2 v then some ⟨k r.1, r.2, y, v⟩ else none

def nextRight (g : V → {δ : Type} → B δ → Option (δ × V)) (L : W → V → Bool) :
    Joint A W α B V β → Option (Joint A W α B V β)
  | ⟨_, _, .ret _, _⟩ => none
  | ⟨x, w, .call o k, v⟩ => (g v o).bind fun r =>
    if L w r.2 then some ⟨x, w, k r.1, r.2⟩ else none

/-- What a program has returned, if it has. -/
def result : Prog A α → Option α
  | .ret a => some a
  | .call _ _ => none

theorem eq_ret_of_result {x : Prog A α} {a : α} (h : result x = some a) : x = .ret a := by
  cases x with
  | ret b => rw [Option.some.inj h]
  | call o k => cases h

/-- At most `k` steps of the two. -/
def drive (f : W → {δ : Type} → A δ → Option (δ × W)) (g : V → {δ : Type} → B δ → Option (δ × V))
    (L : W → V → Bool) : Nat → Joint A W α B V β → Joint A W α B V β
  | 0, n => n
  | k + 1, n =>
    match (n.nextLeft f L).or (n.nextRight g L) with
    | none => n
    | some n' => drive f g L k n'

section
variable {f : W → {δ : Type} → A δ → Option (δ × W)} {g : V → {δ : Type} → B δ → Option (δ × V)}
  {L' : W → V → Bool}
  (hf : ∀ w {δ : Type} (o : A δ) b w', f w o = some (b, w') → E w o b w')
  (hg : ∀ v {δ : Type} (o : B δ) b v', g v o = some (b, v') → F v o b v')
  (hL : ∀ w v, L' w v = true → L w v)
include hf hg hL

theorem step_of_next (h : (n.nextLeft f L').or (n.nextRight g L') = some n') :
    Step E F L n n' := by
  obtain ⟨x, w, y, v⟩ := n
  rcases Option.or_eq_some_iff.1 h with h | ⟨-, h⟩
  · cases x with
    | ret a => cases h
    | call o k =>
      obtain ⟨⟨b, w'⟩, hb, hr⟩ := Option.bind_eq_some_iff.1 h
      split at hr
      · cases hr
        exact .left (hf w o b w' hb) (hL _ _ ‹_›)
      · cases hr
  · cases y with
    | ret b => cases h
    | call o k =>
      obtain ⟨⟨b, v'⟩, hb, hr⟩ := Option.bind_eq_some_iff.1 h
      split at hr
      · cases hr
        exact .right (hg v o b v' hb) (hL _ _ ‹_›)
      · cases hr

/-- A scripted run is a run. -/
theorem reaches_drive (k : Nat) (n : Joint A W α B V β) :
    ReflTransGen (Step E F L) n (n.drive f g L' k) := by
  induction k generalizing n with
  | zero => exact .refl
  | succ k ih =>
    rw [drive]
    split
    · exact .refl
    · rename_i n' hn'
      exact .head (step_of_next hf hg hL hn') (ih n')

end

end Joint

end Interact
