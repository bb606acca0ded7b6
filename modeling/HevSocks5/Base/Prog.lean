/-
  Programs that call an environment.

  A program of `Prog Op α` returns an `α` or calls an operation of `Op` and goes
  on with the answer.  An environment `Env Op W` says which answers a call can
  get in a state of the world, and which states it can lead to.

  `Returns E x w a w'`: some run of `x` from `w` returns `a` in `w'`;
  `Reaches E x w w'`: some run passes through `w'`, just after a call.
  `Always E J x w Q` is about every run: `J` holds after every call, and `Q` of
  what is returned (`always_iff`).  Its rules are equivalences that follow the
  program, so `simp` runs a program symbolically.
-/
import Mathlib

namespace Interact

/-- A program over the operations `Op`: an `o : Op β` is answered by a `β`. -/
inductive Prog (Op : Type → Type) (α : Type) : Type 1 where
  | ret (a : α)
  | call {β : Type} (o : Op β) (k : β → Prog Op α)

variable {Op : Type → Type} {W α β : Type}

namespace Prog

def bind : Prog Op α → (α → Prog Op β) → Prog Op β
  | ret a, f => f a
  | call o k, f => call o fun b => (k b).bind f

instance : Monad (Prog Op) where
  pure := ret
  bind := bind

theorem bind_eq (x : Prog Op α) (f : α → Prog Op β) : x >>= f = x.bind f := rfl

instance : LawfulMonad (Prog Op) := LawfulMonad.mk' _
  (fun x => by
    induction x with
    | ret a => rfl
    | call o k ih => exact congrArg (call o) (funext ih))
  (fun _ _ => rfl)
  (fun x f g => by
    induction x with
    | ret a => rfl
    | call o k ih => exact congrArg (call o) (funext ih))

/-- The program that makes one call. -/
def op (o : Op β) : Prog Op β := call o ret

end Prog

open Prog

/-- The answers a call can get, and the states it can lead to. -/
def Env (Op : Type → Type) (W : Type) := W → {β : Type} → Op β → β → W → Prop

inductive Returns (E : Env Op W) : Prog Op α → W → α → W → Prop
  | ret (a : α) (w : W) : Returns E (ret a) w a w
  | call {β : Type} {o : Op β} {k : β → Prog Op α} {w w₁ w₂ : W} {b : β} {a : α} :
      E w o b w₁ → Returns E (k b) w₁ a w₂ → Returns E (call o k) w a w₂

inductive Reaches (E : Env Op W) : Prog Op α → W → W → Prop
  | here {β : Type} {o : Op β} {k : β → Prog Op α} {w w₁ : W} {b : β} :
      E w o b w₁ → Reaches E (call o k) w w₁
  | later {β : Type} {o : Op β} {k : β → Prog Op α} {w w₁ w₂ : W} {b : β} :
      E w o b w₁ → Reaches E (k b) w₁ w₂ → Reaches E (call o k) w w₂

/-- **In every run** `J` holds after every call, and `Q` of the result and the last state. -/
def Always (E : Env Op W) (J : W → Prop) : Prog Op α → W → (α → W → Prop) → Prop
  | .ret a, w, Q => Q a w
  | .call o k, w, Q => ∀ b w', E w o b w' → J w' ∧ Always E J (k b) w' Q

/-- `Always` is about the runs. -/
theorem always_iff {E : Env Op W} {J : W → Prop} {x : Prog Op α} {w : W} {Q : α → W → Prop} :
    Always E J x w Q ↔
      (∀ w', Reaches E x w w' → J w') ∧ ∀ a w', Returns E x w a w' → Q a w' := by
  induction x generalizing w with
  | ret a =>
    constructor
    · intro h
      refine ⟨fun w' hr => (nomatch hr), fun a' w' hr => ?_⟩
      cases hr
      exact h
    · exact fun h => h.2 a w (.ret a w)
  | call o k ih =>
    simp only [Always, ih]
    constructor
    · intro h
      refine ⟨fun w' hr => ?_, fun a w' hr => ?_⟩
      · cases hr with
        | here he => exact (h _ _ he).1
        | later he hr => exact (h _ _ he).2.1 _ hr
      · cases hr with
        | call he hr => exact (h _ _ he).2.2 _ _ hr
    · intro h b w' he
      exact ⟨h.1 _ (.here he), fun w'' hr => h.1 _ (.later he hr),
        fun a w'' hr => h.2 _ _ (.call he hr)⟩

/-- The runs of an environment that answers less. -/
theorem Reaches.mono {E E' : Env Op W} {x : Prog Op α} {w w' : W} (h : Reaches E' x w w')
    (hE : ∀ {w w' : W} {β : Type} {o : Op β} {b : β}, E' w o b w' → E w o b w') :
    Reaches E x w w' := by
  induction h with
  | here he => exact .here (hE he)
  | later he _ ih => exact .later (hE he) ih

theorem Returns.mono {E E' : Env Op W} {x : Prog Op α} {a : α} {w w' : W}
    (h : Returns E' x w a w')
    (hE : ∀ {w w' : W} {β : Type} {o : Op β} {b : β}, E' w o b w' → E w o b w') :
    Returns E x w a w' := by
  induction h with
  | ret a w => exact .ret a w
  | call he _ ih => exact .call (hE he) ih

/-- A run on a larger state is one on what it is projected to. -/
theorem Returns.proj {V : Type} {E : Env Op W} {F : Env Op V} {π : V → W} {x : Prog Op α} {a : α}
    {v v' : V} (h : Returns F x v a v')
    (hF : ∀ {v v' : V} {β : Type} {o : Op β} {b : β}, F v o b v' → E (π v) o b (π v')) :
    Returns E x (π v) a (π v') := by
  induction h with
  | ret a v => exact .ret a (π v)
  | call he _ ih => exact .call (hF he) ih

section
variable {E : Env Op W} {J : W → Prop} {w : W}

@[simp] theorem always_pure (a : α) (Q : α → W → Prop) :
    Always E J (pure a : Prog Op α) w Q ↔ Q a w := Iff.rfl

@[simp] theorem always_op (o : Op β) (Q : β → W → Prop) :
    Always E J (op o) w Q ↔ ∀ b w', E w o b w' → J w' ∧ Q b w' := Iff.rfl

@[simp] theorem always_bind (x : Prog Op α) (f : α → Prog Op β) (Q : β → W → Prop) :
    Always E J (x >>= f) w Q ↔ Always E J x w fun a w' => Always E J (f a) w' Q := by
  rw [bind_eq]
  induction x generalizing w with
  | ret a => exact Iff.rfl
  | call o k ih => simp only [Prog.bind, Always, ih]

@[simp] theorem always_map (f : α → β) (x : Prog Op α) (Q : β → W → Prop) :
    Always E J (f <$> x) w Q ↔ Always E J x w fun a w' => Q (f a) w' := by
  rw [map_eq_pure_bind, always_bind]
  simp

@[simp] theorem always_ite (c : Prop) [Decidable c] (x y : Prog Op α) (Q : α → W → Prop) :
    Always E J (if c then x else y) w Q ↔ if c then Always E J x w Q else Always E J y w Q := by
  split <;> rfl

theorem Always.mono {x : Prog Op α} {Q R : α → W → Prop} (h : Always E J x w Q)
    (hQR : ∀ a w', Q a w' → R a w') : Always E J x w R := by
  rw [always_iff] at h ⊢
  exact ⟨h.1, fun a w' hr => hQR a w' (h.2 a w' hr)⟩

theorem Always.imp {K : W → Prop} {x : Prog Op α} {Q : α → W → Prop} (h : Always E J x w Q)
    (hJK : ∀ w', J w' → K w') : Always E K x w Q := by
  rw [always_iff] at h ⊢
  exact ⟨fun w' hr => hJK w' (h.1 w' hr), h.2⟩

theorem Always.bind {x : Prog Op α} {f : α → Prog Op β} {R : α → W → Prop} {Q : β → W → Prop}
    (h : Always E J x w R) (hf : ∀ a w', R a w' → Always E J (f a) w' Q) :
    Always E J (x >>= f) w Q :=
  (always_bind x f Q).2 (h.mono hf)

/-- The runs of an environment that answers less. -/
theorem Always.env {E' : Env Op W} {x : Prog Op α} {Q : α → W → Prop} (h : Always E J x w Q)
    (hE : ∀ {w w' : W} {β : Type} {o : Op β} {b : β}, E' w o b w' → E w o b w') :
    Always E' J x w Q := by
  induction x generalizing w with
  | ret a => exact h
  | call o k ih =>
    intro b w' he
    have h' := h b w' (hE he)
    exact ⟨h'.1, ih b h'.2⟩

/-- The last state of a run was passed through, when there was a call. -/
theorem Returns.eq_or_reaches {x : Prog Op α} {a : α} {w' : W} (h : Returns E x w a w') :
    w' = w ∨ Reaches E x w w' := by
  induction h with
  | ret a w => exact .inl rfl
  | call he hr ih =>
    rcases ih with rfl | h
    · exact .inr (.here he)
    · exact .inr (.later he h)

/-- What every call preserves, every program preserves. -/
theorem always_of_step {I : W → Prop}
    (hstep : ∀ {w w' : W} {β : Type} {o : Op β} {b : β}, I w → E w o b w' → J w' ∧ I w')
    (x : Prog Op α) (hw : I w) : Always E J x w fun _ w' => I w' := by
  induction x generalizing w with
  | ret a => exact hw
  | call o k ih =>
    intro b w' he
    have h := hstep hw he
    exact ⟨h.1, ih b h.2⟩

/-! ## Building runs -/

@[simp] theorem returns_pure {a a' : α} {w' : W} :
    Returns E (pure a : Prog Op α) w a' w' ↔ a' = a ∧ w' = w := by
  constructor
  · intro hr
    cases hr
    exact ⟨rfl, rfl⟩
  · rintro ⟨rfl, rfl⟩
    exact .ret _ _

@[simp] theorem returns_op {o : Op β} {b : β} {w' : W} :
    Returns E (op o) w b w' ↔ E w o b w' := by
  constructor
  · rintro (_ | ⟨he, hr⟩)
    cases hr
    exact he
  · exact fun he => .call he (.ret _ _)

@[simp] theorem returns_bind {x : Prog Op α} {f : α → Prog Op β} {b : β} {w₂ : W} :
    Returns E (x >>= f) w b w₂ ↔ ∃ a w₁, Returns E x w a w₁ ∧ Returns E (f a) w₁ b w₂ := by
  rw [bind_eq]
  induction x generalizing w with
  | ret a =>
    constructor
    · exact fun h => ⟨a, w, .ret a w, h⟩
    · rintro ⟨_, _, ⟨⟩, h⟩
      exact h
  | call o k ih =>
    constructor
    · rintro (_ | ⟨he, hr⟩)
      obtain ⟨a, w₁, h₁, h₂⟩ := ih _ |>.1 hr
      exact ⟨a, w₁, .call he h₁, h₂⟩
    · rintro ⟨a, w₁, ⟨⟩ | ⟨he, hr⟩, h₂⟩
      exact .call he ((ih _).2 ⟨a, w₁, hr, h₂⟩)

theorem Always.and {x : Prog Op α} {Q R : α → W → Prop} (hQ : Always E J x w Q)
    (hR : Always E (fun _ => True) x w R) : Always E J x w fun a w' => Q a w' ∧ R a w' := by
  rw [always_iff] at hQ hR ⊢
  exact ⟨hQ.1, fun a w' hr => ⟨hQ.2 a w' hr, hR.2 a w' hr⟩⟩

/-- The last state, too. -/
theorem Always.last {x : Prog Op α} {Q : α → W → Prop} (h : Always E J x w Q) (hw : J w) :
    Always E J x w fun a w' => J w' ∧ Q a w' := by
  induction x generalizing w with
  | ret a => exact ⟨hw, h⟩
  | call o k ih =>
    intro b w' he
    have h' := h b w' he
    exact ⟨h'.1, ih b h'.2 h'.1⟩

/-- Two things that are so in every run. -/
theorem Always.both {K : W → Prop} {x : Prog Op α} {Q R : α → W → Prop} (hQ : Always E J x w Q)
    (hR : Always E K x w R) :
    Always E (fun w' => J w' ∧ K w') x w fun a w' => Q a w' ∧ R a w' := by
  rw [always_iff] at hQ hR ⊢
  exact ⟨fun w' hr => ⟨hQ.1 w' hr, hR.1 w' hr⟩, fun a w' hr => ⟨hQ.2 a w' hr, hR.2 a w' hr⟩⟩

/-- Every run that returns meets `Q`. -/
abbrev Post (E : Env Op W) (x : Prog Op α) (w : W) (Q : α → W → Prop) : Prop :=
  Always E (fun _ => True) x w Q

theorem Always.returns {x : Prog Op α} {Q : α → W → Prop} (h : Always E J x w Q) {a : α} {w' : W}
    (hr : Returns E x w a w') : Q a w' :=
  (always_iff.1 h).2 a w' hr

end

/-! ## The calls of a program -/

/-- The program makes no other calls than those in `P`. -/
def Prog.Only (P : {β : Type} → Op β → Prop) : Prog Op α → Prop
  | .ret _ => True
  | .call o k => P o ∧ ∀ b, (k b).Only P

section
variable {P : {β : Type} → Op β → Prop}

@[simp] theorem only_pure (a : α) : (pure a : Prog Op α).Only P := trivial

@[simp] theorem only_op (o : Op β) : (op o).Only P ↔ P o :=
  and_iff_left fun _ => trivial

theorem Prog.Only.bind {x : Prog Op α} {f : α → Prog Op β} (hx : x.Only P)
    (hf : ∀ a, (f a).Only P) : (x >>= f).Only P := by
  rw [bind_eq]
  induction x with
  | ret a => exact hf a
  | call o k ih => exact ⟨hx.1, fun b => ih b (hx.2 b)⟩

theorem Prog.Only.ite {c : Prop} [Decidable c] {x y : Prog Op α} (hx : x.Only P) (hy : y.Only P) :
    (if c then x else y).Only P := by
  split
  · exact hx
  · exact hy

theorem Prog.Only.mono {x : Prog Op α} {P' : {β : Type} → Op β → Prop} (hx : x.Only P)
    (hP : ∀ {β : Type} {o : Op β}, P o → P' o) : x.Only P' := by
  induction x with
  | ret a => trivial
  | call o k ih => exact ⟨hP hx.1, fun b => ih b (hx.2 b)⟩

/-- What all calls in `P` preserve, the program preserves. -/
theorem Prog.Only.always {E : Env Op W} {I J : W → Prop} {x : Prog Op α} (hx : x.Only P)
    (hstep : ∀ {w w' : W} {β : Type} {o : Op β} {b : β}, P o → I w → E w o b w' → J w' ∧ I w')
    {w : W} (hw : I w) : Always E J x w fun _ w' => I w' := by
  induction x generalizing w with
  | ret a => exact hw
  | call o k ih =>
    intro b w' he
    have h := hstep hx.1 hw he
    exact ⟨h.1, ih b (hx.2 b) h.2⟩

/-- Another environment that answers these calls in the same way, as far as `p` shows. -/
theorem Prog.Only.always_proj {W' : Type} {E : Env Op W} {E' : Env Op W'} {J : W → Prop}
    {x : Prog Op α} (hx : x.Only P) (p : W' → W)
    (hE : ∀ {w w' : W'} {β : Type} {o : Op β} {b : β}, P o → E' w o b w' → E (p w) o b (p w'))
    {w : W'} {Q : α → W → Prop} (h : Always E J x (p w) Q) :
    Always E' (fun w' => J (p w')) x w fun a w' => Q a (p w') := by
  induction x generalizing w with
  | ret a => exact h
  | call o k ih =>
    intro b w' he
    have h' := h b (p w') (hE hx.1 he)
    exact ⟨h'.1, ih b (hx.2 b) h'.2⟩

theorem Prog.Only.always_env {E E' : Env Op W} {J : W → Prop} {x : Prog Op α} (hx : x.Only P)
    (hE : ∀ {w w' : W} {β : Type} {o : Op β} {b : β}, P o → E' w o b w' → E w o b w') {w : W}
    {Q : α → W → Prop} (h : Always E J x w Q) : Always E' J x w Q :=
  hx.always_proj id hE h

/-- What holds of a part of the world, if the part is answered as an environment of its own. -/
theorem Always.view {W' : Type} {E : Env Op W} {F : Env Op W'} {J : W → Prop} {x : Prog Op α}
    (p : W' → W)
    (hE : ∀ {w w' : W'} {β : Type} {o : Op β} {b : β}, F w o b w' → E (p w) o b (p w'))
    {w : W'} {Q : α → W → Prop} (h : Always E J x (p w) Q) :
    Always F (fun w' => J (p w')) x w fun a w' => Q a (p w') := by
  have honly : ∀ y : Prog Op α, y.Only fun _ => True := by
    intro y
    induction y with
    | ret a => trivial
    | call o k ih => exact ⟨trivial, ih⟩
  exact (honly x).always_proj p (fun _ => hE) h

end

/-! ## Recorded runs -/

/-- The environment that also records the calls, the last one first. -/
def Env.Recorded {L : Type} (E : Env Op W) (event : {β : Type} → Op β → β → List L) :
    Env Op (W × List L) := fun w _ o b w' =>
  E w.1 o b w'.1 ∧ w'.2 = event o b ++ w.2

/-! ## Scripted runs -/

/-- The run in which the calls are answered by `f`, as far as it answers. -/
def exec (f : W → {β : Type} → Op β → Option (β × W)) : Prog Op α → W → Option (α × W)
  | .ret a, w => some (a, w)
  | .call o k, w => (f w o).bind fun r => exec f (k r.1) r.2

theorem returns_of_exec {E : Env Op W} {f : W → {β : Type} → Op β → Option (β × W)}
    (hf : ∀ w {β : Type} (o : Op β) b w', f w o = some (b, w') → E w o b w') {x : Prog Op α}
    {w w' : W} {a : α} (h : exec f x w = some (a, w')) : Returns E x w a w' := by
  induction x generalizing w with
  | ret a =>
    simp only [exec, Option.some.injEq, Prod.mk.injEq] at h
    obtain ⟨rfl, rfl⟩ := h
    exact .ret _ _
  | call o k ih =>
    obtain ⟨⟨b, w₁⟩, hb, hr⟩ := Option.bind_eq_some_iff.1 h
    exact .call (hf w o b w₁ hb) (ih b hr)

/-- A scripted run that ends in `P`. -/
theorem exists_returns_of_exec {E : Env Op W} {f : W → {β : Type} → Op β → Option (β × W)}
    (hf : ∀ w {β : Type} (o : Op β) b w', f w o = some (b, w') → E w o b w') {x : Prog Op α}
    {w : W} (P : α → W → Bool) (h : (exec f x w).any (fun r => P r.1 r.2) = true) :
    ∃ a w', Returns E x w a w' ∧ P a w' = true := by
  cases hr : exec f x w with
  | none => simp [hr] at h
  | some r => exact ⟨r.1, r.2, returns_of_exec hf hr, by simpa [hr] using h⟩

end Interact
