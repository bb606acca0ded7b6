/-
  Programs over operations of two kinds.

  A program of the first kind is also a program of both (`Prog.inl`), and what
  is known of its runs is known of them there (`always_inl`, `meets_inl`).

  A call of the first kind may itself be a program of the second: it is linked
  with the program that makes it (`Prog.link`), and what is known of the runs of
  either is known of the whole (`Always.link`).
-/
import HevSocks5.Base.Threads

namespace Interact

open Prog

/-- Operations of two kinds. -/
def Both (A B : Type → Type) (β : Type) : Type := A β ⊕ B β

variable {A B : Type → Type} {W α β : Type}

/-- A program of operations of the first kind. -/
def Prog.inl : Prog A α → Prog (Both A B) α
  | .ret a => .ret a
  | .call o k => .call (.inl o) fun b => (k b).inl

instance : MonadLift (Prog A) (Prog (Both A B)) := ⟨Prog.inl⟩

@[simp] theorem monadLift_eq (x : Prog A α) : (liftM x : Prog (Both A B) α) = x.inl := rfl

@[simp] theorem inl_op (o : A β) : (op o : Prog A β).inl = (op (.inl o) : Prog (Both A B) β) := rfl

theorem inl_pure (a : α) : (pure a : Prog A α).inl = (pure a : Prog (Both A B) α) := rfl

theorem inl_bind (x : Prog A α) (f : α → Prog A β) :
    (x >>= f).inl = (x.inl >>= fun a => (f a).inl : Prog (Both A B) β) := by
  rw [bind_eq, bind_eq]
  induction x with
  | ret a => rfl
  | call o k ih => simp only [Prog.bind, Prog.inl, ih]

theorem inl_ite (c : Prop) [Decidable c] (x y : Prog A α) :
    (if c then x else y).inl = if c then (x.inl : Prog (Both A B) α) else y.inl := by
  split <;> rfl

/-- A program of operations of the second kind. -/
def Prog.inr : Prog B α → Prog (Both A B) α
  | .ret a => .ret a
  | .call o k => .call (.inr o) fun b => (k b).inr

theorem inr_bind (x : Prog B α) (f : α → Prog B β) :
    (x >>= f).inr = (x.inr >>= fun a => (f a).inr : Prog (Both A B) β) := by
  rw [bind_eq, bind_eq]
  induction x with
  | ret a => rfl
  | call o k ih => simp only [Prog.bind, Prog.inr, ih]

/-- The calls for which `f` has a program are replaced by it. -/
def Prog.link (f : {β : Type} → A β → Option (Prog B β)) : Prog A α → Prog (Both A B) α
  | .ret a => .ret a
  | .call o k =>
    match f o with
    | none => .call (.inl o) fun b => (k b).link f
    | some y => y.inr >>= fun b => (k b).link f

theorem link_bind (f : {β : Type} → A β → Option (Prog B β)) (x : Prog A α) (g : α → Prog A β) :
    (x >>= g).link f = x.link f >>= fun a => (g a).link f := by
  induction x with
  | ret a => rfl
  | call o k ih =>
    simp only [bind_eq] at ih ⊢
    simp only [Prog.bind, Prog.link]
    cases f o with
    | none => simp only [Prog.bind, ih]
    | some y =>
      simp only [ih]
      exact (bind_assoc y.inr (fun b => (k b).link f) fun a => (g a).link f).symm

/-- A program without such calls stays as it is. -/
theorem link_of_only {f : {β : Type} → A β → Option (Prog B β)} {x : Prog A α}
    (hx : x.Only fun o => f o = none) : x.link f = x.inl := by
  induction x with
  | ret a => rfl
  | call o k ih =>
    rw [Prog.link, hx.1, Prog.inl]
    simp only [ih _ (hx.2 _)]

theorem only_inl {P : {β : Type} → Both A B β → Prop} (x : Prog A α) :
    (x.inl : Prog (Both A B) α).Only P ↔ x.Only fun o => P (.inl o) := by
  induction x with
  | ret a => exact Iff.rfl
  | call o k ih => exact and_congr_right fun _ => forall_congr' ih

/-- The environment of the operations of the first kind. -/
def Env.inl (E : Env (Both A B) W) : Env A W := fun w _ o b w' => E w (.inl o) b w'

section
variable {E : Env (Both A B) W} {J : W → Prop} {w : W}

@[simp] theorem always_inl (x : Prog A α) (Q : α → W → Prop) :
    Always E J (x.inl : Prog (Both A B) α) w Q ↔ Always E.inl J x w Q := by
  induction x generalizing w with
  | ret a => exact Iff.rfl
  | call o k ih => simp only [Prog.inl, Always, Env.inl, ih]

/-- The environment of the operations of the second kind. -/
def Env.inr (E : Env (Both A B) W) : Env B W := fun w _ o b w' => E w (.inr o) b w'

theorem always_inr (x : Prog B α) (Q : α → W → Prop) :
    Always E J (x.inr : Prog (Both A B) α) w Q ↔ Always E.inr J x w Q := by
  induction x generalizing w with
  | ret a => exact Iff.rfl
  | call o k ih => simp only [Prog.inr, Always, Env.inr, ih]

/-- **Linking keeps what is shown**: when the programs that replace calls answer as these calls
    may, what is true of the runs of a program is true of those of the linked one. -/
theorem Always.link {V : Type} {E : Env A W} {F : Env (Both A B) V}
    {f : {β : Type} → A β → Option (Prog B β)} {J : W → Prop} (I : V → Prop) (p : V → W)
    (hcall : ∀ {v v' : V} {β : Type} {o : A β} {b : β}, I v → f o = none → F v (.inl o) b v' →
      I v' ∧ E (p v) o b (p v'))
    (hprog : ∀ {v : V} {β : Type} {o : A β} {y : Prog B β}, I v → f o = some y →
      (∀ b w', E (p v) o b w' → J w') →
        Always F.inr (fun v' => J (p v')) y v fun b v' => I v' ∧ E (p v) o b (p v'))
    {x : Prog A α} {v : V} {Q : α → W → Prop} (h : Always E J x (p v) Q) (hv : I v) :
    Always F (fun v' => J (p v')) (x.link f) v fun a v' => Q a (p v') := by
  induction x generalizing v with
  | ret a => exact h
  | call o k ih =>
    cases ho : f o with
    | none =>
      simp only [Prog.link, ho]
      intro b v' he
      obtain ⟨hv', he'⟩ := hcall hv ho he
      obtain ⟨hJ, hk⟩ := h b (p v') he'
      exact ⟨hJ, ih b hk hv'⟩
    | some y =>
      simp only [Prog.link, ho]
      have hy := hprog hv ho fun b w' he => (h b w' he).1
      refine ((always_inr ..).2 hy).bind ?_
      rintro b v' ⟨hv', he⟩
      exact ih b (h b (p v') he).2 hv'

/-- What is true when a call of the first kind is made. -/
def Assert.inl (P : Assert (Both A B) W) : Assert A W := fun w _ o => P w (.inl o)

@[simp] theorem meets_inl {P : Assert (Both A B) W} (x : Prog A α) (Q : α → W → Prop) :
    Meets E P (x.inl : Prog (Both A B) α) w Q ↔ Meets E.inl P.inl x w Q := by
  induction x generalizing w with
  | ret a => exact Iff.rfl
  | call o k ih => simp only [Prog.inl, Meets, Env.inl, Assert.inl, ih]

end

end Interact
