/-
  Two programs that talk over a pair of channels.

  A call of a program is answered by the program's own environment, or it puts
  values on the channel to the other program, or it takes values from the
  channel that comes from there (`Comm`).  A channel keeps the order and loses
  nothing.  The values of a call move one by one, so they come in pieces of any
  sizes, and the steps of the two programs are interleaved in any way.

  The two programs do not disturb each other (`left_right`, `right_left`): it is
  enough to run them in one order.  If they settle in `Q` in some order
  (`Settles`), every run can be continued and ends in `Q` (`Settles.run`); and
  no run is endless (`acc_step`).
-/
import HevSocks5.Base.Threads

namespace Interact

open Prog Relation

/-- What a call has to do with the channels. -/
inductive Comm (γ β : Type) where
  /-- it is answered by the environment -/
  | own
  /-- `data` is put on the channel; then the answer is `b` -/
  | put (data : List γ) (b : β)
  /-- `n` values are taken from the channel -/
  | take (n : Nat) (answer : List γ → β)

/-- How the calls of a program are answered. -/
structure Wiring (γ : Type) (Op : Type → Type) (W : Type) where
  env : Env Op W
  comm : {β : Type} → Op β → Comm γ β

/-- A program that runs, its world, and the values that its current call has moved so far. -/
structure Party (γ : Type) (Op : Type → Type) (W α : Type) where
  prog : Prog Op α
  world : W
  moved : List γ

variable {γ : Type} {Op A B : Type → Type} {W V α β δ : Type}

/-- **A step of a party** takes `i` from the channel to it and puts `o` on the channel from it. -/
def Wiring.Move (S : Wiring γ Op W) (p : Party γ Op W α) (i o : List γ) (p' : Party γ Op W α) :
    Prop :=
  match p.prog with
  | .ret _ => False
  | .call q k =>
    match S.comm q with
    | .own => i = [] ∧ o = [] ∧ ∃ b w, S.env p.world q b w ∧ p' = ⟨k b, w, []⟩
    | .put data b =>
      if p.moved.length < data.length then
        i = [] ∧ o = (data.drop p.moved.length).take 1 ∧ p' = { p with moved := p.moved ++ o }
      else i = [] ∧ o = [] ∧ p' = ⟨k b, p.world, []⟩
    | .take n answer =>
      if p.moved.length < n then
        i.length = 1 ∧ o = [] ∧ p' = { p with moved := p.moved ++ i }
      else i = [] ∧ o = [] ∧ p' = ⟨k (answer p.moved), p.world, []⟩

/-- Two parties and what is on the channels between them. -/
structure Duplex (γ : Type) (A : Type → Type) (W α : Type) (B : Type → Type) (V β : Type) where
  left : Party γ A W α
  right : Party γ B V β
  toRight : List γ
  toLeft : List γ

namespace Duplex

def swap (n : Duplex γ A W α B V β) : Duplex γ B V β A W α := ⟨n.right, n.left, n.toLeft, n.toRight⟩

/-- The left one makes a step. -/
def Left (S : Wiring γ A W) (n n' : Duplex γ A W α B V β) : Prop :=
  ∃ i o, S.Move n.left i o n'.left ∧ n'.right = n.right ∧
    n.toLeft = i ++ n'.toLeft ∧ n'.toRight = n.toRight ++ o

/-- The right one makes a step. -/
def Right (T : Wiring γ B V) (n n' : Duplex γ A W α B V β) : Prop := n.swap.Left T n'.swap

def Step (S : Wiring γ A W) (T : Wiring γ B V) (n n' : Duplex γ A W α B V β) : Prop :=
  n.Left S n' ∨ n.Right T n'

/-- Both have returned. -/
def Finished (n : Duplex γ A W α B V β) : Prop :=
  (∃ a, n.left.prog = .ret a) ∧ ∃ b, n.right.prog = .ret b

end Duplex

open Duplex

variable {S : Wiring γ A W} {T : Wiring γ B V} {n n' n₁ n₂ n₃ : Duplex γ A W α B V β}
  {Q : Duplex γ A W α B V β → Prop}

/-! ## Commutation -/

/-- How much a party takes is known from the party. -/
theorem Wiring.Move.length_eq {S : Wiring γ Op W} {p p₁ p₂ : Party γ Op W α}
    {i₁ o₁ i₂ o₂ : List γ} (h₁ : S.Move p i₁ o₁ p₁) (h₂ : S.Move p i₂ o₂ p₂) :
    i₁.length = i₂.length := by
  obtain ⟨prog, world, moved⟩ := p
  cases prog with
  | ret a => exact h₁.elim
  | call q k =>
    simp only [Wiring.Move] at h₁ h₂
    cases hc : S.comm q with
    | own =>
      simp only [hc] at h₁ h₂
      rw [h₁.1, h₂.1]
    | put data b =>
      simp only [hc] at h₁ h₂
      split at h₁
      · rw [if_pos ‹_›] at h₂
        rw [h₁.1, h₂.1]
      · rw [if_neg ‹_›] at h₂
        rw [h₁.1, h₂.1]
    | take n answer =>
      simp only [hc] at h₁ h₂
      split at h₁
      · rw [if_pos ‹_›] at h₂
        rw [h₁.1, h₂.1]
      · rw [if_neg ‹_›] at h₂
        rw [h₁.1, h₂.1]

/-- A step of each: either one may come first. -/
theorem left_right (h₁ : n.Left S n₁) (h₂ : n.Right T n₂) :
    ∃ n₃, n₁.Right T n₃ ∧ n₂.Left S n₃ := by
  obtain ⟨i₁, o₁, hm₁, hr₁, hi₁, ho₁⟩ := h₁
  obtain ⟨i₂, o₂, hm₂, hl₂, hi₂, ho₂⟩ := h₂
  simp only [swap] at hm₂ hl₂ hi₂ ho₂
  refine ⟨⟨n₁.left, n₂.right, n₂.toRight ++ o₁, n₁.toLeft ++ o₂⟩, ⟨i₂, o₂, ?_, rfl, ?_, rfl⟩,
    ⟨i₁, o₁, ?_, rfl, ?_, rfl⟩⟩
  · simpa only [swap, hr₁] using hm₂
  · simp only [swap]
    rw [ho₁, hi₂, List.append_assoc]
  · rw [hl₂]
    exact hm₁
  · rw [ho₂, hi₁, List.append_assoc]

/-- What the left one can do after a step of the right one it can also do before. -/
theorem right_left (h₁ : n.Left S n₁) (h₂ : n.Right T n₂) (h₃ : n₂.Left S n₃) :
    ∃ m, n.Left S m ∧ m.Right T n₃ := by
  obtain ⟨i₁, o₁, hm₁, hr₁, hi₁, ho₁⟩ := h₁
  obtain ⟨i₂, o₂, hm₂, hl₂, hi₂, ho₂⟩ := h₂
  obtain ⟨i₃, o₃, hm₃, hr₃, hi₃, ho₃⟩ := h₃
  simp only [swap] at hm₂ hl₂ hi₂ ho₂
  rw [hl₂] at hm₃
  rw [ho₂, hi₁, List.append_assoc] at hi₃
  obtain ⟨rfl, hrest⟩ := List.append_inj hi₃ (hm₁.length_eq hm₃)
  refine ⟨⟨n₃.left, n.right, n.toRight ++ o₃, n₁.toLeft⟩, ⟨i₁, o₃, hm₃, rfl, hi₁, rfl⟩,
    ⟨i₂, o₂, ?_, rfl, ?_, hrest.symm⟩⟩
  · simpa only [swap, hr₃] using hm₂
  · simp only [swap]
    rw [hi₂, ho₃, List.append_assoc]

/-! ## Settling -/

/-- **In some order** of the two, the run ends in `Q`, whatever their environments answer. -/
inductive Settles (S : Wiring γ A W) (T : Wiring γ B V) (Q : Duplex γ A W α B V β → Prop) :
    Duplex γ A W α B V β → Prop
  | done {n : Duplex γ A W α B V β} (hn : n.Finished) (hQ : Q n) : Settles S T Q n
  | left {n : Duplex γ A W α B V β} (h : ∃ n', n.Left S n')
      (hs : ∀ n', n.Left S n' → Settles S T Q n') : Settles S T Q n
  | right {n : Duplex γ A W α B V β} (h : ∃ n', n.Right T n')
      (hs : ∀ n', n.Right T n' → Settles S T Q n') : Settles S T Q n

theorem Duplex.Finished.not_left (h : n.Finished) : ¬ n.Left S n' := by
  obtain ⟨⟨a, ha⟩, -⟩ := h
  rintro ⟨i, o, hm, -⟩
  simp only [Wiring.Move, ha] at hm

theorem Duplex.Finished.swap (h : n.Finished) : n.swap.Finished := ⟨h.2, h.1⟩

theorem Duplex.Finished.not_right (h : n.Finished) : ¬ n.Right T n' := h.swap.not_left

theorem Settles.swap (h : Settles S T Q n) : Settles T S (fun m => Q m.swap) n.swap := by
  induction h with
  | done hn hQ => exact .done hn.swap hQ
  | left h hs ih =>
    obtain ⟨n', hn'⟩ := h
    exact .right ⟨n'.swap, hn'⟩ fun m hm => ih m.swap hm
  | right h hs ih =>
    obtain ⟨n', hn'⟩ := h
    exact .left ⟨n'.swap, hn'⟩ fun m hm => ih m.swap hm

/-- Whoever makes the next step. -/
theorem Settles.step (h : Settles S T Q n) (hs : n.Step S T n') : Settles S T Q n' := by
  induction h generalizing n' with
  | done hn hQ =>
    rcases hs with hs | hs
    · exact absurd hs hn.not_left
    · exact absurd hs hn.not_right
  | left h hall ih =>
    rcases hs with hs | hs
    · exact hall n' hs
    · obtain ⟨n₁, h₁⟩ := h
      obtain ⟨n₃, -, h₃⟩ := left_right h₁ hs
      refine .left ⟨n₃, h₃⟩ ?_
      intro m hm
      obtain ⟨m', hm', hr⟩ := right_left h₁ hs hm
      exact ih m' hm' (.inr hr)
  | @right n h hall ih =>
    rcases hs with hs | hs
    · obtain ⟨n₁, h₁⟩ := h
      obtain ⟨n₃, h₃, -⟩ := left_right hs h₁
      refine .right ⟨n₃, h₃⟩ ?_
      intro m hm
      -- the two parties have changed their places
      have hs' : n.swap.Right S n'.swap := hs
      have hm' : n'.swap.Left T m.swap := hm
      obtain ⟨m', hm', hl⟩ := right_left h₁ hs' hm'
      exact ih m'.swap hm' (.inl hl)
    · exact hall n' hs

/-- **Every run** from a state that settles can be continued, or it has ended in `Q`. -/
theorem Settles.run (h : Settles S T Q n) (hr : ReflTransGen (Step S T) n n') :
    (∃ m, n'.Step S T m) ∨ n'.Finished ∧ Q n' := by
  have hn' : Settles S T Q n' := by
    induction hr with
    | refl => exact h
    | tail _ hs ih => exact ih.step hs
  cases hn' with
  | done hn hQ => exact .inr ⟨hn, hQ⟩
  | left h _ => exact .inl (h.imp fun _ => .inl)
  | right h _ => exact .inl (h.imp fun _ => .inr)

/-! ## Termination -/

/-- A party cannot go on for ever. -/
theorem acc_move (S : Wiring γ Op W) (p : Party γ Op W α) :
    Acc (fun p' p => ∃ i o, S.Move p i o p') p := by
  obtain ⟨prog, world, moved⟩ := p
  induction prog generalizing world moved with
  | ret a =>
    refine ⟨_, ?_⟩
    rintro p' ⟨i, o, hm⟩
    exact hm.elim
  | call q k ih =>
    cases hc : S.comm q with
    | own =>
      refine ⟨_, ?_⟩
      rintro p' ⟨i, o, hm⟩
      simp only [Wiring.Move, hc] at hm
      obtain ⟨-, -, b, w, -, rfl⟩ := hm
      exact ih b w []
    | put data b =>
      induction hd : data.length - moved.length using Nat.strong_induction_on generalizing moved
      rename_i d ihd
      refine ⟨_, ?_⟩
      rintro p' ⟨i, o, hm⟩
      simp only [Wiring.Move, hc] at hm
      split at hm
      · obtain ⟨-, rfl, rfl⟩ := hm
        refine ihd _ ?_ _ rfl
        rw [List.length_append, List.length_take, List.length_drop]
        omega
      · obtain ⟨-, -, rfl⟩ := hm
        exact ih b world []
    | take n answer =>
      induction hd : n - moved.length using Nat.strong_induction_on generalizing moved
      rename_i d ihd
      refine ⟨_, ?_⟩
      rintro p' ⟨i, o, hm⟩
      simp only [Wiring.Move, hc] at hm
      split at hm
      · obtain ⟨hi, -, rfl⟩ := hm
        refine ihd _ ?_ _ rfl
        rw [List.length_append]
        omega
      · obtain ⟨-, -, rfl⟩ := hm
        exact ih _ world []

/-- **No run is endless.** -/
theorem acc_step (S : Wiring γ A W) (T : Wiring γ B V) (n : Duplex γ A W α B V β) :
    Acc (fun n' n => n.Step S T n') n := by
  have hacc := (acc_move S n.left).prod_gameAdd (acc_move T n.right)
  refine Subrelation.accessible ?_ (InvImage.accessible (fun n => (n.left, n.right)) hacc)
  rintro n' n (⟨i, o, hm, hr, -⟩ | ⟨i, o, hm, hr, -⟩)
  · show Prod.GameAdd _ _ (n'.left, n'.right) (n.left, n.right)
    rw [hr]
    exact .fst ⟨i, o, hm⟩
  · have hl : n'.left = n.left := hr
    show Prod.GameAdd _ _ (n'.left, n'.right) (n.left, n.right)
    rw [hl]
    exact .snd ⟨i, o, hm⟩

/-! ## Running one of the two -/

/-- The world of a party, what is on the channel to it, and what is on the channel from it. -/
structure Fed (W γ : Type) where
  world : W
  input : List γ
  output : List γ

namespace Wiring

/-- A party that runs while the other one rests. -/
def fed (S : Wiring γ Op W) : Env Op (Fed W γ) := fun f _ o b f' =>
  match S.comm o with
  | .own => ∃ w, S.env f.world o b w ∧ f' = { f with world := w }
  | .put data c => b = c ∧ f' = { f with output := f.output ++ data }
  | .take n answer =>
    n ≤ f.input.length ∧ b = answer (f.input.take n) ∧ f' = { f with input := f.input.drop n }

/-- The call is answered, and there is all that it is to take. -/
def Can (S : Wiring γ Op W) : Assert Op (Fed W γ) := fun f _ o =>
  match S.comm o with
  | .own => ∃ b w, S.env f.world o b w
  | .put .. => True
  | .take n _ => n ≤ f.input.length

variable {S : Wiring γ Op W} {q : Op β} {k : β → Prog Op α} {w : W} {input output : List γ}
  {R : α → Fed W γ → Prop}

theorem meets_own (hc : S.comm q = .own) (hcan : S.Can ⟨w, input, output⟩ q)
    (hk : ∀ b w', S.env w q b w' → Meets S.fed S.Can (k b) ⟨w', input, output⟩ R) :
    Meets S.fed S.Can (op q >>= k) ⟨w, input, output⟩ R := by
  refine ⟨hcan, ?_⟩
  intro b f hf
  simp only [fed, hc] at hf
  obtain ⟨w', he, rfl⟩ := hf
  exact hk b w' he

theorem meets_put {data : List γ} {b : β} (hc : S.comm q = .put data b)
    (hk : Meets S.fed S.Can (k b) ⟨w, input, output ++ data⟩ R) :
    Meets S.fed S.Can (op q >>= k) ⟨w, input, output⟩ R := by
  refine ⟨by simp only [Can, hc], ?_⟩
  intro b' f hf
  simp only [fed, hc] at hf
  obtain ⟨rfl, rfl⟩ := hf
  exact hk

theorem meets_take {n : Nat} {data : List γ} {answer : List γ → β}
    (hc : S.comm q = .take n answer) (hn : data.length = n)
    (hk : Meets S.fed S.Can (k (answer data)) ⟨w, input, output⟩ R) :
    Meets S.fed S.Can (op q >>= k) ⟨w, data ++ input, output⟩ R := by
  refine ⟨by simp [Can, hc, hn], ?_⟩
  intro b f hf
  simp only [fed, hc, List.take_left' hn, List.drop_left' hn] at hf
  obtain ⟨-, rfl, rfl⟩ := hf
  exact hk

end Wiring

section
variable {q : A δ} {k : δ → Prog A α} {w : W} {r : Party γ B V β} {toRight toLeft moved : List γ}

/-- The steps of the left one. -/
theorem left_iff {p : Party γ A W α} : Left S ⟨p, r, toRight, toLeft⟩ n' ↔
    ∃ i o p' rest, S.Move p i o p' ∧ toLeft = i ++ rest ∧ n' = ⟨p', r, toRight ++ o, rest⟩ := by
  constructor
  · obtain ⟨p', r', toRight', rest⟩ := n'
    rintro ⟨i, o, hm, hr, hi, ho⟩
    obtain rfl : r' = r := hr
    obtain rfl : toRight' = toRight ++ o := ho
    exact ⟨i, o, p', rest, hm, hi, rfl⟩
  · rintro ⟨i, o, p', rest, hm, hi, rfl⟩
    exact ⟨i, o, hm, rfl, hi, rfl⟩

/-- The left one makes the next step. -/
theorem Settles.left_move {p p₁ : Party γ A W α} {i o : List γ} (h : S.Move p i o p₁)
    (hs : ∀ o' p', S.Move p i o' p' → Settles S T Q ⟨p', r, toRight ++ o', toLeft⟩) :
    Settles S T Q ⟨p, r, toRight, i ++ toLeft⟩ := by
  refine .left ⟨_, left_iff.2 ⟨i, o, p₁, toLeft, h, rfl, rfl⟩⟩ ?_
  intro n' hn'
  obtain ⟨i', o', p', rest, hm, hi, rfl⟩ := left_iff.1 hn'
  obtain ⟨rfl, rfl⟩ := List.append_inj hi (h.length_eq hm)
  exact hs o' p' hm

theorem Settles.own (hc : S.comm q = .own) (hcan : ∃ b w', S.env w q b w')
    (hk : ∀ b w', S.env w q b w' → Settles S T Q ⟨⟨k b, w', []⟩, r, toRight, toLeft⟩) :
    Settles S T Q ⟨⟨.call q k, w, []⟩, r, toRight, toLeft⟩ := by
  obtain ⟨b, w', he⟩ := hcan
  have hmove : S.Move ⟨.call q k, w, []⟩ [] [] ⟨k b, w', []⟩ := by
    simp only [Wiring.Move, hc]
    exact ⟨trivial, trivial, b, w', he, rfl⟩
  refine .left_move hmove ?_
  intro o' p' hm
  simp only [Wiring.Move, hc] at hm
  obtain ⟨-, rfl, b, w', he, rfl⟩ := hm
  rw [List.append_nil]
  exact hk b w' he

theorem Settles.put {data rest : List γ} {b : δ} (hc : S.comm q = .put data b)
    (hdata : data = moved ++ rest)
    (hk : Settles S T Q ⟨⟨k b, w, []⟩, r, toRight ++ rest, toLeft⟩) :
    Settles S T Q ⟨⟨.call q k, w, moved⟩, r, toRight, toLeft⟩ := by
  induction rest generalizing moved toRight with
  | nil =>
    have hlen : ¬ moved.length < data.length := by simp [hdata]
    have hmove : S.Move ⟨.call q k, w, moved⟩ [] [] ⟨k b, w, []⟩ := by
      simp only [Wiring.Move, hc, if_neg hlen]
      trivial
    refine .left_move hmove ?_
    intro o' p' hm
    simp only [Wiring.Move, hc, if_neg hlen] at hm
    obtain ⟨-, rfl, rfl⟩ := hm
    exact hk
  | cons x rest ih =>
    have hlen : moved.length < data.length := by simp [hdata]
    have hnext : (data.drop moved.length).take 1 = [x] := by simp [hdata]
    have hmove : S.Move ⟨.call q k, w, moved⟩ [] [x] ⟨.call q k, w, moved ++ [x]⟩ := by
      simp only [Wiring.Move, hc, if_pos hlen, hnext]
      trivial
    refine .left_move hmove ?_
    intro o' p' hm
    simp only [Wiring.Move, hc, if_pos hlen, hnext] at hm
    obtain ⟨-, rfl, rfl⟩ := hm
    refine ih (by simpa using hdata) ?_
    rw [List.append_assoc]
    exact hk

theorem Settles.take {m : Nat} {rest : List γ} {answer : List γ → δ}
    (hc : S.comm q = .take m answer) (hm : moved.length + rest.length = m)
    (hk : Settles S T Q ⟨⟨k (answer (moved ++ rest)), w, []⟩, r, toRight, toLeft⟩) :
    Settles S T Q ⟨⟨.call q k, w, moved⟩, r, toRight, rest ++ toLeft⟩ := by
  induction rest generalizing moved with
  | nil =>
    have hlen : ¬ moved.length < m := by simp [← hm]
    have hmove : S.Move ⟨.call q k, w, moved⟩ [] [] ⟨k (answer moved), w, []⟩ := by
      simp only [Wiring.Move, hc, if_neg hlen]
      trivial
    refine .left_move hmove ?_
    intro o' p' hm
    simp only [Wiring.Move, hc, if_neg hlen] at hm
    obtain ⟨-, rfl, rfl⟩ := hm
    simpa using hk
  | cons x rest ih =>
    have hlen : moved.length < m := by simp [← hm]
    show Settles S T Q ⟨_, r, toRight, [x] ++ (rest ++ toLeft)⟩
    have hmove : S.Move ⟨.call q k, w, moved⟩ [x] [] ⟨.call q k, w, moved ++ [x]⟩ := by
      simp only [Wiring.Move, hc, if_pos hlen]
      trivial
    refine .left_move hmove ?_
    intro o' p' hm'
    simp only [Wiring.Move, hc, if_pos hlen] at hm'
    obtain ⟨-, rfl, rfl⟩ := hm'
    rw [List.append_nil]
    refine ih ?_ ?_
    · rw [← hm, List.length_append, List.length_singleton, List.length_cons]
      omega
    · simpa using hk

/-- **The left one runs** for a while. -/
theorem Settles.left_bind {x : Prog A δ} {f : δ → Prog A α} {R : δ → Fed W γ → Prop}
    (h : Meets S.fed S.Can x ⟨w, toLeft, toRight⟩ R)
    (hf : ∀ a w', R a w' → Settles S T Q ⟨⟨f a, w'.world, []⟩, r, w'.output, w'.input⟩) :
    Settles S T Q ⟨⟨x >>= f, w, []⟩, r, toRight, toLeft⟩ := by
  induction x generalizing w toRight toLeft with
  | ret a => exact hf a _ h
  | call o k ih =>
    obtain ⟨hcan, hk⟩ := h
    cases hc : S.comm o with
    | own =>
      simp only [Wiring.Can, hc] at hcan
      refine .own hc hcan fun b w' he => ih b (hk b ⟨w', toLeft, toRight⟩ ?_)
      simp only [Wiring.fed, hc]
      exact ⟨w', he, rfl⟩
    | put data b =>
      refine .put hc rfl (ih b (hk b ⟨w, toLeft, toRight ++ data⟩ ?_))
      simp only [Wiring.fed, hc]
      trivial
    | take m answer =>
      simp only [Wiring.Can, hc] at hcan
      have hlen : (toLeft.take m).length = m := by simp [hcan]
      rw [← List.take_append_drop m toLeft]
      refine .take hc (by simpa using hcan) (ih _ (hk _ ⟨w, toLeft.drop m, toRight⟩ ?_))
      simp only [Wiring.fed, hc]
      exact ⟨hcan, rfl, trivial⟩

/-- **The right one runs** for a while. -/
theorem Settles.right_bind {v : V} {l : Party γ A W α} {x : Prog B δ} {f : δ → Prog B β}
    {R : δ → Fed V γ → Prop} (h : Meets T.fed T.Can x ⟨v, toRight, toLeft⟩ R)
    (hf : ∀ a v', R a v' → Settles S T Q ⟨l, ⟨f a, v'.world, []⟩, v'.input, v'.output⟩) :
    Settles S T Q ⟨l, ⟨x >>= f, v, []⟩, toRight, toLeft⟩ := by
  have hl : Settles T S (fun m => Q m.swap) ⟨⟨x >>= f, v, []⟩, l, toLeft, toRight⟩ :=
    .left_bind h fun a v' ha => (hf a v' ha).swap
  exact hl.swap

end

end Interact
