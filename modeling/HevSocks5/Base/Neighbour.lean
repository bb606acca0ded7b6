/-
  The neighbours of a node in the order of a tree.

  On the side `d` of a node lies first the subtree on that side, and behind it
  what its context has there.  So the neighbour is the nearest element of the
  subtree, or, when that is empty, the innermost node above whose subtree on
  the other side the node is in (`edge_beside`).
-/
import HevSocks5.Base.Shape

namespace Shape

open Shape.Tree

variable {α β : Type}

/-- The element at the end of a list. -/
def edge (d : Dir) (l : List α) : Option α :=
  match d with
  | .left => l.head?
  | .right => l.getLast?

/-- The elements of a context on the side `d` of the hole. -/
def beside (d : Dir) (fs : Ctx α) : List α :=
  match d with
  | .left => before fs
  | .right => after fs

namespace Tree

/-- The subtree on the side `d`. -/
def side (d : Dir) : Tree α → Tree α
  | nil => nil
  | node _ l _ r =>
    match d with
    | .left => l
    | .right => r

/-- The end of a tree is the end of the subtree, or the root when that is empty. -/
theorem edge_toList_node (d : Dir) (c : Color) (l : Tree α) (a : α) (r : Tree α) :
    edge d (node c l a r).toList = (edge d (side d (node c l a r)).toList).or (some a) := by
  cases d with
  | left => simp [edge, side]
  | right => simp [edge, side, List.getLast?_cons]

theorem toList_eq_nil {t : Tree α} : t.toList = [] ↔ t = nil := by
  cases t <;> simp

/-- All elements are replaced. -/
def map (f : α → β) : Tree α → Tree β
  | nil => nil
  | node c l a r => node c (l.map f) (f a) (r.map f)

variable (f : α → β)

@[simp] theorem toList_map (t : Tree α) : (t.map f).toList = t.toList.map f := by
  induction t with
  | nil => rfl
  | node c l a r ihl ihr => simp [map, ihl, ihr]

@[simp] theorem color_map (t : Tree α) : (t.map f).color = t.color := by
  cases t <;> rfl

theorem map_eq_self {f : α → α} {t : Tree α} (h : ∀ a ∈ t.toList, f a = a) : t.map f = t := by
  induction t with
  | nil => rfl
  | node c l a r ihl ihr =>
    rw [map, ihl fun x hx => h x (by simp [hx]), ihr fun x hx => h x (by simp [hx]), h a (by simp)]

end Tree

/-- The balance of a tree is one of its colours. -/
theorem bal_map (f : α → β) {t : Tree α} {n : Nat} : Bal (t.map f) n ↔ Bal t n := by
  induction t generalizing n with
  | nil => exact Iff.rfl
  | node c l a r ihl ihr =>
    cases c with
    | red => simp only [Tree.map, Bal, color_map, ihl, ihr]
    | black =>
      cases n with
      | zero => exact Iff.rfl
      | succ n => simp only [Tree.map, Bal, ihl, ihr]

/-- The elements of a context are replaced. -/
def mapCtx (f : α → β) (fs : Ctx α) : Ctx β :=
  fs.map fun g => ⟨g.dir, g.color, f g.val, g.sib.map f⟩

theorem map_plug (f : α → β) (fs : Ctx α) (t : Tree α) :
    (plug fs t).map f = plug (mapCtx f fs) (t.map f) := by
  induction fs generalizing t with
  | nil => rfl
  | cons g fs ih =>
    obtain ⟨d, c, a, s⟩ := g
    rw [plug_cons, ih]
    cases d <;> rfl

/-- Every element has a node and a context. -/
theorem exists_plug {t : Tree α} {a : α} (h : a ∈ t.toList) :
    ∃ fs c l r, t = plug fs (node c l a r) := by
  suffices ∀ gs : Ctx α, ∃ fs c l r, plug gs t = plug fs (node c l a r) from this []
  induction t with
  | nil => simp at h
  | node c l b r ihl ihr =>
    intro gs
    simp only [toList_node, List.mem_append, List.mem_cons] at h
    rcases h with h | rfl | h
    · exact ihl h (⟨.left, c, b, r⟩ :: gs)
    · exact ⟨gs, c, l, r, rfl⟩
    · exact ihr h (⟨.right, c, b, l⟩ :: gs)

/-! ## The neighbour above -/

/-- A node above that has the hole on its other side is the neighbour. -/
theorem edge_beside_flip (d : Dir) (c : Color) (a : α) (s : Tree α) (fs : Ctx α) :
    edge d.flip (beside d (⟨d.flip, c, a, s⟩ :: fs)) = some a := by
  cases d with
  | left => simp [edge, beside, before]
  | right => simp [edge, beside, after]

/-- A node above that has the hole on the same side is passed. -/
theorem edge_beside_same (d : Dir) (c : Color) (a : α) (s : Tree α) (fs : Ctx α) :
    edge d.flip (beside d (⟨d, c, a, s⟩ :: fs)) = edge d.flip (beside d fs) := by
  cases d with
  | left => simp [edge, beside, before]
  | right => simp [edge, beside, after]

/-- **The neighbour** of a node: in the subtree on that side, or above. -/
theorem edge_beside (d : Dir) (fs : Ctx α) (t : Tree α) :
    edge d.flip (match d with
      | .left => beside d fs ++ t.toList
      | .right => t.toList ++ beside d fs) =
      (edge d.flip t.toList).or (edge d.flip (beside d fs)) := by
  cases d with
  | left => simp [edge]
  | right => simp [edge]

end Shape
