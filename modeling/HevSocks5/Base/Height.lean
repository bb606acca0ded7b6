/-
  The height of a balanced tree.

  A tree with a black root is at most twice as high as it has black nodes on a
  path, and it has a number of nodes exponential in these.  So its height is
  logarithmic in the number of its nodes (`Bal.height_le_log2`); and a way down
  from the root, into a context and then below it, is no longer than the
  height (`length_add_height_le`).
-/
import HevSocks5.Base.Shape

namespace Shape

open Shape.Tree

variable {α : Type} {t : Tree α} {n : Nat}

/-- The number of nodes on the longest path to an empty tree. -/
def Tree.height : Tree α → Nat
  | nil => 0
  | node _ l _ r => max l.height r.height + 1

@[simp] theorem height_nil : (nil : Tree α).height = 0 := rfl

@[simp] theorem height_node (c : Color) (l : Tree α) (a : α) (r : Tree α) :
    (node c l a r).height = max l.height r.height + 1 := rfl

theorem height_lt_join (d : Dir) (c : Color) (s : Tree α) (a : α) (u : Tree α) :
    s.height < (join d c s a u).height := by
  cases d <;> simp only [join, height_node] <;> omega

/-- The way to a subtree and on below it lies within the height. -/
theorem length_add_height_le (fs : Ctx α) (t : Tree α) :
    fs.length + t.height ≤ (plug fs t).height := by
  induction fs generalizing t with
  | nil => simp
  | cons f fs ih =>
    have hjoin := height_lt_join f.dir f.color t f.val f.sib
    have hplug := ih (join f.dir f.color t f.val f.sib)
    rw [plug_cons, List.length_cons]
    omega

/-- At most every second node of a path is red. -/
theorem Bal.height_le (h : Bal t n) : t.height ≤ 2 * n + if t.color = .red then 1 else 0 := by
  induction t generalizing n with
  | nil => simp
  | node c l a r ihl ihr =>
    cases c with
    | red =>
      obtain ⟨hlc, hrc, hl, hr⟩ := h
      have hl := ihl hl
      have hr := ihr hr
      rw [hlc] at hl
      rw [hrc] at hr
      simp only [height_node, color_node, if_true, reduceCtorEq, if_false] at hl hr ⊢
      omega
    | black =>
      cases n with
      | zero => exact h.elim
      | succ n =>
        have hl := ihl h.1
        have hr := ihr h.2
        simp only [height_node, color_node, reduceCtorEq, if_false]
        split at hl <;> split at hr <;> omega

/-- The number of nodes is exponential in the number of black ones on a path. -/
theorem Bal.two_pow_le (h : Bal t n) : 2 ^ n ≤ t.toList.length + 1 := by
  induction t generalizing n with
  | nil =>
    obtain rfl : n = 0 := h
    simp
  | node c l a r ihl ihr =>
    rw [toList_node, List.length_append, List.length_cons]
    cases c with
    | red =>
      have hl := ihl h.2.2.1
      omega
    | black =>
      cases n with
      | zero => exact h.elim
      | succ n =>
        have hl := ihl h.1
        have hr := ihr h.2
        rw [Nat.pow_succ]
        omega

/-- **The height is logarithmic.** -/
theorem Bal.height_le_log2 (h : Bal t n) (hc : t.color = .black) :
    t.height ≤ 2 * (t.toList.length + 1).log2 := by
  have hheight := h.height_le
  rw [hc, if_neg (by decide)] at hheight
  have hlog : n ≤ (t.toList.length + 1).log2 := (Nat.le_log2 (by omega)).2 h.two_pow_le
  omega

end Shape
