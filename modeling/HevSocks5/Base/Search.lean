/-
  Search in a tree that is ordered by a comparison in the manner of C.

  `descend` goes down to the place of a key: to the left of a node that
  compares negative with the key, to the right of one that compares positive.
  So the keys of an ordered tree descend from left to right.
-/
import HevSocks5.Base.RedBlack

namespace Shape

open Shape.Tree

variable {α κ : Type}

/-- A three-way comparison of a total order. -/
structure Comparison (cmp : κ → κ → Int) : Prop where
  eq_zero : ∀ a b, cmp a b = 0 ↔ a = b
  pos_iff : ∀ a b, 0 < cmp a b ↔ cmp b a < 0
  trans : ∀ {a b c}, cmp a b < 0 → cmp b c < 0 → cmp a c < 0

variable (cmp : κ → κ → Int) (key : α → κ)

def Descending (l : List α) : Prop := l.Pairwise fun x y => cmp (key y) (key x) < 0

/-- The way down to the place of the key `k`. -/
def descend (k : κ) : Ctx α → Tree α → Ctx α × Tree α
  | fs, nil => (fs, nil)
  | fs, node c l a r =>
    if cmp (key a) k < 0 then descend k (⟨.left, c, a, r⟩ :: fs) l
    else if 0 < cmp (key a) k then descend k (⟨.right, c, a, l⟩ :: fs) r
    else (fs, node c l a r)

/-- The place of `k` lies between the elements before and after the hole. -/
def Around (k : κ) (fs : Ctx α) : Prop :=
  (∀ x ∈ before fs, cmp k (key x) < 0) ∧ ∀ x ∈ after fs, cmp (key x) k < 0

variable {cmp key}

theorem plug_descend (k : κ) (fs : Ctx α) (t : Tree α) :
    plug (descend cmp key k fs t).1 (descend cmp key k fs t).2 = plug fs t := by
  induction fs, t using descend.induct cmp key k with
  | case1 fs => rfl
  | case2 fs c l a r h ih => rw [descend, if_pos h, ih, plug_cons, join]
  | case3 fs c l a r h h' ih => rw [descend, if_neg h, if_pos h', ih, plug_cons, join]
  | case4 fs c l a r h h' => rw [descend, if_neg h, if_neg h']

theorem Descending.split {l₁ l₂ : List α} {a : α} (h : Descending cmp key (l₁ ++ a :: l₂)) :
    (∀ x ∈ l₁, cmp (key a) (key x) < 0) ∧ ∀ x ∈ l₂, cmp (key x) (key a) < 0 := by
  obtain ⟨-, h₂, h₁⟩ := List.pairwise_append.1 h
  exact ⟨fun x hx => h₁ x hx a (by simp), (List.pairwise_cons.1 h₂).1⟩

/-- **The search ends at the key, or at the place where it belongs.** -/
theorem descend_spec (hc : Comparison cmp) {k : κ} {fs : Ctx α} {t : Tree α}
    (hd : Descending cmp key (plug fs t).toList) (ha : Around cmp key k fs) :
    ((descend cmp key k fs t).2 = nil ∧ Around cmp key k (descend cmp key k fs t).1) ∨
      ∃ c l a r, (descend cmp key k fs t).2 = node c l a r ∧ key a = k := by
  induction fs, t using descend.induct cmp key k with
  | case1 fs => exact Or.inl ⟨rfl, ha⟩
  | case2 fs c l a r h ih =>
    rw [descend, if_pos h]
    refine ih hd ⟨?_, ?_⟩
    · simpa [before] using ha.1
    · have hs : Descending cmp key ((before fs ++ l.toList) ++ a :: (r.toList ++ after fs)) := by
        rw [toList_plug] at hd
        simpa using hd
      intro x hx
      simp only [after, List.cons_append, List.mem_cons, List.mem_append] at hx
      rcases hx with rfl | hx | hx
      · exact h
      · exact hc.trans (hs.split.2 x (by simp [hx])) h
      · exact ha.2 x hx
  | case3 fs c l a r h h' ih =>
    rw [descend, if_neg h, if_pos h']
    have h'' := (hc.pos_iff _ _).1 h'
    refine ih hd ⟨?_, ?_⟩
    · have hs : Descending cmp key ((before fs ++ l.toList) ++ a :: (r.toList ++ after fs)) := by
        rw [toList_plug] at hd
        simpa using hd
      intro x hx
      simp only [before, List.mem_append, List.mem_singleton] at hx
      rcases hx with hx | hx | rfl
      · exact ha.1 x hx
      · exact hc.trans h'' (hs.split.1 x (by simp [hx]))
      · exact h''
    · simpa [after] using ha.2
  | case4 fs c l a r h h' =>
    rw [descend, if_neg h, if_neg h']
    exact Or.inr ⟨c, l, a, r, rfl, (hc.eq_zero _ _).1 (by omega)⟩

theorem Comparison.irrefl (hc : Comparison cmp) (k : κ) : ¬ cmp k k < 0 := by
  rw [(hc.eq_zero k k).2 rfl]
  decide

theorem Around.not_mem (hc : Comparison cmp) {k : κ} {fs : Ctx α} (h : Around cmp key k fs) :
    ∀ x ∈ before fs ++ after fs, key x ≠ k := by
  rintro x hx rfl
  rcases List.mem_append.1 hx with hx | hx
  · exact hc.irrefl _ (h.1 x hx)
  · exact hc.irrefl _ (h.2 x hx)

/-- An element put in the place of its key keeps the order. -/
theorem Around.descending {a : α} {fs : Ctx α} (h : Around cmp key (key a) fs)
    (hd : Descending cmp key (before fs ++ after fs)) :
    Descending cmp key (before fs ++ [a] ++ after fs) := by
  obtain ⟨h1, h2, h3⟩ := List.pairwise_append.1 hd
  refine List.pairwise_append.2 ⟨List.pairwise_append.2 ⟨h1, by simp, ?_⟩, h2, ?_⟩
  · intro x hx y hy
    rw [List.mem_singleton.1 hy]
    exact h.1 x hx
  · intro x hx y hy
    rcases List.mem_append.1 hx with hx | hx
    · exact h3 x hx y hy
    · rw [List.mem_singleton.1 hx]
      exact h.2 y hy

/-- In an ordered tree a key has one element. -/
theorem Descending.unique (hc : Comparison cmp) {l : List α} (h : Descending cmp key l) {x y : α}
    (hx : x ∈ l) (hy : y ∈ l) (hk : key x = key y) : x = y := by
  obtain ⟨l₁, l₂, rfl⟩ := List.append_of_mem hx
  obtain ⟨h1, h2⟩ := h.split
  rw [List.mem_append, List.mem_cons] at hy
  rcases hy with hy | rfl | hy
  · exact absurd (hk ▸ h1 y hy) (hc.irrefl _)
  · rfl
  · exact absurd (hk ▸ h2 y hy) (hc.irrefl _)

end Shape
