/-
  Bottom-up repair of red-black trees.

  * `insertFix fs t`: `t` has a red root, which may have a red parent in the
    context `fs`;
  * `eraseFix fs t`: every path through `t` has one black node too few;
  * `eraseAt fs t`: the root of `t` is removed, its place taken by a child or
    by the element after it.

  Each keeps the order of the elements (`toList_*`) and gives back a balanced
  tree with a black root (`bal_*`).
-/
import HevSocks5.Base.Shape

namespace Shape

open Shape.Tree

variable {α : Type}

/-- The child on the side `d`. -/
def Tree.child (d : Dir) : Tree α → Tree α
  | nil => nil
  | node _ l _ r => match d with
    | .left => l
    | .right => r

@[simp] theorem child_join (d : Dir) (c : Color) (n : Tree α) (a : α) (f : Tree α) :
    (join d c n a f).child d = n := by
  cases d <;> rfl

@[simp] theorem child_flip_join (d : Dir) (c : Color) (n : Tree α) (a : α) (f : Tree α) :
    (join d c n a f).child d.flip = f := by
  cases d <;> rfl

/-! ## Insertion -/

/-- The rotations that end an insertion: `t` has a red root and a red parent
    `f`, and the sibling of the parent (in `g`) is black.  An outer `t` takes
    one rotation at the grandparent; an inner one is first rotated outwards. -/
def insertRotate (f g : Frame α) (t : Tree α) : Tree α :=
  if f.dir = g.dir then
    join g.dir g.color t f.val (join g.dir .red (f.sib.setColor .black) g.val g.sib)
  else match t with
    | nil => nil
    | node c l a r =>
      join g.dir g.color
        (join g.dir .red f.sib f.val (((node c l a r).child g.dir).setColor .black)) a
        (join g.dir .red (((node c l a r).child g.dir.flip).setColor .black) g.val g.sib)

/-- Repair from the red root of `t`: a red uncle is recoloured and the
    violation moves up two levels; otherwise rotations end it. -/
def insertFix : Ctx α → Tree α → Tree α
  | [], t => t.setColor .black
  | [f], t => plug [f] t
  | f :: g :: fs, t =>
    if f.color = .black then plug (f :: g :: fs) t
    else if g.sib.color = .red then
      insertFix fs (join g.dir .red (join f.dir .black t f.val f.sib) g.val (g.sib.setColor .black))
    else plug fs (insertRotate f g t)

theorem insertRotate_outer (d : Dir) (cf cg : Color) (p q : α) (s u t : Tree α) :
    insertRotate ⟨d, cf, p, s⟩ ⟨d, cg, q, u⟩ t =
      join d cg t p (join d .red (s.setColor .black) q u) := by
  simp [insertRotate]

theorem insertRotate_inner (d : Dir) (cf cg c : Color) (p q a : α) (s u near far : Tree α) :
    insertRotate ⟨d.flip, cf, p, s⟩ ⟨d, cg, q, u⟩ (join d c near a far) =
      join d cg (join d .red s p (near.setColor .black)) a
        (join d .red (far.setColor .black) q u) := by
  cases d <;> rfl

theorem toList_insertRotate {f g : Frame α} {t : Tree α} (ht : t.color = .red) :
    (insertRotate f g t).toList = (plug [f, g] t).toList := by
  obtain ⟨df, cf, p, s⟩ := f
  obtain ⟨dg, cg, q, u⟩ := g
  by_cases hd : df = dg
  · subst hd
    rw [insertRotate_outer]
    cases df <;> simp [join]
  · obtain rfl := Dir.eq_flip_of_ne hd
    cases t with
    | nil => cases ht
    | node c l a r =>
      obtain ⟨near, far, h⟩ := exists_join dg c l a r
      rw [h, insertRotate_inner]
      cases dg <;> simp [join]

theorem toList_insertFix {fs : Ctx α} {t : Tree α} (ht : t.color = .red) :
    (insertFix fs t).toList = (plug fs t).toList := by
  induction fs, t using insertFix.induct with
  | case1 t => simp [insertFix]
  | case2 f t => rfl
  | case3 f g fs t hf => rw [insertFix, if_pos hf]
  | case4 f g fs t hf hg ih =>
    rw [insertFix, if_neg hf, if_pos hg, ih (color_join ..)]
    refine toList_plug_congr ?_
    rcases f.dir <;> rcases g.dir <;> simp [join]
  | case5 f g fs t hf hg =>
    rw [insertFix, if_neg hf, if_neg hg]
    exact toList_plug_congr (toList_insertRotate ht)

theorem bal_insertRotate (df dg : Dir) (p q : α) {s u t : Tree α} {n : Nat}
    (hs : Bal s n) (hsc : s.color = .black) (hu : Bal u n) (huc : u.color = .black)
    (ht : Bal t n) (htc : t.color = .red) :
    (insertRotate ⟨df, .red, p, s⟩ ⟨dg, .black, q, u⟩ t).color = .black ∧
      Bal (insertRotate ⟨df, .red, p, s⟩ ⟨dg, .black, q, u⟩ t) (n + 1) := by
  by_cases hd : df = dg
  · subst hd
    rw [insertRotate_outer]
    simp [ht, huc, hu, bal_setColor_black hsc hs]
  · obtain rfl := Dir.eq_flip_of_ne hd
    cases t with
    | nil => cases htc
    | node c l a r =>
      obtain rfl : c = .red := htc
      obtain ⟨near, far, h⟩ := exists_join dg .red l a r
      rw [h] at ht ⊢
      obtain ⟨hnc, hfc, hn, hf⟩ := (bal_join_red dg near a far n).1 ht
      rw [insertRotate_inner]
      simp [bal_setColor_black hnc hn, bal_setColor_black hfc hf, hs, hsc, huc, hu]

/-- **Insertion keeps the tree balanced**: in a context of a balanced tree, a
    red subtree in the place of a black one is repaired. -/
theorem bal_insertFix {fs : Ctx α} {t : Tree α} {n : Nat} (hc : CtxBal fs .black n)
    (ht : Bal t n) (htc : t.color = .red) :
    (insertFix fs t).color = .black ∧ ∃ m, Bal (insertFix fs t) m := by
  induction fs, t using insertFix.induct generalizing n with
  | case1 t => exact ⟨color_setColor_black t, _, bal_blacken_red htc ht⟩
  | case2 f t =>
    obtain ⟨d, c, a, s⟩ := f
    cases c with
    | red => exact absurd hc.2.2.2 (by simp [CtxBal])
    | black =>
      have hf : CtxBal [⟨d, .black, a, s⟩] t.color n := ⟨hc.1, rfl⟩
      exact bal_plug hf ht
  | case3 f g fs t hf =>
    rw [insertFix, if_pos hf]
    obtain ⟨d, c, a, s⟩ := f
    obtain rfl : c = .black := hf
    have hf' : CtxBal (⟨d, .black, a, s⟩ :: g :: fs) t.color n := hc
    exact bal_plug hf' ht
  | case4 f g fs t hf hg ih =>
    rw [insertFix, if_neg hf, if_pos hg]
    obtain ⟨df, cf, p, s⟩ := f
    obtain ⟨dg, cg, a, u⟩ := g
    obtain rfl : cf = .red := Color.eq_red hf
    obtain ⟨-, hsc, hs, hc⟩ := hc
    cases cg with
    | red => exact absurd hc.1 (by simp)
    | black =>
      have hu : Bal (u.setColor .black) (n + 1) := bal_blacken_red hg hc.1
      exact ih (n := n + 1) hc.2 (by simp [ht, hs, hu]) (color_join ..)
  | case5 f g fs t hf hg =>
    rw [insertFix, if_neg hf, if_neg hg]
    obtain ⟨df, cf, p, s⟩ := f
    obtain ⟨dg, cg, a, u⟩ := g
    obtain rfl : cf = .red := Color.eq_red hf
    obtain ⟨-, hsc, hs, hc⟩ := hc
    cases cg with
    | red => exact absurd hc.1 (by simp)
    | black =>
      obtain ⟨hrc, hr⟩ := bal_insertRotate df dg p a hs hsc hc.1
        (Color.eq_black hg) ht htc
      exact bal_plug (n := n + 1) (by rw [hrc]; exact hc.2) hr

/-! ## Removal -/

/-- Repair at the parent `p` (of colour `c`) of a subtree `t` on its side `d`
    that lacks one black node, where the sibling `s` is black with the
    children `near` and `far`.  The sibling of black children is recoloured,
    and then a black parent passes the lack on (`up`); otherwise one or two
    rotations end it (`done`). -/
def eraseBlack (d : Dir) (c : Color) (t : Tree α) (p : α) (near : Tree α) (s : α) (far : Tree α)
    (done up : Tree α → Tree α) : Tree α :=
  if far.color = .black then
    match near with
    | node .red l a r =>
      done (join d c
        (join d .black t p ((node .red l a r).child d)) a
        (join d .black (((node .red l a r).child d.flip).setColor .black) s far))
    | _ =>
      if c = .red then done (join d .black t p (join d .red near s far))
      else up (join d .black t p (join d .red near s far))
  else done (join d c (join d .black t p near) s (far.setColor .black))

/-- Repair of the subtree `t`, which lacks one black node.  A red sibling is
    first rotated above the parent. -/
def eraseFix : Ctx α → Tree α → Tree α
  | [], t => t
  | f :: fs, t =>
    match f.sib with
    | nil => plug (f :: fs) t
    | node .red l s r =>
      let near := (node .red l s r).child f.dir
      let far := (node .red l s r).child f.dir.flip
      match near with
      | nil => plug (f :: fs) t
      | node c' l' s' r' =>
        let outer := ⟨f.dir, f.color, s, far⟩
        eraseBlack f.dir .red t f.val ((node c' l' s' r').child f.dir) s'
          ((node c' l' s' r').child f.dir.flip) (plug (outer :: fs)) (plug (outer :: fs))
    | node .black l s r =>
      eraseBlack f.dir f.color t f.val ((node .black l s r).child f.dir) s
        ((node .black l s r).child f.dir.flip) (plug fs) (eraseFix fs)

theorem eraseFix_black (d : Dir) (c : Color) (p s : α) (near far t : Tree α) (fs : Ctx α) :
    eraseFix (⟨d, c, p, join d .black near s far⟩ :: fs) t =
      eraseBlack d c t p near s far (plug fs) (eraseFix fs) := by
  cases d <;> rfl

theorem eraseFix_red (d : Dir) (c c' : Color) (p s s' : α) (near' far' far t : Tree α)
    (fs : Ctx α) :
    eraseFix (⟨d, c, p, join d .red (join d c' near' s' far') s far⟩ :: fs) t =
      eraseBlack d .red t p near' s' far' (plug (⟨d, c, s, far⟩ :: fs))
        (plug (⟨d, c, s, far⟩ :: fs)) := by
  cases d <;> rfl

theorem eraseBlack_far (d : Dir) (c : Color) (t : Tree α) (p : α) (near : Tree α) (s : α)
    {far : Tree α} (h : far.color = .red) (done up : Tree α → Tree α) :
    eraseBlack d c t p near s far done up =
      done (join d c (join d .black t p near) s (far.setColor .black)) := by
  simp [eraseBlack, h]

theorem eraseBlack_near (d : Dir) (c : Color) (t : Tree α) (p : α) (a b : Tree α) (n s : α)
    {far : Tree α} (h : far.color = .black) (done up : Tree α → Tree α) :
    eraseBlack d c t p (join d .red a n b) s far done up =
      done (join d c (join d .black t p a) n (join d .black (b.setColor .black) s far)) := by
  cases d <;> simp [eraseBlack, h, join, Tree.child]

theorem eraseBlack_flip (d : Dir) (c : Color) (t : Tree α) (p : α) {near : Tree α} (s : α)
    {far : Tree α} (hn : near.color = .black) (h : far.color = .black)
    (done up : Tree α → Tree α) :
    eraseBlack d c t p near s far done up =
      if c = .red then done (join d .black t p (join d .red near s far))
      else up (join d .black t p (join d .red near s far)) := by
  cases near with
  | nil => simp [eraseBlack, h]
  | node cn l a r =>
    obtain rfl : cn = .black := hn
    simp [eraseBlack, h]

/-- The three ways a repair with a black sibling can go. -/
theorem eraseBlack_cases (d : Dir) (near far : Tree α) :
    far.color = .red ∨ (far.color = .black ∧ ∃ a n b, near = join d .red a n b) ∨
      (far.color = .black ∧ near.color = .black) := by
  cases hf : far.color with
  | red => exact Or.inl rfl
  | black =>
    cases near with
    | nil => exact Or.inr (Or.inr ⟨rfl, rfl⟩)
    | node cn l a r =>
      cases cn with
      | black => exact Or.inr (Or.inr ⟨rfl, rfl⟩)
      | red =>
        obtain ⟨x, y, h⟩ := exists_join d .red l a r
        exact Or.inr (Or.inl ⟨rfl, x, a, y, h⟩)

theorem toList_eraseBlack {d : Dir} {c : Color} {t : Tree α} {p : α} {near : Tree α} {s : α}
    {far : Tree α} {done up : Tree α → Tree α} {fs : Ctx α}
    (hdone : ∀ u, (done u).toList = (plug fs u).toList)
    (hup : ∀ u, (up u).toList = (plug fs u).toList) :
    (eraseBlack d c t p near s far done up).toList =
      (plug fs (join d c t p (join d .black near s far))).toList := by
  rcases eraseBlack_cases d near far with h | ⟨h, a, n, b, rfl⟩ | ⟨h, hn⟩
  · rw [eraseBlack_far _ _ _ _ _ _ h, hdone]
    refine toList_plug_congr ?_
    cases d <;> simp [join]
  · rw [eraseBlack_near _ _ _ _ _ _ _ _ h, hdone]
    refine toList_plug_congr ?_
    cases d <;> simp [join]
  · rw [eraseBlack_flip _ _ _ _ _ hn h]
    have hj : (join d .black t p (join d .red near s far)).toList =
        (join d c t p (join d .black near s far)).toList := by
      cases d <;> rfl
    split
    · rw [hdone]; exact toList_plug_congr hj
    · rw [hup]; exact toList_plug_congr hj

theorem toList_eraseFix (fs : Ctx α) (t : Tree α) :
    (eraseFix fs t).toList = (plug fs t).toList := by
  induction fs generalizing t with
  | nil => rfl
  | cons f fs ih =>
    obtain ⟨d, c, p, sib⟩ := f
    cases sib with
    | nil => rfl
    | node cs l s r =>
      obtain ⟨near, far, hj⟩ := exists_join d cs l s r
      rw [hj]
      cases cs with
      | black =>
        rw [eraseFix_black, toList_eraseBlack (fun _ => rfl) (fun u => ih u)]
        rfl
      | red =>
        cases near with
        | nil => cases d <;> simp [eraseFix, join, Tree.child]
        | node c' l' s' r' =>
          obtain ⟨near', far', hj'⟩ := exists_join d c' l' s' r'
          rw [hj', eraseFix_red, toList_eraseBlack (fun _ => rfl) (fun _ => rfl), plug_cons,
            plug_cons]
          refine toList_plug_congr ?_
          cases d <;> simp [join]

/-- A repair with a black sibling restores the black height `n + 2` of the
    parent's place, or (`up`) leaves a black tree of height `n + 1`. -/
theorem bal_eraseBlack {d : Dir} {c : Color} {t : Tree α} {p : α} {near : Tree α} {s : α}
    {far : Tree α} {done up : Tree α → Tree α} {n : Nat} {P : Tree α → Prop}
    (ht : Bal t n) (hnear : Bal near n) (hfar : Bal far n)
    (hred : c = .red → ∀ u, Bal u (n + 1) → P (done u))
    (hblack : c = .black → ∀ u, u.color = .black → Bal u (n + 2) → P (done u))
    (hup : c = .black → ∀ u, u.color = .black → Bal u (n + 1) → P (up u)) :
    P (eraseBlack d c t p near s far done up) := by
  have hrotate : ∀ x y : Tree α, ∀ a, x.color = .black → y.color = .black → Bal x (n + 1) →
      Bal y (n + 1) → P (done (join d c x a y)) := by
    intro x y a hxc hyc hx hy
    cases c with
    | red => exact hred rfl _ (by simp [hx, hy, hxc, hyc])
    | black => exact hblack rfl _ (color_join ..) (by simp [hx, hy])
  rcases eraseBlack_cases d near far with h | ⟨h, a, m, b, rfl⟩ | ⟨h, hn⟩
  · rw [eraseBlack_far _ _ _ _ _ _ h]
    exact hrotate _ _ _ (color_join ..) (color_setColor_black _) (by simp [ht, hnear])
      (bal_blacken_red h hfar)
  · rw [eraseBlack_near _ _ _ _ _ _ _ _ h]
    obtain ⟨-, hbc, ha, hb⟩ := (bal_join_red d a m b n).1 hnear
    exact hrotate _ _ _ (color_join ..) (color_join ..) (by simp [ht, ha])
      (by simp [bal_setColor_black hbc hb, hfar])
  · rw [eraseBlack_flip _ _ _ _ _ hn h]
    have hu : Bal (join d .black t p (join d .red near s far)) (n + 1) := by
      simp [ht, hn, h, hnear, hfar]
    cases c with
    | red => exact hred rfl _ hu
    | black => exact hup rfl _ (color_join ..) hu

/-- **Removal keeps the tree balanced**: a black subtree that lacks one black
    node in its context is repaired. -/
theorem bal_eraseFix {fs : Ctx α} {t : Tree α} {n : Nat} (hc : CtxBal fs .black (n + 1))
    (ht : Bal t n) (htc : t.color = .black) :
    (eraseFix fs t).color = .black ∧ ∃ m, Bal (eraseFix fs t) m := by
  induction fs generalizing t n with
  | nil => exact ⟨htc, n, ht⟩
  | cons f fs ih =>
    obtain ⟨d, c, p, sib⟩ := f
    have hsib : Bal sib (n + 1) := by
      cases c with
      | red => exact hc.2.2.1
      | black => exact hc.1
    cases sib with
    | nil => cases hsib
    | node cs l s r =>
      obtain ⟨near, far, hj⟩ := exists_join d cs l s r
      rw [hj] at hc hsib ⊢
      cases cs with
      | black =>
        obtain ⟨hnear, hfar⟩ := (bal_join_black d near s far n).1 hsib
        rw [eraseFix_black]
        refine bal_eraseBlack (P := fun u => u.color = .black ∧ ∃ m, Bal u m) ht hnear hfar ?_ ?_ ?_
        · rintro rfl u hu
          exact bal_plug (n := n + 1) (ctxBal_of_red hc.2.2.2 _) hu
        · rintro rfl u huc hu
          exact bal_plug (n := n + 2) (by rw [huc]; exact hc.2) hu
        · rintro rfl u huc hu
          exact ih (n := n + 1) hc.2 hu huc
      | red =>
        obtain ⟨hnc, hfc, hnear, hfar⟩ := (bal_join_red d near s far (n + 1)).1 hsib
        cases c with
        | red => exact absurd hc.2.1 (by simp)
        | black =>
        cases near with
        | nil => cases hnear
        | node c' l' s' r' =>
          obtain ⟨near', far', hj'⟩ := exists_join d c' l' s' r'
          rw [hj'] at hnear ⊢
          obtain rfl : c' = .black := hnc
          obtain ⟨hn', hf'⟩ := (bal_join_black d near' s' far' n).1 hnear
          rw [eraseFix_red]
          have hplug : ∀ u : Tree α, Bal u (n + 1) →
              (plug (⟨d, .black, s, far⟩ :: fs) u).color = .black ∧
                ∃ m, Bal (plug (⟨d, .black, s, far⟩ :: fs) u) m :=
            fun u hu => bal_plug (n := n + 1) ⟨hfar, hc.2⟩ hu
          exact bal_eraseBlack (P := fun u => u.color = .black ∧ ∃ m, Bal u m) ht hn' hf'
            (fun _ u hu => hplug u hu) (fun h => nomatch h) (fun h => nomatch h)

/-! ## Removal of a node -/

/-- The way down to the leftmost node: its context, colour, element and right
    child. -/
def leftmost (fs : Ctx α) : Tree α → Option (Ctx α × Color × α × Tree α)
  | nil => none
  | node c nil a r => some (fs, c, a, r)
  | node c (node c' l' a' r') a r => leftmost (⟨.left, c, a, r⟩ :: fs) (node c' l' a' r')

/-- Removal of a node of colour `c` that has at most one child, `t`: a child
    takes the colour of the node; with no child, the place of a black node
    lacks one black node. -/
def eraseOne (fs : Ctx α) (c : Color) (t : Tree α) : Tree α :=
  match t with
  | nil => if c = .black then eraseFix fs nil else plug fs nil
  | node _ l a r => plug fs (node c l a r)

/-- Removal of the root of a subtree.  With two children, the element after it
    moves to its place. -/
def eraseAt (fs : Ctx α) : Tree α → Tree α
  | nil => plug fs nil
  | node c nil _ r => eraseOne fs c r
  | node c l _ nil => eraseOne fs c l
  | node c l _ (node c' l' a' r') =>
    match leftmost [] (node c' l' a' r') with
    | none => plug fs nil
    | some (ls, cs, s, sr) =>
      let gs := ls ++ ⟨.right, c, s, l⟩ :: fs
      match sr with
      | nil => if cs = .black then eraseFix gs nil else plug gs nil
      | node _ _ _ _ => plug gs (sr.setColor .black)

theorem leftmost_spec (fs : Ctx α) (t : Tree α) (ht : t ≠ nil) :
    ∃ ls c a r, leftmost fs t = some (ls ++ fs, c, a, r) ∧ plug ls (node c nil a r) = t ∧
      (∀ f ∈ ls, f.dir = .left) := by
  induction fs, t using leftmost.induct with
  | case1 fs => exact absurd rfl ht
  | case2 fs c a r => exact ⟨[], c, a, r, rfl, rfl, by simp⟩
  | case3 fs c c' l' a' r' a r ih =>
    obtain ⟨ls, d, b, s, h1, h2, h3⟩ := ih (by simp)
    refine ⟨ls ++ [⟨.left, c, a, r⟩], d, b, s, ?_, ?_, ?_⟩
    · rw [leftmost, h1, List.append_assoc]
      rfl
    · rw [plug_append, h2]
      rfl
    · intro f hf
      rcases List.mem_append.1 hf with hf | hf
      · exact h3 f hf
      · rw [List.mem_singleton.1 hf]

theorem before_append (fs gs : Ctx α) : before (fs ++ gs) = before gs ++ before fs := by
  induction fs with
  | nil => simp [before]
  | cons f fs ih => simp [before, ih]

theorem after_append (fs gs : Ctx α) : after (fs ++ gs) = after fs ++ after gs := by
  induction fs with
  | nil => simp [after]
  | cons f fs ih => simp [after, ih]

theorem before_of_left {fs : Ctx α} (h : ∀ f ∈ fs, f.dir = .left) : before fs = [] := by
  induction fs with
  | nil => rfl
  | cons f fs ih => simp [before, h f (by simp), ih fun g hg => h g (by simp [hg])]

theorem toList_eraseOne (fs : Ctx α) (c : Color) (t : Tree α) :
    (eraseOne fs c t).toList = (plug fs t).toList := by
  cases t with
  | nil =>
    rw [eraseOne]
    split
    · exact toList_eraseFix fs nil
    · rfl
  | node c' l a r => exact toList_plug_congr rfl

/-- **Removal takes exactly the root out of the order.** -/
theorem toList_eraseAt (fs : Ctx α) (c : Color) (l : Tree α) (a : α) (r : Tree α) :
    (eraseAt fs (node c l a r)).toList = before fs ++ (l.toList ++ r.toList) ++ after fs := by
  cases l with
  | nil => rw [eraseAt, toList_eraseOne, toList_plug]; simp
  | node cl ll al rl =>
    cases r with
    | nil => simp [eraseAt, toList_eraseOne, toList_plug]
    | node c' l' a' r' =>
      obtain ⟨ls, cs, s, sr, h1, h2, h3⟩ :=
        leftmost_spec [] (node c' l' a' r') (by simp)
      have hr : (node c' l' a' r').toList = s :: (sr.toList ++ after ls) := by
        rw [← h2, toList_plug, before_of_left h3]
        simp
      have hg : ∀ u : Tree α, u.toList = sr.toList →
          (plug (ls ++ ⟨.right, c, s, node cl ll al rl⟩ :: fs) u).toList =
            before fs ++ ((node cl ll al rl).toList ++ (node c' l' a' r').toList) ++ after fs := by
        intro u hu
        rw [toList_plug, before_append, after_append, before_of_left h3, hu, hr]
        simp [before, after]
      rw [List.append_nil] at h1
      simp only [eraseAt, h1]
      cases sr with
      | nil =>
        simp only
        split
        · rw [toList_eraseFix]; exact hg nil rfl
        · exact hg nil rfl
      | node cr lr ar rr => exact hg _ rfl

theorem bal_eraseOne {fs : Ctx α} {c : Color} {d : Dir} {a : α} {t : Tree α} {n : Nat}
    (hc : CtxBal fs c n) (h : Bal (join d c nil a t) n) :
    (eraseOne fs c t).color = .black ∧ ∃ m, Bal (eraseOne fs c t) m := by
  cases c with
  | red =>
    obtain ⟨-, htc, hn, ht⟩ := (bal_join_red d nil a t n).1 h
    obtain rfl : n = 0 := hn
    cases t with
    | nil => exact bal_plug (ctxBal_of_red hc _) ht
    | node c' l b r =>
      obtain rfl : c' = .black := htc
      cases ht
  | black =>
    cases n with
    | zero => exact absurd h (bal_join_black_zero d nil a t)
    | succ n =>
      obtain ⟨hn, ht⟩ := (bal_join_black d nil a t n).1 h
      obtain rfl : n = 0 := hn
      cases t with
      | nil => exact bal_eraseFix hc ht rfl
      | node c' l b r =>
        cases c' with
        | black => cases ht
        | red => exact bal_plug (t := node .black l b r) hc ⟨ht.2.2.1, ht.2.2.2⟩

/-- The place of the element after the root, in a balanced tree: it is black if
    it has a child. -/
theorem bal_leftmost {fs ls : Ctx α} {c cs : Color} {l r sr : Tree α} {a s : α} {n : Nat}
    (hc : CtxBal fs c n) (h : Bal (node c l a r) n) (hl : leftmost [] r = some (ls, cs, s, sr)) :
    (∃ k, CtxBal (ls ++ ⟨.right, c, s, l⟩ :: fs) cs k ∧ Bal (node cs nil s sr) k) ∧
      (sr ≠ nil → cs = .black) := by
  have hr : r ≠ nil := by
    rintro rfl
    cases hl
  obtain ⟨ls', cs', s', sr', h1, h2, -⟩ := leftmost_spec [] r hr
  rw [hl, List.append_nil] at h1
  simp only [Option.some.injEq, Prod.mk.injEq] at h1
  obtain ⟨rfl, rfl, rfl, rfl⟩ := h1
  -- the context of the right subtree, with the successor in the node's place
  have hk : ∃ m, CtxBal (⟨.right, c, s, l⟩ :: fs) r.color m ∧ Bal r m := by
    cases c with
    | red => exact ⟨n, ⟨h.2.1, h.1, h.2.2.1, hc⟩, h.2.2.2⟩
    | black =>
      cases n with
      | zero => cases h
      | succ n => exact ⟨n, ⟨h.1, hc⟩, h.2⟩
  obtain ⟨m, hkc, hkb⟩ := hk
  rw [← h2] at hkc hkb
  obtain ⟨k, hgc, hgb⟩ := bal_of_plug _ hkc hkb
  refine ⟨⟨k, hgc, hgb⟩, fun hsr => ?_⟩
  cases sr with
  | nil => exact absurd rfl hsr
  | node cr lr ar rr =>
    cases cs with
    | black => rfl
    | red =>
      obtain rfl : k = 0 := hgb.2.2.1
      obtain rfl : cr = .black := hgb.2.1
      cases hgb.2.2.2

/-- Removal with one child at most. -/
theorem eraseAt_right_nil (fs : Ctx α) (c : Color) (l : Tree α) (a : α) :
    eraseAt fs (node c l a nil) = eraseOne fs c l := by
  cases l <;> simp [eraseAt]

theorem eraseAt_both {fs ls : Ctx α} {c cs : Color} {l r sr : Tree α} {a s : α} (hl : l ≠ nil)
    (hlm : leftmost [] r = some (ls, cs, s, sr)) (hcs : sr ≠ nil → cs = .black) :
    eraseAt fs (node c l a r) = eraseOne (ls ++ ⟨.right, c, s, l⟩ :: fs) cs sr := by
  cases l with
  | nil => exact absurd rfl hl
  | node cl ll al rl =>
    cases r with
    | nil => cases hlm
    | node c' l' a' r' =>
      simp only [eraseAt, hlm]
      cases sr with
      | nil => rfl
      | node cr lr ar rr => rw [hcs (by simp)]; rfl

/-- **Removal of a node keeps the tree balanced.** -/
theorem bal_eraseAt {fs : Ctx α} {c : Color} {l : Tree α} {a : α} {r : Tree α} {n : Nat}
    (hc : CtxBal fs c n) (h : Bal (node c l a r) n) :
    (eraseAt fs (node c l a r)).color = .black ∧ ∃ m, Bal (eraseAt fs (node c l a r)) m := by
  cases l with
  | nil => rw [eraseAt]; exact bal_eraseOne (d := .left) (a := a) hc h
  | node cl ll al rl =>
    cases r with
    | nil =>
      rw [eraseAt_right_nil]
      exact bal_eraseOne (d := .right) (a := a) hc h
    | node c' l' a' r' =>
      obtain ⟨ls, cs, s, sr, h1, -, -⟩ := leftmost_spec [] (node c' l' a' r') (by simp)
      rw [List.append_nil] at h1
      obtain ⟨⟨k, hgc, hgb⟩, hcs⟩ := bal_leftmost hc h h1
      rw [eraseAt_both (by simp) h1 hcs]
      exact bal_eraseOne (d := .left) hgc hgb

end Shape
