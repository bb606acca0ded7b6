/-
  `hev_rbtree_insert_color` repairs the tree: on a tree whose only defect is a
  red node under a red parent, it ends, follows no null pointer, and leaves
  the tree that `insertFix` describes.
-/
import HevSocks5.RBTreeRep

namespace HevSocks5

open Total Shape Shape.Tree

namespace HevRBTree

variable {t : HevRBTree} {fs : Ctx Ptr} {d df : Dir} {cg : Color} {p g x y z : Ptr} {pcp : UInt64}

theorem ends_insertColorCase3 {near inner uncle : Tree Ptr}
    (hg : t.mem g = .of d (pack (top fs) cg) x (ptr uncle)) (hp : t.mem p = .of d pcp (ptr near) y)
    (hc : CtxRep t g fs) (hu : Rep t.mem g uncle) (hn : Rep t.mem p near) (hi : Rep t.mem z inner)
    (hN : Nodes (p :: g :: (near.toList ++ inner.toList ++ uncle.toList ++ elems fs))) :
    Ends (insertColorCase3 d p g (ptr inner)) t fun _ t' => CtxRep t' p fs ∧
      Rep t'.mem (top fs) (join d cg near p (join d .red (inner.setColor .black) g uncle)) := by
  obtain ⟨hnd, hok⟩ := hN
  have hnr := List.nodup_reverse.2 hnd
  simp only [List.mem_cons, List.mem_append] at hok
  simp only [List.reverse_cons, List.reverse_append, List.append_assoc] at hnr
  simp [List.nodup_append', -List.nodup_reverse] at hnd hnr
  have hp0 : p ≠ 0 := (hok p (by simp)).1
  have hg0 : g ≠ 0 := (hok g (by simp)).1
  have hpg : p ≠ g := hnd.1.1
  simp only [insertColorCase3, ends_bind, ends_setChild, HevRBTree.mem_set, hg,
    Function.update_of_ne hpg, hp, HevRBTreeNode.setChild_of, HevRBTreeNode.setChild_flip_of]
  refine ⟨hg0, hp0, ?_⟩
  set t₁ := (t.set g (.of d (pack (top fs) cg) (ptr inner) (ptr uncle))).set p
    (.of d pcp (ptr near) g) with ht₁
  have hi₁ : Rep t₁.mem z inner := by simp [ht₁, hnd, hi]
  have hc₁ : CtxRep t₁ g fs := by simp [ht₁, hnd, hc]
  rw [ends_repaint hi₁ fun q hq => (hok q (by simp [hq])).1]
  set t₂ := t₁.repaint inner g .black with ht₂
  have hc₂ : CtxRep t₂ g fs := by simp [ht₂, hnd, hc₁]
  have hpc : (t₂.mem g).parentColor = pack (top fs) cg := by simp [ht₂, ht₁, hnd, hnr]
  rw [ends_rotateSetParents hc₂ hpc (aligned_top fun q hq => hok q (by simp [hq]))
    (fun q hq => ⟨(hok q (by simp [hq])).1, ne_of_mem_of_not_mem hq (by simp [hnd]),
      ne_of_mem_of_not_mem hq (by simp [hnd])⟩) hg0 hp0 hpg.symm]
  refine ⟨ctxRep_relink g ?_ (by simp [hnd]), ?_⟩
  · simp [hnd, hc₂]
  · have hi₂ : Rep t₂.mem g (inner.setColor .black) := rep_repaint hi₁ (by simp [hnd])
    simp [rotated, ht₂, ht₁, hnd, hnr, hu, hn]
    simpa [ht₂, ht₁] using hi₂

/-- One half of a round, for a red node `s` with a red parent whose sibling is black. -/
theorem ends_insertColorSide_rotate {s S U : Tree Ptr}
    (again : Ptr → Ptr → TreeM Unit)    (hs : s.color = .red) (hU : U.color = .black)
    (hc : CtxRep t (ptr s) (⟨df, .red, p, S⟩ :: ⟨d, cg, g, U⟩ :: fs)) (hr : Rep t.mem p s)
    (hN : Nodes (elems (⟨df, .red, p, S⟩ :: ⟨d, cg, g, U⟩ :: fs) ++ s.toList)) :
    Ends (insertColorSide again d (ptr s) p g (ptr U)) t fun _ t' =>
      CtxRep t' (ptr (insertRotate ⟨df, .red, p, S⟩ ⟨d, cg, g, U⟩ s)) fs ∧
      Rep t'.mem (top fs) (insertRotate ⟨df, .red, p, S⟩ ⟨d, cg, g, U⟩ s) := by
  obtain ⟨hp, hS, hg, hUr, hc⟩ := hc
  simp only [top_cons, pack_red] at hp hg
  have hp0 : p ≠ 0 := (hN.ok p (by simp [elems])).1
  have hga : Aligned g := (hN.ok g (by simp [elems])).2
  simp only [insertColorSide, ends_bind]
  rw [ends_isRedNode hUr hga fun q hq => (hN.ok q (by simp [elems, hq])).1]
  simp only [hU, decide_eq_true_eq, reduceCtorEq, if_false, ends_bind, ends_child]
  refine ⟨hp0, ?_⟩
  by_cases hd : df = d
  · -- an outer node: case 3
    subst hd
    have hne : ptr s ≠ ptr S := by
      have hnd := List.nodup_reverse.2 hN.nodup
      simp [elems, List.nodup_append', -List.nodup_reverse] at hnd
      exact ptr_ne_ptr (by rintro rfl; cases hs) (fun x hx => (hN.ok x (by simp [hx])).1)
        (by simp [hnd])
    rw [insertRotate_outer]
    simp only [hp, HevRBTreeNode.child_flip_of, if_neg hne, ptr_join]
    refine ends_insertColorCase3 hg hp hc hUr hr hS (hN.perm ?_)
    simp only [elems]
    grind
  · -- an inner node: case 2 turns it outwards first
    obtain rfl := Dir.eq_flip_of_ne hd
    cases s with
    | nil => cases hs
    | node c l n r =>
      obtain rfl : c = .red := hs
      obtain ⟨A, B, hj⟩ := exists_join d .red l n r
      rw [hj] at hr hN hp ⊢
      clear hj
      obtain ⟨hn, hA, hB⟩ := (rep_join ..).1 hr
      have hperm : (elems (⟨d.flip, .red, p, S⟩ :: ⟨d, cg, g, U⟩ :: fs) ++
          (join d .red A n B).toList).Perm (n :: p :: g :: (S.toList ++ A.toList ++ B.toList ++
            U.toList ++ elems fs)) := by
        cases d <;> simp only [elems, join, toList_node] <;> grind
      have hN' := hN.perm hperm
      obtain ⟨hnd, hok⟩ := hN'
      have hnr := List.nodup_reverse.2 hnd
      simp only [List.mem_cons, List.mem_append] at hok
      simp only [List.reverse_cons, List.reverse_append, List.append_assoc] at hnr
      simp [List.nodup_append', -List.nodup_reverse] at hnd hnr
      have hn0 : n ≠ 0 := (hok n (by simp)).1
      have hp0 : p ≠ 0 := (hok p (by simp)).1
      have hnp : n ≠ p := hnd.1.1
      rw [insertRotate_inner]
      simp only [hp, HevRBTreeNode.of_flip, HevRBTreeNode.child_flip_of, ptr_join, if_true,
        ends_bind, ends_child, ends_setChild, hn, HevRBTree.mem_set, Function.update_of_ne hnp,
        HevRBTreeNode.child_of, HevRBTreeNode.setChild_of, HevRBTreeNode.setChild_flip_of]
      refine ⟨hn0, hp0, hn0, ?_⟩
      set t₁ := (t.set p (.of d g (ptr S) (ptr A))).set n (.of d (pack p .red) p (ptr B)) with ht₁
      have hA₁ : Rep t₁.mem n A := by simp [ht₁, hnd, hA]
      rw [ends_repaint hA₁ fun q hq => (hok q (by simp [hq])).1]
      set t₂ := t₁.repaint A p .black with ht₂
      have hA₂ : Rep t₂.mem p (A.setColor .black) := rep_repaint hA₁ (by simp [hnd])
      have hp₂ : t₂.mem p = .of d g (ptr S) (ptr A) := by simp [ht₂, ht₁, hnd, hnr]
      have hn₂ : t₂.mem n = .of d (pack p .red) p (ptr B) := by simp [ht₂, ht₁, hnd]
      simp only [ends_nodeSetParentColor, HevRBTree.mem_set, Function.update_of_ne hnp, hp₂, hn₂,
        HevRBTreeNode.setParentColor_of, HevRBTreeNode.child_flip_of]
      refine ⟨hp0, hn0, ?_⟩
      set t₃ := t₂.set p (.of d (pack n .red) (ptr S) (ptr A)) with ht₃
      have hp₃ : t₃.mem p = .of d (pack n .red) (ptr S) (ptr A) := by simp [ht₃]
      have hS₃ : Rep t₃.mem p S := by simp [ht₃, ht₂, ht₁, hnd, hnr, hS]
      have hA₃ : Rep t₃.mem p (A.setColor .black) := by simpa [ht₃, hnd] using hA₂
      have hN₃ : Nodes (n :: g :: ((join d .red S p (A.setColor .black)).toList ++ B.toList ++
          U.toList ++ elems fs)) := by
        refine hN.perm (hperm.trans ?_)
        clear * -
        cases d <;> simp only [join, toList_node, toList_setColor] <;> grind
      have hg₃ : t₃.mem g = .of d (pack (top fs) cg) p (ptr U) := by
        simp [ht₃, ht₂, ht₁, hnd, hnr, hg]
      have hn₃ : t₃.mem n = .of d (pack p .red) (ptr (join d .red S p (A.setColor .black)))
          (ptr B) := by
        simp [ht₃, hnd, hn₂]
      have hc₃ : CtxRep t₃ g fs := by simp [ht₃, ht₂, ht₁, hnd, hc]
      have hU₃ : Rep t₃.mem g U := by simp [ht₃, ht₂, ht₁, hnd, hUr]
      have hB₃ : Rep t₃.mem n B := by simp [ht₃, ht₂, ht₁, hnd, hB]
      have hs₃ : Rep t₃.mem n (join d .red S p (A.setColor .black)) := by
        simp [hp₃, hS₃, hA₃]
      exact ends_insertColorCase3 hg₃ hn₃ hc₃ hU₃ hs₃ hB₃ hN₃

/-- One half of a round, for a red node `s` with a red parent whose sibling is red. -/
theorem ends_insertColorSide_flip {s S U : Tree Ptr}
    (again : Ptr → Ptr → TreeM Unit)    {Q : Unit → HevRBTree → Prop} (hU : U.color = .red)
    (hc : CtxRep t (ptr s) (⟨df, .red, p, S⟩ :: ⟨d, cg, g, U⟩ :: fs)) (hr : Rep t.mem p s)
    (hN : Nodes (elems (⟨df, .red, p, S⟩ :: ⟨d, cg, g, U⟩ :: fs) ++ s.toList))
    (h : ∀ t', CtxRep t' g fs →
      Rep t'.mem (top fs) (join d .red (join df .black s p S) g (U.setColor .black)) →
      Ends (again g (top fs)) t' Q) :
    Ends (insertColorSide again d (ptr s) p g (ptr U)) t Q := by
  obtain ⟨hp, hS, hg, hUr, hc⟩ := hc
  obtain ⟨hnd, hok⟩ := hN
  have hnr := List.nodup_reverse.2 hnd
  simp only [elems, List.mem_cons, List.mem_append] at hok
  simp only [elems, List.reverse_cons, List.reverse_append, List.append_assoc] at hnr
  simp [elems, List.nodup_append', -List.nodup_reverse] at hnd hnr
  have hp0 : p ≠ 0 := (hok p (by simp)).1
  have hg0 : g ≠ 0 := (hok g (by simp)).1
  have hga : Aligned g := (hok g (by simp)).2
  have hta : Aligned (top fs) := aligned_top fun q hq => hok q (by simp [hq])
  have hUn : U ≠ nil := by
    rintro rfl
    cases hU
  have hU0 : ∀ x ∈ U.toList, x ≠ 0 := fun x hx => (hok x (by simp [hx])).1
  simp only [insertColorSide, ends_bind]
  rw [ends_isRedNode hUr hga hU0]
  simp only [hU, decide_true, if_true, ends_bind]
  rw [ends_nodeSetParentColor_ptr hUr hUn hU0]
  set t₁ := t.repaint U g .black with ht₁
  have hU₁ : Rep t₁.mem g (U.setColor .black) := rep_repaint hUr (by simp [hnd])
  have hp₁ : t₁.mem p = .of df g (ptr s) (ptr S) := by simp [ht₁, hnd, hp]
  have hg₁ : t₁.mem g = .of d (pack (top fs) cg) p (ptr U) := by simp [ht₁, hnd, hg]
  simp only [ends_nodeSetParentColor, hp₁, hg₁, HevRBTreeNode.setParentColor_of, ends_nodeParent,
    HevRBTree.mem_set, HevRBTreeNode.parentColor_of, pack_and_not hta,
    Function.update_of_ne (show g ≠ p by simp [hnr])]
  refine ⟨hp0, hg0, hg0, h _ ?_ ?_⟩
  · simp [ht₁, hnd, hc]
  · have hS₁ : Rep t₁.mem p S := by simp [ht₁, hnr, hS]
    have hs₁ : Rep t₁.mem p s := by simp [ht₁, hnd, hr]
    simp [hnd, hS₁, hs₁, hU₁]

/-- A round under a black parent ends the loop. -/
theorem ends_insertColorLoop_black {k : Nat} {s S : Tree Ptr}
    (hc : CtxRep t (ptr s) (⟨d, .black, p, S⟩ :: fs)) (hr : Rep t.mem p s)
    (hN : Nodes (elems (⟨d, .black, p, S⟩ :: fs) ++ s.toList)) :
    Ends (insertColorLoop (k + 1) (ptr s) p) t fun _ t' =>
      t'.Linked (plug (⟨d, .black, p, S⟩ :: fs) s) := by
  have hp0 : p ≠ 0 := (hN.ok p (by simp [elems])).1
  have hta : Aligned (top fs) := aligned_top fun q hq => hN.ok q (by simp [elems, hq])
  have hp := hc.1
  simp only [insertColorLoop, if_neg hp0, ends_bind, ends_nodeIsBlack, hp,
    HevRBTreeNode.parentColor_of, pack_and_one hta]
  exact ⟨hp0, by simpa [colorBits] using linked_plug.2 ⟨hc, hr⟩⟩

/-- A round under a red parent is the half of the parent's side. -/
theorem ends_insertColorLoop_red {k : Nat} {s S U : Tree Ptr}
    (hc : CtxRep t (ptr s) (⟨df, .red, p, S⟩ :: ⟨d, cg, g, U⟩ :: fs))
    (hN : Nodes (elems (⟨df, .red, p, S⟩ :: ⟨d, cg, g, U⟩ :: fs) ++ s.toList))
    {Q : Unit → HevRBTree → Prop}
    (h : Ends (insertColorSide (insertColorLoop k) d (ptr s) p g (ptr U)) t Q) :
    Ends (insertColorLoop (k + 1) (ptr s) p) t Q := by
  obtain ⟨hp, -, hg, -, -⟩ := hc
  obtain ⟨hnd, hok⟩ := hN
  have hp0 : p ≠ 0 := (hok p (by simp [elems])).1
  have hg0 : g ≠ 0 := (hok g (by simp [elems])).1
  have hga : Aligned g := (hok g (by simp [elems])).2
  have hpU : p ≠ ptr U := by
    simp [elems] at hnd
    cases U with
    | nil => exact hp0
    | node c l u r => exact fun h => by simp [h] at hnd
  simp only [top_cons, pack_red] at hp hg
  simp only [insertColorLoop, if_neg hp0, ends_bind, ends_nodeIsBlack, hp,
    HevRBTreeNode.parentColor_of, hga.and_one, decide_true, Bool.not_true, Bool.false_eq_true,
    if_false, ends_nodeRedParent, ends_child, hg]
  refine ⟨hp0, hp0, hg0, ?_⟩
  cases d with
  | left => simpa [HevRBTreeNode.of, HevRBTreeNode.child, hpU] using h
  | right => simpa [HevRBTreeNode.of, HevRBTreeNode.child, hg0, hg] using h

/-- **Insertion repairs the tree**: from a red node, `insertColorLoop` ends with the tree
    that `insertFix` describes. -/
theorem ends_insertColorLoop {k n : Nat} {s : Tree Ptr} (hs : s.color = .red)
    (hc : CtxRep t (ptr s) fs) (hr : Rep t.mem (top fs) s) (hN : Nodes (elems fs ++ s.toList))
    (hb : CtxBal fs .black n) (hk : fs.length < k) :
    Ends (insertColorLoop k (ptr s) (top fs)) t fun _ t' =>
      t'.Linked (insertFix fs s) := by
  obtain ⟨k, rfl⟩ : ∃ j, k = j + 1 := ⟨k - 1, by omega⟩
  induction fs, s using insertFix.induct generalizing t n k with
  | case1 s =>
    have hsn : s ≠ nil := by
      rintro rfl
      cases hs
    have hnd := hN.nodup
    simp only [insertColorLoop, top_nil, if_true, insertFix, elems, List.nil_append] at *
    rw [ends_nodeSetParentColor_ptr hr hsn fun x hx => (hN.ok x hx).1]
    exact ⟨root_repaint.trans (hc.trans (ptr_setColor ..).symm), rep_repaint hr hnd⟩
  | case2 f s =>
    obtain ⟨d, c, p, S⟩ := f
    have hcb : c = .black := by
      cases c with
      | black => rfl
      | red => cases hb.2.2.2
    subst hcb
    exact ends_insertColorLoop_black hc hr hN
  | case3 f g fs s hf =>
    obtain ⟨d, c, p, S⟩ := f
    obtain rfl : c = .black := hf
    rw [insertFix, if_pos rfl]
    exact ends_insertColorLoop_black hc hr hN
  | case4 f g fs s hf hg ih =>
    obtain ⟨df, c, p, S⟩ := f
    obtain ⟨d, cg, g, U⟩ := g
    obtain rfl : c = .red := Color.eq_red hf
    rw [insertFix, if_neg hf, if_pos hg]
    refine ends_insertColorLoop_red hc hN (ends_insertColorSide_flip _ hg hc hr hN ?_)
    intro t' hc' hr'
    have hperm : (elems (⟨df, .red, p, S⟩ :: ⟨d, cg, g, U⟩ :: fs) ++ s.toList).Perm
        (elems fs ++ (join d .red (join df .black s p S) g (U.setColor .black)).toList) := by
      clear * -
      cases d <;> cases df <;> simp only [elems, join, toList_node, toList_setColor] <;> grind
    have hcg : cg = .black := by
      cases cg with
      | black => rfl
      | red => exact absurd hb.2.2.2.1 (by simp)
    subst hcg
    obtain ⟨j, rfl⟩ : ∃ j, k = j + 1 := ⟨k - 1, by simp only [List.length_cons] at hk; omega⟩
    have hj : fs.length < j + 1 := by simp only [List.length_cons] at hk; omega
    have hrep := ih (color_join ..) (by simpa using hc') hr' (hN.perm hperm) hb.2.2.2.2 j hj
    simpa using hrep
  | case5 f g fs s hf hg =>
    obtain ⟨df, c, p, S⟩ := f
    obtain ⟨d, cg, g, U⟩ := g
    obtain rfl : c = .red := Color.eq_red hf
    rw [insertFix, if_neg hf, if_neg hg]
    refine ends_insertColorLoop_red hc hN ?_
    have hrot := ends_insertColorSide_rotate (insertColorLoop k) hs (Color.eq_black hg)
      hc hr hN
    exact hrot.mono fun _ t' h => linked_plug.2 h

/-- **A linked red leaf becomes part of a balanced tree.** -/
theorem ends_insertColor {n : Nat} (hc : CtxRep t p fs)
    (hr : Rep t.mem (top fs) (node .red nil p nil)) (hN : Nodes (p :: elems fs))
    (hb : CtxBal fs .black n) :
    Ends (insertColor p) t fun _ t' => Shaped t' (insertFix fs (node .red nil p nil)) := by
  have hp0 : p ≠ 0 := (hN.ok p (by simp)).1
  have hlen : fs.length < fuel := by
    have h1 := hN.length_lt
    have h2 := length_le_elems fs
    simp only [List.length_cons] at h1
    omega
  have hN' : Nodes (elems fs ++ (node .red nil p nil).toList) :=
    hN.perm (List.perm_append_singleton p (elems fs)).symm
  simp only [insertColor, ends_bind, ends_nodeRedParent, hr.1, pack_red]
  refine ⟨hp0, (ends_insertColorLoop rfl hc hr hN' hb hlen).mono fun _ t' h => ?_⟩
  refine ⟨h, hN'.perm ?_⟩
  rw [toList_insertFix rfl]
  exact (perm_plug _ _).symm

end HevRBTree

end HevSocks5
