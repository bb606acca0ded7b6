/-
  `hev_rbtree_erase` takes a node out: on a balanced tree it ends, follows no
  null pointer, and leaves the tree that `eraseAt` describes.
-/
import HevSocks5.RBTreeInsert

namespace HevSocks5

open Total Shape Shape.Tree

namespace HevRBTree

variable {t : HevRBTree} {fs : Ctx Ptr} {d : Dir} {c : Color} {p s w y z : Ptr} {pcs : UInt64}

/-! ## Rebalancing -/

theorem ends_nodeSetParent_ptr {u : Tree Ptr} {q : Ptr} (hu : Rep t.mem z u) (hn : u ≠ nil)
    (hz : Aligned z) (h0 : ∀ x ∈ u.toList, x ≠ 0) {Q : Unit → HevRBTree → Prop} :
    Ends (nodeSetParent (ptr u) q) t Q ↔ Q () (repaint t u q u.color) := by
  cases u with
  | nil => exact absurd rfl hn
  | node c' l a r =>
    have ha : a ≠ 0 := h0 a (by simp)
    simp [ha, repaint, hu.1, HevRBTreeNode.setParentColor, pack_and_one hz, colorBits_or]

theorem ends_reparent {u : Tree Ptr} {q : Ptr} (hu : Rep t.mem z u) (hz : Aligned z)
    (h0 : ∀ x ∈ u.toList, x ≠ 0) {Q : Unit → HevRBTree → Prop} :
    Ends (whenNode (ptr u) (nodeSetParent (ptr u) q)) t Q ↔ Q () (repaint t u q u.color) := by
  cases u with
  | nil => simp [repaint, whenNode]
  | node c' l a r =>
    have ha : a ≠ 0 := h0 a (by simp)
    rw [whenNode, ptr_node, if_neg ha]
    exact ends_nodeSetParent_ptr hu (by simp) hz h0

theorem ends_eraseColorCase4 {x near far : Tree Ptr}
    (hp : t.mem p = .of d (pack (top fs) c) (ptr x) y)
    (hs : t.mem s = .of d pcs (ptr near) (ptr far))
    (hc : CtxRep t p fs) (hx : Rep t.mem p x) (hn : Rep t.mem z near) (hz : Aligned z)
    (hf : Rep t.mem w far) (hfn : far ≠ nil)
    (hN : Nodes (p :: s :: (x.toList ++ near.toList ++ far.toList ++ elems fs))) :
    Ends (eraseColorCase4 d p s (ptr far)) t fun _ t' => CtxRep t' s fs ∧
      Rep t'.mem (top fs) (join d c (join d .black x p near) s (far.setColor .black)) := by
  obtain ⟨hnd, hok⟩ := hN
  have hnr := List.nodup_reverse.2 hnd
  simp only [List.mem_cons, List.mem_append] at hok
  simp only [List.reverse_cons, List.reverse_append, List.append_assoc] at hnr
  simp [List.nodup_append', -List.nodup_reverse] at hnd hnr
  have hp0 : p ≠ 0 := (hok p (by simp)).1
  have hs0 : s ≠ 0 := (hok s (by simp)).1
  have hsp : s ≠ p := by simp [hnr]
  have hta : Aligned (top fs) := aligned_top fun q hq => hok q (by simp [hq])
  simp only [eraseColorCase4, ends_bind, ends_child, ends_setChild, HevRBTree.mem_set, hs, hp,
    Function.update_of_ne hsp, HevRBTreeNode.child_of, HevRBTreeNode.setChild_of,
    HevRBTreeNode.setChild_flip_of]
  refine ⟨hs0, hp0, hs0, ?_⟩
  set t₁ := (t.set p (.of d (pack (top fs) c) (ptr x) (ptr near))).set s
    (.of d pcs p (ptr far)) with ht₁
  have hf₁ : Rep t₁.mem w far := by simp [ht₁, hnd, hf]
  rw [ends_nodeSetParentColor_ptr hf₁ hfn fun q hq => (hok q (by simp [hq])).1]
  set t₂ := t₁.repaint far s .black with ht₂
  have hf₂ : Rep t₂.mem s (far.setColor .black) := rep_repaint hf₁ (by simp [hnd])
  have hn₂ : Rep t₂.mem z near := by simp [ht₂, ht₁, hnd, hnr, hn]
  rw [ends_reparent hn₂ hz fun q hq => (hok q (by simp [hq])).1]
  set t₃ := t₂.repaint near p near.color with ht₃
  have hn₃ : Rep t₃.mem p near := by
    have h := rep_repaint (q := p) (c := near.color) hn₂ (by simp [hnd])
    rwa [setColor_color] at h
  have hf₃ : Rep t₃.mem s (far.setColor .black) := by simpa [ht₃, hnd] using hf₂
  have hx₃ : Rep t₃.mem p x := by simp [ht₃, ht₂, ht₁, hnd, hnr, hx]
  have hp₃ : t₃.mem p = .of d (pack (top fs) c) (ptr x) (ptr near) := by
    simp [ht₃, ht₂, ht₁, hnd]
  have hs₃ : t₃.mem s = .of d pcs p (ptr far) := by simp [ht₃, ht₂, ht₁, hnd]
  have hc₃ : CtxRep t₃ p fs := by simp [ht₃, ht₂, ht₁, hnd, hc]
  rw [ends_rotateSetParents hc₃ (by rw [hp₃, HevRBTreeNode.parentColor_of]) hta
    (fun q hq => ⟨(hok q (by simp [hq])).1, ne_of_mem_of_not_mem hq (by simp [hnd]),
      ne_of_mem_of_not_mem hq (by simp [hnd])⟩) hp0 hs0 hsp.symm]
  refine ⟨ctxRep_relink p ?_ (by simp [hnd]), ?_⟩
  · simp [hnd, hc₃]
  · simp [rotated, hnd, hnr, hp₃, hs₃, hx₃, hn₃, hf₃]

/-- Case 3: the inner child of the sibling is red, the outer one black. -/
theorem ends_eraseColorBlack_near {x a b far : Tree Ptr} {n : Ptr} {again : Ptr → Ptr → TreeM Unit}
    (hfar : far.color = .black) (hc : CtxRep t p fs)
    (hr : Rep t.mem (top fs) (join d c x p (join d .black (join d .red a n b) s far)))
    (hN : Nodes (p :: s :: n :: (x.toList ++ a.toList ++ b.toList ++ far.toList ++ elems fs))) :
    Ends (eraseColorBlack again d p s) t fun _ t' => CtxRep t' n fs ∧
      Rep t'.mem (top fs) (join d c (join d .black x p a) n
        (join d .black (b.setColor .black) s far)) := by
  obtain ⟨hp, hx, hs⟩ := (rep_join ..).1 hr
  obtain ⟨hs, hn, hf⟩ := (rep_join ..).1 hs
  obtain ⟨hn, ha, hb⟩ := (rep_join ..).1 hn
  rw [ptr_join] at hp hs
  obtain ⟨hnd, hok⟩ := id hN
  have hnr := List.nodup_reverse.2 hnd
  simp only [List.mem_cons, List.mem_append] at hok
  simp only [List.reverse_cons, List.reverse_append, List.append_assoc] at hnr
  simp [List.nodup_append', -List.nodup_reverse] at hnd hnr
  have hp0 : p ≠ 0 := (hok p (by simp)).1
  have hs0 : s ≠ 0 := (hok s (by simp)).1
  have hn0 : n ≠ 0 := (hok n (by simp)).1
  have hsa : Aligned s := (hok s (by simp)).2
  have hna : Aligned n := (hok n (by simp)).2
  have hns : n ≠ s := by simp [hnr]
  have hps : p ≠ s := hnd.1.1
  have hpn : p ≠ n := hnd.1.2.1
  simp only [eraseColorBlack, ends_bind, ends_child, hs, HevRBTreeNode.child_flip_of]
  refine ⟨hs0, ?_⟩
  rw [ends_isBlackOrNull hf hsa fun q hq => (hok q (by simp [hq])).1]
  simp only [hfar, decide_true, if_true, ends_bind, ends_child, hs, HevRBTreeNode.child_of]
  refine ⟨hs0, ?_⟩
  rw [← ptr_join d .red a n b, ends_isBlackOrNull ((rep_join ..).2 ⟨hn, ha, hb⟩) hsa, ptr_join]
  swap
  · intro q hq
    refine (hok q ?_).1
    cases d <;> simp [join] at hq <;> grind
  simp only [color_join, reduceCtorEq, decide_false, Bool.false_eq_true, if_false, ends_bind,
    ends_child, ends_setChild, hn, hs, hp, HevRBTree.mem_set, Function.update_of_ne hns,
    Function.update_of_ne hpn, Function.update_of_ne hps, HevRBTreeNode.child_flip_of,
    HevRBTreeNode.setChild_of, HevRBTreeNode.setChild_flip_of]
  refine ⟨hn0, hs0, hn0, hp0, ?_⟩
  set t₁ := ((t.set s (.of d (pack p .black) (ptr b) (ptr far))).set n
    (.of d (pack s .red) (ptr a) s)).set p (.of d (pack (top fs) c) (ptr x) n) with ht₁
  have hb₁ : Rep t₁.mem n b := by simp [ht₁, hnd, hb]
  rw [ends_repaint hb₁ fun q hq => (hok q (by simp [hq])).1]
  set t₂ := t₁.repaint b s .black with ht₂
  have hb₂ : Rep t₂.mem s (b.setColor .black) := rep_repaint hb₁ (by simp [hnd])
  have hs₂ : t₂.mem s = .of d (pack p .black) (ptr b) (ptr far) := by
    simp [ht₂, ht₁, hnd, hnr]
  have hf₂ : Rep t₂.mem s far := by simp [ht₂, ht₁, hnd, hf]
  have hfar₂ : Rep t₂.mem p (join d .black (b.setColor .black) s far) := by
    simp [hs₂, hb₂, hf₂]
  have hp₂ : t₂.mem p = .of d (pack (top fs) c) (ptr x) n := by simp [ht₂, ht₁, hnd]
  have hn₂ : t₂.mem n =
      .of d (pack s .red) (ptr a) (ptr (join d .black (b.setColor .black) s far)) := by
    simp [ht₂, ht₁, hnd, hnr]
  have hc₂ : CtxRep t₂ p fs := by simp [ht₂, ht₁, hnd, hc]
  have hx₂ : Rep t₂.mem p x := by simp [ht₂, ht₁, hnd, hnr, hx]
  have ha₂ : Rep t₂.mem n a := by simp [ht₂, ht₁, hnd, hnr, ha]
  have hN₂ : Nodes (p :: n :: (x.toList ++ a.toList ++
      (join d .black (b.setColor .black) s far).toList ++ elems fs)) := by
    refine hN.perm ?_
    clear * -
    cases d <;> simp only [join, toList_node, toList_setColor] <;> grind
  have h4 := ends_eraseColorCase4 hp₂ hn₂ hc₂ hx₂ ha₂ hna hfar₂
    (by cases d <;> simp [join]) hN₂
  simpa using h4

/-- Case 2: both children of the sibling are black. -/
theorem ends_eraseColorBlack_flip {x near far : Tree Ptr} {again : Ptr → Ptr → TreeM Unit}
    {Q : Unit → HevRBTree → Prop} (hnear : near.color = .black) (hfar : far.color = .black)
    (hc : CtxRep t p fs) (hr : Rep t.mem (top fs) (join d c x p (join d .black near s far)))
    (hN : Nodes (p :: s :: (x.toList ++ near.toList ++ far.toList ++ elems fs)))
    (hQ : ∀ t', CtxRep t' p fs → Rep t'.mem (top fs) (join d .black x p (join d .red near s far)) →
      if c = .red then Q () t' else Ends (whenNode (top fs) (again p (top fs))) t' Q) :
    Ends (eraseColorBlack again d p s) t Q := by
  obtain ⟨hp, hx, hs⟩ := (rep_join ..).1 hr
  obtain ⟨hs, hn, hf⟩ := (rep_join ..).1 hs
  rw [ptr_join] at hp
  obtain ⟨hnd, hok⟩ := hN
  have hnr := List.nodup_reverse.2 hnd
  simp only [List.mem_cons, List.mem_append] at hok
  simp only [List.reverse_cons, List.reverse_append, List.append_assoc] at hnr
  simp [List.nodup_append', -List.nodup_reverse] at hnd hnr
  have hp0 : p ≠ 0 := (hok p (by simp)).1
  have hs0 : s ≠ 0 := (hok s (by simp)).1
  have hsa : Aligned s := (hok s (by simp)).2
  have hta : Aligned (top fs) := aligned_top fun q hq => hok q (by simp [hq])
  have hps : p ≠ s := hnd.1.1
  simp only [eraseColorBlack, ends_bind, ends_child, hs, HevRBTreeNode.child_flip_of]
  refine ⟨hs0, ?_⟩
  rw [ends_isBlackOrNull hf hsa fun q hq => (hok q (by simp [hq])).1]
  simp only [hfar, decide_true, if_true, ends_bind, ends_child, hs, HevRBTreeNode.child_of]
  refine ⟨hs0, ?_⟩
  rw [ends_isBlackOrNull hn hsa fun q hq => (hok q (by simp [hq])).1]
  simp only [hnear, decide_true, if_true, ends_bind, ends_nodeSetParentColor, ends_nodeIsRed, hs,
    hp, HevRBTree.mem_set, HevRBTreeNode.setParentColor_of, Function.update_of_ne hps,
    HevRBTreeNode.parentColor_of, pack_and_one hta]
  refine ⟨hs0, hp0, ?_⟩
  set t₁ := t.set s (.of d (pack p .red) (ptr near) (ptr far)) with ht₁
  have hp₁ : t₁.mem p = .of d (pack (top fs) c) (ptr x) s := by simp [ht₁, hnd, hp]
  have hc₁ : CtxRep t₁ p fs := by simp [ht₁, hnd, hc]
  have hr₁ : Rep t₁.mem (top fs) (join d c x p (join d .red near s far)) := by
    simp [ht₁, hnd, hp, hx, hn, hf]
  cases c with
  | red =>
    simp only [show colorBits .red = 0 from rfl, decide_true, if_true, ends_nodeSetBlack, hp₁,
      HevRBTreeNode.parentColor_of, HevRBTreeNode.setParentColor_of, pack_or_black]
    refine ⟨hp0, hQ _ ?_ ?_⟩
    · simp [hnd, hc₁]
    · simp [ht₁, hnd, hnr, hx, hn, hf]
  | black =>
    simp only [show ¬ colorBits .black = 0 by decide, decide_false, Bool.false_eq_true, if_false,
      ends_bind, ends_nodeParent, hp₁, HevRBTreeNode.parentColor_of, pack_and_not hta]
    exact ⟨hp0, hQ t₁ hc₁ hr₁⟩

theorem ends_eraseColorBlack {x near far : Tree Ptr} {again : Ptr → Ptr → TreeM Unit}
    {up : Tree Ptr → Tree Ptr} (hc : CtxRep t p fs)
    (hr : Rep t.mem (top fs) (join d c x p (join d .black near s far)))
    (hN : Nodes (p :: s :: (x.toList ++ near.toList ++ far.toList ++ elems fs)))
    (hup : c = .black → ∀ t', CtxRep t' p fs →
      Rep t'.mem (top fs) (join d .black x p (join d .red near s far)) →
      Ends (whenNode (top fs) (again p (top fs))) t' fun _ t'' =>
        t''.Linked (up (join d .black x p (join d .red near s far)))) :
    Ends (eraseColorBlack again d p s) t fun _ t' =>
      t'.Linked (eraseBlack d c x p near s far (plug fs) up) := by
  rcases eraseBlack_cases d near far with h | ⟨h, a, n, b, rfl⟩ | ⟨h, hnb⟩
  · rw [eraseBlack_far _ _ _ _ _ _ h]
    obtain ⟨hp, hx, hs⟩ := (rep_join ..).1 hr
    obtain ⟨hs, hn, hf⟩ := (rep_join ..).1 hs
    rw [ptr_join] at hp
    have hs0 : s ≠ 0 := (hN.ok s (by simp)).1
    have hsa : Aligned s := (hN.ok s (by simp)).2
    have hfn : far ≠ nil := by
      rintro rfl
      cases h
    simp only [eraseColorBlack, ends_bind, ends_child, hs, HevRBTreeNode.child_flip_of]
    refine ⟨hs0, ?_⟩
    rw [ends_isBlackOrNull hf hsa fun q hq => (hN.ok q (by simp [hq])).1]
    simp only [h, decide_eq_true_eq, reduceCtorEq, if_false]
    exact (ends_eraseColorCase4 hp hs hc hx hn hsa hf hfn hN).mono fun _ t' h' =>
      linked_plug.2 (by simpa using h')
  · rw [eraseBlack_near _ _ _ _ _ _ _ _ h]
    have hN' : Nodes (p :: s :: n :: (x.toList ++ a.toList ++ b.toList ++ far.toList ++
        elems fs)) := by
      refine hN.perm ?_
      clear * -
      cases d <;> simp only [join, toList_node] <;> grind
    exact (ends_eraseColorBlack_near h hc hr hN').mono fun _ t' h' =>
      linked_plug.2 (by simpa using h')
  · rw [eraseBlack_flip _ _ _ _ _ hnb h]
    refine ends_eraseColorBlack_flip hnb h hc hr hN fun t' hc' hr' => ?_
    cases c with
    | red => simpa using linked_plug.2 ⟨by simpa using hc', hr'⟩
    | black => simpa using hup rfl t' hc' hr'

/-- Case 1: a red sibling is rotated up; the new sibling is black. -/
theorem ends_eraseColorSide_red {x near far : Tree Ptr} {s' : Ptr} {again : Ptr → Ptr → TreeM Unit}
    {far' : Tree Ptr} (hc : CtxRep t p fs)
    (hr : Rep t.mem (top fs) (join d c x p (join d .red (join d .black near s' far') s far)))
    (hN : Nodes (p :: s :: s' :: (x.toList ++ near.toList ++ far'.toList ++ far.toList ++
      elems fs))) :
    Ends (eraseColorSide again d p s) t fun _ t' => t'.Linked (eraseBlack d .red x p near s' far'
      (plug (⟨d, c, s, far⟩ :: fs)) (plug (⟨d, c, s, far⟩ :: fs))) := by
  obtain ⟨hp, hx, hs⟩ := (rep_join ..).1 hr
  obtain ⟨hs, hn, hf⟩ := (rep_join ..).1 hs
  obtain ⟨hs', hn, hf'⟩ := (rep_join ..).1 hn
  rw [ptr_join] at hp hs
  obtain ⟨hnd, hok⟩ := id hN
  have hnr := List.nodup_reverse.2 hnd
  simp only [List.mem_cons, List.mem_append] at hok
  simp only [List.reverse_cons, List.reverse_append, List.append_assoc] at hnr
  simp [List.nodup_append', -List.nodup_reverse] at hnd hnr
  have hp0 : p ≠ 0 := (hok p (by simp)).1
  have hs0 : s ≠ 0 := (hok s (by simp)).1
  have hs0' : s' ≠ 0 := (hok s' (by simp)).1
  have hpa : Aligned p := (hok p (by simp)).2
  have hta : Aligned (top fs) := aligned_top fun q hq => hok q (by simp [hq])
  have hps : p ≠ s := hnd.1.1
  have hsp : s ≠ p := hps.symm
  have hsp' : s' ≠ p := by simp [hnr]
  have hss' : s' ≠ s := by simp [hnr]
  simp only [eraseColorSide, ends_bind, ends_nodeIsRed, hs, HevRBTreeNode.parentColor_of,
    pack_and_one hpa, colorBits, decide_true, if_true, ends_child, HevRBTreeNode.child_of,
    ends_setChild, HevRBTree.mem_set, Function.update_of_ne hsp, hp, HevRBTreeNode.setChild_of,
    HevRBTreeNode.setChild_flip_of, ends_nodeSetParentColor, Function.update_of_ne hsp',
    Function.update_of_ne hss', hs', HevRBTreeNode.setParentColor_of]
  refine ⟨hs0, hs0, hp0, hs0, hs0', ?_⟩
  set t₁ := ((t.set p (.of d (pack (top fs) c) (ptr x) s')).set s
    (.of d (pack p .red) p (ptr far))).set s' (.of d (pack p .black) (ptr near) (ptr far')) with ht₁
  have hp₁ : t₁.mem p = .of d (pack (top fs) c) (ptr x) s' := by simp [ht₁, hnd]
  have hs₁ : t₁.mem s = .of d (pack p .red) p (ptr far) := by simp [ht₁, hnd]
  have hc₁ : CtxRep t₁ p fs := by simp [ht₁, hnd, hc]
  rw [ends_rotateSetParents hc₁ (by rw [hp₁, HevRBTreeNode.parentColor_of]) hta
    (fun q hq => ⟨(hok q (by simp [hq])).1, ne_of_mem_of_not_mem hq (by simp [hnd]),
      ne_of_mem_of_not_mem hq (by simp [hnd])⟩) hp0 hs0 hps]
  set t₂ := t₁.rotated fs p s .red with ht₂
  have hc₂ : CtxRep t₂ p (⟨d, c, s, far⟩ :: fs) := by
    refine ⟨?_, ?_, ctxRep_relink p ?_ (by simp [hnd])⟩
    · simp [ht₂, rotated, hnd, hnr, hp₁, hs₁]
    · simp [ht₂, rotated, ht₁, hnd, hnr, hf]
    · simp [hnd, hc₁]
  have hr₂ : Rep t₂.mem s (join d .red x p (join d .black near s' far')) := by
    simp [ht₂, rotated, ht₁, hnd, hnr, hx, hn, hf']
  have hN₂ : Nodes (p :: s' :: (x.toList ++ near.toList ++ far'.toList ++
      elems (⟨d, c, s, far⟩ :: fs))) := by
    refine hN.perm ?_
    clear * -
    simp only [elems]
    grind
  refine ends_eraseColorBlack hc₂ hr₂ hN₂ ?_
  intro h
  cases h

/-- A round is the half of the side of the node that lacks a black node. -/
theorem ends_eraseColorLoop_side {k : Nat} {x sib : Tree Ptr} {Q : Unit → HevRBTree → Prop}
    (hp : t.mem p = .of d (pack (top fs) c) (ptr x) (ptr sib)) (hp0 : p ≠ 0)
    (hne : ptr x ≠ ptr sib)
    (h : Ends (eraseColorSide (eraseColorLoop k) d p (ptr sib)) t Q) :
    Ends (eraseColorLoop (k + 1) (ptr x) p) t Q := by
  simp only [eraseColorLoop, ends_bind, ends_child, hp]
  refine ⟨hp0, ?_⟩
  cases d with
  | left => simpa [HevRBTreeNode.of, HevRBTreeNode.child, hne] using h
  | right => simpa [HevRBTreeNode.of, HevRBTreeNode.child, hp0, hp] using h

/-- **Removal repairs the tree**: where a subtree lacks a black node, `eraseColorLoop` ends with
    the tree that `eraseFix` describes. -/
theorem ends_eraseColorLoop {k n : Nat} {x : Tree Ptr} {f : Frame Ptr}
    (hc : CtxRep t (ptr x) (f :: fs)) (hr : Rep t.mem f.val x)
    (hN : Nodes (elems (f :: fs) ++ x.toList)) (hb : CtxBal (f :: fs) .black (n + 1))
    (hk : fs.length < k) :
    Ends (eraseColorLoop k (ptr x) f.val) t fun _ t' => t'.Linked (eraseFix (f :: fs) x) := by
  induction k generalizing t n x f fs with
  | zero => omega
  | succ k ih =>
    obtain ⟨d, c, p, sib⟩ := f
    have hp0 : p ≠ 0 := (hN.ok p (by simp [elems])).1
    have hsib : Bal sib (n + 1) := by
      cases c with
      | red => exact hb.2.2.1
      | black => exact hb.1
    obtain ⟨hp, hs, hc⟩ := hc
    have hne : ptr x ≠ ptr sib := by
      have hnd := hN.nodup
      simp [elems, List.nodup_append'] at hnd
      refine (ptr_ne_ptr ?_ (fun q hq => (hN.ok q (by simp [elems, hq])).1) (by simp [hnd])).symm
      rintro rfl
      cases hsib
    refine ends_eraseColorLoop_side hp hp0 hne ?_
    have hrj : Rep t.mem (top fs) (join d c x p sib) := (rep_join ..).2 ⟨hp, hr, hs⟩
    clear hp hne
    cases sib with
    | nil => cases hsib
    | node cs l s r =>
      obtain ⟨near, far, hj⟩ := exists_join d cs l s r
      rw [hj] at hb hsib hs hrj hN ⊢
      rw [ptr_join]
      clear hj
      cases cs with
      | black =>
        rw [eraseFix_black]
        have hpa : Aligned p := (hN.ok p (by simp [elems])).2
        have hs0 : s ≠ 0 := by
          refine (hN.ok s ?_).1
          cases d <;> simp [elems, join]
        have hN' : Nodes (p :: s :: (x.toList ++ near.toList ++ far.toList ++ elems fs)) := by
          refine hN.perm ?_
          clear * -
          cases d <;> simp only [elems, join, toList_node] <;> grind
        have hsc : (t.mem s).parentColor &&& 1 = colorBits .black := by
          rw [((rep_join ..).1 hs).1, HevRBTreeNode.parentColor_of, pack_and_one hpa]
        simp only [eraseColorSide, ends_bind, ends_nodeIsRed, hsc]
        refine ⟨hs0, ends_eraseColorBlack hc hrj hN' ?_⟩
        rintro rfl t' hc' hr'
        cases fs with
        | nil => simpa [whenNode, eraseFix] using linked_plug.2 ⟨by simpa using hc', hr'⟩
        | cons g fs =>
          have hN₂ : Nodes (elems (g :: fs) ++
              (join d .black x p (join d .red near s far)).toList) := by
            refine hN'.perm ?_
            clear * -
            cases d <;> simp only [join, toList_node] <;> grind
          have hg0 : g.val ≠ 0 := (hN₂.ok g.val (by simp [elems])).1
          rw [top_cons, whenNode, if_neg hg0]
          have h := ih (by simpa using hc') hr' hN₂ hb.2 (by simpa using hk)
          simpa using h
      | red =>
        obtain ⟨hnb, -, hnear, -⟩ := (bal_join_red ..).1 hsib
        obtain rfl : c = .black := by
          cases c with
          | black => rfl
          | red => exact absurd hb.2.1 (by simp)
        cases near with
        | nil => cases hnear
        | node c' l' s' r' =>
          obtain rfl : c' = .black := hnb
          obtain ⟨near', far', hj'⟩ := exists_join d .black l' s' r'
          rw [hj'] at hrj hN ⊢
          rw [eraseFix_red]
          refine ends_eraseColorSide_red hc hrj (hN.perm ?_)
          clear * -
          cases d <;> simp only [elems, join, toList_node] <;> grind

/-! ## Segments

  A segment is the part of a context below some node: `Seg m par h ls q` says
  that in `m` the frames `ls` are linked from the hole, which holds `h`, up to
  the topmost frame `q`, whose parent is `par`. -/

/-- The innermost node of a segment; `par` for the empty one. -/
def topOr (par : Ptr) : Ctx Ptr → Ptr
  | [] => par
  | f :: _ => f.val

def Seg (m : Ptr → HevRBTreeNode) (par : Ptr) : Ptr → Ctx Ptr → Ptr → Prop
  | h, [], q => q = h
  | h, f :: ls, q => m f.val = .of f.dir (pack (topOr par ls) f.color) h (ptr f.sib) ∧
      Rep m f.val f.sib ∧ Seg m par f.val ls q

section
variable {m m' : Ptr → HevRBTreeNode} {par par' h h' q : Ptr} {f : Frame Ptr} {ls : Ctx Ptr}

theorem top_append : top (ls ++ fs) = topOr (top fs) ls := by
  cases ls <;> rfl

theorem seg_congr (hm : ∀ x ∈ elems ls, m x = m' x) : Seg m par h ls q ↔ Seg m' par h ls q := by
  induction ls generalizing h with
  | nil => exact Iff.rfl
  | cons f ls ih =>
    simp only [elems, List.mem_cons, List.mem_append] at hm
    simp only [Seg, hm f.val (Or.inl rfl), rep_congr fun x hx => hm x (Or.inr (Or.inl hx)),
      ih fun x hx => hm x (Or.inr (Or.inr hx))]

theorem ctxRep_append : CtxRep t h (ls ++ fs) ↔ ∃ q, Seg t.mem (top fs) h ls q ∧ CtxRep t q fs := by
  induction ls generalizing h with
  | nil => simp [Seg]
  | cons f ls ih =>
    simp only [List.cons_append, CtxRep, Seg, ih, top_append]
    grind

theorem rep_plug {u : Tree Ptr} : Rep m par (plug ls u) ↔
    Seg m par (ptr u) ls (ptr (plug ls u)) ∧ Rep m (topOr par ls) u := by
  induction ls generalizing u with
  | nil => simp [Seg, topOr]
  | cons f ls ih =>
    rw [plug_cons, ih]
    simp only [Seg, topOr, rep_join, ptr_join]
    tauto

/-- The hole of a segment gets another content. -/
theorem seg_setChild (h' : Ptr) (hs : Seg m par h (f :: ls) q) (hn : (elems (f :: ls)).Nodup) :
    Seg (Function.update m f.val ((m f.val).setChild f.dir h')) par h' (f :: ls) q := by
  simp only [elems, List.nodup_cons, List.mem_append, not_or] at hn
  refine ⟨?_, (rep_update hn.1.1).2 hs.2.1, (seg_congr ?_).1 hs.2.2⟩
  · rw [Function.update_self, hs.1, HevRBTreeNode.setChild_of]
  · intro x hx
    rw [Function.update_of_ne (ne_of_mem_of_not_mem hx hn.1.2)]

theorem seg_root_mem (hs : Seg m par h (f :: ls) q) : q ∈ elems (f :: ls) := by
  induction ls generalizing h f with
  | nil => exact List.mem_cons.2 (Or.inl hs.2.2)
  | cons g ls ih =>
    have hq := ih hs.2.2
    exact List.mem_cons_of_mem _ (List.mem_append.2 (Or.inr hq))

/-- The topmost frame of a segment gets another parent. -/
theorem seg_setParent (par' : Ptr) (hs : Seg m par h (f :: ls) q) (hn : (elems (f :: ls)).Nodup)
    (hp : Aligned par) :
    Seg (Function.update m q ((m q).setParentColor (((m q).parentColor &&& 1) ||| par'))) par' h
      (f :: ls) q := by
  induction ls generalizing h f with
  | nil =>
    obtain ⟨hf, hr, rfl⟩ := hs
    simp only [elems, List.nodup_cons, List.mem_append, not_or] at hn
    refine ⟨?_, (rep_update hn.1.1).2 hr, rfl⟩
    simp [hf, topOr, pack_and_one hp, colorBits_or]
  | cons g ls ih =>
    obtain ⟨hf, hr, hs⟩ := hs
    have hq : q ∈ elems (g :: ls) := seg_root_mem hs
    rw [elems, List.nodup_cons, List.mem_append, not_or] at hn
    have hn' := List.nodup_append'.1 hn.2
    refine ⟨?_, (rep_update fun h => hn'.2.2 h hq).2 hr, ih hs hn'.2.1⟩
    rw [Function.update_of_ne (ne_of_mem_of_not_mem hq hn.1.2).symm, hf]
    rfl

end

/-! ## Unlinking -/

theorem ends_successorLoop {k : Nat} {par : Ptr} {gs ls : Ctx Ptr} {u sr : Tree Ptr} {cs : Color}
    (hl : leftmost gs u = some (ls, cs, s, sr)) (hr : Rep t.mem (topOr par gs) u)
    (h0 : ∀ x ∈ u.toList, x ≠ 0) (hk : u.toList.length ≤ k) :
    Ends (successorLoop k (topOr par gs) (ptr u)) t fun r t' => r = (topOr par ls, s) ∧ t' = t := by
  induction gs, u using leftmost.induct generalizing k with
  | case1 gs => cases hl
  | case2 gs c a r =>
    simp only [leftmost, Option.some.injEq, Prod.mk.injEq] at hl
    obtain ⟨rfl, rfl, rfl, rfl⟩ := hl
    obtain ⟨k, rfl⟩ : ∃ j, k = j + 1 := ⟨k - 1, by simp at hk; omega⟩
    simp [successorLoop, hr.1, HevRBTreeNode.child, h0 a (by simp)]
  | case3 gs c c' l' a' r' a r ih =>
    obtain ⟨k, rfl⟩ : ∃ j, k = j + 1 := ⟨k - 1, by simp at hk; omega⟩
    have ha : a ≠ 0 := h0 a (by simp)
    have ha' : a' ≠ 0 := h0 a' (by simp)
    have h := ih hl hr.2.1 (fun x hx => h0 x (by simp at hx ⊢; tauto)) (k := k)
      (by simp at hk ⊢; omega)
    simp only [successorLoop, ends_bind, ends_child, ptr_node, hr.1, HevRBTreeNode.child,
      if_neg ha']
    exact ⟨ha, h⟩

/-- What `takeSuccessor` leaves: the successor `s` is out of its place in the
    right subtree, which hangs below it. -/
structure Taken (t t' : HevRBTree) (ls : Ctx Ptr) (s : Ptr) (sr : Tree Ptr) : Prop where
  seg : Seg t'.mem s (ptr sr) ls (t'.mem s).right
  parentColor : (t'.mem s).parentColor = (t.mem s).parentColor
  rep : Rep t'.mem s sr
  root : t'.root = t.root
  frame : ∀ x, x ∉ elems ls → x ≠ s → t'.mem x = t.mem x

theorem ends_takeSuccessor {c' cs : Color} {l' r' sr : Tree Ptr} {a' : Ptr} {ls : Ctx Ptr}
    (hl : leftmost [] (node c' l' a' r') = some (ls, cs, s, sr))
    (hr : Rep t.mem p (node c' l' a' r')) (hpa : Aligned p)
    (hN : Nodes (node c' l' a' r').toList) :
    Ends (takeSuccessor a') t fun r t' =>
      r = (topOr s ls, s, ptr sr) ∧ Taken t t' ls s sr := by
  have ha' : a' ≠ 0 := (hN.ok a' (by simp)).1
  simp only [takeSuccessor, ends_bind, ends_child, hr.1, HevRBTreeNode.child]
  refine ⟨ha', ?_⟩
  cases l' with
  | nil =>
    simp only [leftmost, Option.some.injEq, Prod.mk.injEq] at hl
    obtain ⟨rfl, rfl, rfl, rfl⟩ := hl
    simp only [ptr_nil, if_true, ends_bind, ends_child, hr.1, HevRBTreeNode.child, ends_pure]
    refine ⟨ha', rfl, ?_, rfl, hr.2.2, rfl, fun _ _ _ => rfl⟩
    simp [Seg, hr.1]
  | node cl ll al rl =>
    have hal : al ≠ 0 := (hN.ok al (by simp)).1
    obtain ⟨ls₀, c₀, s₀, sr₀, h1, h2, h3⟩ :=
      leftmost_spec [⟨.left, c', a', r'⟩] (node cl ll al rl) (by simp)
    have hleft : ∀ f ∈ ls₀ ++ [⟨.left, c', a', r'⟩], f.dir = .left := by
      rintro f hf
      rcases List.mem_append.1 hf with hf | hf
      · exact h3 f hf
      · rw [List.mem_singleton.1 hf]
    have hplug : plug (ls₀ ++ [⟨.left, c', a', r'⟩]) (node c₀ nil s₀ sr₀) =
        node c' (node cl ll al rl) a' r' := by
      rw [plug_append, h2]
      rfl
    rw [leftmost, h1] at hl
    simp only [Option.some.injEq, Prod.mk.injEq] at hl
    obtain ⟨rfl, rfl, rfl, rfl⟩ := hl
    have hloop : Ends (successorLoop fuel a' al) t fun r t' =>
        r = (topOr p (ls₀ ++ [⟨.left, c', a', r'⟩]), s₀) ∧ t' = t := by
      have hlen := hN.length_lt
      exact ends_successorLoop (u := node cl ll al rl) h1
        hr.2.1 (fun x hx => (hN.ok x (by simp at hx ⊢; tauto)).1) (by simp at hlen ⊢; omega)
    obtain ⟨g, ls, hls⟩ : ∃ g ls, ls₀ ++ [⟨.left, c', a', r'⟩] = g :: ls := by
      cases ls₀ with
      | nil => exact ⟨_, _, rfl⟩
      | cons g ls => exact ⟨_, _, rfl⟩
    rw [hls] at hplug hleft hloop ⊢
    have hg : g.dir = .left := hleft g (by simp)
    rw [← hplug] at hr hN
    obtain ⟨hseg, hrs⟩ := rep_plug.1 hr
    rw [hplug, ptr_node] at hseg
    have hN' := hN.perm (perm_plug _ _)
    clear hN hr hplug hls h1 h2 h3 hleft
    obtain ⟨hnd, hok⟩ := hN'
    simp only [toList_node, toList_nil, List.nil_append, List.nodup_append', List.nodup_cons,
      List.disjoint_cons_right, List.mem_append, List.mem_cons] at hnd hok
    have hg0 : g.val ≠ 0 := (hok g.val (by simp [elems])).1
    have hs0 : s₀ ≠ 0 := (hok s₀ (by simp)).1
    have ha's : a' ≠ s₀ := ne_of_mem_of_not_mem (seg_root_mem hseg) hnd.2.2.1
    have hgs : g.val ≠ s₀ := ne_of_mem_of_not_mem (by simp [elems]) hnd.2.2.1
    have hga' : g.val ∈ elems (g :: ls) := by simp [elems]
    have hmg := hseg.1
    rw [if_neg (show ptr (node cl ll al rl) ≠ 0 from hal), ends_bind]
    refine hloop.mono ?_
    rintro _ t' ⟨rfl, ht⟩
    rw [ht]
    simp only [topOr, ends_bind, ends_child, ends_setChild, ends_nodeSetParent, HevRBTree.mem_set,
      hrs.1, HevRBTreeNode.child, ends_pure]
    refine ⟨hs0, hg0, hs0, ha', trivial, ?_⟩
    have hseg₁ := seg_setChild (ptr sr₀) hseg hnd.1
    rw [hg] at hseg₁
    set m₁ := Function.update t.mem g.val ((t.mem g.val).setChild .left (ptr sr₀)) with hm₁
    have hs₁ : m₁ s₀ = ⟨pack g.val c₀, ptr sr₀, 0⟩ := by
      rw [hm₁, Function.update_of_ne hgs.symm, hrs.1]
      rfl
    set m₂ := Function.update m₁ s₀ ((m₁ s₀).setChild .right a') with hm₂
    have hseg₂ : Seg m₂ p (ptr sr₀) (g :: ls) a' := (seg_congr fun x hx =>
      (Function.update_of_ne (ne_of_mem_of_not_mem hx hnd.2.2.1) ..).symm).1 hseg₁
    have hseg₃ := seg_setParent s₀ hseg₂ hnd.1 hpa
    have hsr : ∀ x ∈ sr₀.toList, x ≠ a' ∧ x ≠ s₀ ∧ x ≠ g.val := fun x hx =>
      ⟨fun h => hnd.2.2.2 (h ▸ seg_root_mem hseg) hx, fun h => hnd.2.1.1 (h ▸ hx),
        fun h => hnd.2.2.2 (h ▸ hga') hx⟩
    have hs₂ : m₂ s₀ = ⟨pack g.val c₀, a', 0⟩ := by
      rw [hm₂, Function.update_self, hs₁]
      rfl
    set m₃ := Function.update m₂ a' ((m₂ a').setParentColor
      (((m₂ a').parentColor &&& 1) ||| s₀)) with hm₃
    have hs₃ : m₃ s₀ = ⟨pack g.val c₀, a', 0⟩ := by
      rw [hm₃, Function.update_of_ne ha's.symm, hs₂]
    change Taken t ⟨t.root, m₃⟩ (g :: ls) s₀ sr₀
    refine ⟨?_, ?_, ?_, rfl, ?_⟩
    · show Seg m₃ s₀ (ptr sr₀) (g :: ls) (m₃ s₀).right
      rwa [hs₃]
    · show (m₃ s₀).parentColor = _
      rw [hs₃, hrs.1]
      rfl
    · refine (rep_congr fun x hx => ?_).1 hrs.2.2
      obtain ⟨h1, h2, h3⟩ := hsr x hx
      simp [hm₃, hm₂, hm₁, Function.update_of_ne h1, Function.update_of_ne h2,
        Function.update_of_ne h3]
    · intro x hx hxs
      have h1 : x ≠ a' := fun h => hx (h ▸ seg_root_mem hseg)
      have h3 : x ≠ g.val := fun h => hx (h ▸ hga')
      simp [hm₃, hm₂, hm₁, Function.update_of_ne h1, Function.update_of_ne hxs,
        Function.update_of_ne h3]

/-- Where to rebalance after a node of colour `c` with the one child `x` is
    taken out below `gs`. -/
def rebalanceAt (gs : Ctx Ptr) (c : Color) : Tree Ptr → Ptr
  | nil => if c = .black then top gs else 0
  | node _ _ _ _ => 0

/-- What `eraseNode` leaves: `x` has the place and the colour of a node taken
    out below `gs`, and `b` is where to rebalance. -/
structure Unlinked (t : HevRBTree) (b : Ptr) (gs : Ctx Ptr) (c : Color) (x : Tree Ptr) : Prop where
  ctx : CtxRep t (ptr x) gs
  rep : Rep t.mem (top gs) (x.setColor c)
  rebalance : b = rebalanceAt gs c x

theorem unlinked_relink {x : Tree Ptr} (hc : CtxRep t p fs) (hx : Rep t.mem p x)
    (hN : Nodes (x.toList ++ elems fs)) :
    Unlinked ((relink t fs (ptr x)).repaint x (top fs) c) (rebalanceAt fs c x) fs c x := by
  obtain ⟨hnd, hok⟩ := hN
  have hnr := List.nodup_reverse.2 hnd
  simp only [List.reverse_append] at hnr
  simp [List.nodup_append', -List.nodup_reverse] at hnd hnr
  refine ⟨?_, rep_repaint (show Rep (t.relink fs (ptr x)).mem p x from ?_) hnd.1, rfl⟩
  · simpa [hnd] using ctxRep_relink _ hc (by simp [hnd])
  · simpa [hnr] using hx

theorem ends_eraseNode_left {r : Tree Ptr} (hc : CtxRep t p fs)
    (hr : Rep t.mem (top fs) (node c nil p r)) (hN : Nodes (p :: (r.toList ++ elems fs))) :
    Ends (eraseNode p) t fun b t' => Unlinked t' b fs c r := by
  have hp0 : p ≠ 0 := (hN.ok p (by simp)).1
  have hta : Aligned (top fs) := aligned_top fun q hq => hN.ok q (by simp [hq])
  have hnd := hN.nodup
  simp only [List.nodup_cons, List.mem_append, not_or, List.nodup_append'] at hnd
  have hpf : ∀ x ∈ elems fs, x ≠ 0 ∧ x ≠ p := fun x hx =>
    ⟨(hN.ok x (by simp [hx])).1, ne_of_mem_of_not_mem hx hnd.1.2⟩
  have hN' : Nodes (r.toList ++ elems fs) :=
    ⟨(List.nodup_cons.1 hN.nodup).2, fun x hx => hN.ok x (List.mem_cons_of_mem _ hx)⟩
  have hu := unlinked_relink (c := c) hc hr.2.2 hN'
  simp only [eraseNode, ends_bind, ends_load, hr.1, ptr_nil, if_true, pcParent, pack_and_not hta]
  refine ⟨hp0, hp0, hp0, ?_⟩
  rw [ends_changeChild _ _ hc hpf hp0]
  cases r with
  | nil =>
    have hb : pcIsBlack (pack (top fs) c) = decide (c = .black) := by
      cases c <;> simp [pcIsBlack, pack_and_one hta, hta.and_one, colorBits]
    simpa [hb, repaint, rebalanceAt] using hu
  | node cr lr ar rr =>
    have har : ar ≠ 0 := (hN'.ok ar (by simp)).1
    have h0 : ∀ x ∈ (node cr lr ar rr).toList, x ≠ 0 := fun x hx =>
      (hN'.ok x (List.mem_append.2 (Or.inl hx))).1
    have hx : Rep (relink t fs ar).mem p (node cr lr ar rr) :=
      (rep_relink fun _ h h' => hnd.2.2.2 h' h).2 hr.2.2
    rw [if_pos (show ptr (node cr lr ar rr) ≠ 0 from har), ends_bind]
    exact (ends_nodeSetParentColor_ptr hx (by simp) h0).2 ((ends_pure ..).2 hu)

theorem ends_eraseNode_right {l : Tree Ptr} (hl : l ≠ nil) (hc : CtxRep t p fs)
    (hr : Rep t.mem (top fs) (node c l p nil)) (hN : Nodes (p :: (l.toList ++ elems fs))) :
    Ends (eraseNode p) t fun b t' => Unlinked t' b fs c l := by
  have hp0 : p ≠ 0 := (hN.ok p (by simp)).1
  have hta : Aligned (top fs) := aligned_top fun q hq => hN.ok q (by simp [hq])
  have hnd := hN.nodup
  simp only [List.nodup_cons, List.mem_append, not_or, List.nodup_append'] at hnd
  have hpf : ∀ x ∈ elems fs, x ≠ 0 ∧ x ≠ p := fun x hx =>
    ⟨(hN.ok x (by simp [hx])).1, ne_of_mem_of_not_mem hx hnd.1.2⟩
  have h0 : ∀ x ∈ l.toList, x ≠ 0 := fun x hx => (hN.ok x (by simp [hx])).1
  have hl0 : ptr l ≠ 0 := h0 _ (ptr_mem hl)
  simp only [eraseNode, ends_bind, ends_load, hr.1, ptr_nil, if_true, pcParent, pack_and_not hta,
    if_neg hl0]
  refine ⟨hp0, hp0, hp0, ?_⟩
  refine (ends_nodeSetParentColor_ptr hr.2.1 hl h0).2 ?_
  have hc₁ : CtxRep (t.repaint l (top fs) c) p fs := (ctxRep_repaint hnd.2.2.2).2 hc
  rw [ends_changeChild _ _ hc₁ hpf hp0, ends_pure]
  refine ⟨ctxRep_relink _ hc₁ hnd.2.2.1, ?_, ?_⟩
  · refine (rep_relink ?_).2 (rep_repaint hr.2.1 hnd.2.1)
    rw [toList_setColor]
    exact fun _ h h' => hnd.2.2.2 h' h
  · cases l with
    | nil => exact absurd rfl hl
    | node cl ll al rl => rfl

/-- `s` closes the gap between a segment, the subtree `l` and the context. -/
theorem ctxRep_close {l : Tree Ptr} {ls : Ctx Ptr} {h q : Ptr} (hseg : Seg t.mem s h ls q)
    (hl : Rep t.mem s l) (hc : CtxRep t s fs) (hsls : s ∉ elems ls) (hsl : s ∉ l.toList)
    (hsf : s ∉ elems fs) :
    CtxRep (t.set s ⟨pack (top fs) c, q, ptr l⟩) h (ls ++ ⟨.right, c, s, l⟩ :: fs) := by
  refine ctxRep_append.2 ⟨q, (seg_congr fun x hx => ?_).1 hseg, ?_, ?_, ?_⟩
  · rw [HevRBTree.mem_set, Function.update_of_ne (ne_of_mem_of_not_mem hx hsls)]
  · exact Function.update_self ..
  · exact (rep_update hsl).2 hl
  · exact (ctxRep_set hsf).2 hc

/-- The successor `s` takes the place of `p` between `l`, the rest of the right
    subtree and the context. -/
theorem ends_eraseNode_both {cs : Color} {l r sr : Tree Ptr} {ls : Ctx Ptr} (hl : l ≠ nil)
    (hlm : leftmost [] r = some (ls, cs, s, sr)) (hcs : sr ≠ nil → cs = .black)
    (hc : CtxRep t p fs) (hr : Rep t.mem (top fs) (node c l p r))
    (hN : Nodes (p :: (l.toList ++ r.toList ++ elems fs))) :
    Ends (eraseNode p) t fun b t' =>
      Unlinked t' b (ls ++ ⟨.right, c, s, l⟩ :: fs) cs sr := by
  have hrn : r ≠ nil := by
    rintro rfl
    cases hlm
  have hrp : ptr r ≠ 0 := (hN.ok _ (by simp [ptr_mem hrn])).1
  have hpa : Aligned p := (hN.ok p (by simp)).2
  have hrr := hr.2.2
  obtain ⟨ls₀, c₀, s₀, sr₀, h1, h2, -⟩ := leftmost_spec [] r hrn
  rw [hlm, List.append_nil] at h1
  simp only [Option.some.injEq, Prod.mk.injEq] at h1
  obtain ⟨rfl, rfl, rfl, rfl⟩ := h1
  have hperm : r.toList.Perm (elems ls ++ s :: sr.toList) := by
    rw [← h2]
    exact perm_plug ls (node cs nil s sr)
  have hNr : Nodes r.toList := by
    have hnd := hN.nodup
    simp only [List.nodup_cons, List.nodup_append'] at hnd
    exact ⟨hnd.2.1.2.1, fun x hx => hN.ok x (by simp [hx])⟩
  have hN' : Nodes (p :: s :: (l.toList ++ sr.toList ++ elems ls ++ elems fs)) := by
    refine hN.perm ?_
    clear * - hperm
    grind
  have htake : Ends (takeSuccessor (ptr r)) t fun x t' =>
      x = (topOr s ls, s, ptr sr) ∧ Taken t t' ls s sr := by
    cases r with
    | nil => exact absurd rfl hrn
    | node c' l' a' r' => exact ends_takeSuccessor hlm hrr hpa hNr
  have hs : (t.mem s).parentColor = pack (topOr p ls) cs := by
    rw [← h2] at hrr
    rw [(rep_plug.1 hrr).2.1]
  clear hNr hlm h2 hperm hrr hN
  obtain ⟨hnd, hok⟩ := hN'
  have hnr := List.nodup_reverse.2 hnd
  simp only [List.mem_cons, List.mem_append] at hok
  simp only [List.reverse_cons, List.reverse_append, List.append_assoc] at hnr
  simp [List.nodup_append', -List.nodup_reverse] at hnd hnr
  have hp0 : p ≠ 0 := (hok p (by simp)).1
  have hs0 : s ≠ 0 := (hok s (by simp)).1
  have hps : p ≠ s := hnd.1.1
  have hta : Aligned (top fs) := aligned_top fun q hq => hok q (by simp [hq])
  have hl0 : ∀ x ∈ l.toList, x ≠ 0 := fun x hx => (hok x (by simp [hx])).1
  have hsr0 : ∀ x ∈ sr.toList, x ≠ 0 := fun x hx => (hok x (by simp [hx])).1
  have hlp : ptr l ≠ 0 := hl0 _ (ptr_mem hl)
  have hll : l.toList.Disjoint (elems ls) := by simp [hnd]
  have hfl : (elems fs).Disjoint (elems ls) := by simp [hnr]
  simp only [eraseNode, ends_bind, ends_load, hr.1, if_neg hlp, if_neg hrp]
  refine ⟨hp0, hp0, htake.mono ?_⟩
  rintro _ t' ⟨rfl, hT⟩
  have hp₀ : t'.mem p = ⟨pack (top fs) c, ptr r, ptr l⟩ := by
    rw [hT.frame p (by simp [hnd]) hps, hr.1]
  have hl₀ : Rep t'.mem p l := (rep_congr fun x hx => by
    rw [hT.frame x (hll hx ·) (ne_of_mem_of_not_mem hx hnd.2.1.1)]).1 hr.2.1
  have hc₀ : CtxRep t' p fs := (ctxRep_congr hT.root.symm fun x hx => by
    rw [hT.frame x (hfl hx ·) (ne_of_mem_of_not_mem hx hnd.2.1.2.2.2)]).1 hc
  have hs₀ : t'.mem s = ⟨pack (topOr p ls) cs, (t'.mem s).right, (t'.mem s).left⟩ := by
    rw [← hs, ← hT.parentColor]
  simp only [ends_child, ends_setChild, hp₀, HevRBTreeNode.child]
  refine ⟨hp0, hs0, ?_⟩
  set t₁ := t'.set s ((t'.mem s).setChild .left (ptr l)) with ht₁
  have hl₁ : Rep t₁.mem p l := by simp [ht₁, hnd, hl₀]
  refine (ends_nodeSetParent_ptr hl₁ hl hpa hl0).2 ?_
  set t₂ := t₁.repaint l s l.color with ht₂
  have hp₂ : t₂.mem p = ⟨pack (top fs) c, ptr r, ptr l⟩ := by simp [ht₂, ht₁, hnd, hp₀]
  have hc₂ : CtxRep t₂ p fs := by simp [ht₂, ht₁, hnd, hc₀]
  have hl₂ : Rep t₂.mem s l := by
    have h := rep_repaint (q := s) (c := l.color) hl₁ hnd.2.2.1
    rwa [setColor_color] at h
  have hs₂ : t₂.mem s = ⟨pack (topOr p ls) cs, (t'.mem s).right, ptr l⟩ := by
    simp [ht₂, ht₁, hnd]
    rw [hs₀]
    rfl
  simp only [hp₂, pcParent, pack_and_not hta]
  rw [ends_changeChild _ _ hc₂ (fun x hx => ⟨(hok x (by simp [hx])).1, ne_of_mem_of_not_mem hx
    (by simp [hnd])⟩) hp0]
  refine ⟨hp0, ?_⟩
  set t₃ := t₂.relink fs s with ht₃
  have hseg₃ : Seg t₃.mem s (ptr sr) ls (t'.mem s).right := by
    refine (seg_congr fun x hx => ?_).1 hT.seg
    have hxs : x ≠ s := ne_of_mem_of_not_mem hx (by simp [hnd])
    rw [ht₃, mem_relink fun h => hfl h hx, ht₂, mem_repaint fun h => hll h hx, ht₁,
      HevRBTree.mem_set, Function.update_of_ne hxs]
  have hsr₃ : Rep t₃.mem s sr := by simp [ht₃, ht₂, ht₁, hnd, hnr, hT.rep]
  have hs₃ : t₃.mem s = ⟨pack (topOr p ls) cs, (t'.mem s).right, ptr l⟩ := by
    simp [ht₃, hnd, hs₂]
  have hc₃ : CtxRep t₃ s fs := ctxRep_relink _ hc₂ (by simp [hnd])
  have hl₃ : Rep t₃.mem s l := by simp [ht₃, hnr, hl₂]
  have hsrl : sr.toList.Disjoint l.toList := by simp [hnr]
  have hsls : s ∉ elems ls := by simp [hnd]
  have hsl : s ∉ l.toList := by simp [hnd]
  have hsf : s ∉ elems fs := by simp [hnd]
  clear_value t₃
  cases sr with
  | nil =>
    have htop : Aligned (topOr p ls) := by
      cases ls with
      | nil => exact hpa
      | cons f ls => exact (hok f.val (by simp [elems])).2
    have hb : decide (pack (topOr p ls) cs &&& 1 = 0) = decide (cs = .red) := by
      cases cs <;> simp [pack_and_one htop, htop.and_one, colorBits]
    simp only [ptr_nil, ne_eq, not_true_eq_false, if_false, ends_bind, ends_nodeIsBlack,
      ends_store, ends_pure, hs₃, hb]
    refine ⟨hs0, hs0, ctxRep_close hseg₃ hl₃ hc₃ hsls hsl hsf, trivial, ?_⟩
    rw [rebalanceAt, top_append]
    cases cs <;> rfl
  | node cr lr ar rr =>
    have har : ar ≠ 0 := hsr0 ar (by simp)
    obtain rfl : cs = .black := hcs (by simp)
    rw [if_pos (show ptr (node cr lr ar rr) ≠ 0 from har), ends_bind,
      ends_nodeSetParentColor_ptr hsr₃ (by simp) hsr0]
    set t₄ := t₃.repaint (node cr lr ar rr) (topOr s ls) .black with ht₄
    have hs₄ : t₄.mem s = ⟨pack (topOr p ls) .black, (t'.mem s).right, ptr l⟩ := by
      rw [ht₄, mem_repaint hnd.2.1.2.1, hs₃]
    have hsr₄ := rep_repaint (q := topOr s ls) (c := .black) hsr₃ hnd.2.2.2.1.1
    have hseg₄ : Seg t₄.mem s ar ls (t'.mem s).right := by
      refine (seg_congr fun x hx => ?_).1 hseg₃
      rw [ht₄, mem_repaint fun h => hnd.2.2.2.1.2.2.1 h hx]
    have hl₄ : Rep t₄.mem s l := (rep_repaint_of_disjoint hsrl).2 hl₃
    have hc₄ : CtxRep t₄ s fs := (ctxRep_repaint hnd.2.2.2.1.2.2.2).2 hc₃
    simp only [ends_bind, ends_store, ends_pure, hs₄]
    refine ⟨hs0, ctxRep_close hseg₄ hl₄ hc₄ hsls hsl hsf, ?_, rfl⟩
    rw [top_append]
    refine (rep_update ?_).2 hsr₄
    exact hnd.2.1.2.1

/-- Rebalancing ends a removal. -/
theorem ends_eraseOne {b : Ptr} {gs : Ctx Ptr} {x : Tree Ptr} (hu : Unlinked t b gs c x)
    (hN : Nodes (elems gs ++ x.toList)) (hb : x = nil → c = .black → CtxBal gs .black 1) :
    Ends (whenNode b (eraseColor b)) t fun _ t' => t'.Linked (eraseOne gs c x) := by
  obtain ⟨hc, hr, rfl⟩ := hu
  cases x with
  | node cx l a r =>
    have h : t.Linked (plug gs (node c l a r)) := linked_plug.2 ⟨hc, hr⟩
    simpa [rebalanceAt, whenNode, eraseOne] using h
  | nil =>
    cases c with
    | red => simpa [rebalanceAt, whenNode, eraseOne] using linked_plug.2 ⟨hc, hr⟩
    | black =>
      cases gs with
      | nil => simpa [rebalanceAt, whenNode, eraseOne, eraseFix] using linked_plug.2 ⟨hc, hr⟩
      | cons f gs =>
        have hf0 : f.val ≠ 0 := (hN.ok f.val (by simp [elems])).1
        have hlen : gs.length < fuel := by
          have h1 := hN.length_lt
          have h2 := length_le_elems gs
          simp only [elems, List.length_append, List.length_cons] at h1
          omega
        rw [rebalanceAt, if_pos rfl, top_cons, whenNode, if_neg hf0, eraseOne, if_pos rfl]
        exact ends_eraseColorLoop hc hr hN (hb rfl rfl) hlen

theorem ctxBal_one {n : Nat} {x : Tree Ptr} (hc : CtxBal fs c n) (h : Bal (join d c nil p x) n)
    (hb : c = .black) : CtxBal fs .black 1 := by
  subst hb
  cases n with
  | zero => exact absurd h (bal_join_black_zero d nil p x)
  | succ n =>
    obtain ⟨hn, -⟩ := (bal_join_black ..).1 h
    obtain rfl : n = 0 := hn
    exact hc

/-- **A node is taken out of a balanced tree.** -/
theorem ends_erase {n : Nat} {l r : Tree Ptr} (hc : CtxRep t p fs)
    (hr : Rep t.mem (top fs) (node c l p r)) (hN : Nodes (elems fs ++ (node c l p r).toList))
    (hf : CtxBal fs c n) (hb : Bal (node c l p r) n) :
    Ends (erase p) t fun _ t' => Shaped t' (eraseAt fs (node c l p r)) := by
  have hplug := hN.perm (perm_plug fs (node c l p r)).symm
  have hnodes : Nodes (eraseAt fs (node c l p r)).toList := by
    rw [toList_plug, toList_node] at hplug
    rw [toList_eraseAt]
    refine hplug.sublist ?_
    simp
  refine Ends.mono (Q := fun _ t' => t'.Linked (eraseAt fs (node c l p r))) ?_
    fun _ t' h => ⟨h, hnodes⟩
  have hp : Nodes (p :: (l.toList ++ r.toList ++ elems fs)) := hN.perm (by
    simp only [toList_node]
    grind)
  by_cases hl : l = nil
  · subst hl
    rw [eraseAt]
    refine (ends_eraseNode_left hc hr (by simpa using hp)).bind fun b t' hu => ?_
    refine ends_eraseOne hu (hN.sublist ?_) fun _ => ctxBal_one (d := .left) hf hb
    simp
  by_cases hrn : r = nil
  · subst hrn
    rw [eraseAt_right_nil]
    refine (ends_eraseNode_right hl hc hr (by simpa using hp)).bind fun b t' hu => ?_
    refine ends_eraseOne hu (hN.sublist ?_) fun _ => ctxBal_one (d := .right) hf hb
    simp
  · obtain ⟨ls, cs, s, sr, h1, h2, -⟩ := leftmost_spec [] r hrn
    rw [List.append_nil] at h1
    obtain ⟨⟨k, hgc, hgb⟩, hcs⟩ := bal_leftmost hf hb h1
    rw [eraseAt_both hl h1 hcs]
    refine (ends_eraseNode_both hl h1 hcs hc hr hp).bind fun b t' hu => ?_
    refine ends_eraseOne hu ?_ fun _ => ctxBal_one (d := .left) hgc hgb
    have hperm : r.toList.Perm (elems ls ++ s :: sr.toList) := by
      rw [← h2]
      exact perm_plug ls (node cs nil s sr)
    have hsub : Nodes (l.toList ++ r.toList ++ elems fs) :=
      hp.sublist (List.sublist_cons_self ..)
    refine hsub.perm ?_
    rw [elems_append]
    clear * - hperm
    simp only [elems]
    grind

/-! ## The first node -/

theorem ends_outmostLoop_leftmost {k : Nat} {par : Ptr} {gs ls : Ctx Ptr} {u sr : Tree Ptr}
    {cs : Color} (hl : leftmost gs u = some (ls, cs, s, sr)) (hr : Rep t.mem par u)
    (h0 : ∀ x ∈ u.toList, x ≠ 0) (hk : u.toList.length ≤ k) :
    Ends (outmostLoop .left k (ptr u)) t fun r t' => r = s ∧ t' = t := by
  induction gs, u using leftmost.induct generalizing k par with
  | case1 gs => cases hl
  | case2 gs c a r =>
    simp only [leftmost, Option.some.injEq, Prod.mk.injEq] at hl
    obtain ⟨rfl, rfl, rfl, rfl⟩ := hl
    obtain ⟨k, rfl⟩ : ∃ j, k = j + 1 := ⟨k - 1, by simp at hk; omega⟩
    simp [outmostLoop, hr.1, HevRBTreeNode.child, h0 a (by simp)]
  | case3 gs c c' l' a' r' a r ih =>
    obtain ⟨k, rfl⟩ : ∃ j, k = j + 1 := ⟨k - 1, by simp at hk; omega⟩
    have ha : a ≠ 0 := h0 a (by simp)
    have ha' : a' ≠ 0 := h0 a' (by simp)
    have h := ih hl hr.2.1 (fun x hx => h0 x (by simp at hx ⊢; tauto)) (k := k)
      (by simp at hk ⊢; omega)
    simp only [outmostLoop, ends_bind, ends_child, ptr_node, hr.1, HevRBTreeNode.child, if_neg ha']
    exact ⟨ha, h⟩

/-- `first` finds the leftmost node. -/
theorem ends_first {u : Tree Ptr} (h : Shaped t u) : Ends first t fun n t' => t' = t ∧
    (u = nil ∧ n = 0 ∨ ∃ gs c r, u = plug gs (node c nil n r) ∧ n ≠ 0) := by
  obtain ⟨⟨hroot, hr⟩, hN⟩ := h
  simp only [first, ends_bind, ends_get, hroot]
  by_cases hu : u = nil
  · subst hu
    simp
  · have hu0 : ptr u ≠ 0 := (hN.ok _ (ptr_mem hu)).1
    obtain ⟨ls, c, a, r, h1, h2, -⟩ := leftmost_spec [] u hu
    rw [if_neg hu0]
    refine (ends_outmostLoop_leftmost h1 hr (fun x hx => (hN.ok x hx).1)
      (Nat.le_of_lt hN.length_lt)).mono ?_
    rintro n _ ⟨rfl, rfl⟩
    refine ⟨rfl, Or.inr ⟨ls, c, r, ?_, (hN.ok n ?_).1⟩⟩
    · simpa using h2.symm
    · rw [← h2, toList_plug]
      simp

end HevRBTree

end HevSocks5
