/-
  Trees in memory.

  `Rep m par s`: in the memory `m`, the nodes of the tree `s` of addresses are
  linked as `s` says, and the root of `s` has the parent `par`; `CtxRep` is the
  same for a context and the root pointer.  A write to an address outside a
  tree keeps it (`rep_update`, `ctxRep_set`).

  `Shaped t s`: the tree `t` of the source has the shape `s`, and its nodes are
  at different addresses, none of them null.
-/
import HevSocks5.RBTree

namespace HevSocks5

open Total Shape Shape.Tree

/-! ## Packed parents -/

/-- An address that leaves room for the colour. -/
def Aligned (p : Ptr) : Prop := p &&& 3 = 0

/-- A parent pointer with a colour in its low bit. -/
def pack (p : Ptr) (c : Color) : UInt64 := p ||| colorBits c

theorem or_and_right (a b m : UInt64) : (a ||| b) &&& m = (a &&& m) ||| (b &&& m) := by
  apply UInt64.toBitVec_inj.1
  simp [BitVec.and_or_distrib_right]

theorem Aligned.and_not {p : Ptr} (h : Aligned p) : p &&& ~~~3 = p := by
  have hp : (3 ||| ~~~3) &&& p = p := by simp
  rw [or_and_right, UInt64.and_comm 3 p, show p &&& 3 = 0 from h, UInt64.and_comm] at hp
  simpa using hp

theorem Aligned.and_one {p : Ptr} (h : Aligned p) : p &&& 1 = 0 := by
  rw [show (1 : UInt64) = 3 &&& 1 by decide, ← UInt64.and_assoc, show p &&& 3 = 0 from h]
  simp

@[simp] theorem aligned_zero : Aligned 0 := rfl

theorem pack_and_not {p : Ptr} (h : Aligned p) (c : Color) : pack p c &&& ~~~3 = p := by
  have hc : colorBits c &&& ~~~3 = 0 := by cases c <;> decide
  rw [pack, or_and_right, h.and_not, hc]
  simp

theorem pack_and_one {p : Ptr} (h : Aligned p) (c : Color) : pack p c &&& 1 = colorBits c := by
  rw [pack, or_and_right, h.and_one]
  cases c <;> simp [colorBits]

@[simp] theorem pack_red (p : Ptr) : pack p .red = p := by simp [pack, colorBits]

theorem pack_or_black (p : Ptr) (c : Color) : pack p c ||| colorBits .black = pack p .black := by
  rw [pack, pack, UInt64.or_assoc]
  cases c <;> rfl

theorem colorBits_or (p : Ptr) (c : Color) : colorBits c ||| p = pack p c := UInt64.or_comm ..

/-! ## The representation -/

/-- The root of a tree of addresses; null for the empty tree. -/
def ptr : Tree Ptr → Ptr
  | nil => 0
  | node _ _ p _ => p

@[simp] theorem ptr_nil : ptr nil = 0 := rfl
@[simp] theorem ptr_node (c : Color) (l : Tree Ptr) (p : Ptr) (r : Tree Ptr) :
    ptr (node c l p r) = p := rfl
@[simp] theorem ptr_join (d : Dir) (c : Color) (l : Tree Ptr) (p : Ptr) (r : Tree Ptr) :
    ptr (join d c l p r) = p := by
  cases d <;> rfl
@[simp] theorem ptr_setColor (c : Color) (s : Tree Ptr) : ptr (s.setColor c) = ptr s := by
  cases s <;> rfl

/-- The innermost node of a context; null for the empty context. -/
def top : Ctx Ptr → Ptr
  | [] => 0
  | f :: _ => f.val

@[simp] theorem top_nil : top [] = 0 := rfl
@[simp] theorem top_cons (f : Frame Ptr) (fs : Ctx Ptr) : top (f :: fs) = f.val := rfl

/-- The node with `near` on the side `d` and `far` on the other. -/
def HevRBTreeNode.of (d : Dir) (pc : UInt64) (near far : Ptr) : HevRBTreeNode :=
  match d with
  | .left => ⟨pc, far, near⟩
  | .right => ⟨pc, near, far⟩

namespace HevRBTreeNode
variable (d : Dir) (pc : UInt64) (near far q : Ptr)

@[simp] theorem parentColor_of : (of d pc near far).parentColor = pc := by cases d <;> rfl
@[simp] theorem child_of : (of d pc near far).child d = near := by cases d <;> rfl
@[simp] theorem child_flip_of : (of d pc near far).child d.flip = far := by cases d <;> rfl
@[simp] theorem of_flip : of d.flip pc near far = of d pc far near := by cases d <;> rfl
@[simp] theorem setChild_of : (of d pc near far).setChild d q = of d pc q far := by cases d <;> rfl
@[simp] theorem setChild_flip_of : (of d pc near far).setChild d.flip q = of d pc near q := by
  cases d <;> rfl
@[simp] theorem setParentColor_of : (of d pc near far).setParentColor q = of d q near far := by
  cases d <;> rfl

end HevRBTreeNode

@[simp] theorem HevRBTree.root_set (t : HevRBTree) (p : Ptr) (n : HevRBTreeNode) :
    (t.set p n).root = t.root := rfl

@[simp] theorem HevRBTree.mem_set (t : HevRBTree) (p : Ptr) (n : HevRBTreeNode) :
    (t.set p n).mem = Function.update t.mem p n := rfl

/-- In the memory `m` the tree `s` is linked, under the parent `par`. -/
def Rep (m : Ptr → HevRBTreeNode) (par : Ptr) : Tree Ptr → Prop
  | nil => True
  | node c l p r => m p = ⟨pack par c, ptr r, ptr l⟩ ∧ Rep m p l ∧ Rep m p r

/-- In the tree `t` the context `fs` is linked, above a subtree with the root `h`. -/
def CtxRep (t : HevRBTree) (h : Ptr) : Ctx Ptr → Prop
  | [] => t.root = h
  | f :: fs => t.mem f.val = .of f.dir (pack (top fs) f.color) h (ptr f.sib) ∧
      Rep t.mem f.val f.sib ∧ CtxRep t f.val fs

/-- The addresses of the nodes of a context. -/
def elems : Ctx Ptr → List Ptr
  | [] => []
  | f :: fs => f.val :: (f.sib.toList ++ elems fs)

@[simp] theorem rep_nil (m : Ptr → HevRBTreeNode) (par : Ptr) : Rep m par nil := trivial

@[simp] theorem rep_join (m : Ptr → HevRBTreeNode) (par : Ptr) (d : Dir) (c : Color)
    (s : Tree Ptr) (p : Ptr) (u : Tree Ptr) :
    Rep m par (join d c s p u) ↔
      m p = .of d (pack par c) (ptr s) (ptr u) ∧ Rep m p s ∧ Rep m p u := by
  cases d
  · exact Iff.rfl
  · exact and_congr_right fun _ => And.comm

theorem rep_congr {m m' : Ptr → HevRBTreeNode} {par : Ptr} {s : Tree Ptr}
    (h : ∀ p ∈ s.toList, m p = m' p) : Rep m par s ↔ Rep m' par s := by
  induction s generalizing par with
  | nil => exact Iff.rfl
  | node c l p r ihl ihr =>
    simp only [toList_node, List.mem_append, List.mem_cons] at h
    simp only [Rep, h p (by simp), ihl fun q hq => h q (Or.inl hq),
      ihr fun q hq => h q (Or.inr (Or.inr hq))]

theorem ctxRep_congr {t t' : HevRBTree} {h : Ptr} {fs : Ctx Ptr} (hr : t.root = t'.root)
    (hm : ∀ p ∈ elems fs, t.mem p = t'.mem p) : CtxRep t h fs ↔ CtxRep t' h fs := by
  induction fs generalizing h with
  | nil => simp only [CtxRep, hr]
  | cons f fs ih =>
    simp only [elems, List.mem_cons, List.mem_append] at hm
    simp only [CtxRep, hm f.val (Or.inl rfl), rep_congr fun q hq => hm q (Or.inr (Or.inl hq)),
      ih fun q hq => hm q (Or.inr (Or.inr hq))]

@[simp] theorem rep_update {m : Ptr → HevRBTreeNode} {par p : Ptr} {n : HevRBTreeNode}
    {s : Tree Ptr} (h : p ∉ s.toList) : Rep (Function.update m p n) par s ↔ Rep m par s :=
  rep_congr fun _ hq => Function.update_of_ne (ne_of_mem_of_not_mem hq h) ..

@[simp] theorem ctxRep_set {t : HevRBTree} {h p : Ptr} {n : HevRBTreeNode} {fs : Ctx Ptr}
    (hp : p ∉ elems fs) : CtxRep (t.set p n) h fs ↔ CtxRep t h fs :=
  ctxRep_congr rfl fun _ hq => Function.update_of_ne (ne_of_mem_of_not_mem hq hp) ..

/-- The tree `t` is linked as the shape `s`. -/
def HevRBTree.Linked (t : HevRBTree) (s : Tree Ptr) : Prop :=
  t.root = ptr s ∧ Rep t.mem 0 s

theorem linked_plug {t : HevRBTree} {fs : Ctx Ptr} {s : Tree Ptr} :
    t.Linked (plug fs s) ↔ CtxRep t (ptr s) fs ∧ Rep t.mem (top fs) s := by
  induction fs generalizing s with
  | nil => exact Iff.rfl
  | cons f fs ih =>
    rw [plug_cons, ih]
    simp only [rep_join, ptr_join, CtxRep, top_cons]
    tauto

theorem perm_plug (fs : Ctx Ptr) (s : Tree Ptr) :
    (plug fs s).toList.Perm (elems fs ++ s.toList) := by
  induction fs generalizing s with
  | nil => simp [elems]
  | cons f fs ih =>
    refine (ih _).trans ?_
    obtain ⟨d, c, p, u⟩ := f
    cases d <;> simp only [join, toList_node, elems] <;> grind

theorem elems_append (fs gs : Ctx Ptr) : elems (fs ++ gs) = elems fs ++ elems gs := by
  induction fs with
  | nil => rfl
  | cons f fs ih => simp [elems, ih]

theorem length_le_elems (fs : Ctx Ptr) : fs.length ≤ (elems fs).length := by
  induction fs with
  | nil => exact Nat.le_refl 0
  | cons f fs ih =>
    simp only [elems, List.length_cons, List.length_append]
    omega

/-- Addresses of different nodes. -/
structure Nodes (l : List Ptr) : Prop where
  nodup : l.Nodup
  ok : ∀ p ∈ l, p ≠ 0 ∧ Aligned p

theorem Nodes.perm {l l' : List Ptr} (h : Nodes l) (hp : l.Perm l') : Nodes l' :=
  ⟨hp.nodup_iff.1 h.nodup, fun p hm => h.ok p (hp.mem_iff.2 hm)⟩

theorem Nodes.sublist {l l' : List Ptr} (h : Nodes l) (hs : l'.Sublist l) : Nodes l' :=
  ⟨h.nodup.sublist hs, fun p hp => h.ok p (hs.subset hp)⟩

/-- There are fewer nodes than addresses, as none is at the null address. -/
theorem Nodes.length_lt {l : List Ptr} (h : Nodes l) : l.length < fuel := by
  have h0 : (0 :: l).Nodup := List.nodup_cons.2 ⟨fun h0 => (h.ok 0 h0).1 rfl, h.nodup⟩
  have hm : ((0 :: l).map UInt64.toNat).Nodup := h0.map fun _ _ => UInt64.toNat_inj.1
  have hsub : (0 :: l).map UInt64.toNat ⊆ List.range fuel := by
    intro x hx
    obtain ⟨p, -, rfl⟩ := List.mem_map.1 hx
    exact List.mem_range.2 p.toNat_lt
  have hlen := (List.subperm_of_subset hm hsub).length_le
  simp only [List.length_map, List.length_cons, List.length_range] at hlen
  omega

theorem aligned_top {fs : Ctx Ptr} (h : ∀ p ∈ elems fs, p ≠ 0 ∧ Aligned p) : Aligned (top fs) := by
  cases fs with
  | nil => exact aligned_zero
  | cons f fs => exact (h f.val (by simp [elems])).2

theorem ptr_mem {s : Tree Ptr} (h : s ≠ nil) : ptr s ∈ s.toList := by
  cases s with
  | nil => exact absurd rfl h
  | node c l a r => simp

theorem ptr_ne_ptr {s u : Tree Ptr} (hs : s ≠ nil) (h0 : ∀ x ∈ s.toList, x ≠ 0)
    (hd : s.toList.Disjoint u.toList) : ptr s ≠ ptr u := by
  cases u with
  | nil => exact h0 _ (ptr_mem hs)
  | node c l a r => exact fun h => hd (ptr_mem hs) (by simp [h])

/-- The tree `t` has the shape `s`. -/
structure HevRBTree.Shaped (t : HevRBTree) (s : Tree Ptr) : Prop where
  linked : t.Linked s
  nodes : Nodes s.toList

/-! ## The programs on a node -/

namespace HevRBTree
variable {t : HevRBTree} {p q : Ptr} {d : Dir} {c : Color}

@[simp] theorem ends_load {Q : HevRBTreeNode → HevRBTree → Prop} :
    Ends (load p) t Q ↔ p ≠ 0 ∧ Q (t.mem p) t := by
  unfold load
  split <;> simp_all

@[simp] theorem ends_store {f : HevRBTreeNode → HevRBTreeNode} {Q : Unit → HevRBTree → Prop} :
    Ends (store p f) t Q ↔
      p ≠ 0 ∧ Q () (t.set p (f (t.mem p))) := by
  unfold store
  split <;> simp_all

@[simp] theorem ends_child {Q : Ptr → HevRBTree → Prop} :
    Ends (child d p) t Q ↔ p ≠ 0 ∧ Q ((t.mem p).child d) t := by
  simp [child]

@[simp] theorem ends_setChild {Q : Unit → HevRBTree → Prop} :
    Ends (setChild d p q) t Q ↔
      p ≠ 0 ∧ Q () (t.set p ((t.mem p).setChild d q)) := by
  simp [setChild]

@[simp] theorem ends_nodeIsRed {Q : Bool → HevRBTree → Prop} :
    Ends (nodeIsRed p) t Q ↔ p ≠ 0 ∧ Q (decide ((t.mem p).parentColor &&& 1 = 0)) t := by
  simp [nodeIsRed, nodeColor, UInt64.and_assoc]

@[simp] theorem ends_nodeIsBlack {Q : Bool → HevRBTree → Prop} :
    Ends (nodeIsBlack p) t Q ↔ p ≠ 0 ∧ Q (!decide ((t.mem p).parentColor &&& 1 = 0)) t := by
  simp [nodeIsBlack, nodeColor, UInt64.and_assoc]

@[simp] theorem ends_nodeParent {Q : Ptr → HevRBTree → Prop} :
    Ends (nodeParent p) t Q ↔ p ≠ 0 ∧ Q ((t.mem p).parentColor &&& ~~~3) t := by
  simp [nodeParent]

@[simp] theorem ends_nodeRedParent {Q : Ptr → HevRBTree → Prop} :
    Ends (nodeRedParent p) t Q ↔ p ≠ 0 ∧ Q (t.mem p).parentColor t := by
  simp [nodeRedParent]

@[simp] theorem ends_nodeSetBlack {Q : Unit → HevRBTree → Prop} :
    Ends (nodeSetBlack p) t Q ↔ p ≠ 0 ∧
      Q () (t.set p ((t.mem p).setParentColor ((t.mem p).parentColor ||| colorBits .black))) := by
  simp [nodeSetBlack]

@[simp] theorem ends_nodeSetParent {Q : Unit → HevRBTree → Prop} :
    Ends (nodeSetParent p q) t Q ↔ p ≠ 0 ∧
      Q () (t.set p ((t.mem p).setParentColor (((t.mem p).parentColor &&& 1) ||| q))) := by
  simp [nodeSetParent]

@[simp] theorem ends_nodeSetParentColor {Q : Unit → HevRBTree → Prop} :
    Ends (nodeSetParentColor p q c) t Q ↔ p ≠ 0 ∧
      Q () (t.set p ((t.mem p).setParentColor (pack q c))) := by
  simp [nodeSetParentColor, pack]

/-! ## Writes to the root of a subtree and to the link above it -/

/-- The root of the subtree `s`, if any, gets the parent `q` and the colour `c`. -/
def repaint (t : HevRBTree) (s : Tree Ptr) (q : Ptr) (c : Color) : HevRBTree :=
  match s with
  | nil => t
  | node _ l p r => t.set p ⟨pack q c, ptr r, ptr l⟩

/-- The link below the context `fs` is set to `new`. -/
def relink (t : HevRBTree) (fs : Ctx Ptr) (new : Ptr) : HevRBTree :=
  match fs with
  | [] => { t with root := new }
  | f :: fs => t.set f.val (.of f.dir (pack (top fs) f.color) new (ptr f.sib))

section
variable {s u : Tree Ptr} {fs : Ctx Ptr} {h old new par : Ptr}

@[simp] theorem root_repaint : (repaint t s q c).root = t.root := by cases s <;> rfl

@[simp] theorem mem_repaint (hp : p ∉ s.toList) : (repaint t s q c).mem p = t.mem p := by
  cases s with
  | nil => rfl
  | node c' l a r => exact Function.update_of_ne (by rintro rfl; simp at hp) ..

@[simp] theorem rep_repaint_of_disjoint (hd : s.toList.Disjoint u.toList) :
    Rep (repaint t s q c).mem par u ↔ Rep t.mem par u :=
  rep_congr fun _ hp => mem_repaint fun hs => hd hs hp

@[simp] theorem ctxRep_repaint (hd : s.toList.Disjoint (elems fs)) :
    CtxRep (repaint t s q c) h fs ↔ CtxRep t h fs :=
  ctxRep_congr root_repaint fun _ hp => mem_repaint fun hs => hd hs hp

theorem rep_repaint (hs : Rep t.mem par s) (hn : s.toList.Nodup) :
    Rep (repaint t s q c).mem q (s.setColor c) := by
  cases s with
  | nil => trivial
  | node c' l a r =>
    simp only [toList_node, List.nodup_append', List.nodup_cons, List.disjoint_cons_right] at hn
    exact ⟨Function.update_self .., (rep_update hn.2.2.1).2 hs.2.1, (rep_update hn.2.1.1).2 hs.2.2⟩

theorem ends_nodeSetParentColor_ptr (hs : Rep t.mem par s) (hn : s ≠ nil)
    (hz : ∀ x ∈ s.toList, x ≠ 0) {Q : Unit → HevRBTree → Prop} :
    Ends (nodeSetParentColor (ptr s) q c) t Q ↔ Q () (repaint t s q c) := by
  cases s with
  | nil => exact absurd rfl hn
  | node c' l a r =>
    have ha : a ≠ 0 := hz a (by simp)
    simp [ha, repaint, hs.1, HevRBTreeNode.setParentColor]

theorem ends_repaint (hs : Rep t.mem par s) (hz : ∀ x ∈ s.toList, x ≠ 0)
    {Q : Unit → HevRBTree → Prop} :
    Ends (whenNode (ptr s) (nodeSetParentColor (ptr s) q c)) t Q ↔ Q () (repaint t s q c) := by
  cases s with
  | nil => simp [repaint, whenNode]
  | node c' l a r =>
    have ha : a ≠ 0 := hz a (by simp)
    rw [whenNode, ptr_node, if_neg ha]
    exact ends_nodeSetParentColor_ptr hs (by simp) hz

theorem ends_isRedNode (hs : Rep t.mem par s) (ha : Aligned par) (hz : ∀ x ∈ s.toList, x ≠ 0)
    {Q : Bool → HevRBTree → Prop} :
    Ends (isRedNode (ptr s)) t Q ↔ Q (decide (s.color = .red)) t := by
  cases s with
  | nil => simp [isRedNode]
  | node c' l a r =>
    have hp0 : a ≠ 0 := hz a (by simp)
    cases c' <;> simp [isRedNode, hp0, hs.1, pack_and_one ha, ha.and_one, colorBits]

theorem ends_isBlackOrNull (hs : Rep t.mem par s) (ha : Aligned par) (hz : ∀ x ∈ s.toList, x ≠ 0)
    {Q : Bool → HevRBTree → Prop} :
    Ends (isBlackOrNull (ptr s)) t Q ↔ Q (decide (s.color = .black)) t := by
  cases s with
  | nil => simp [isBlackOrNull]
  | node c' l a r =>
    have hp0 : a ≠ 0 := hz a (by simp)
    cases c' <;> simp [isBlackOrNull, hp0, hs.1, pack_and_one ha, ha.and_one, colorBits]

@[simp] theorem mem_relink (hp : p ∉ elems fs) : (relink t fs new).mem p = t.mem p := by
  cases fs with
  | nil => rfl
  | cons f fs => exact Function.update_of_ne (by rintro rfl; simp [elems] at hp) ..

@[simp] theorem rep_relink (hd : (elems fs).Disjoint s.toList) :
    Rep (relink t fs new).mem par s ↔ Rep t.mem par s :=
  rep_congr fun _ hp => mem_relink fun hs => hd hs hp

theorem ctxRep_relink (old : Ptr) (hc : CtxRep t old fs) (hn : (elems fs).Nodup) :
    CtxRep (relink t fs new) new fs := by
  cases fs with
  | nil => rfl
  | cons f fs =>
    simp only [elems, List.nodup_cons, List.mem_append, not_or] at hn
    exact ⟨Function.update_self .., (rep_update hn.1.1).2 hc.2.1, (ctxRep_set hn.1.2).2 hc.2.2⟩

theorem ends_changeChild (new : Ptr) (Q : Unit → HevRBTree → Prop) (hc : CtxRep t old fs)
    (hz : ∀ x ∈ elems fs, x ≠ 0 ∧ x ≠ old) (ho : old ≠ 0) :
    Ends (changeChild old new (top fs)) t Q ↔ Q () (relink t fs new) := by
  cases fs with
  | nil => simp [changeChild, relink]
  | cons f fs =>
    obtain ⟨d, c, p, s⟩ := f
    have hp : p ≠ 0 := (hz p (by simp [elems])).1
    have hm := hc.1
    cases d with
    | left => simp_all [changeChild, relink, HevRBTreeNode.of, HevRBTreeNode.child,
        HevRBTreeNode.setChild]
    | right =>
      have hs : ptr s ≠ old := by
        cases s with
        | nil => exact ho.symm
        | node c l a r => exact (hz a (by simp [elems])).2
      simp_all [changeChild, relink, HevRBTreeNode.of, HevRBTreeNode.child,
        HevRBTreeNode.setChild]

/-- The state after `rotateSetParents`: `new` takes the link, the parent and
    the colour of `old`, which becomes its child of colour `c`. -/
def rotated (t : HevRBTree) (fs : Ctx Ptr) (old new : Ptr) (c : Color) : HevRBTree :=
  relink ((t.set new ((t.mem new).setParentColor (t.mem old).parentColor)).set old
    ((t.mem old).setParentColor (pack new c))) fs new

theorem ends_rotateSetParents {c' : Color} (hc : CtxRep t old fs)
    (hpc : (t.mem old).parentColor = pack (top fs) c') (ha : Aligned (top fs))
    (hz : ∀ x ∈ elems fs, x ≠ 0 ∧ x ≠ old ∧ x ≠ new) (ho : old ≠ 0) (hne : new ≠ 0)
    (hon : old ≠ new) {Q : Unit → HevRBTree → Prop} :
    Ends (rotateSetParents old new c) t Q ↔ Q () (rotated t fs old new c) := by
  have hc' : CtxRep ((t.set new ((t.mem new).setParentColor (t.mem old).parentColor)).set old
      ((t.mem old).setParentColor (pack new c))) old fs := by
    rw [ctxRep_set fun h => (hz old h).2.1 rfl, ctxRep_set fun h => (hz new h).2.2 rfl]
    exact hc
  have hch := ends_changeChild new Q hc' (fun x hx => ⟨(hz x hx).1, (hz x hx).2.1⟩) ho
  simp only [rotateSetParents, ends_bind, ends_nodeParent, ends_load, ends_store,
    ends_nodeSetParentColor, HevRBTree.mem_set, Function.update_of_ne hon, hpc, pack_and_not ha]
  simp only [hpc] at hch
  simp [ho, hne, hch, rotated, hpc]

end

end HevRBTree

end HevSocks5
