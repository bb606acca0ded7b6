/-
  Walks over a tree, and the replacement of a node (hev-rbtree.c).

  `hev_rbtree_node_next` and `hev_rbtree_node_prev` go to the neighbour of a
  node: down to the near end of a subtree, or up to the first node whose
  subtree on the other side they come from.  So they follow the order of the
  tree (`neighbours`), and a loop over them comes to every node once
  (`walks`).  `hev_rbtree_replace` gives the place of a node to another one
  (`replaces`).
-/
import HevSocks5.RBTreeErase
import HevSocks5.Base.Neighbour

namespace HevSocks5

open Total Shape

namespace HevRBTree

def last : TreeM Ptr := do
  let n := (← get).root
  if n = 0 then return 0 else outmostLoop .right fuel n

def nodeEmpty (node : Ptr) : TreeM Bool := do
  return (← load node).parentColor = node

/-- `while ((parent = hev_rbtree_node_parent (node)) && node == parent->d) node = parent;` -/
def climbLoop (d : Dir) : Nat → Ptr → TreeM Ptr
  | 0, _ => stuck
  | k + 1, node => do
    let parent ← nodeParent node
    if parent = 0 then return parent
    else if (← child d parent) = node then climbLoop d k parent
    else return parent

/-- The neighbour on the side `d`. -/
def neighbour (d : Dir) (node : Ptr) : TreeM Ptr := do
  if ← nodeEmpty node then return 0
  else
    let q ← child d node
    if q ≠ 0 then outmostLoop d.flip fuel q else climbLoop d fuel node

def nodePrev (node : Ptr) : TreeM Ptr := neighbour .left node

def nodeNext (node : Ptr) : TreeM Ptr := neighbour .right node

def replace (victim new : Ptr) : TreeM Unit := do
  let parent ← nodeParent victim
  let n ← load victim
  store new fun _ => n
  let l ← child .left victim
  whenNode l (nodeSetParent l new)
  let r ← child .right victim
  whenNode r (nodeSetParent r new)
  changeChild victim new parent

/-- `for (n = first; n; n = step (n))`: the nodes that it comes to. -/
def walkLoop (step : Ptr → TreeM Ptr) : Nat → Ptr → TreeM (List Ptr)
  | 0, _ => stuck
  | k + 1, n =>
    if n = 0 then return []
    else do
      let q ← step n
      return n :: (← walkLoop step k q)

open Shape.Tree

variable {t : HevRBTree} {s : Tree Ptr} {p : Ptr}

/-! ## Neighbours -/

theorem child_eq_ptr_side {m : Ptr → HevRBTreeNode} {par : Ptr} {c : Color} {l r : Tree Ptr}
    (d : Dir) (h : Rep m par (node c l p r)) :
    (m p).child d = ptr (side d (node c l p r)) ∧ Rep m p (side d (node c l p r)) := by
  cases d with
  | left => exact ⟨by rw [h.1]; rfl, h.2.1⟩
  | right => exact ⟨by rw [h.1]; rfl, h.2.2⟩

theorem length_side_lt (d : Dir) (c : Color) (l : Tree Ptr) (p : Ptr) (r : Tree Ptr) :
    (side d (node c l p r)).toList.length < (node c l p r).toList.length := by
  cases d
  · simp [side]
  · simp [side]
    omega

theorem mem_of_mem_side {d : Dir} {c : Color} {l r : Tree Ptr} {x : Ptr}
    (h : x ∈ (side d (node c l p r)).toList) : x ∈ (node c l p r).toList := by
  cases d with
  | left => exact List.mem_append_left _ h
  | right => exact List.mem_append_right _ (List.mem_cons_of_mem _ h)

/-- The loop goes down to the end of a subtree. -/
theorem ends_outmostLoop {d : Dir} {k : Nat} {par : Ptr} (hr : Rep t.mem par s) (hs : s ≠ nil)
    (h0 : ∀ x ∈ s.toList, x ≠ 0) (hk : s.toList.length ≤ k) :
    Ends (outmostLoop d k (ptr s)) t fun q t' => edge d s.toList = some q ∧ t' = t := by
  induction k generalizing s par with
  | zero => exact absurd (toList_eq_nil.1 (List.eq_nil_of_length_eq_zero (Nat.le_zero.1 hk))) hs
  | succ k ih =>
    cases s with
    | nil => exact absurd rfl hs
    | node c l a r =>
      obtain ⟨hchild, hrep⟩ := child_eq_ptr_side d hr
      have hsub : ∀ x ∈ (side d (node c l a r)).toList, x ≠ 0 :=
        fun x hx => h0 x (mem_of_mem_side hx)
      simp only [outmostLoop, ends_bind, ends_child, ptr_node, hchild, ends_ite, ends_pure]
      refine ⟨h0 a (by simp), ?_⟩
      rw [edge_toList_node]
      by_cases hnil : side d (node c l a r) = nil
      · rw [hnil, if_pos ptr_nil]
        cases d <;> exact ⟨rfl, trivial⟩
      · rw [if_neg (hsub _ (ptr_mem hnil))]
        have hlen := length_side_lt d c l a r
        refine (ih hrep hnil hsub (by omega)).mono ?_
        rintro q _ ⟨hq, rfl⟩
        exact ⟨by rw [hq]; rfl, rfl⟩

/-- The loop goes up to the first node that is passed on the other side. -/
theorem ends_climbLoop {d : Dir} {k : Nat} {fs : Ctx Ptr} (hc : CtxRep t p fs)
    (hp : p ≠ 0) (hpc : (t.mem p).parentColor &&& ~~~3 = top fs)
    (hok : ∀ x ∈ elems fs, x ≠ 0 ∧ Aligned x ∧ x ≠ p) (hn : (elems fs).Nodup) (hk : fs.length < k) :
    Ends (climbLoop d k p) t fun q t' =>
      q = (edge d.flip (beside d fs)).getD 0 ∧ t' = t := by
  induction fs generalizing p k with
  | nil =>
    obtain ⟨k, rfl⟩ : ∃ j, k = j + 1 := ⟨k - 1, by simp at hk; omega⟩
    simp only [climbLoop, ends_bind, ends_nodeParent, hpc, top_nil, if_true, ends_pure]
    refine ⟨hp, ?_, trivial⟩
    cases d <;> rfl
  | cons f fs ih =>
    obtain ⟨k, rfl⟩ : ∃ j, k = j + 1 := ⟨k - 1, by simp at hk; omega⟩
    obtain ⟨e, c, a, u⟩ := f
    obtain ⟨ha0, -, hap⟩ := hok a (by simp [elems])
    have hmem := hc.1
    simp only [elems, List.nodup_cons, List.mem_append, not_or] at hn
    simp only [climbLoop, ends_bind, ends_nodeParent, hpc, top_cons, if_neg ha0, ends_child,
      ends_ite, ends_pure]
    refine ⟨hp, ha0, ?_⟩
    by_cases hed : e = d
    · subst hed
      rw [hmem, HevRBTreeNode.child_of, if_pos rfl, edge_beside_same]
      refine ih hc.2.2 ha0 ?_ (fun x hx => ?_) (List.nodup_append.1 hn.2).2.1 (by simpa using hk)
      · rw [hmem, HevRBTreeNode.parentColor_of]
        exact pack_and_not (aligned_top fun x hx => by
          have := hok x (by simp [elems, hx])
          exact ⟨this.1, this.2.1⟩) c
      · have := hok x (by simp [elems, hx])
        exact ⟨this.1, this.2.1, fun h => hn.1.2 (h ▸ hx)⟩
    · obtain rfl := Dir.eq_flip_of_ne hed
      have hne : ptr u ≠ p := by
        cases u with
        | nil => exact fun h => hp h.symm
        | node c' l' a' r' => exact (hok a' (by simp [elems])).2.2
      have hchild : (t.mem a).child d = ptr u := by
        rw [hmem]
        cases d <;> rfl
      rw [hchild, if_neg hne, edge_beside_flip]
      exact ⟨rfl, trivial⟩

/-- A node of a tree is not its own parent. -/
theorem ends_nodeEmpty {par : Ptr} {c : Color} (hp : p ≠ 0) (ha : Aligned p) (hpar : Aligned par)
    (hne : par ≠ p) (hpc : (t.mem p).parentColor = pack par c) :
    Ends (nodeEmpty p) t fun b t' => b = false ∧ t' = t := by
  simp only [nodeEmpty, ends_bind, ends_load, ends_pure, hpc]
  refine ⟨hp, decide_eq_false fun h => hne ?_, trivial⟩
  rw [← pack_and_not hpar c, h, ha.and_not]

theorem ends_neighbour {d : Dir} {fs : Ctx Ptr} {c : Color} {l r : Tree Ptr}
    (h : t.Shaped (plug fs (node c l p r))) :
    Ends (neighbour d p) t fun q t' =>
      q = ((edge d.flip (side d (node c l p r)).toList).or
        (edge d.flip (beside d fs))).getD 0 ∧ t' = t := by
  obtain ⟨hlinked, hN⟩ := h
  obtain ⟨hc, hr⟩ := linked_plug.1 hlinked
  have hN := hN.perm (perm_plug fs _)
  have hlt := hN.length_lt
  have hok := hN.ok
  have hnd := List.nodup_append'.1 hN.nodup
  have hp := hok p (by simp)
  have hctx : ∀ x ∈ elems fs, x ≠ 0 ∧ Aligned x ∧ x ≠ p := fun x hx =>
    ⟨(hok x (by simp [hx])).1, (hok x (by simp [hx])).2, fun h => hnd.2.2 hx (by simp [h])⟩
  have htop : Aligned (top fs) := aligned_top fun x hx => ⟨(hctx x hx).1, (hctx x hx).2.1⟩
  have hne : top fs ≠ p := by
    cases fs with
    | nil => exact fun h => hp.1 h.symm
    | cons f fs => exact (hctx f.val (by simp [elems])).2.2
  have hpc : (t.mem p).parentColor = pack (top fs) c := by rw [hr.1]
  have hparent : (t.mem p).parentColor &&& ~~~3 = top fs := by
    rw [hpc]
    exact pack_and_not htop c
  unfold neighbour
  refine (ends_nodeEmpty hp.1 hp.2 htop hne hpc).bind ?_
  rintro _ _ ⟨rfl, rfl⟩
  obtain ⟨hchild, hside⟩ := child_eq_ptr_side d hr
  simp only [Bool.false_eq_true, if_false, ends_bind, ends_child, hchild, ends_ite]
  refine ⟨hp.1, ?_⟩
  have hlen := length_side_lt d c l p r
  rw [List.length_append] at hlt
  by_cases hnil : side d (node c l p r) = nil
  · rw [hnil, if_neg (not_not.2 ptr_nil)]
    have hfs := length_le_elems fs
    refine (ends_climbLoop hc hp.1 hparent hctx hnd.1 (by omega)).mono ?_
    rintro q _ ⟨rfl, rfl⟩
    cases d <;> exact ⟨rfl, rfl⟩
  · have hsub : ∀ x ∈ (side d (node c l p r)).toList, x ≠ 0 := fun x hx =>
      (hok x (List.mem_append_right _ (mem_of_mem_side hx))).1
    rw [if_pos (hsub _ (ptr_mem hnil))]
    refine (ends_outmostLoop hside hnil hsub (by omega)).mono ?_
    rintro q _ ⟨hq, rfl⟩
    rw [hq]
    exact ⟨rfl, rfl⟩

/-- **The neighbours** of a node are those before and behind it in the order of the tree; the null
    pointer when there is none. -/
theorem neighbours {xs ys : List Ptr} (h : t.Shaped s) (hs : s.toList = xs ++ p :: ys) :
    Ends (nodePrev p) t (fun q t' => q = xs.getLast?.getD 0 ∧ t' = t) ∧
      Ends (nodeNext p) t fun q t' => q = ys.head?.getD 0 ∧ t' = t := by
  obtain ⟨fs, c, l, r, rfl⟩ := exists_plug (t := s) (a := p) (by simp [hs])
  have hnd := h.nodes.nodup
  rw [hs] at hnd
  -- the place of the node in the list is the one in the tree
  rw [toList_plug, toList_node] at hs
  have hplace : xs = before fs ++ l.toList ∧ ys = r.toList ++ after fs := by
    have hcat : xs ++ p :: ys = (before fs ++ l.toList) ++ p :: (r.toList ++ after fs) := by
      simpa using hs.symm
    have hxs : p ∉ xs := fun hmem => List.disjoint_of_nodup_append hnd hmem List.mem_cons_self
    have hys : p ∉ ys := (List.nodup_cons.1 (List.nodup_append.1 hnd).2.1).1
    have := (List.append_cons_inj_of_notMem hxs hys).1 hcat
    exact ⟨this.1, this.2.2⟩
  obtain ⟨rfl, rfl⟩ := hplace
  constructor
  · refine (ends_neighbour (d := .left) h).mono ?_
    rintro q _ ⟨rfl, rfl⟩
    exact ⟨congrArg (Option.getD · 0) (edge_beside .left fs l).symm, rfl⟩
  · refine (ends_neighbour (d := .right) h).mono ?_
    rintro q _ ⟨rfl, rfl⟩
    exact ⟨congrArg (Option.getD · 0) (edge_beside .right fs r).symm, rfl⟩

/-! ## Walks -/

/-- The end of the tree. -/
theorem ends_outmost (d : Dir) (h : t.Shaped s) : Ends (do
    let n := (← get).root
    if n = 0 then return 0 else outmostLoop d fuel n) t fun n t' =>
      n = (edge d s.toList).getD 0 ∧ t' = t := by
  obtain ⟨⟨hroot, hr⟩, hN⟩ := h
  simp only [ends_bind, ends_get, hroot]
  by_cases hs : s = nil
  · subst hs
    cases d <;> simp [edge]
  · rw [if_neg (hN.ok _ (ptr_mem hs)).1]
    refine (ends_outmostLoop hr hs (fun x hx => (hN.ok x hx).1) (Nat.le_of_lt hN.length_lt)).mono ?_
    rintro n _ ⟨hn, rfl⟩
    rw [hn]
    exact ⟨rfl, rfl⟩

theorem ends_first_eq (h : t.Shaped s) :
    Ends first t fun n t' => n = s.toList.head?.getD 0 ∧ t' = t :=
  ends_outmost .left h

theorem ends_last (h : t.Shaped s) :
    Ends last t fun n t' => n = s.toList.getLast?.getD 0 ∧ t' = t :=
  ends_outmost .right h

/-- A loop over the nodes of a list, when each step goes to the next one. -/
theorem ends_walkLoop {step : Ptr → TreeM Ptr} {l : List Ptr} {k : Nat} (h0 : ∀ x ∈ l, x ≠ 0)
    (hstep : ∀ xs x ys, l = xs ++ x :: ys →
      Ends (step x) t fun q t' => q = ys.head?.getD 0 ∧ t' = t) (hk : l.length < k) :
    Ends (walkLoop step k (l.head?.getD 0)) t fun r t' => r = l ∧ t' = t := by
  induction l generalizing k with
  | nil =>
    obtain ⟨k, rfl⟩ : ∃ j, k = j + 1 := ⟨k - 1, by simp at hk; omega⟩
    simp [walkLoop]
  | cons x l ih =>
    obtain ⟨k, rfl⟩ : ∃ j, k = j + 1 := ⟨k - 1, by simp at hk; omega⟩
    have hx : x ≠ 0 := h0 x List.mem_cons_self
    rw [List.head?_cons, Option.getD_some, walkLoop, if_neg hx]
    refine (hstep [] x l rfl).bind ?_
    rintro q _ ⟨rfl, rfl⟩
    refine (ih (fun y hy => h0 y (List.mem_cons_of_mem _ hy)) (fun xs y ys hl => ?_)
      (by simpa using hk)).bind ?_
    · exact hstep (x :: xs) y ys (by rw [hl]; rfl)
    · rintro r _ ⟨rfl, rfl⟩
      exact (ends_pure ..).2 ⟨rfl, rfl⟩

/-- **A walk** from the first node by `next`, or from the last by `prev`, comes to every node of
    the tree once, in order, and ends. -/
theorem walks (h : t.Shaped s) :
    Ends (do walkLoop nodeNext fuel (← first)) t (fun l t' => l = s.toList ∧ t' = t) ∧
      Ends (do walkLoop nodePrev fuel (← last)) t fun l t' => l = s.toList.reverse ∧ t' = t := by
  have h0 : ∀ x ∈ s.toList, x ≠ 0 := fun x hx => (h.nodes.ok x hx).1
  have hlen := h.nodes.length_lt
  constructor
  · refine (ends_first_eq h).bind ?_
    rintro _ _ ⟨rfl, rfl⟩
    exact ends_walkLoop h0 (fun xs x ys hs => (neighbours h hs).2) hlen
  · refine (ends_last h).bind ?_
    rintro _ _ ⟨rfl, rfl⟩
    rw [← List.head?_reverse]
    refine ends_walkLoop (fun x hx => h0 x (List.mem_reverse.1 hx)) (fun xs x ys hs => ?_)
      (by rwa [List.length_reverse])
    have hsplit : s.toList = ys.reverse ++ x :: xs.reverse := by
      rw [← List.reverse_reverse s.toList, hs]
      simp
    rw [← List.getLast?_reverse]
    exact (neighbours h hsplit).1

/-! ## Replacement -/

theorem mapCtx_eq_self {f : Ptr → Ptr} {fs : Ctx Ptr} (h : ∀ x ∈ elems fs, f x = x) :
    mapCtx f fs = fs := by
  induction fs with
  | nil => rfl
  | cons g fs ih =>
    have hval : f g.val = g.val := h g.val (by simp [elems])
    have hsib : g.sib.map f = g.sib := map_eq_self fun x hx => h x (by simp [elems, hx])
    have htail : mapCtx f fs = fs := ih fun x hx => h x (by simp [elems, hx])
    show (⟨g.dir, g.color, f g.val, g.sib.map f⟩ : Frame Ptr) :: mapCtx f fs = g :: fs
    rw [hval, hsib, htail]

/-- The node `q` in the place of `p`. -/
def inPlace (p q x : Ptr) : Ptr := if x = p then q else x

theorem inPlace_of_ne {q x : Ptr} (h : x ≠ p) : inPlace p q x = x := if_neg h

theorem map_inPlace {q : Ptr} {fs : Ctx Ptr} {c : Color} {l r : Tree Ptr}
    (hn : (plug fs (node c l p r)).toList.Nodup) :
    (plug fs (node c l p r)).map (inPlace p q) = plug fs (node c l q r) := by
  have hn := (perm_plug fs _).nodup_iff.1 hn
  simp only [toList_node, List.nodup_append', List.nodup_cons, List.disjoint_append_right,
    List.disjoint_cons_right] at hn
  have hctx : mapCtx (inPlace p q) fs = fs :=
    mapCtx_eq_self fun x hx => inPlace_of_ne fun h => hn.2.2.2.1 (h ▸ hx)
  have hl : l.map (inPlace p q) = l :=
    map_eq_self fun x hx => inPlace_of_ne fun h => hn.2.1.2.2.1 (h ▸ hx)
  have hr : r.map (inPlace p q) = r :=
    map_eq_self fun x hx => inPlace_of_ne fun h => hn.2.1.2.1.1 (h ▸ hx)
  have hp : inPlace p q p = q := if_pos rfl
  rw [map_plug, hctx]
  show plug fs (node c (l.map _) (inPlace p q p) (r.map _)) = _
  rw [hl, hr, hp]

/-- **A node is replaced**: the other one gets its place, its colour and its links, and no node
    outside of the tree is touched, nor the one that is replaced. -/
theorem replaces {q : Ptr} (h : t.Shaped s) (hp : p ∈ s.toList) (hq : q ∉ s.toList) (hq0 : q ≠ 0)
    (hqa : Aligned q) :
    Ends (replace p q) t fun _ t' =>
      t'.Shaped (s.map (inPlace p q)) ∧
        ∀ x, (x ∈ s.toList → x = p) → x ≠ q → t'.mem x = t.mem x := by
  obtain ⟨fs, c, l, r, rfl⟩ := exists_plug hp
  obtain ⟨hlinked, hN⟩ := h
  rw [map_inPlace hN.nodup]
  obtain ⟨hc, hr⟩ := linked_plug.1 hlinked
  have hperm := perm_plug fs (node c l p r)
  obtain ⟨hnd, hok⟩ := hN.perm hperm
  have hq' : q ∉ elems fs ++ (node c l p r).toList := fun hmem => hq (hperm.mem_iff.2 hmem)
  simp only [toList_node, List.mem_append, List.mem_cons, not_or] at hok hq'
  obtain ⟨hqfs, hql, hqp, hqr⟩ := hq'
  have hndr := List.nodup_reverse.2 hnd
  simp only [toList_node, List.reverse_append, List.reverse_cons] at hnd hndr
  simp [List.nodup_append', -List.nodup_reverse] at hnd hndr
  have hp0 : p ≠ 0 := (hok p (by simp)).1
  have hpa : Aligned p := (hok p (by simp)).2
  have hpq : p ≠ q := Ne.symm hqp
  have hta : Aligned (top fs) := aligned_top fun x hx => hok x (by simp [hx])
  have hparent : (t.mem p).parentColor &&& ~~~3 = top fs := by
    rw [hr.1]
    exact pack_and_not hta c
  -- the node gets what the other one holds
  set t₁ := t.set q (t.mem p) with ht₁
  have hl₁ : Rep t₁.mem p l := by simp [ht₁, hql, hr.2.1]
  have hr₁ : Rep t₁.mem p r := by simp [ht₁, hqr, hr.2.2]
  have hc₁ : CtxRep t₁ p fs := (ctxRep_set hqfs).2 hc
  -- then each of the subtrees gets the new parent
  set t₂ := t₁.repaint l q l.color with ht₂
  have hl₂ : Rep t₂.mem q l := by
    have := rep_repaint (q := q) (c := l.color) hl₁ (by simp [hnd])
    rwa [setColor_color] at this
  have hr₂ : Rep t₂.mem p r := by simp [ht₂, hnd, hr₁]
  have hc₂ : CtxRep t₂ p fs := by simp [ht₂, hndr, hc₁]
  set t₃ := t₂.repaint r q r.color with ht₃
  have hr₃ : Rep t₃.mem q r := by
    have := rep_repaint (q := q) (c := r.color) hr₂ (by simp [hnd])
    rwa [setColor_color] at this
  have hl₃ : Rep t₃.mem q l := by simp [ht₃, hndr, hl₂]
  have hc₃ : CtxRep t₃ p fs := by simp [ht₃, hndr, hc₂]
  have hleft : (t₁.mem p).child .left = ptr l := by
    rw [ht₁, mem_set, Function.update_of_ne hpq, hr.1]
    rfl
  have hright : (t₂.mem p).child .right = ptr r := by
    rw [ht₂, mem_repaint (by simp [hnd]), ht₁, mem_set, Function.update_of_ne hpq, hr.1]
    rfl
  unfold replace
  simp only [ends_bind, ends_nodeParent, ends_load, ends_store, ends_child, hparent, ← ht₁]
  refine ⟨hp0, hp0, hq0, hp0, ?_⟩
  rw [hleft, ends_reparent hl₁ hpa fun x hx => (hok x (by simp [hx])).1, ← ht₂]
  refine ⟨hp0, ?_⟩
  have hfs : ∀ x ∈ elems fs, x ≠ 0 ∧ x ≠ p :=
    fun x hx => ⟨(hok x (by simp [hx])).1, fun h => hnd.2.2.2.1 (h ▸ hx)⟩
  rw [hright, ends_reparent hr₂ hpa fun x hx => (hok x (by simp [hx])).1, ← ht₃,
    ends_changeChild q _ hc₃ hfs hp0]
  have hmemq : t₃.mem q = ⟨pack (top fs) c, ptr r, ptr l⟩ := by
    rw [ht₃, mem_repaint hqr, ht₂, mem_repaint hql, ht₁, mem_set, Function.update_self, hr.1]
  refine ⟨⟨linked_plug.2 ⟨ctxRep_relink p hc₃ hnd.1, ?_, ?_, ?_⟩, ?_⟩, fun x hx hxq => ?_⟩
  · rw [mem_relink hqfs, hmemq]
  · exact (rep_relink hnd.2.2.1).2 hl₃
  · exact (rep_relink hnd.2.2.2.2).2 hr₃
  · -- the addresses are those of the tree, with the new one for the old
    rw [← map_inPlace hN.nodup, toList_map]
    refine ⟨hN.nodup.map_on fun x hx y hy hxy => ?_, fun x hx => ?_⟩
    · simp only [inPlace] at hxy
      split at hxy <;> split at hxy
      · next h₁ h₂ => rw [h₁, h₂]
      · exact absurd (hxy ▸ hy) hq
      · exact absurd (hxy ▸ hx) hq
      · exact hxy
    · obtain ⟨y, hy, rfl⟩ := List.mem_map.1 hx
      unfold inPlace
      split
      · exact ⟨hq0, hqa⟩
      · exact hN.ok y hy
  · have hxfs : x ∉ elems fs := fun hm => hnd.2.2.2.1 (hx (hperm.mem_iff.2 (by simp [hm])) ▸ hm)
    have hxl : x ∉ l.toList := fun hm => hnd.2.1.2.2.1 (hx (hperm.mem_iff.2 (by simp [hm])) ▸ hm)
    have hxr : x ∉ r.toList := fun hm => hnd.2.1.2.1.1 (hx (hperm.mem_iff.2 (by simp [hm])) ▸ hm)
    rw [mem_relink hxfs, ht₃, mem_repaint hxr, ht₂, mem_repaint hxl, ht₁, mem_set,
      Function.update_of_ne hxq]

end HevRBTree

end HevSocks5
