/-
  Walks over the users of an authenticator.

  A loop by `hev_rbtree_node_next` from the first node, or by
  `hev_rbtree_node_prev` from the last, comes to the users in the order of
  their names.  A user whose node is replaced by that of another one leaves a
  balanced tree.
-/
import HevSocks5.AuthenticatorBalance
import HevSocks5.RBTreeWalk

namespace HevSocks5

open Total Shape Shape.Tree HevRBTree

namespace HevSocks5Authenticator

/-- `for (n = hev_rbtree_first (tree); n; n = hev_rbtree_node_next (n))` -/
def walkNext : AuthM (List Ptr) :=
  onTree do walkLoop nodeNext fuel (← first)

/-- `for (n = hev_rbtree_last (tree); n; n = hev_rbtree_node_prev (n))` -/
def walkPrev : AuthM (List Ptr) :=
  onTree do walkLoop nodePrev fuel (← last)

variable {s : HevSocks5Authenticator} {u : Tree Ptr}

theorem Ordered.ends_walks (ho : Ordered s u) :
    Ends walkNext s (fun l s' => l = u.toList ∧ s' = s) ∧
      Ends walkPrev s fun l s' => l = u.toList.reverse ∧ s' = s := by
  obtain ⟨hnext, hprev⟩ := walks ho.shaped
  unfold walkNext walkPrev
  rw [ends_onTree, ends_onTree]
  constructor
  · refine hnext.mono ?_
    rintro l _ ⟨hl, rfl⟩
    exact ⟨hl, rfl⟩
  · refine hprev.mono ?_
    rintro l _ ⟨hl, rfl⟩
    exact ⟨hl, rfl⟩

/-- **A walk lists the users.**  After every sequence of calls a loop from the first node by `next`
    comes to each user of the map exactly once, with their names in descending order, and a loop
    from the last node by `prev` to the same users in the opposite order.  Neither gets stuck, and
    neither changes anything. -/
theorem users_walked (mem : Ptr → HevRBTreeNode) (users : Ptr → HevSocks5User) (refs : Ptr → Int)
    (ops : List Op) :
    Ends (run ops) (new mem users refs) fun _ s => ∃ l : List Ptr,
      (∀ n p, (UserMap.run (fun p => (users p).name) ⟨∅, refs⟩ ops).2.users.lookup n = some p ↔
        p ∈ l ∧ (users p).name = n) ∧
      Descending compareName (fun p => (users p).name) l ∧
      Ends walkNext s (fun r s' => r = l ∧ s' = s) ∧
      Ends walkPrev s (fun r s' => r = l.reverse ∧ s' = s) := by
  refine (ends_run (represents_new mem users refs) ops).mono ?_
  rintro rs s ⟨-, hs, hu⟩
  obtain ⟨u, ho, hm⟩ := hs.users
  obtain ⟨hnext, hprev⟩ := ho.ends_walks
  have hsorted := ho.sorted
  rw [hu] at hm hsorted
  exact ⟨u.toList, hm, hsorted, hnext, hprev⟩

/-- **A replaced node** leaves the tree balanced: the new node has the place of the old one, and
    nothing outside of the tree is written, nor the old node. -/
theorem replaced_balanced {t : HevRBTree} {p q : Ptr} (h : Balanced t u) (hp : p ∈ u.toList)
    (hq : q ∉ u.toList) (hq0 : q ≠ 0) (hqa : Aligned q) :
    Ends (replace p q) t fun _ t' =>
      Balanced t' (u.map (inPlace p q)) ∧
        ∀ x, (x ∈ u.toList → x = p) → x ≠ q → t'.mem x = t.mem x := by
  refine (replaces h.shaped hp hq hq0 hqa).mono ?_
  rintro _ t' ⟨hs, hframe⟩
  obtain ⟨n, hn⟩ := h.bal
  have hcolor : (u.map (inPlace p q)).color = .black := by
    rw [color_map]
    exact h.color
  exact ⟨⟨hs, hcolor, n, (bal_map _).2 hn⟩, hframe⟩

/-- Four nodes: 16 is above 8 and 24, and 8 is above 4. -/
def fourNodes : HevRBTree where
  root := 16
  mem p :=
    if p = 16 then ⟨1, 24, 8⟩ else if p = 8 then ⟨17, 0, 4⟩ else if p = 24 then ⟨17, 0, 0⟩
    else ⟨8, 0, 0⟩

def fourTree : Tree Ptr :=
  node .black (node .black (node .red nil 4 nil) 8 nil) 16 (node .black nil 24 nil)

theorem fourNodes_balanced : Balanced fourNodes fourTree := by
  have hrep : Rep fourNodes.mem 0 fourTree :=
    ⟨rfl, ⟨rfl, ⟨rfl, trivial, trivial⟩, trivial⟩, ⟨rfl, trivial, trivial⟩⟩
  refine ⟨⟨⟨rfl, hrep⟩, by decide, fun x hx => ?_⟩, rfl, 2, ?_⟩
  · simp only [fourTree, toList, List.nil_append, List.cons_append, List.mem_cons,
      List.not_mem_nil, or_false] at hx
    rcases hx with rfl | rfl | rfl | rfl <;> exact ⟨by decide, rfl⟩
  · simp [fourTree, Bal, color]

/-- The node 8 has a parent and a child; the node 32 takes its place. -/
theorem replaced_balanced_inner :
    Ends (replace 8 32) fourNodes fun _ t' => Balanced t' (fourTree.map (inPlace 8 32)) ∧
      ∀ x, (x ∈ fourTree.toList → x = 8) → x ≠ 32 → t'.mem x = fourNodes.mem x :=
  replaced_balanced fourNodes_balanced (by decide) (by decide) (by decide) rfl

/-- Then the links to it lead to 32. -/
example : ∃ t', replace 8 32 fourNodes = some ((), t') ∧ t'.mem 16 = ⟨1, 24, 32⟩ ∧
    t'.mem 32 = ⟨17, 0, 4⟩ ∧ t'.mem 4 = ⟨32, 0, 0⟩ := ⟨_, rfl, rfl, rfl, rfl⟩

end HevSocks5Authenticator

end HevSocks5
