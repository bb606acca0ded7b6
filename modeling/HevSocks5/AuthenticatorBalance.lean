/-
  The tree of the authenticator is balanced.

  `Balanced t u`: the nodes of `t` are linked as the red-black tree `u`, in
  both directions.  `searchVisits`, `addVisits` and `successorVisits` are the
  loops of the source that go down the tree, with the number of nodes that
  they come to; each is the loop when the number is left out
  (`fst_searchVisits` and so on).  A call goes down one path, so it comes to no
  more nodes than the tree is high (`balanced`).
-/
import HevSocks5.AuthenticatorMap
import HevSocks5.Base.Height

namespace HevSocks5

open Total Shape HevRBTree

/-! ## The loops -/

/-- The loop to the successor, with the number of nodes. -/
def HevRBTree.successorVisits : Nat → Ptr → Ptr → TreeM ((Ptr × Ptr) × Nat)
  | 0, _, _ => stuck
  | k + 1, successor, tmp => do
    let l ← child .left tmp
    if l = 0 then return ((successor, tmp), 1)
    else
      let (r, n) ← successorVisits k tmp l
      return (r, n + 1)

/-- The nodes below `node` that `eraseNode` goes to for the successor. -/
def HevRBTree.eraseVisits (node : Ptr) : TreeM Nat := do
  let child' := (← load node).right
  let tmp := (← load node).left
  if tmp = 0 ∨ child' = 0 then return 0
  else
    let tmp ← child .left child'
    if tmp = 0 then return 1
    else
      let (_, n) ← successorVisits fuel child' tmp
      return n + 1

theorem HevRBTree.fst_successorVisits (k : Nat) (successor tmp : Ptr) :
    Prod.fst <$> successorVisits k successor tmp = successorLoop k successor tmp := by
  induction k generalizing successor tmp with
  | zero => rfl
  | succ k ih =>
    simp only [successorVisits, successorLoop, map_bind]
    congr 1
    funext l
    split
    · rfl
    · rw [← ih]
      simp only [map_eq_pure_bind, bind_assoc, pure_bind]

namespace HevSocks5Authenticator

/-- The loop of `del` and `get`, with the number of nodes. -/
def searchVisits (name : Str) : Nat → Ptr → AuthM (Ptr × Nat)
  | 0, _ => stuck
  | k + 1, node => do
    if node = 0 then return (0, 0)
    else
      let res := compareName (← nameOf node) name
      if res < 0 then
        let left ← onTree (HevRBTree.child .left node)
        let (r, n) ← searchVisits name k left
        return (r, n + 1)
      else if res > 0 then
        let right ← onTree (HevRBTree.child .right node)
        let (r, n) ← searchVisits name k right
        return (r, n + 1)
      else return (node, 1)

/-- The loop of `add`, with the number of nodes. -/
def addLoopVisits (name : Str) :
    Nat → HevRBTree.Link → Ptr → AuthM (Option (HevRBTree.Link × Ptr) × Nat)
  | 0, _, _ => stuck
  | k + 1, new, parent => do
    let node ← onTree new.read
    if node = 0 then return (some (new, parent), 0)
    else
      let res := compareName (← nameOf node) name
      if res < 0 then
        let (r, n) ← addLoopVisits name k (.child .left node) node
        return (r, n + 1)
      else if res > 0 then
        let (r, n) ← addLoopVisits name k (.child .right node) node
        return (r, n + 1)
      else return (none, 1)

def getVisits (name : Str) : AuthM Nat := do
  return (← searchVisits name fuel (← MonadState.get).tree.root).2

def addVisits (user : UserPtr) : AuthM Nat := do
  let name ← nameOf user.val
  return (← addLoopVisits name fuel .root 0).2

/-- The search for the user, and the way on to the successor. -/
def delVisits (name : Str) : AuthM Nat := do
  let (node, n) ← searchVisits name fuel (← MonadState.get).tree.root
  if node = 0 then return n
  else
    let m ← onTree (eraseVisits node)
    return n + m

theorem fst_searchVisits (name : Str) (k : Nat) (node : Ptr) :
    Prod.fst <$> searchVisits name k node = searchLoop name k node := by
  induction k generalizing node with
  | zero => rfl
  | succ k ih =>
    simp only [searchVisits, searchLoop]
    split
    · rfl
    · simp only [map_bind]
      congr 1
      funext n
      split
      · simp only [map_bind]
        congr 1
        funext left
        rw [← ih]
        simp only [map_eq_pure_bind, pure_bind]
      · split
        · simp only [map_bind]
          congr 1
          funext left
          rw [← ih]
          simp only [map_eq_pure_bind, pure_bind]
        · rfl

theorem fst_addLoopVisits (name : Str) (k : Nat) (new : Link) (parent : Ptr) :
    Prod.fst <$> addLoopVisits name k new parent = addLoop name k new parent := by
  induction k generalizing new parent with
  | zero => rfl
  | succ k ih =>
    simp only [addLoopVisits, addLoop, map_bind]
    congr 1
    funext node
    split
    · rfl
    · simp only [map_bind]
      congr 1
      funext n
      split
      · rw [← ih]
        simp only [map_eq_pure_bind, bind_assoc, pure_bind]
      · split
        · rw [← ih]
          simp only [map_eq_pure_bind, bind_assoc, pure_bind]
        · rfl

end HevSocks5Authenticator

/-! ## The way down -/

open Shape.Tree

theorem HevRBTree.ends_successorVisits {t : HevRBTree} {k : Nat} {par p : Ptr} {c : Color}
    {l r : Tree Ptr} (successor : Ptr) (hr : Rep t.mem par (node c l p r))
    (h0 : ∀ q ∈ (node c l p r).toList, q ≠ 0) (hk : (node c l p r).toList.length ≤ k) :
    Ends (successorVisits k successor p) t fun x t' => t' = t ∧ x.2 ≤ (node c l p r).height := by
  induction l generalizing k par p c r successor with
  | nil =>
    obtain ⟨k, rfl⟩ : ∃ j, k = j + 1 := ⟨k - 1, by simp at hk; omega⟩
    simp [successorVisits, hr.1, HevRBTreeNode.child, h0 p (by simp)]
  | node cl ll q rl ih =>
    simp only [toList_node, List.length_append, List.length_cons] at hk
    obtain ⟨k, rfl⟩ : ∃ j, k = j + 1 := ⟨k - 1, by omega⟩
    have hp : p ≠ 0 := h0 p (by simp)
    have hq : q ≠ 0 := h0 q (by simp)
    have hnext := ih (k := k) p hr.2.1 (fun x hx => h0 x (by simp at hx ⊢; tauto)) (by
      simp only [toList_node, List.length_append, List.length_cons]
      omega)
    simp only [successorVisits, ends_bind, ends_child, hr.1, HevRBTreeNode.child, ptr_node,
      if_neg hq, ends_pure]
    refine ⟨hp, hnext.mono ?_⟩
    rintro x _ ⟨rfl, hx⟩
    refine ⟨rfl, ?_⟩
    rw [height_node] at hx ⊢
    rw [height_node]
    omega

theorem HevRBTree.ends_eraseVisits {t : HevRBTree} {par p : Ptr} {c : Color} {l r : Tree Ptr}
    (hr : Rep t.mem par (node c l p r)) (hN : Nodes (node c l p r).toList) :
    Ends (eraseVisits p) t fun n t' => t' = t ∧ n ≤ r.height := by
  have hp : p ≠ 0 := (hN.ok p (by simp)).1
  simp only [eraseVisits, ends_bind, ends_load, hr.1, ends_ite, ends_pure]
  refine ⟨hp, hp, ?_⟩
  split
  case isTrue => simp
  case isFalse hne =>
    cases r with
    | nil => simp at hne
    | node c' l' q r' =>
      have hq : q ≠ 0 := (hN.ok q (by simp)).1
      simp only [ends_child, ptr_node, hr.2.2.1, HevRBTreeNode.child]
      refine ⟨hq, ?_⟩
      cases l' with
      | nil => simp
      | node cl ll x rl =>
        have hx : x ≠ 0 := (hN.ok x (by simp)).1
        have hlen : (node cl ll x rl).toList.length ≤ fuel := by
          have := hN.length_lt
          simp only [toList_node, List.length_append, List.length_cons] at this ⊢
          omega
        rw [ptr_node, if_neg hx]
        refine (ends_successorVisits q hr.2.2.2.1 (fun y hy => (hN.ok y ?_).1) hlen).mono ?_
        · simp at hy ⊢
          tauto
        · rintro v _ ⟨rfl, hv⟩
          refine ⟨rfl, ?_⟩
          rw [height_node]
          omega

namespace HevSocks5Authenticator

variable {s : HevSocks5Authenticator} {u : Tree Ptr} {name : Str}

/-- A search comes to the nodes above its end, and to the node that it finds. -/
theorem ends_searchVisits (fs : Ctx Ptr) {k : Nat} {par : Ptr} (hr : Rep s.tree.mem par u)
    (h0 : ∀ p ∈ u.toList, p ≠ 0) (hk : u.toList.length < k) :
    Ends (searchVisits name k (ptr u)) s fun r s' => s' = s ∧
      let v := descend compareName (fun p => (s.users p).name) name fs u
      r.1 = ptr v.2 ∧ r.2 + fs.length = v.1.length + min v.2.height 1 := by
  induction u generalizing k par fs with
  | nil =>
    obtain ⟨k, rfl⟩ : ∃ j, k = j + 1 := ⟨k - 1, by omega⟩
    simp [searchVisits, descend]
  | node c l p r ihl ihr =>
    obtain ⟨k, rfl⟩ : ∃ j, k = j + 1 := ⟨k - 1, by omega⟩
    have hp0 : p ≠ 0 := h0 p (by simp)
    simp only [toList_node, List.length_append, List.length_cons] at hk
    have hl := ihl (⟨.left, c, p, r⟩ :: fs) (k := k) hr.2.1 (fun q hq => h0 q (by simp [hq]))
      (by omega)
    have hr' := ihr (⟨.right, c, p, l⟩ :: fs) (k := k) hr.2.2
      (fun q hq => h0 q (by simp [hq])) (by omega)
    rw [ptr_node, searchVisits, if_neg hp0]
    simp only [ends_bind, ends_nameOf, ends_ite, ends_onTree, ends_child, hr.1,
      HevRBTreeNode.child, descend, ends_pure]
    split
    · refine ⟨hp0, hl.mono ?_⟩
      rintro x _ ⟨rfl, hx, hn⟩
      refine ⟨rfl, hx, ?_⟩
      rw [List.length_cons] at hn
      omega
    · split
      · refine ⟨hp0, hr'.mono ?_⟩
        rintro x _ ⟨rfl, hx, hn⟩
        refine ⟨rfl, hx, ?_⟩
        rw [List.length_cons] at hn
        omega
      · simp
        omega

theorem ends_addLoopVisits (fs : Ctx Ptr) {k : Nat} (hc : CtxRep s.tree (ptr u) fs)
    (hr : Rep s.tree.mem (top fs) u) (h0 : ∀ p ∈ elems fs ++ u.toList, p ≠ 0)
    (hk : u.toList.length < k) :
    Ends (addLoopVisits name k (linkOf fs) (top fs)) s fun r s' => s' = s ∧
      let v := descend compareName (fun p => (s.users p).name) name fs u
      r.2 + fs.length = v.1.length + min v.2.height 1 := by
  induction u generalizing k fs with
  | nil =>
    obtain ⟨k, rfl⟩ : ∃ j, k = j + 1 := ⟨k - 1, by omega⟩
    simp only [addLoopVisits, ends_bind, ends_onTree]
    rw [ends_read hc fun p hp => h0 p (by simp [hp])]
    simp [descend]
  | node c l p r ihl ihr =>
    obtain ⟨k, rfl⟩ : ∃ j, k = j + 1 := ⟨k - 1, by omega⟩
    have hp0 : p ≠ 0 := h0 p (by simp)
    simp only [toList_node, List.length_append, List.length_cons] at hk
    have hl := ihl (⟨.left, c, p, r⟩ :: fs) (k := k) ⟨hr.1, hr.2.2, hc⟩ hr.2.1
      (fun q hq => h0 q (by simp [elems] at hq ⊢; tauto)) (by omega)
    have hr' := ihr (⟨.right, c, p, l⟩ :: fs) (k := k) ⟨hr.1, hr.2.1, hc⟩ hr.2.2
      (fun q hq => h0 q (by simp [elems] at hq ⊢; tauto)) (by omega)
    simp only [addLoopVisits, ends_bind, ends_onTree]
    rw [ends_read hc fun p hp => h0 p (by simp [hp])]
    rw [ptr_node, if_neg hp0]
    simp only [ends_bind, ends_nameOf, ends_ite, descend, ends_pure]
    split
    · refine hl.mono ?_
      rintro x _ ⟨rfl, hn⟩
      refine ⟨rfl, ?_⟩
      rw [List.length_cons] at hn
      omega
    · split
      · refine hr'.mono ?_
        rintro x _ ⟨rfl, hn⟩
        refine ⟨rfl, ?_⟩
        rw [List.length_cons] at hn
        omega
      · simp
        omega

/-! ## The calls -/

/-- **The tree is a red-black tree**: linked in both directions, the root without a parent and
    black, no red node with a red child, and as many black nodes on every path. -/
structure Balanced (t : HevRBTree) (u : Tree Ptr) : Prop where
  shaped : t.Shaped u
  color : u.color = .black
  bal : ∃ n, Bal u n

/-- What the calls come to is within twice the logarithm of the number of users. -/
structure Logarithmic (s : HevSocks5Authenticator) (n : Nat) : Prop where
  get : ∀ name, Ends (getVisits name) s fun visits _ => visits ≤ 2 * (n + 1).log2
  add : ∀ user, Ends (addVisits user) s fun visits _ => visits ≤ 2 * (n + 1).log2
  del : ∀ name, Ends (delVisits name) s fun visits _ => visits ≤ 2 * (n + 1).log2

theorem Ordered.balanced (ho : Ordered s u) : Balanced s.tree u := ⟨ho.shaped, ho.color, ho.bal⟩

theorem Balanced.height_le (h : Balanced s.tree u) :
    u.height ≤ 2 * (u.toList.length + 1).log2 := by
  obtain ⟨n, hn⟩ := h.bal
  exact hn.height_le_log2 h.color

/-- A search comes to no more nodes than the tree is high. -/
theorem descend_length_le (name : Str) :
    (descend compareName (fun p => (s.users p).name) name [] u).1.length +
      (descend compareName (fun p => (s.users p).name) name [] u).2.height ≤ u.height := by
  refine (length_add_height_le _ _).trans ?_
  rw [plug_descend, plug_nil]

theorem Balanced.logarithmic (h : Balanced s.tree u) : Logarithmic s u.toList.length := by
  have hN := h.shaped.nodes
  have h0 : ∀ p ∈ u.toList, p ≠ 0 := fun p hp => (hN.ok p hp).1
  obtain ⟨hroot, hrep⟩ := h.shaped.linked
  have hsearch (name : Str) : Ends (searchVisits name _ (ptr u)) s _ :=
    ends_searchVisits [] hrep h0 hN.length_lt
  have hheight := h.height_le
  constructor
  case get =>
    intro name
    have hdown := descend_length_le (s := s) (u := u) name
    simp only [getVisits, ends_bind, Total.ends_get, ends_pure, hroot]
    refine (hsearch name).mono ?_
    rintro r _ ⟨rfl, -, hn⟩
    rw [List.length_nil] at hn
    omega
  case add =>
    intro user
    have hdown := descend_length_le (s := s) (u := u) (s.users user.val).name
    simp only [addVisits, ends_bind, ends_nameOf, ends_pure]
    refine (ends_addLoopVisits [] hroot hrep (fun p hp => h0 p (by simpa [elems] using hp))
      hN.length_lt).mono ?_
    rintro r _ ⟨rfl, hn⟩
    rw [List.length_nil] at hn
    omega
  case del =>
    intro name
    have hdown := descend_length_le (s := s) (u := u) name
    simp only [delVisits, ends_bind, Total.ends_get, hroot, ends_ite, ends_pure]
    refine (hsearch name).mono ?_
    rintro ⟨q, n⟩ s' ⟨rfl, hq, hn⟩
    have hplug : plug (descend compareName (fun p => (s'.users p).name) name [] u).1
        (descend compareName (fun p => (s'.users p).name) name [] u).2 = u :=
      plug_descend name [] u
    rcases hd : descend compareName (fun p => (s'.users p).name) name [] u with ⟨gs, v⟩
    rw [hd] at hq hn hdown hplug
    dsimp only at hq hn hdown ⊢
    subst hq
    cases v with
    | nil =>
      rw [List.length_nil] at hn
      simp only [ptr_nil, if_true]
      omega
    | node c l p r =>
      obtain rfl : plug gs (node c l p r) = u := hplug
      obtain ⟨-, hrp⟩ := linked_plug.1 h.shaped.linked
      have hNp : Nodes (node c l p r).toList :=
        (hN.perm (perm_plug gs (node c l p r))).sublist (List.sublist_append_right ..)
      rw [ptr_node, if_neg (hNp.ok p (by simp)).1, ends_onTree]
      refine (ends_eraseVisits hrp hNp).mono ?_
      rintro m _ ⟨rfl, hm⟩
      rw [List.length_nil] at hn
      rw [height_node] at hn hdown
      omega

/-- **The tree is balanced.**  After every sequence of calls, none of which follows a null pointer
    or loops, the users of the map are the nodes of a red-black tree, and a further call comes to
    no more of the `n` users than twice the logarithm of `n + 1`. -/
theorem tree_balanced (mem : Ptr → HevRBTreeNode) (users : Ptr → HevSocks5User)
    (refs : Ptr → Int) (ops : List Op) :
    Ends (run ops) (new mem users refs) fun _ s =>
      ∃ u, Balanced s.tree u ∧
        (∀ n p, (UserMap.run (fun p => (users p).name) ⟨∅, refs⟩ ops).2.users.lookup n = some p ↔
          p ∈ u.toList ∧ (users p).name = n) ∧
        Logarithmic s u.toList.length := by
  refine (ends_run (represents_new mem users refs) ops).mono ?_
  rintro rs s ⟨-, hs, hu⟩
  obtain ⟨u, ho, hm⟩ := hs.users
  rw [hu] at hm
  exact ⟨u, ho.balanced, hm, ho.balanced.logarithmic⟩

end HevSocks5Authenticator

end HevSocks5
