/-
  The authenticator is a finite map from names to users.

  `UserMap` is the map and the reference counts, `UserMap.step` what a call
  does to them.  `Represents s m`: the tree of the authenticator `s` is
  balanced and ordered, and holds the users of `m`.  Every call keeps this and
  returns what the map returns; the search loops are `descend` on the shape of
  the tree.
-/
import HevSocks5.Authenticator
import HevSocks5.RBTreeErase

namespace HevSocks5

open Total Shape Shape.Tree HevRBTree

/-! ## The map -/

/-- The users by name, and the references to each. -/
structure UserMap where
  users : Finmap fun _ : Str => Ptr
  refs : Ptr → Int

namespace UserMap

open HevSocks5Authenticator (Op Res)

variable (name : Ptr → Str)

/-- What a call returns and does, for users named by `name`. -/
def step (m : UserMap) : Op → Res × UserMap
  | .add user =>
    match m.users.lookup (name user.val) with
    | none => (.int 0, { m with users := m.users.insert (name user.val) user.val })
    | some _ => (.int (-1), m)
  | .del n =>
    match m.users.lookup n with
    | none => (.int (-1), m)
    | some p => (.int 0, ⟨m.users.erase n, Function.update m.refs p (m.refs p - 1)⟩)
  | .get n => (.user ((m.users.lookup n).getD 0), m)
  | .clear =>
    (.void, ⟨∅, fun p => if m.users.lookup (name p) = some p then m.refs p - 1 else m.refs p⟩)

def run (m : UserMap) : List Op → List Res × UserMap
  | [] => ([], m)
  | op :: ops =>
    let (r, m) := m.step name op
    let (rs, m) := m.run ops
    (r :: rs, m)

end UserMap

namespace HevSocks5Authenticator

variable {s : HevSocks5Authenticator} {u : Tree Ptr} {fs : Ctx Ptr} {name : Str}

/-- The tree of the authenticator has the shape `u`, balanced and ordered by name. -/
structure Ordered (s : HevSocks5Authenticator) (u : Tree Ptr) : Prop where
  shaped : s.tree.Shaped u
  color : u.color = .black
  bal : ∃ n, Bal u n
  sorted : Descending compareName (fun p => (s.users p).name) u.toList

/-- **The authenticator holds the users of the map.** -/
structure Represents (s : HevSocks5Authenticator) (m : UserMap) : Prop where
  refs : s.refs = m.refs
  users : ∃ u, Ordered s u ∧
    ∀ n p, m.users.lookup n = some p ↔ p ∈ u.toList ∧ (s.users p).name = n

@[simp] theorem ends_onTree {α : Type} (x : TreeM α) (Q : α → HevSocks5Authenticator → Prop) :
    Ends (onTree x) s Q ↔ Ends x s.tree fun a t => Q a { s with tree := t } := by
  unfold Ends onTree
  cases h : x s.tree with
  | none => simp
  | some r =>
    obtain ⟨a, t⟩ := r
    simp

@[simp] theorem ends_nameOf {p : Ptr} (Q : Str → HevSocks5Authenticator → Prop) :
    Ends (nameOf p) s Q ↔ Q (s.users p).name s := by
  simp [nameOf]

@[simp] theorem ends_unref {p : Ptr} (Q : Unit → HevSocks5Authenticator → Prop) :
    Ends (unref p) s Q ↔ Q () { s with refs := Function.update s.refs p (s.refs p - 1) } := by
  simp [unref]

/-! ## Search -/

/-- The link that the hole of a context hangs from. -/
def linkOf : Ctx Ptr → Link
  | [] => .root
  | f :: _ => .child f.dir f.val

theorem ends_read {h : Ptr} {t : HevRBTree} (hc : CtxRep t h fs) (h0 : ∀ p ∈ elems fs, p ≠ 0)
    (Q : Ptr → HevRBTree → Prop) : Ends (linkOf fs).read t Q ↔ Q h t := by
  cases fs with
  | nil =>
    obtain rfl : t.root = h := hc
    simp [linkOf, Link.read]
  | cons f fs =>
    have hf : f.val ≠ 0 := h0 _ (by simp [elems])
    simp [linkOf, Link.read, hf, hc.1]

theorem ends_searchLoop (fs : Ctx Ptr) {k : Nat} {par : Ptr} (hr : Rep s.tree.mem par u)
    (h0 : ∀ p ∈ u.toList, p ≠ 0) (hk : u.toList.length < k) :
    Ends (searchLoop name k (ptr u)) s fun r s' => s' = s ∧
      r = ptr (descend compareName (fun p => (s.users p).name) name fs u).2 := by
  induction u generalizing k par fs with
  | nil =>
    obtain ⟨k, rfl⟩ : ∃ j, k = j + 1 := ⟨k - 1, by omega⟩
    simp [searchLoop, descend]
  | node c l p r ihl ihr =>
    obtain ⟨k, rfl⟩ : ∃ j, k = j + 1 := ⟨k - 1, by omega⟩
    have hp0 : p ≠ 0 := h0 p (by simp)
    simp only [toList_node, List.length_append, List.length_cons] at hk
    have hl := ihl (⟨.left, c, p, r⟩ :: fs) (k := k) hr.2.1 (fun q hq => h0 q (by simp [hq]))
      (by omega)
    have hr' := ihr (⟨.right, c, p, l⟩ :: fs) (k := k) hr.2.2
      (fun q hq => h0 q (by simp [hq])) (by omega)
    rw [ptr_node, searchLoop, if_neg hp0]
    simp only [ends_bind, ends_nameOf, ends_ite, ends_onTree, ends_child, hr.1,
      HevRBTreeNode.child, descend, ends_pure]
    split
    · exact ⟨hp0, hl⟩
    · split
      · exact ⟨hp0, hr'⟩
      · simp

theorem ends_addLoop (name : Str) (fs : Ctx Ptr) {k : Nat} (hc : CtxRep s.tree (ptr u) fs)
    (hr : Rep s.tree.mem (top fs) u)
    (h0 : ∀ p ∈ elems fs ++ u.toList, p ≠ 0) (hk : u.toList.length < k) :
    Ends (addLoop name k (linkOf fs) (top fs)) s fun r s' => s' = s ∧
      r = match descend compareName (fun p => (s.users p).name) name fs u with
        | (gs, nil) => some (linkOf gs, top gs)
        | (_, node _ _ _ _) => none := by
  induction u generalizing k fs with
  | nil =>
    obtain ⟨k, rfl⟩ : ∃ j, k = j + 1 := ⟨k - 1, by omega⟩
    simp only [addLoop, ends_bind, ends_onTree]
    rw [ends_read hc fun p hp => h0 p (by simp [hp])]
    simp [descend]
  | node c l p r ihl ihr =>
    obtain ⟨k, rfl⟩ : ∃ j, k = j + 1 := ⟨k - 1, by omega⟩
    have hp0 : p ≠ 0 := h0 p (by simp)
    simp only [toList_node, List.length_append, List.length_cons] at hk
    have hl := ihl (⟨.left, c, p, r⟩ :: fs) (k := k) ⟨hr.1, hr.2.2, hc⟩ hr.2.1
      (fun q hq => h0 q (by simp [elems] at hq ⊢; tauto)) (by omega)
    have hr' := ihr (⟨.right, c, p, l⟩ :: fs) (k := k) ⟨hr.1, hr.2.1, hc⟩ hr.2.2
      (fun q hq => h0 q (by simp [elems] at hq ⊢; tauto)) (by omega)
    simp only [addLoop, ends_bind, ends_onTree]
    rw [ends_read hc fun p hp => h0 p (by simp [hp])]
    rw [ptr_node, if_neg hp0]
    simp only [ends_bind, ends_nameOf, ends_ite, descend, ends_pure]
    split
    · exact hl
    · split
      · exact hr'
      · simp

/-! ## The calls -/

theorem around_nil (name : Str) : Around compareName (fun p => (s.users p).name) name [] := by
  simp [Around, before, after]

/-- The search from the root: it finds the one user with the name, or none. -/
theorem Ordered.search (ho : Ordered s u) (name : Str) :
    (∃ gs, (descend compareName (fun p => (s.users p).name) name [] u) = (gs, nil) ∧
      plug gs nil = u ∧ Around compareName (fun p => (s.users p).name) name gs) ∨
    ∃ gs c l p r, (descend compareName (fun p => (s.users p).name) name [] u) =
      (gs, node c l p r) ∧ plug gs (node c l p r) = u ∧ (s.users p).name = name := by
  have hplug : plug (descend compareName (fun p => (s.users p).name) name [] u).1
      (descend compareName (fun p => (s.users p).name) name [] u).2 = u := plug_descend name [] u
  have hspec := descend_spec comparison_compareName ho.sorted (around_nil name)
  rcases hd : descend compareName (fun p => (s.users p).name) name [] u with ⟨gs, v⟩
  rw [hd] at hplug hspec
  rcases hspec with ⟨hv, ha⟩ | ⟨c, l, p, r, hv, hk⟩
  · exact Or.inl ⟨gs, by rw [← hv], by rw [← hv]; exact hplug, ha⟩
  · exact Or.inr ⟨gs, c, l, p, r, by rw [← hv], by rw [← hv]; exact hplug, hk⟩

theorem ends_nodeLink {t : HevRBTree} {p : Ptr} (hc : CtxRep t 0 fs) (hp : p ≠ 0)
    (hpf : p ∉ elems fs) (h0 : ∀ q ∈ elems fs, q ≠ 0) (Q : Unit → HevRBTree → Prop) :
    Ends (nodeLink p (top fs) (linkOf fs)) t Q ↔
      Q () (relink (t.set p ⟨top fs, 0, 0⟩) fs p) := by
  cases fs with
  | nil => simp [nodeLink, linkOf, Link.write, relink, hp]
  | cons f fs =>
    have hf : f.val ≠ 0 := h0 _ (by simp [elems])
    have hfp : f.val ≠ p := fun h => hpf (by simp [elems, h])
    simp [nodeLink, linkOf, Link.write, relink, hp, hf, hfp, hc.1]

/-- A user whose name is not taken is put in its place. -/
theorem ends_insert {p : Ptr} (ho : Ordered s (plug fs nil))
    (ha : Around compareName (fun q => (s.users q).name) (s.users p).name fs)
    (hp0 : p ≠ 0) (hpa : Aligned p) :
    Ends (do onTree (nodeLink p (top fs) (linkOf fs)); onTree (insertColor p)) s fun _ s' =>
      s'.users = s.users ∧ s'.refs = s.refs ∧ ∃ u, Ordered s' u ∧
        u.toList = before fs ++ [p] ++ after fs := by
  have hlist : (plug fs (nil : Tree Ptr)).toList = before fs ++ after fs := by
    rw [toList_plug]
    simp
  have hsorted := ho.sorted
  rw [hlist] at hsorted
  have hpf : p ∉ before fs ++ after fs := fun h => ha.not_mem comparison_compareName p h rfl
  have hmem : ∀ q, q ∈ elems fs ↔ q ∈ before fs ++ after fs := by
    intro q
    rw [← hlist, (perm_plug fs nil).mem_iff]
    simp
  have hN : Nodes (elems fs) := ho.shaped.nodes.perm (by simpa using perm_plug fs nil)
  have hN' : Nodes (p :: elems fs) :=
    ⟨List.nodup_cons.2 ⟨fun h => hpf ((hmem p).1 h), hN.nodup⟩, by
      simpa using ⟨⟨hp0, hpa⟩, hN.ok⟩⟩
  obtain ⟨hc, -⟩ := linked_plug.1 ho.shaped.linked
  have hpf' : p ∉ elems fs := fun h => hpf ((hmem p).1 h)
  simp only [ends_bind, ends_onTree]
  rw [ends_nodeLink hc hp0 hpf' fun q hq => (hN.ok q hq).1]
  set t := relink (s.tree.set p ⟨top fs, 0, 0⟩) fs p with ht
  have hc' : CtxRep t p fs := ctxRep_relink _ ((ctxRep_set hpf').2 hc) hN.nodup
  have hr' : Rep t.mem (top fs) (node .red nil p nil) := by
    simp [Rep, ht, hpf']
  obtain ⟨n, hbal⟩ := ho.bal
  obtain ⟨m, hcb, hm⟩ := bal_of_plug [] (t := nil) ho.color hbal
  rw [List.append_nil] at hcb
  obtain rfl : m = 0 := hm
  refine (ends_insertColor hc' hr' hN' hcb).mono fun _ t' hs => ?_
  refine ⟨trivial, trivial, insertFix fs (node .red nil p nil), ?_, ?_⟩
  · obtain ⟨hcol, hb⟩ := bal_insertFix (t := node .red nil p nil) hcb
      ⟨rfl, rfl, rfl, rfl⟩ rfl
    refine ⟨hs, hcol, hb, ?_⟩
    rw [toList_insertFix rfl, toList_plug]
    exact ha.descending (a := p) hsorted
  · rw [toList_insertFix rfl, toList_plug]
    simp

/-- A user in the tree is taken out. -/
theorem ends_remove {c : Color} {l r : Tree Ptr} {p : Ptr}
    (ho : Ordered s (plug fs (node c l p r))) :
    Ends (onTree (erase p)) s fun _ s' => s'.users = s.users ∧ s'.refs = s.refs ∧
      ∃ u, Ordered s' u ∧ u.toList = before fs ++ (l.toList ++ r.toList) ++ after fs := by
  obtain ⟨hc, hr⟩ := linked_plug.1 ho.shaped.linked
  have hN := ho.shaped.nodes.perm (perm_plug fs (node c l p r))
  obtain ⟨n, hbal⟩ := ho.bal
  obtain ⟨m, hcb, hm⟩ := bal_of_plug [] ho.color hbal
  rw [List.append_nil] at hcb
  rw [ends_onTree]
  refine (ends_erase hc hr hN hcb hm).mono fun _ t' hs => ?_
  refine ⟨rfl, rfl, _, ?_, toList_eraseAt fs c l p r⟩
  obtain ⟨hcol, hb⟩ := bal_eraseAt hcb hm
  refine ⟨hs, hcol, hb, ho.sorted.sublist ?_⟩
  rw [toList_eraseAt, toList_plug]
  simp

variable {m : UserMap}

/-- What the tree and the map say of a name, and where a search for it ends. -/
theorem Ordered.lookup (ho : Ordered s u)
    (hm : ∀ n p, m.users.lookup n = some p ↔ p ∈ u.toList ∧ (s.users p).name = n) (name : Str) :
    (m.users.lookup name = none ∧ ∃ gs,
      descend compareName (fun p => (s.users p).name) name [] u = (gs, nil) ∧
      plug gs nil = u ∧ Around compareName (fun p => (s.users p).name) name gs) ∨
    ∃ gs c l p r, m.users.lookup name = some p ∧
      descend compareName (fun p => (s.users p).name) name [] u = (gs, node c l p r) ∧
      plug gs (node c l p r) = u := by
  rcases ho.search name with ⟨gs, hd, hu, ha⟩ | ⟨gs, c, l, p, r, hd, hu, hk⟩
  · refine Or.inl ⟨Option.eq_none_iff_forall_ne_some.2 fun p hp => ?_, gs, hd, hu, ha⟩
    obtain ⟨hp, hk⟩ := (hm name p).1 hp
    rw [← hu, toList_plug] at hp
    exact ha.not_mem comparison_compareName p (by simpa using hp) hk
  · refine Or.inr ⟨gs, c, l, p, r, (hm name p).2 ⟨?_, hk⟩, hd, hu⟩
    rw [← hu, toList_plug]
    simp

theorem mem_removed {c : Color} {l r v : Tree Ptr} {p q : Ptr}
    (hnd : (plug fs (node c l p r)).toList.Nodup)
    (hv : v.toList = before fs ++ (l.toList ++ r.toList) ++ after fs) :
    q ∈ v.toList ↔ q ∈ (plug fs (node c l p r)).toList ∧ q ≠ p := by
  rw [toList_plug, toList_node] at hnd ⊢
  have hp : p ∉ v.toList := by
    rw [hv]
    simp [List.nodup_append'] at hnd ⊢
    grind
  rw [hv] at hp ⊢
  simp only [List.mem_append, List.mem_cons] at hp ⊢
  constructor
  · intro h
    refine ⟨by tauto, ?_⟩
    rintro rfl
    exact hp h
  · tauto

/-- A user who is taken out of the tree is taken out of the map, and loses a reference. -/
theorem ends_takeOut {c : Color} {l r : Tree Ptr} {p : Ptr}
    (ho : Ordered s (plug fs (node c l p r)))
    (hm : ∀ n q, m.users.lookup n = some q ↔
      q ∈ (plug fs (node c l p r)).toList ∧ (s.users q).name = n) :
    Ends (do onTree (erase p); unref p) s fun _ s' => s'.users = s.users ∧
      s'.refs = Function.update s.refs p (s.refs p - 1) ∧ ∃ v, Ordered s' v ∧
      v.toList.length < (plug fs (node c l p r)).toList.length ∧
      ∀ n q, (m.users.erase (s.users p).name).lookup n = some q ↔
        q ∈ v.toList ∧ (s.users q).name = n := by
  have hp : p ∈ (plug fs (node c l p r)).toList := by simp [toList_plug]
  rw [ends_bind]
  refine (ends_remove ho).mono fun _ s₁ ⟨hu, hrefs, v, hv, hl⟩ => ?_
  rw [ends_unref]
  refine ⟨hu, by rw [hrefs], v, ⟨hv.shaped, hv.color, hv.bal, hv.sorted⟩, ?_, fun k q => ?_⟩
  · rw [hl, toList_plug]
    simp only [toList_node, List.length_append, List.length_cons]
    omega
  have hq := mem_removed ho.shaped.nodes.nodup hl (q := q)
  rw [hq]
  by_cases hk : k = (s.users p).name
  · subst hk
    rw [Finmap.lookup_erase]
    constructor
    · rintro ⟨⟩
    · rintro ⟨⟨hqu, hqp⟩, hqk⟩
      have hsome := (hm _ q).2 ⟨hqu, hqk⟩
      rw [(hm _ p).2 ⟨hp, rfl⟩] at hsome
      exact absurd (Option.some.inj hsome).symm hqp
  · rw [Finmap.lookup_erase_ne hk, hm]
    constructor
    · rintro ⟨hqu, rfl⟩
      refine ⟨⟨hqu, ?_⟩, rfl⟩
      rintro rfl
      exact hk rfl
    · exact fun h => ⟨h.1.1, h.2⟩

theorem ends_search (hs : Represents s m) (name : Str) :
    Ends (searchLoop name fuel s.tree.root) s fun r s' => s' = s ∧
      r = (m.users.lookup name).getD 0 := by
  obtain ⟨u, ho, hm⟩ := hs.users
  rw [ho.shaped.linked.1]
  refine (ends_searchLoop [] ho.shaped.linked.2 (fun p hp => (ho.shaped.nodes.ok p hp).1)
    ho.shaped.nodes.length_lt).mono ?_
  rintro r s' ⟨rfl, rfl⟩
  refine ⟨rfl, ?_⟩
  rcases ho.lookup hm name with ⟨hn, gs, hd, -⟩ | ⟨gs, c, l, p, r, hn, hd, -⟩ <;> simp [hd, hn]

theorem ends_lookup (hs : Represents s m) (name : Str) :
    Ends (get name) s fun r s' => s' = s ∧ r = (m.users.lookup name).getD 0 := by
  simpa [get] using ends_search hs name

/-- The authenticator holds some users. -/
def Valid (s : HevSocks5Authenticator) : Prop := ∃ m, s.Represents m

/-- A lookup has a result and changes nothing. -/
theorem Valid.get (h : s.Valid) (name : Str) :
    ∃ user, HevSocks5Authenticator.get name s = some (user, s) := by
  obtain ⟨m, hm⟩ := h
  obtain ⟨user, s', hget, rfl, -⟩ := ends_lookup hm name
  exact ⟨user, hget⟩

/-- A user who is looked up is one that the map holds. -/
theorem get_ne_zero {user : Ptr} (hm : s.Represents m) (h : m.users.lookup name = some user) :
    user ≠ 0 := by
  obtain ⟨u, ho, hu⟩ := hm.users
  exact (ho.shaped.nodes.ok user ((hu name user).1 h).1).1

/-- A call keeps the map, returns what the map returns, and changes nothing
    when it returns -1. -/
def Refines (name : Ptr → Str) (s : HevSocks5Authenticator) (m : UserMap) (op : Op) : Prop :=
  Ends (exec op) s fun r s' => r = (m.step name op).1 ∧ Represents s' (m.step name op).2 ∧
    s'.users = s.users ∧ (r = .int (-1) → s' = s)

theorem refines_get (hs : Represents s m) (name : Str) :
    Refines (fun p => (s.users p).name) s m (.get name) := by
  simp only [Refines, exec, ends_bind, ends_pure]
  refine (ends_lookup hs name).mono ?_
  rintro r s' ⟨rfl, rfl⟩
  exact ⟨rfl, hs, rfl, fun _ => rfl⟩

theorem refines_add (hs : Represents s m) (user : UserPtr) :
    Refines (fun p => (s.users p).name) s m (.add user) := by
  obtain ⟨p, hp0, hpa⟩ := user
  obtain ⟨u, ho, hm⟩ := hs.users
  have hN := ho.shaped.nodes
  have hloop := ends_addLoop (s.users p).name [] (s := s) (u := u) (k := fuel)
    ho.shaped.linked.1 ho.shaped.linked.2 (fun q hq => (hN.ok q (by simpa [elems] using hq)).1)
    hN.length_lt
  simp only [Refines, exec, add, ends_bind, ends_nameOf, ends_pure]
  refine hloop.mono ?_
  rintro r s' ⟨rfl, hr⟩
  rcases ho.lookup hm (s'.users p).name with ⟨hn, gs, hd, rfl, ha⟩ | ⟨gs, c, l, q, r, hn, hd, -⟩
  · rw [hd] at hr
    subst hr
    simp only [ends_bind, ends_pure, UserMap.step, hn]
    have hins := ends_insert ho ha hp0 hpa
    rw [ends_bind] at hins
    refine hins.mono fun _ s₁ h₁ => h₁.mono fun _ s₂ ⟨hu, hrefs, v, hv, hl⟩ => ?_
    refine ⟨trivial, ⟨by rw [hrefs, hs.refs], v, hv, fun n q => ?_⟩, hu, by simp⟩
    have hq : q ∈ v.toList ↔ q ∈ (plug gs (nil : Tree Ptr)).toList ∨ q = p := by
      rw [hl, toList_plug]
      simp
      tauto
    rw [hu, hq]
    by_cases hk : (s'.users p).name = n
    · subst hk
      rw [Finmap.lookup_insert]
      constructor
      · rintro ⟨⟩
        exact ⟨Or.inr rfl, rfl⟩
      · rintro ⟨hq | rfl, hk⟩
        · exact absurd (hn ▸ (hm _ q).2 ⟨hq, hk⟩) (by simp)
        · rfl
    · rw [Finmap.lookup_insert_of_ne _ (Ne.symm hk), hm]
      constructor
      · exact fun h => ⟨Or.inl h.1, h.2⟩
      · rintro ⟨hq | rfl, hk'⟩
        · exact ⟨hq, hk'⟩
        · exact absurd hk' hk
  · rw [hd] at hr
    subst hr
    simp [UserMap.step, hn, hs]

theorem refines_del (hs : Represents s m) (name : Str) :
    Refines (fun p => (s.users p).name) s m (.del name) := by
  obtain ⟨u, ho, hm⟩ := hs.users
  simp only [Refines, exec, del, ends_bind, Total.ends_get, ends_pure]
  refine (ends_search hs name).mono ?_
  rintro n s' ⟨rfl, rfl⟩
  rcases ho.lookup hm name with ⟨hn, -⟩ | ⟨gs, c, l, p, r, hn, -, rfl⟩
  · simp [UserMap.step, hn, hs]
  · have hp : p ∈ (plug gs (node c l p r)).toList := by simp [toList_plug]
    have hp0 : p ≠ 0 := (ho.shaped.nodes.ok p hp).1
    have hpk : (s'.users p).name = name := ((hm name p).1 hn).2
    have hout := ends_takeOut ho hm
    rw [ends_bind] at hout
    simp only [hn, Option.getD_some, if_neg hp0, ends_bind, ends_pure, UserMap.step]
    refine hout.mono fun _ s₁ h₁ => h₁.mono ?_
    rintro _ s₂ ⟨hu, hrefs, v, hv, -, hmem⟩
    refine ⟨trivial, ⟨by rw [hrefs, hs.refs], v, hv, fun k q => ?_⟩, hu, by simp⟩
    rw [hu, ← hpk]
    exact hmem k q

/-- Every round of `clear` takes one user out; in the end none is left. -/
theorem ends_clearLoop {k : Nat} (ho : Ordered s u) (hk : u.toList.length < k) :
    Ends (clearLoop k) s fun _ s' => Ordered s' nil ∧ s'.users = s.users ∧
      s'.refs = fun p => if p ∈ u.toList then s.refs p - 1 else s.refs p := by
  induction k generalizing s u with
  | zero => omega
  | succ k ih =>
    simp only [clearLoop, ends_bind, ends_onTree]
    refine (ends_first ho.shaped).mono ?_
    rintro n _ ⟨rfl, ⟨rfl, rfl⟩ | ⟨gs, c, r, rfl, hn⟩⟩
    · simp [ho]
    · have hrem := ends_remove ho
      have hnd := ho.shaped.nodes.nodup
      simp only [if_neg hn, ends_bind, ends_unref]
      rw [ends_onTree] at hrem
      rw [ends_onTree]
      refine hrem.mono ?_
      rintro _ t ⟨hu, hrefs, v, hv, hl⟩
      have hlen : v.toList.length < k := by
        rw [toList_plug] at hk
        simp only [hl, toList_node, toList_nil, List.length_append, List.length_cons] at hk ⊢
        omega
      have hv' : Ordered { s with tree := t, refs := Function.update s.refs n (s.refs n - 1) } v :=
        ⟨hv.shaped, hv.color, hv.bal, hv.sorted⟩
      refine (ih hv' hlen).mono ?_
      rintro _ s' ⟨hs', hu', hrefs'⟩
      refine ⟨hs', hu', hrefs'.trans (funext fun q => ?_)⟩
      have hq := mem_removed hnd hl (q := q)
      by_cases hqn : q = n
      · subst hqn
        have hmem : q ∈ (plug gs (node c nil q r)).toList := by simp [toList_plug]
        rw [if_neg fun h => (hq.1 h).2 rfl, if_pos hmem]
        exact Function.update_self ..
      · simp only [hq, hqn, ne_eq, not_false_eq_true, and_true, Function.update_of_ne hqn]

theorem refines_clear (hs : Represents s m) :
    Refines (fun p => (s.users p).name) s m .clear := by
  obtain ⟨u, ho, hm⟩ := hs.users
  simp only [Refines, exec, clear, ends_bind, ends_pure]
  refine (ends_clearLoop ho ho.shaped.nodes.length_lt).mono ?_
  rintro _ s' ⟨hs', hu, hrefs⟩
  refine ⟨rfl, ⟨?_, nil, hs', fun n p => by simp [UserMap.step]⟩, hu, fun h => Res.noConfusion h⟩
  rw [hrefs, hs.refs]
  funext p
  have hp : m.users.lookup (s.users p).name = some p ↔ p ∈ u.toList := by
    rw [hm]
    simp
  simp only [UserMap.step, hp]

/-! ## Runs -/

theorem refines (hs : Represents s m) (op : Op) : Refines (fun p => (s.users p).name) s m op := by
  cases op with
  | add user => exact refines_add hs user
  | del name => exact refines_del hs name
  | get name => exact refines_get hs name
  | clear => exact refines_clear hs

theorem represents_new (mem : Ptr → HevRBTreeNode) (users : Ptr → HevSocks5User)
    (refs : Ptr → Int) : Represents (new mem users refs) ⟨∅, refs⟩ :=
  ⟨rfl, nil, ⟨⟨⟨rfl, trivial⟩, List.nodup_nil, by simp⟩, rfl, ⟨0, rfl⟩, List.Pairwise.nil⟩, by simp⟩

/-- Every sequence of calls returns what the map returns, and ends in the map's state. -/
theorem ends_run (hs : Represents s m) (ops : List Op) :
    Ends (run ops) s fun rs s' => rs = (m.run (fun p => (s.users p).name) ops).1 ∧
      Represents s' (m.run (fun p => (s.users p).name) ops).2 ∧ s'.users = s.users := by
  induction ops generalizing s m with
  | nil => simp [run, UserMap.run, hs]
  | cons op ops ih =>
    simp only [run, ends_bind, ends_pure]
    refine (refines hs op).mono ?_
    rintro r s₁ ⟨rfl, h₁, hu, -⟩
    refine (ih h₁).mono ?_
    rintro rs s₂ ⟨rfl, h₂, hu₂⟩
    rw [hu] at h₂ hu₂ ⊢
    exact ⟨rfl, h₂, hu₂⟩

/-- **The authenticator is a finite map.**  From a new authenticator every sequence of calls
    returns what the map returns; in the state it leads to the tree holds the users of the map,
    and every further call does to it what the call does to the map, and nothing at all when it
    returns -1. -/
theorem finite_map (mem : Ptr → HevRBTreeNode) (users : Ptr → HevSocks5User) (refs : Ptr → Int)
    (ops : List Op) :
    Ends (run ops) (new mem users refs) fun rs s =>
      rs = (UserMap.run (fun p => (users p).name) ⟨∅, refs⟩ ops).1 ∧
      Represents s (UserMap.run (fun p => (users p).name) ⟨∅, refs⟩ ops).2 ∧
      s.users = users ∧
      ∀ op, Refines (fun p => (users p).name) s
        (UserMap.run (fun p => (users p).name) ⟨∅, refs⟩ ops).2 op := by
  refine (ends_run (represents_new mem users refs) ops).mono ?_
  rintro rs s ⟨rfl, hs, hu⟩
  refine ⟨rfl, hs, hu, fun op => ?_⟩
  have href := refines hs op
  rw [hu] at href
  exact href

end HevSocks5Authenticator

end HevSocks5
