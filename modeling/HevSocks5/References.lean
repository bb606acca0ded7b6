/-
  Reference counts of users and authenticators.

  Of the references to an object one may be the authenticator's that contains
  it; the others are free.  `hev_object_ref` and `hev_object_unref` add and
  subtract a free reference (`moves_ref`, `moves_unref`), whatever a destructor
  drops, and the calls of an authenticator leave the free references as they
  are.  Between the calls the free references are the ones of the callers and of
  the servers.

  What is said of the objects that are shared is what the functions of the
  authenticator and of the server do to their own (`ends_clear_iff`,
  `returns_setAuth_iff`).
-/
import HevSocks5.Sharing

namespace HevSocks5

open Interact Total Sys Shared HevSocks5Authenticator

section
variable {users : Ptr → HevSocks5User} {w w' : Shared}

/-! ## Holders -/

open Classical in
/-- The references that authenticators hold. -/
noncomputable def Shared.members (users : Ptr → HevSocks5User) (w : Shared) : Object → Int
  | .auth _ => 0
  | .user p => if ∃ a, w.Contains users a p then 1 else 0

/-- The references that servers hold. -/
def Shared.servers (w : Shared) (o : Object) : Int :=
  ∑ i ∈ w.live, if w.obj i = some o then 1 else 0

/-- The references that are not an authenticator's. -/
noncomputable def Shared.free (users : Ptr → HevSocks5User) (w : Shared) (o : Object) : Int :=
  w.refs o - w.members users o

/-- What is true inside the functions too. -/
structure Shared.Sound (users : Ptr → HevSocks5User) (w : Shared) : Prop where
  fresh : ¬ w.stale
  valid : ∀ a, (w.index users a).Valid
  disjoint : ∀ a b p, w.Contains users a p → w.Contains users b p → a = b
  free : ∀ o, 0 ≤ w.free users o

/-- Only authenticators that are alive contain users. -/
def Shared.Alive (users : Ptr → HevSocks5User) (w : Shared) : Prop :=
  ∀ a p, w.Contains users a p → 0 < w.refs (.auth a)

/-- **Every reference has a holder**, between the calls. -/
structure Shared.Counted (users : Ptr → HevSocks5User) (w : Shared) : Prop where
  sound : w.Sound users
  free : ∀ o, w.free users o = w.outside o + w.servers o
  alive : w.Alive users
  made : ∀ o ∉ w.made, w.refs o = 0

/-- What a function leaves as it is; objects are not brought back to life. -/
structure Shared.Keeps (w w' : Shared) : Prop where
  made : w'.made = w.made
  outside : w'.outside = w.outside
  live : w'.live = w.live
  obj : w'.obj = w.obj
  dead : ∀ o, w.refs o = 0 → w'.refs o = 0

namespace Shared.Keeps

variable {w₁ w₂ : Shared}

theorem refl : Keeps w w := ⟨rfl, rfl, rfl, rfl, fun _ => id⟩

theorem trans (h : Keeps w w₁) (h' : Keeps w₁ w₂) : Keeps w w₂ where
  made := h'.made.trans h.made
  outside := h'.outside.trans h.outside
  live := h'.live.trans h.live
  obj := h'.obj.trans h.obj
  dead o ho := h'.dead o (h.dead o ho)

end Shared.Keeps

/-- A function has changed the free references by `d`. -/
structure Shared.Moves (users : Ptr → HevSocks5User) (w w' : Shared) (d : Object → Int) : Prop where
  sound : w'.Sound users
  free : ∀ o, w'.free users o = w.free users o + d o
  keeps : w.Keeps w'
  alive : w.Alive users → w'.Alive users

theorem Shared.Moves.trans {w₁ w₂ : Shared} {d d' : Object → Int} (h : w.Moves users w₁ d)
    (h' : w₁.Moves users w₂ d') : w.Moves users w₂ fun o => d o + d' o where
  sound := h'.sound
  free o := by rw [h'.free, h.free, add_assoc]
  keeps := h.keeps.trans h'.keeps
  alive ha := h'.alive (h.alive ha)

theorem Shared.members_nonneg (users : Ptr → HevSocks5User) (w : Shared) (o : Object) :
    0 ≤ w.members users o := by
  cases o with
  | auth a => exact le_refl 0
  | user p =>
    simp only [members]
    split
    · exact Int.one_nonneg
    · exact Int.le_refl 0

theorem Shared.members_of_contains {a : Nat} {p : Ptr} (h : w.Contains users a p) :
    w.members users (.user p) = 1 :=
  if_pos ⟨a, h⟩

theorem Shared.members_congr (h : ∀ a p, w'.Contains users a p ↔ w.Contains users a p) :
    w'.members users = w.members users := by
  classical
  funext o
  cases o with
  | auth a => rfl
  | user p => exact if_congr (exists_congr fun a => h a p) rfl rfl

/-- A user who is contained is alive. -/
theorem Shared.Sound.refs_pos (h : w.Sound users) {a : Nat} {p : Ptr} (hp : w.Contains users a p) :
    0 < w.refs (.user p) := by
  have h₁ := h.free (.user p)
  unfold Shared.free at h₁
  rw [members_of_contains hp] at h₁
  omega

/-! ## What the trees contain -/

/-- The counts are no part of what a tree represents. -/
theorem represents_refs {t : HevRBTree} {refs refs' : Ptr → Int} {m : UserMap}
    (h : Represents ⟨t, users, refs⟩ m) : Represents ⟨t, users, refs'⟩ ⟨m.users, refs'⟩ := by
  obtain ⟨u, ho, hm⟩ := h.users
  exact ⟨rfl, u, ⟨ho.shaped, ho.color, ho.bal, ho.sorted⟩, hm⟩

theorem contains_iff {a : Nat} {m : UserMap} (h : (w.index users a).Represents m) {p : Ptr} :
    w.Contains users a p ↔ m.users.lookup (users p).name = some p := by
  obtain ⟨r, s', hget, rfl, rfl⟩ := ends_lookup h (users p).name
  unfold Shared.Contains
  rw [hget]
  cases hlook : m.users.lookup (users p).name with
  | none =>
    simp only [Option.getD_none, Option.some.injEq, Prod.mk.injEq, and_true, reduceCtorEq,
      iff_false, not_and]
    exact fun hp h0 => hp h0.symm
  | some q =>
    simp only [Option.getD_some, Option.some.injEq, Prod.mk.injEq, and_true]
    refine ⟨fun h => h.2, fun hq => ⟨?_, hq⟩⟩
    exact hq ▸ get_ne_zero h hlook

/-- A user whom the map holds has the name that it is held under. -/
theorem name_of_lookup {s : HevSocks5Authenticator} {m : UserMap} (h : s.Represents m) {n : Str}
    {p : Ptr} (hp : m.users.lookup n = some p) : (s.users p).name = n := by
  obtain ⟨u, -, hm⟩ := h.users
  exact ((hm n p).1 hp).2

theorem contains_congr {a : Nat} (h : w'.tree a = w.tree a) {p : Ptr} :
    w'.Contains users a p ↔ w.Contains users a p := by
  unfold Shared.Contains Shared.index
  rw [h]

theorem represents_authenticator {a : Nat} {m : UserMap} (h : (w.index users a).Represents m) :
    (w.authenticator users a).Represents ⟨m.users, fun p => w.refs (.user p)⟩ :=
  represents_refs h

/-- What the trees contain after a call of an authenticator. -/
theorem contains_put {a : Nat} {s : HevSocks5Authenticator} {m : UserMap} (hs : s.Represents m)
    (hu : s.users = users) (b : Nat) (p : Ptr) :
    (w.put a s).Contains users b p ↔
      if b = a then m.users.lookup (users p).name = some p else w.Contains users b p := by
  split
  · rename_i hb
    subst hb
    subst hu
    have hidx : ((w.put b s).index s.users b).Represents ⟨m.users, fun _ => 0⟩ := by
      simp only [Shared.index, Shared.put, Function.update_self]
      exact represents_refs hs
    exact contains_iff hidx
  · rename_i hb
    exact contains_congr (Function.update_of_ne hb _ _)

theorem valid_put {a : Nat} {s : HevSocks5Authenticator} {m : UserMap} (hs : s.Represents m)
    (hu : s.users = users) (h : ∀ b, (w.index users b).Valid) (b : Nat) :
    ((w.put a s).index users b).Valid := by
  by_cases hb : b = a
  · subst hb
    subst hu
    refine ⟨⟨m.users, fun _ => 0⟩, ?_⟩
    simp only [Shared.index, Shared.put, Function.update_self]
    exact represents_refs hs
  · obtain ⟨m', hm'⟩ := h b
    refine ⟨m', ?_⟩
    simpa only [Shared.index, Shared.put, Function.update_of_ne hb] using hm'

/-! ## Using objects -/

theorem use_eq {o : Object} (h : 0 < w.refs o) : use o w = some ((), w) := by
  have hno : ¬ w.refs o ≤ 0 := by omega
  simp [use, modify, modifyGet, MonadStateOf.modifyGet, StateT.modifyGet, hno]

theorem useUsers_eq {a : Nat} (h : ∀ p, w.Contains users a p → 0 < w.refs (.user p)) :
    useUsers users a w = some ((), w) := by
  have hno : ¬ ∃ p, w.Contains users a p ∧ w.refs (.user p) ≤ 0 := by
    rintro ⟨p, hp, hle⟩
    have := h p hp
    omega
  simp [useUsers, modify, modifyGet, MonadStateOf.modifyGet, StateT.modifyGet, hno]

theorem ends_of_eq {α β σ : Type} {x : Stuck σ α} {f : α → Stuck σ β} {s s' : σ} {a : α}
    (h : x s = some (a, s')) (Q : β → σ → Prop) : Ends (x >>= f) s Q ↔ Ends (f a) s' Q := by
  rw [ends_bind]
  constructor
  · intro h'
    exact h'.eq_of_run h
  · exact fun h' => ⟨a, s', h, h'⟩

theorem ends_inAuth {α : Type} {a : Nat} {x : AuthM α} {Q : α → Shared → Prop} :
    Ends (inAuth users a x) w Q ↔ Ends x (w.authenticator users a) fun r s => Q r (w.put a s) := by
  unfold Ends inAuth
  cases h : x (w.authenticator users a) with
  | none => simp
  | some r =>
    obtain ⟨r, s⟩ := r
    simp

/-- An authenticator that is alive is called. -/
theorem Shared.Sound.ends_onAuth {α : Type} (h : w.Sound users) {a : Nat}
    (ha : 0 < w.refs (.auth a)) {x : AuthM α} {Q : α → Shared → Prop}
    (hx : Ends x (w.authenticator users a) fun r s => Q r (w.put a s)) :
    Ends (onAuth users a x) w Q := by
  unfold onAuth
  rw [ends_of_eq (use_eq ha), ends_of_eq (useUsers_eq fun p hp => h.refs_pos hp), ends_inAuth]
  exact hx

/-- A user who is taken out of a tree loses the reference of the authenticator. -/
theorem Shared.Sound.remove (h : w.Sound users) {a : Nat} {s : HevSocks5Authenticator} {m : UserMap}
    (hs : s.Represents m) (hu : s.users = users)
    (hsub : ∀ p, m.users.lookup (users p).name = some p → w.Contains users a p)
    (hrefs : ∀ p, w.Contains users a p → m.users.lookup (users p).name ≠ some p →
      s.refs p = w.refs (.user p) - 1)
    (hkeep : ∀ p, (w.Contains users a p → m.users.lookup (users p).name = some p) →
      s.refs p = w.refs (.user p)) :
    w.Moves users (w.put a s) fun _ => 0 := by
  have hcontains := contains_put (w := w) (a := a) hs hu
  have hsub' : ∀ b p, (w.put a s).Contains users b p → w.Contains users b p := by
    intro b p hp
    rw [hcontains] at hp
    split at hp
    · rename_i hb
      exact hb ▸ hsub p hp
    · exact hp
  have hfree : (w.put a s).free users = w.free users := by
    funext o
    cases o with
    | auth b => rfl
    | user p =>
      show s.refs p - (w.put a s).members users (.user p) = _
      by_cases hp : w.Contains users a p ∧ m.users.lookup (users p).name ≠ some p
      · -- `p` is in no tree any more
        have hout : ¬ ∃ b, (w.put a s).Contains users b p := by
          rintro ⟨b, hb⟩
          obtain rfl := h.disjoint _ _ _ hp.1 (hsub' b p hb)
          rw [hcontains, if_pos rfl] at hb
          exact hp.2 hb
        rw [hrefs p hp.1 hp.2, show (w.put a s).members users (.user p) = 0 from if_neg hout,
          Shared.free, members_of_contains hp.1]
        omega
      · have hp' : w.Contains users a p → m.users.lookup (users p).name = some p :=
          fun hc => by_contra fun hne => hp ⟨hc, hne⟩
        have hmem : (w.put a s).members users (.user p) = w.members users (.user p) := by
          classical
          refine if_congr (exists_congr fun b => ?_) rfl rfl
          refine ⟨hsub' b p, fun hb => ?_⟩
          rw [hcontains]
          split
          · rename_i hba
            exact hp' (hba ▸ hb)
          · exact hb
        rw [hkeep p hp', hmem, Shared.free]
  have hnonneg : ∀ o, 0 ≤ (w.put a s).refs o := by
    intro o
    have h₁ := h.free o
    have h₂ := members_nonneg users (w.put a s) o
    rw [← hfree] at h₁
    unfold Shared.free at h₁
    omega
  refine ⟨⟨h.fresh, valid_put hs hu h.valid, ?_, fun o => hfree ▸ h.free o⟩, fun o => ?_,
    ⟨rfl, rfl, rfl, rfl, ?_⟩, fun ha b p hb => ha b p (hsub' b p hb)⟩
  · exact fun b c p hb hc => h.disjoint b c p (hsub' b p hb) (hsub' c p hc)
  · rw [hfree, add_zero]
  · intro o ho
    cases o with
    | auth b => exact ho
    | user p =>
      by_cases hp : w.Contains users a p ∧ m.users.lookup (users p).name ≠ some p
      · have := hnonneg (.user p)
        rw [show (w.put a s).refs (.user p) = _ from hrefs p hp.1 hp.2] at this
        omega
      · exact (hkeep p fun hc => by_contra fun hne => hp ⟨hc, hne⟩).trans ho

/-! ## The calls of an authenticator -/

/-- A user who is taken out of the map loses the reference of the authenticator. -/
theorem Shared.Sound.moves_takeOut (h : w.Sound users) {a : Nat} {m : UserMap}
    (hm : (w.index users a).Represents m) {q : Ptr}
    (hq : m.users.lookup (users q).name = some q) {s : HevSocks5Authenticator} {refs : Ptr → Int}
    (hs : s.Represents ⟨m.users.erase (users q).name, refs⟩) (hu : s.users = users)
    (hrefs : s.refs = Function.update (fun p => w.refs (.user p)) q (w.refs (.user q) - 1)) :
    w.Moves users (w.put a s) fun _ => 0 := by
  have hcontains : ∀ p, w.Contains users a p ↔ m.users.lookup (users p).name = some p := fun p =>
    contains_iff hm
  refine h.remove hs hu (fun p hp => ?_) (fun p hp hne => ?_) fun p hp => ?_
  · rw [hcontains]
    by_cases hp' : (users p).name = (users q).name
    · rw [hp', Finmap.lookup_erase] at hp
      cases hp
    · rwa [Finmap.lookup_erase_ne hp'] at hp
  · have hpq : p = q := by
      by_contra hpq
      refine hne ?_
      rw [Finmap.lookup_erase_ne fun hp' => hpq ?_]
      · exact (hcontains p).1 hp
      · have hlook := (hcontains p).1 hp
        rw [hp', hq, Option.some.injEq] at hlook
        exact hlook.symm
    rw [hrefs, hpq, Function.update_self]
  · rw [hrefs, Function.update_of_ne]
    rintro rfl
    have hc := hp ((hcontains p).2 hq)
    rw [Finmap.lookup_erase] at hc
    cases hc

theorem put_authenticator (a : Nat) : w.put a (w.authenticator users a) = w := by
  simp only [Shared.put, Shared.authenticator, Function.update_eq_self]
  congr 1
  funext o
  cases o <;> rfl

theorem authenticator_put {a : Nat} {s : HevSocks5Authenticator} (hu : s.users = users) :
    (w.put a s).authenticator users a = s := by
  subst hu
  simp [Shared.authenticator, Shared.put]

/-- Every round takes one user out; the users who are left are alive. -/
theorem Shared.Sound.moves_clearLoop (h : w.Sound users) {a : Nat} {u : Shape.Tree Ptr}
    {m : UserMap} (ho : (w.authenticator users a).Ordered u)
    (hm : ∀ n p, m.users.lookup n = some p ↔ p ∈ u.toList ∧ (users p).name = n) {k : Nat}
    (hk : u.toList.length < k) :
    Ends (Shared.clearLoop users a k) w fun _ w' =>
      w.Moves users w' (fun _ => 0) ∧ (∀ b p, w'.Contains users b p → b ≠ a ∧
        w.Contains users b p) ∧ ∀ b, w'.refs (.auth b) = w.refs (.auth b) := by
  induction k generalizing w u m with
  | zero => omega
  | succ k ih =>
    have hrep : (w.index users a).Represents ⟨m.users, fun _ => 0⟩ :=
      ⟨rfl, u, ⟨ho.shaped, ho.color, ho.bal, ho.sorted⟩, hm⟩
    unfold Shared.clearLoop
    rw [ends_of_eq (useUsers_eq fun p hp => h.refs_pos hp), ends_bind, ends_inAuth, ends_onTree]
    refine (HevRBTree.ends_first ho.shaped).mono ?_
    rintro n t ⟨rfl, ⟨rfl, rfl⟩ | ⟨gs, c, r, rfl, hn⟩⟩
    · -- no user is left
      rw [if_pos rfl, ends_pure]
      have hsame :
          w.put a { w.authenticator users a with tree := (w.authenticator users a).tree } = w :=
        put_authenticator a
      rw [hsame]
      refine ⟨⟨h, fun _ => (add_zero _).symm, .refl, id⟩, fun b p hp => ⟨?_, hp⟩, fun _ => rfl⟩
      rintro rfl
      rw [contains_iff hrep] at hp
      exact absurd ((hm _ _).1 hp).1 (by simp)
    · rw [if_neg hn, ends_bind, ends_inAuth]
      have hsame :
          w.put a { w.authenticator users a with tree := (w.authenticator users a).tree } = w :=
        put_authenticator a
      rw [hsame]
      refine (ends_takeOut ho hm).mono ?_
      rintro _ s ⟨hu, hrefs, v, hv, hlen, hm'⟩
      have hu : s.users = users := hu
      have hm' : ∀ k q, (m.users.erase (users n).name).lookup k = some q ↔
          q ∈ v.toList ∧ (users q).name = k := hm'
      have hq : m.users.lookup (users n).name = some n :=
        (hm _ n).2 ⟨by simp [Shape.toList_plug], rfl⟩
      have hs : s.Represents ⟨m.users.erase (users n).name, s.refs⟩ :=
        ⟨rfl, v, hv, fun k q => hu ▸ hm' k q⟩
      have hmoves := h.moves_takeOut hrep hq hs hu hrefs
      have hv' : ((w.put a s).authenticator users a).Ordered v := by rwa [authenticator_put hu]
      have hih := ih hmoves.sound hv' (m := ⟨m.users.erase (users n).name, s.refs⟩) hm' (by omega)
      refine hih.mono ?_
      rintro _ w' ⟨hmoves', hsub, hauth⟩
      refine ⟨?_, fun b p hp => ?_, fun b => (hauth b).trans rfl⟩
      · simpa using hmoves.trans hmoves'
      · obtain ⟨hb, hp⟩ := hsub b p hp
        rw [contains_put hs hu, if_neg hb] at hp
        exact ⟨hb, hp⟩

theorem Shared.Sound.moves_clear (h : w.Sound users) (a : Nat) :
    Ends (Shared.clear users a) w fun _ w' =>
      w.Moves users w' (fun _ => 0) ∧ (∀ b p, w'.Contains users b p → b ≠ a ∧
        w.Contains users b p) ∧ ∀ b, w'.refs (.auth b) = w.refs (.auth b) := by
  obtain ⟨m, hm⟩ := h.valid a
  obtain ⟨u, ho, hlook⟩ := hm.users
  exact h.moves_clearLoop (m := m) ⟨ho.shaped, ho.color, ho.bal, ho.sorted⟩ hlook
    ho.shaped.nodes.length_lt

/-- All but the record of objects that were used too late. -/
def Shared.shown (w : Shared) : Shared := { w with stale := False }

theorem put_put {a : Nat} {s s' : HevSocks5Authenticator} : (w.put a s).put a s' = w.put a s' := by
  simp only [Shared.put, Function.update_idem]

theorem ends_clearLoop_iff (a k : Nat) (Q : Shared → Prop) :
    Ends (Shared.clearLoop users a k) w (fun _ w' => Q w'.shown) ↔
      Ends (HevSocks5Authenticator.clearLoop k) (w.authenticator users a) fun _ s =>
        Q (w.put a s).shown := by
  induction k generalizing w with
  | zero => exact iff_of_false (ends_stuck _ _) (ends_stuck _ _)
  | succ k ih =>
    simp only [Shared.clearLoop, useUsers, HevSocks5Authenticator.clearLoop, ends_bind, ends_modify,
      ends_inAuth, ends_onTree]
    -- what is used is not shown
    refine ends_congr fun n t => ?_
    simp only [ends_ite, ends_pure, ends_bind, ends_inAuth, ends_onTree]
    split
    · exact Iff.rfl
    rw [authenticator_put (by rfl)]
    refine ends_congr fun _ t' => ?_
    simp only [ends_unref, ih, put_put]
    rw [authenticator_put (by rfl)]
    exact Iff.rfl

/-- **An authenticator is cleared** as `hev_socks5_authenticator_clear` does it. -/
theorem ends_clear_iff (a : Nat) (Q : Shared → Prop) :
    Ends (Shared.clear users a) w (fun _ w' => Q w'.shown) ↔
      Ends HevSocks5Authenticator.clear (w.authenticator users a) fun _ s =>
        Q (w.put a s).shown :=
  ends_clearLoop_iff a fuel Q

theorem Shared.Sound.moves_del (h : w.Sound users) {a : Nat} (ha : 0 < w.refs (.auth a))
    (name : Str) : Ends (onAuth users a (HevSocks5Authenticator.del name)) w fun _ w' =>
      w.Moves users w' fun _ => 0 := by
  obtain ⟨m, hm⟩ := h.valid a
  have hdel := refines_del (represents_authenticator hm) name
  simp only [Refines, HevSocks5Authenticator.exec, ends_bind, ends_pure] at hdel
  refine h.ends_onAuth ha (hdel.mono ?_)
  rintro res s ⟨-, hs, hu, -⟩
  cases hlook : m.users.lookup name with
  | none =>
    simp only [UserMap.step, hlook] at hs
    have hrefs : s.refs = fun p => w.refs (.user p) := hs.refs
    refine h.remove hs hu (fun p hp => (contains_iff hm).2 hp) (fun p hp hne => ?_) fun p _ => ?_
    · exact absurd ((contains_iff hm).1 hp) hne
    · rw [hrefs]
  | some q =>
    simp only [UserMap.step, hlook] at hs
    have hq : (users q).name = name := name_of_lookup hm hlook
    subst hq
    exact h.moves_takeOut hm hlook hs hu hs.refs

/-- A search finds a user of the name who is contained, or none, and changes nothing. -/
theorem Shared.Sound.ends_get (h : w.Sound users) {a : Nat} (ha : 0 < w.refs (.auth a))
    (name : Str) : Ends (onAuth users a (HevSocks5Authenticator.get name)) w fun user w' =>
      w' = w ∧ (user ≠ 0 → w.Contains users a user ∧ (users user).name = name) := by
  obtain ⟨m, hm⟩ := h.valid a
  refine h.ends_onAuth ha ((ends_lookup (represents_authenticator hm) name).mono ?_)
  rintro user s ⟨rfl, rfl⟩
  refine ⟨put_authenticator a, fun h0 => ?_⟩
  rw [contains_iff hm]
  cases hlook : m.users.lookup name with
  | none =>
    rw [hlook] at h0
    exact absurd rfl h0
  | some q =>
    have hname : (users q).name = name := name_of_lookup hm hlook
    rw [Option.getD_some, hname, hlook]
    exact ⟨rfl, rfl⟩

/-- The reference of the caller to a user who is added is the authenticator's from now on. -/
theorem Shared.Sound.moves_add (h : w.Sound users) {a : Nat} (ha : 0 < w.refs (.auth a))
    (user : UserPtr) (hfree : 0 < w.free users (.user user.val))
    (hother : ∀ b, w.Contains users b user.val → b = a) :
    Ends (onAuth users a (HevSocks5Authenticator.add user)) w fun res w' =>
      (res = 0 ∧ w.Moves users w' fun o => if o = .user user.val then -1 else 0) ∨
        (res ≠ 0 ∧ w' = w) := by
  obtain ⟨m, hm⟩ := h.valid a
  have hadd := refines_add (represents_authenticator hm) user
  simp only [Refines, HevSocks5Authenticator.exec, ends_bind, ends_pure] at hadd
  refine h.ends_onAuth ha (hadd.mono ?_)
  rintro res s ⟨hres, hs, hu, hkeep⟩
  have hu : s.users = users := hu
  cases hlook : m.users.lookup (users user.val).name with
  | some q =>
    have hlook' : Finmap.lookup ((w.authenticator users a).users user.val).name m.users = some q :=
      hlook
    simp only [UserMap.step, hlook', Res.int.injEq] at hres
    obtain rfl := hkeep (by rw [hres])
    exact .inr ⟨by omega, put_authenticator a⟩
  | none =>
    have hlook' : Finmap.lookup ((w.authenticator users a).users user.val).name m.users = none :=
      hlook
    simp only [UserMap.step, hlook', Res.int.injEq] at hres hs
    have hrefs : s.refs = fun p => w.refs (.user p) := hs.refs
    have hnot : ∀ b, ¬ w.Contains users b user.val := by
      intro b hb
      obtain rfl := hother b hb
      rw [contains_iff hm, hlook] at hb
      cases hb
    have hcontains : ∀ b p, (w.put a s).Contains users b p ↔
        w.Contains users b p ∨ b = a ∧ p = user.val := by
      intro b p
      rw [contains_put hs hu]
      by_cases hb : b = a
      · rw [if_pos hb, hb, contains_iff hm]
        by_cases hp : (users p).name = (users user.val).name
        · have hins : Finmap.lookup (users p).name (Finmap.insert
              ((w.authenticator users a).users user.val).name user.val m.users) =
              some user.val := by
            rw [hp]
            exact Finmap.lookup_insert _
          rw [hins, hp, hlook]
          simp [eq_comm]
        · have hins : Finmap.lookup (users p).name (Finmap.insert
              ((w.authenticator users a).users user.val).name user.val m.users) =
              m.users.lookup (users p).name := Finmap.lookup_insert_of_ne _ hp
          have hne : p ≠ user.val := fun h => hp (h ▸ rfl)
          simp [hins, hne]
      · simp [hb]
    have hfree' : ∀ o, (w.put a s).free users o =
        w.free users o + if o = .user user.val then -1 else 0 := by
      intro o
      cases o with
      | auth b => rw [if_neg (by simp), add_zero]; rfl
      | user p =>
        show s.refs p - (w.put a s).members users (.user p) = _
        rw [hrefs, Shared.free]
        by_cases hp : p = user.val
        · have hin : (w.put a s).Contains users a p := (hcontains a p).2 (.inr ⟨rfl, hp⟩)
          have hout : w.members users (.user p) = 0 := by
            refine if_neg ?_
            rintro ⟨b, hb⟩
            exact hnot b (hp ▸ hb)
          rw [members_of_contains hin, hout, if_pos (congrArg _ hp)]
          dsimp only
          omega
        · have hmem : (w.put a s).members users (.user p) = w.members users (.user p) := by
            classical
            refine if_congr (exists_congr fun b => ?_) rfl rfl
            rw [hcontains]
            simp [hp]
          rw [hmem, if_neg fun h => hp (Object.user.inj h), add_zero]
    refine .inl ⟨hres, ⟨h.fresh, valid_put hs hu h.valid, ?_, fun o => ?_⟩, hfree',
      ⟨rfl, rfl, rfl, rfl, ?_⟩, ?_⟩
    · intro b c p hb hc
      rw [hcontains] at hb hc
      rcases hb with hb | ⟨rfl, rfl⟩
      · rcases hc with hc | ⟨rfl, rfl⟩
        · exact h.disjoint b c p hb hc
        · exact absurd hb (hnot b)
      · rcases hc with hc | ⟨rfl, -⟩
        · exact absurd hc (hnot c)
        · rfl
    · have := h.free o
      rw [hfree']
      split
      · rename_i ho
        rw [ho]
        omega
      · omega
    · intro o ho
      cases o with
      | auth b => exact ho
      | user p => exact (congrFun hrefs p).trans ho
    · intro halive b p hb
      rcases (hcontains b p).1 hb with hb | ⟨rfl, -⟩
      · exact halive b p hb
      · exact ha

/-! ## Counting -/

theorem members_update {o : Object} {n : Int} :
    Shared.members users { w with refs := Function.update w.refs o n } = w.members users :=
  members_congr fun _ _ => contains_congr rfl

theorem free_update {o : Object} {n : Int} (o' : Object) :
    Shared.free users { w with refs := Function.update w.refs o n } o' =
      if o' = o then n - w.members users o else w.free users o' := by
  unfold Shared.free
  rw [members_update]
  show Function.update w.refs o n o' - _ = _
  by_cases h : o' = o
  · subst h
    rw [if_pos rfl, Function.update_self]
  · rw [if_neg h, Function.update_of_ne h]

theorem Shared.Sound.moves_ref (h : w.Sound users) {o : Object} (ho : 0 < w.refs o) :
    Ends (ref o) w fun _ w' => w.Moves users w' fun o' => if o' = o then 1 else 0 := by
  unfold ref
  rw [ends_of_eq (use_eq ho), ends_modify]
  have hfree : ∀ o', Shared.free users
      { w with refs := Function.update w.refs o (w.refs o + 1) } o' =
        w.free users o' + if o' = o then 1 else 0 := by
    intro o'
    rw [free_update]
    split
    · rename_i ho'
      subst ho'
      unfold Shared.free
      omega
    · rw [add_zero]
  refine ⟨⟨h.fresh, h.valid, h.disjoint, fun o' => ?_⟩, hfree, ⟨rfl, rfl, rfl, rfl, ?_⟩, ?_⟩
  · have := h.free o'
    rw [hfree]
    split <;> omega
  · intro o' ho'
    have hne : o' ≠ o := by
      rintro rfl
      omega
    exact (Function.update_of_ne hne _ _).trans ho'
  · intro ha b p hb
    have hpos : 0 < w.refs (.auth b) := ha b p hb
    show 0 < Function.update w.refs o (w.refs o + 1) (.auth b)
    by_cases hbo : Object.auth b = o
    · rw [hbo, Function.update_self]
      omega
    · rwa [Function.update_of_ne hbo]

theorem Shared.Sound.moves_unref (h : w.Sound users) {o : Object} (ho : 0 < w.free users o) :
    Ends (unref users o) w fun _ w' => w.Moves users w' fun o' => if o' = o then -1 else 0 := by
  have hrefs : 0 < w.refs o := by
    have := members_nonneg users w o
    unfold Shared.free at ho
    omega
  unfold unref
  rw [ends_of_eq (use_eq hrefs)]
  simp only [ends_bind, ends_modify, Total.ends_get, Function.update_self]
  -- the count is subtracted from; an authenticator whose count is zero may still contain users
  have hfree : ∀ o', Shared.free users
      { w with refs := Function.update w.refs o (w.refs o - 1) } o' =
        w.free users o' + if o' = o then -1 else 0 := by
    intro o'
    rw [free_update]
    split
    · rename_i ho'
      subst ho'
      unfold Shared.free
      omega
    · rw [add_zero]
  have hsound : Shared.Sound users { w with refs := Function.update w.refs o (w.refs o - 1) } := by
    refine ⟨h.fresh, h.valid, h.disjoint, fun o' => ?_⟩
    have := h.free o'
    rw [hfree]
    split
    · rename_i ho'
      rw [ho']
      omega
    · omega
  have hkeeps : w.Keeps { w with refs := Function.update w.refs o (w.refs o - 1) } := by
    refine ⟨rfl, rfl, rfl, rfl, fun o' ho' => ?_⟩
    have hne : o' ≠ o := by
      rintro rfl
      omega
    exact (Function.update_of_ne hne _ _).trans ho'
  have halive : (∀ a, o = .auth a → w.refs o - 1 ≠ 0) → w.Alive users →
      Shared.Alive users { w with refs := Function.update w.refs o (w.refs o - 1) } := by
    intro hne ha b p hb
    have hpos : 0 < w.refs (.auth b) := ha b p hb
    show 0 < Function.update w.refs o (w.refs o - 1) (.auth b)
    by_cases hbo : Object.auth b = o
    · have := hne b hbo.symm
      rw [hbo, Function.update_self]
      omega
    · rwa [Function.update_of_ne hbo]
  rw [ends_ite]
  split
  · rename_i hzero
    cases o with
    | user p => exact (ends_pure _ _ _).2 ⟨hsound, hfree, hkeeps, halive (by simp)⟩
    | auth a =>
      refine (hsound.moves_clear a).mono ?_
      rintro _ w' ⟨h', hsub, hauth⟩
      refine ⟨h'.sound, fun o' => ?_, hkeeps.trans h'.keeps, fun ha b p hb => ?_⟩
      · rw [h'.free, hfree, add_zero]
      · obtain ⟨hne, hb⟩ := hsub b p hb
        have hne' : Object.auth b ≠ .auth a := fun h => hne (Object.auth.inj h)
        rw [hauth]
        show 0 < Function.update w.refs (.auth a) (w.refs (.auth a) - 1) (.auth b)
        rw [Function.update_of_ne hne']
        exact ha b p hb
  · rename_i hne
    exact (ends_pure _ _ _).2 ⟨hsound, hfree, hkeeps, halive fun _ _ => hne⟩

end

section
variable {users : Ptr → HevSocks5User} {w w' w'' : Shared} {d : Object → Int}

theorem Shared.servers_nonneg (o : Object) : 0 ≤ w.servers o := by
  refine Finset.sum_nonneg fun i _ => ?_
  split
  · exact Int.one_nonneg
  · exact Int.le_refl 0

/-- The servers without one of them. -/
theorem servers_eq {i : Nat} (hi : i ∈ w.live) (o : Object) :
    w.servers o = (if w.obj i = some o then 1 else 0) +
      ∑ j ∈ w.live.erase i, if w.obj j = some o then 1 else 0 :=
  (Finset.add_sum_erase _ _ hi).symm

theorem Shared.servers_pos {i : Nat} (hi : i ∈ w.live) {o : Object} (ho : w.obj i = some o) :
    0 < w.servers o := by
  rw [servers_eq hi, if_pos ho]
  have : 0 ≤ ∑ j ∈ w.live.erase i, if w.obj j = some o then (1 : Int) else 0 := by
    refine Finset.sum_nonneg fun j _ => ?_
    split
    · exact Int.one_nonneg
    · exact Int.le_refl 0
  omega

/-- A server points to something else. -/
theorem servers_point {i : Nat} (w' : Shared) (hi : i ∈ w.live) (hlive : w'.live = w.live)
    {v : Option Object} (hobj : w'.obj = Function.update w.obj i v) (o : Object) :
    w'.servers o = w.servers o - (if w.obj i = some o then 1 else 0) +
      if v = some o then 1 else 0 := by
  have hrest : ∑ j ∈ w.live.erase i, (if w'.obj j = some o then (1 : Int) else 0) =
      ∑ j ∈ w.live.erase i, if w.obj j = some o then 1 else 0 := by
    refine Finset.sum_congr rfl fun j hj => ?_
    rw [hobj, Function.update_of_ne (Finset.ne_of_mem_erase hj)]
  rw [servers_eq hi, servers_eq (hlive ▸ hi), hlive, hrest, hobj, Function.update_self]
  omega

theorem Shared.Counted.refs_eq (h : w.Counted users) (o : Object) :
    w.refs o = w.outside o + w.servers o + w.members users o := by
  have := h.free o
  unfold Shared.free at this
  omega

/-- Who holds a free reference, may use the object. -/
theorem Shared.refs_pos_of_free {o : Object} (ho : 0 < w.free users o) :
    0 < w.refs o := by
  have := members_nonneg users w o
  unfold Shared.free at ho
  omega

/-- A server holds a free reference to what its union points to. -/
theorem Shared.Counted.free_held (h : w.Counted users) {i : Nat} (hi : i ∈ w.live) {o : Object}
    (ho : w.obj i = some o) : 0 < w.free users o := by
  have := servers_pos hi ho
  rw [h.free]
  omega

theorem Shared.Counted.held (h : w.Counted users) {i : Nat} (hi : i ∈ w.live) {o : Object}
    (ho : w.obj i = some o) : 0 < w.refs o :=
  refs_pos_of_free (h.free_held hi ho)

/-- The references that were moved have got and lost their holders. -/
theorem Shared.Counted.of_moves (w'' : Shared) (h : w.Counted users) (hm : w.Moves users w' d)
    (htree : w''.tree = w'.tree) (hrefs : w''.refs = w'.refs) (hstale : w''.stale = w'.stale)
    (hmade : w''.made = w'.made)
    (hcount : ∀ o, w''.outside o + w''.servers o = w.outside o + w.servers o + d o) :
    w''.Counted users := by
  have hcontains : ∀ a p, w''.Contains users a p ↔ w'.Contains users a p := fun a p =>
    contains_congr (congrFun htree a)
  have hfree : w''.free users = w'.free users := by
    funext o
    rw [Shared.free, Shared.free, hrefs, members_congr hcontains]
  refine ⟨⟨hstale ▸ hm.sound.fresh, fun a => ?_, fun a b p ha hb => ?_, fun o => ?_⟩, fun o => ?_,
    fun a p hp => ?_, fun o ho => ?_⟩
  · have := hm.sound.valid a
    rwa [show w''.index users a = w'.index users a by rw [Shared.index, Shared.index, htree]]
  · exact hm.sound.disjoint a b p ((hcontains a p).1 ha) ((hcontains b p).1 hb)
  · exact hfree ▸ hm.sound.free o
  · rw [hfree, hm.free, h.free, hcount]
  · rw [hrefs]
    exact hm.alive h.alive a p ((hcontains a p).1 hp)
  · rw [hrefs]
    exact hm.keeps.dead o (h.made o fun hmem => ho (by rw [hmade, hm.keeps.made]; exact hmem))

theorem Shared.Moves.refl (h : w.Sound users) : w.Moves users w fun _ => 0 :=
  ⟨h, fun _ => (add_zero _).symm, .refl, id⟩

/-! ## What tasks rely on -/

/-- What happens while server `i` waits. -/
structure Shared.Rely (users : Ptr → HevSocks5User) (i : Nat) (w w' : Shared) : Prop where
  counted : w'.Counted users
  made : w.made ⊆ w'.made
  live : i ∈ w.live → i ∈ w'.live
  obj : i ∈ w.live → w'.obj i = w.obj i ∨ ∃ a, w'.obj i = some (.auth a)
  dead : ∀ o ∈ w.made, w.refs o = 0 → w'.refs o = 0

theorem Shared.Rely.trans {i : Nat} (h : Rely users i w w') (h' : Rely users i w' w'') :
    Rely users i w w'' where
  counted := h'.counted
  made := h.made.trans h'.made
  live hi := h'.live (h.live hi)
  obj hi := by
    rcases h'.obj (h.live hi) with heq | hauth
    · rw [heq]
      exact h.obj hi
    · exact .inr hauth
  dead o ho hrefs := h'.dead o (h.made ho) (h.dead o ho hrefs)

theorem Shared.Rely.refl {i : Nat} (h : w.Counted users) : Rely users i w w :=
  ⟨h, Finset.Subset.refl _, id, fun _ => .inl rfl, fun _ _ => id⟩

/-- A function that keeps what it is to keep. -/
theorem Shared.Keeps.rely {i : Nat} (h : w.Keeps w') (hc : w''.Counted users)
    (hrefs : w''.refs = w'.refs) (hmade : w''.made = w'.made) (hlive : w''.live = w'.live)
    (hobj : w''.obj i = w'.obj i ∨ ∃ a, w''.obj i = some (.auth a)) : Rely users i w w'' where
  counted := hc
  made := by rw [hmade, h.made]
  live hi := by rwa [hlive, h.live]
  obj _ := h.obj ▸ hobj
  dead o _ ho := by
    rw [hrefs]
    exact h.dead o ho

/-! ## The callers -/

/-- A new object has one reference, the caller's. -/
theorem Shared.Counted.make (h : w.Counted users) {o : Object} (ho : o ∉ w.made)
    (hcontains : ∀ a p, w'.Contains users a p ↔ w.Contains users a p)
    (hvalid : ∀ a, (w'.index users a).Valid) (hrefs : w'.refs = Function.update w.refs o 1)
    (hmade : w'.made = insert o w.made)
    (hout : w'.outside = Function.update w.outside o (w.outside o + 1))
    (hlive : w'.live = w.live) (hobj : w'.obj = w.obj) (hstale : w'.stale = w.stale) :
    w'.Counted users ∧ ∀ i, Rely users i w w' := by
  have h0 := h.made o ho
  have hmem := members_nonneg users w o
  have hserv := servers_nonneg (w := w) o
  have hfree := h.free o
  have hnn := h.sound.free o
  unfold Shared.free at hfree hnn
  have hfree' : ∀ o', w'.free users o' = if o' = o then 1 else w.free users o' := by
    intro o'
    unfold Shared.free
    rw [hrefs, members_congr hcontains]
    by_cases heq : o' = o
    · subst heq
      rw [if_pos rfl, Function.update_self]
      omega
    · rw [if_neg heq, Function.update_of_ne heq]
  have hdead : ∀ o' ∈ w.made, w.refs o' = 0 → w'.refs o' = 0 := by
    intro o' ho' hz
    have hne : o' ≠ o := fun heq => ho (heq ▸ ho')
    rw [hrefs, Function.update_of_ne hne, hz]
  have hcounted : w'.Counted users := by
    refine ⟨⟨hstale ▸ h.sound.fresh, hvalid, fun a b p ha hb => ?_, fun o' => ?_⟩, fun o' => ?_,
      fun a p hp => ?_, fun o' ho' => ?_⟩
    · exact h.sound.disjoint a b p ((hcontains a p).1 ha) ((hcontains b p).1 hb)
    · rw [hfree']
      split
      · exact Int.one_nonneg
      · exact h.sound.free o'
    · rw [hfree', hout, show w'.servers o' = w.servers o' by rw [servers, servers, hlive, hobj]]
      by_cases heq : o' = o
      · subst heq
        rw [if_pos rfl, Function.update_self]
        omega
      · rw [if_neg heq, Function.update_of_ne heq]
        exact h.free o'
    · have hpos := h.alive a p ((hcontains a p).1 hp)
      rw [hrefs]
      by_cases heq : Object.auth a = o
      · rw [heq, Function.update_self]
        exact Int.one_pos
      · rwa [Function.update_of_ne heq]
    · rw [hmade, Finset.mem_insert, not_or] at ho'
      rw [hrefs, Function.update_of_ne ho'.1]
      exact h.made o' ho'.2
  refine ⟨hcounted, fun i => ⟨hcounted, hmade ▸ Finset.subset_insert _ _, fun hi => hlive ▸ hi,
    fun _ => .inl (by rw [hobj]), hdead⟩⟩

theorem Shared.Counted.ends_newAuth (h : w.Counted users) {a : Nat} (ha : .auth a ∉ w.made) :
    Ends (Shared.exec users (.newAuth a)) w fun _ w' =>
      w'.Counted users ∧ ∀ i, Rely users i w w' := by
  simp only [Shared.exec, Shared.make, hold, ends_bind, ends_modify]
  have hold : ∀ p, ¬ w.Contains users a p := by
    intro p hp
    have := h.alive a p hp
    rw [h.made _ ha] at this
    exact Int.lt_irrefl 0 this
  have hnew : HevSocks5Authenticator.Represents ⟨{ w.tree a with root := 0 }, users, fun _ => 0⟩
      ⟨∅, fun _ => 0⟩ := represents_new _ _ _
  refine h.make ha (fun b p => ?_) (fun b => ?_) rfl rfl rfl rfl rfl rfl
  · by_cases hb : b = a
    · subst hb
      refine iff_of_false ?_ (hold p)
      rw [contains_iff (m := ⟨∅, fun _ => 0⟩)]
      · simp
      · simpa only [Shared.index, Function.update_self] using hnew
    · exact contains_congr (Function.update_of_ne hb _ _)
  · by_cases hb : b = a
    · subst hb
      refine ⟨⟨∅, fun _ => 0⟩, ?_⟩
      simpa only [Shared.index, Function.update_self] using hnew
    · obtain ⟨m, hm⟩ := h.sound.valid b
      refine ⟨m, ?_⟩
      simpa only [Shared.index, Function.update_of_ne hb] using hm

/-- What callers hold is counted. -/
theorem Shared.Counted.free_pos (h : w.Counted users) {o : Object} (ho : 0 < w.outside o) :
    0 < w.free users o := by
  have hserv := servers_nonneg (w := w) o
  rw [h.free]
  omega

/-- A reference that was taken or given away is a caller's, or was. -/
theorem Shared.Counted.of_held (h : w.Counted users) (hm : w.Moves users w' d) {o : Object}
    {n : Nat} (hn : (n : Int) = w.outside o + d o) (hd : ∀ o', o' ≠ o → d o' = 0) :
    Shared.Counted users { w' with outside := Function.update w'.outside o n } ∧
      ∀ i, Rely users i w { w' with outside := Function.update w'.outside o n } := by
  have hc := h.of_moves { w' with outside := Function.update w'.outside o n } hm
    rfl rfl rfl rfl fun o' => by
      show ((Function.update w'.outside o n o' : Nat) : Int) + w'.servers o' = _
      rw [show w'.servers o' = w.servers o' by rw [servers, servers, hm.keeps.live, hm.keeps.obj],
        hm.keeps.outside]
      by_cases heq : o' = o
      · subst heq
        rw [Function.update_self]
        omega
      · rw [Function.update_of_ne heq, hd o' heq, add_zero]
  exact ⟨hc, fun i => hm.keeps.rely hc rfl rfl rfl (.inl rfl)⟩

theorem Shared.Counted.ends_hold (h : w.Counted users) {o : Object} (ho : 0 < w.outside o) :
    Ends (Shared.exec users (.ref o)) w fun _ w' => w'.Counted users ∧ ∀ i, Rely users i w w' := by
  simp only [Shared.exec, ends_bind, hold, ends_modify]
  refine (h.sound.moves_ref (refs_pos_of_free (h.free_pos ho))).mono ?_
  rintro _ w' hm
  refine h.of_held hm ?_ fun o' hne => if_neg hne
  rw [hm.keeps.outside, if_pos rfl]
  omega

theorem Shared.Counted.ends_release (h : w.Counted users) {o : Object} (ho : 0 < w.outside o) :
    Ends (Shared.exec users (.unref o)) w fun _ w' =>
      w'.Counted users ∧ ∀ i, Rely users i w w' := by
  simp only [Shared.exec, ends_bind, giveUp, ends_modify]
  have hsound : Shared.Sound users { w with
      outside := Function.update w.outside o (w.outside o - 1) } :=
    ⟨h.sound.fresh, h.sound.valid, h.sound.disjoint, h.sound.free⟩
  refine (hsound.moves_unref (o := o) (h.free_pos ho)).mono ?_
  rintro _ w' hm
  have hm' : w.Moves users { w' with outside := w.outside } fun o' => if o' = o then -1 else 0 :=
    ⟨⟨hm.sound.fresh, hm.sound.valid, hm.sound.disjoint, hm.sound.free⟩, hm.free,
      ⟨hm.keeps.made, rfl, hm.keeps.live, hm.keeps.obj, hm.keeps.dead⟩, hm.alive⟩
  have hc := h.of_moves w' hm' rfl rfl rfl rfl fun o' => by
    rw [show w'.servers o' = w.servers o' by
      rw [servers, servers, hm'.keeps.live, hm'.keeps.obj], hm.keeps.outside]
    show ((Function.update w.outside o (w.outside o - 1) o' : Nat) : Int) + w.servers o' = _
    by_cases heq : o' = o
    · subst heq
      rw [Function.update_self, if_pos rfl]
      omega
    · rw [Function.update_of_ne heq, if_neg heq]
      omega
  exact ⟨hc, fun i => hm'.keeps.rely hc rfl rfl rfl (.inl rfl)⟩

theorem Shared.Counted.ends_add (h : w.Counted users) {a : Nat} {user : UserPtr}
    (ha : 0 < w.outside (.auth a)) (hu : 0 < w.outside (.user user.val))
    (hother : ∀ b, w.Contains users b user.val → b = a) :
    Ends (Shared.exec users (.add a user)) w fun _ w' =>
      w'.Counted users ∧ ∀ i, Rely users i w w' := by
  simp only [Shared.exec]
  rw [ends_of_eq (use_eq (refs_pos_of_free (h.free_pos hu)))]
  refine (h.sound.moves_add (refs_pos_of_free (h.free_pos ha)) user (h.free_pos hu) hother).bind ?_
  rintro res w' (⟨rfl, hm⟩ | ⟨hres, rfl⟩)
  · rw [if_pos rfl, giveUp, ends_modify]
    refine h.of_held hm ?_ fun o' hne => if_neg hne
    rw [hm.keeps.outside, if_pos rfl]
    omega
  · rw [if_neg hres, ends_pure]
    exact ⟨h, fun i => .refl h⟩

/-- What has moved no free reference. -/
theorem Shared.Counted.of_still (h : w.Counted users) (hm : w.Moves users w' fun _ => 0) :
    w'.Counted users ∧ ∀ i, Rely users i w w' := by
  have hc := h.of_moves _ hm rfl rfl rfl rfl fun o' => by
    rw [show w'.servers o' = w.servers o' by rw [servers, servers, hm.keeps.live, hm.keeps.obj],
      hm.keeps.outside, add_zero]
  exact ⟨hc, fun i => hm.keeps.rely hc rfl rfl rfl (.inl rfl)⟩

theorem Shared.Counted.ends_construct (h : w.Counted users) {i : Nat} (hi : i ∉ w.live) :
    Ends (Shared.exec users (.construct i)) w fun _ w' =>
      w'.Counted users ∧ ∀ j, Rely users j w w' := by
  simp only [Shared.exec, ends_modify]
  have hserv : ∀ o, Shared.servers { w with
      live := insert i w.live, obj := Function.update w.obj i none } o = w.servers o := by
    intro o
    show ∑ j ∈ insert i w.live,
      (if Function.update w.obj i none j = some o then (1 : Int) else 0) = _
    rw [Finset.sum_insert hi, Function.update_self, if_neg (by simp), zero_add]
    refine Finset.sum_congr rfl fun j hj => ?_
    have hne : j ≠ i := fun h => hi (h ▸ hj)
    rw [Function.update_of_ne hne]
  have hc := h.of_moves { w with
    live := insert i w.live, obj := Function.update w.obj i none } (.refl h.sound) rfl rfl rfl rfl
    fun o => by rw [hserv, add_zero]
  refine ⟨hc, fun j => ⟨hc, Finset.Subset.refl _, fun hj => Finset.mem_insert_of_mem hj,
    fun hj => .inl ?_, fun _ _ => id⟩⟩
  have hne : j ≠ i := fun h => hi (h ▸ hj)
  exact Function.update_of_ne hne _ _

/-- **`hev_socks5_server_set_auth`**: the old reference is dropped and a new one is taken. -/
theorem Shared.Counted.ends_setAuth (h : w.Counted users) {i a : Nat} (hi : i ∈ w.live)
    (ha : 0 < w.outside (.auth a)) :
    Ends (Shared.setAuth users i a) w fun _ w' =>
      w'.Counted users ∧ ∀ j, Rely users j w w' := by
  -- the new reference, when the old one is dropped
  have hnew : ∀ w₁, w.Moves users w₁ (fun o => if w.obj i = some o then -1 else 0) →
      Ends (do
        ref (.auth a)
        modify fun w => { w with obj := Function.update w.obj i (some (.auth a)) }) w₁ fun _ w' =>
          w'.Counted users ∧ ∀ j, Rely users j w w' := by
    intro w₁ hm₁
    -- the caller's reference keeps it alive
    have hpos : 0 < w₁.free users (.auth a) := by
      rw [hm₁.free, h.free]
      split
      · have := servers_pos hi ‹_›
        omega
      · have := servers_nonneg (w := w) (.auth a)
        omega
    simp only [ends_bind, ends_modify]
    refine (hm₁.sound.moves_ref (refs_pos_of_free hpos)).mono ?_
    rintro _ w₂ hm₂
    have hm := hm₁.trans hm₂
    have hserv := servers_point (w := w) { w₂ with
      obj := Function.update w₂.obj i (some (.auth a)) } hi hm.keeps.live
      (v := some (.auth a)) (by rw [← hm.keeps.obj])
    have hc := h.of_moves { w₂ with obj := Function.update w₂.obj i (some (.auth a)) } hm
      rfl rfl rfl rfl fun o => by
        rw [hserv]
        show (w₂.outside o : Int) + _ = _
        rw [hm.keeps.outside]
        simp only [Option.some.injEq, eq_comm (a := Object.auth a)]
        split <;> split <;> omega
    refine ⟨hc, fun j => hm.keeps.rely hc rfl rfl rfl ?_⟩
    by_cases hj : j = i
    · subst hj
      exact .inr ⟨a, Function.update_self ..⟩
    · exact .inl (Function.update_of_ne hj _ _)
  simp only [Shared.setAuth]
  rw [ends_bind, Total.ends_get]
  cases hobj : w.obj i with
  | none =>
    refine hnew w ?_
    simpa [hobj] using Moves.refl h.sound
  | some o =>
    refine (h.sound.moves_unref (h.free_held hi hobj)).bind fun _ w' hm => hnew w' ?_
    simpa only [hobj, Option.some.injEq, eq_comm] using hm

theorem target_seen (i : Nat) : w.target i (seen (w.obj i)) = w.obj i := by
  cases hobj : w.obj i with
  | none => rfl
  | some o => cases o <;> simp [seen, target, hobj]

/-- **The callers' `setAuth`** is the server's own. -/
theorem returns_setAuth_iff (i a : Nat) :
    Returns (setting users i a) HevSocks5Server.setAuth w () w' ↔
      Shared.setAuth users i a w = some ((), w') := by
  -- the new reference, and the union that points to it
  have hset : ∀ (self : HevSocks5ServerObj) (w₁ : Shared), Returns (setting users i a) (do
      hevObjectRef .auth
      setServer { self with obj := .auth }) w₁ () w' ↔ Ends (do
        ref (.auth a)
        modify fun w => { w with obj := Function.update w.obj i (some (.auth a)) }) w₁
          fun _ w₂ => w₂ = w' := by
    intro self w₁
    simp only [returns_bind, returns_op, setting, ends_bind, ends_modify]
    constructor
    · rintro ⟨_, w₂, ⟨-, href⟩, -, rfl⟩
      exact ⟨(), w₂, href, rfl⟩
    · rintro ⟨_, w₂, href, rfl⟩
      exact ⟨(), w₂, ⟨trivial, href⟩, trivial, rfl⟩
  have hrest : ∀ self : HevSocks5ServerObj, self.obj = seen (w.obj i) →
      (Returns (setting users i a) (do
        if self.obj ≠ .null then hevObjectUnref self.obj
        hevObjectRef .auth
        setServer { self with obj := .auth }) w () w' ↔
          Ends (Shared.setAuth users i a) w fun _ w₂ => w₂ = w') := by
    intro self hself
    simp only [Shared.setAuth]
    rw [ends_bind, Total.ends_get, hself]
    cases hobj : w.obj i with
    | none =>
      rw [if_neg (by simp [seen])]
      exact hset self w
    | some o =>
      have hne : seen (some o) ≠ .null := by cases o <;> simp [seen]
      have htarget : w.target i (seen (some o)) = some o := hobj ▸ target_seen i
      rw [if_pos hne, returns_bind, ends_bind]
      constructor
      · rintro ⟨_, w₁, hunref, hr⟩
        obtain ⟨o', ho', hunref⟩ := returns_op.1 hunref
        obtain rfl := Option.some.inj (htarget.symm.trans ho')
        exact ⟨(), w₁, hunref, (hset self w₁).1 hr⟩
      · rintro ⟨_, w₁, hunref, h⟩
        exact ⟨(), w₁, returns_op.2 ⟨o, htarget, hunref⟩, (hset self w₁).2 h⟩
  rw [ends_eq_iff, HevSocks5Server.setAuth, returns_bind]
  constructor
  · rintro ⟨self, _, hserver, hr⟩
    obtain ⟨hself, rfl⟩ := returns_op.1 hserver
    exact (hrest self hself).1 hr
  · exact fun h => ⟨⟨(0, 0), _⟩, w, returns_op.2 ⟨rfl, rfl⟩, (hrest _ rfl).2 h⟩

/-- **What callers do** leaves every reference with a holder. -/
theorem Shared.Counted.ends_exec (h : w.Counted users) {c : Call} (hc : w.Allows users c) :
    Ends (Shared.exec users c) w fun _ w' => w'.Counted users ∧ ∀ i, Rely users i w w' := by
  cases c with
  | newUser user =>
    simp only [Shared.exec, Shared.make, hold, ends_bind, ends_modify]
    exact h.make hc (fun _ _ => Iff.rfl) h.sound.valid rfl rfl rfl rfl rfl rfl
  | newAuth a => exact h.ends_newAuth hc
  | ref o => exact h.ends_hold hc
  | unref o => exact h.ends_release hc
  | add a user => exact h.ends_add hc.1 hc.2.1 hc.2.2
  | del a name =>
    simp only [Shared.exec, ends_bind, ends_pure]
    exact (h.sound.moves_del (refs_pos_of_free (h.free_pos hc)) name).mono fun _ _ => h.of_still
  | clear a =>
    simp only [Shared.exec]
    rw [ends_of_eq (use_eq (refs_pos_of_free (h.free_pos hc)))]
    exact (h.sound.moves_clear a).mono fun _ _ hm => h.of_still hm.1
  | construct i => exact h.ends_construct hc
  | setAuth i a => exact h.ends_setAuth hc.1 hc.2

end

end HevSocks5
