/-
  References in the runs of servers.

  A run is checked once, for what the others may do while it waits
  (`meets_run`).  Its one function that takes and drops references is the check
  of a user: the user gets a reference before the authenticator loses one, and
  when the function returns the union holds the user.

  In every state that the system can reach every reference has a holder
  (`references_counted`).
-/
import HevSocks5.References
import HevSocks5.ServerAuth
import HevSocks5.ServerCalls

namespace HevSocks5

open Interact Total Sys Shared HevSocks5Server

variable {users : Ptr → HevSocks5User} {i : Nat} {w w' : Shared}

/-! ## What is shown of a task -/

/-- What server `i` changes while it runs. -/
structure Shared.Guarantee (i : Nat) (w w' : Shared) : Prop where
  made : w'.made = w.made
  live : w'.live = w.live
  obj : ∀ j, j ≠ i → w'.obj j = w.obj j
  dead : ∀ o, w.refs o = 0 → w'.refs o = 0

/-- Every call has an answer and keeps the guarantee; in a call that waits, every reference has a
    holder. -/
def Shared.Proper (users : Ptr → HevSocks5User) (i : Nat) : Assert Op Shared := fun w β o =>
  (Waits β o → w.Counted users ∧ i ∈ w.live) ∧ (∃ b w', task users i w o b w') ∧
    ∀ b w', task users i w o b w' → Guarantee i w w'

/-- The calls of server `i`, and what the others do while it waits. -/
def Shared.amid (users : Ptr → HevSocks5User) (i : Nat) : Env Op Shared := fun w β o b w' =>
  (Waits β o → Rely users i w w') ∧ (¬ Waits β o → task users i w o b w')

theorem Shared.Guarantee.refl : Guarantee i w w := ⟨rfl, rfl, fun _ _ => rfl, fun _ => id⟩

theorem Shared.Keeps.guarantee (h : w.Keeps w') : Guarantee i w w' :=
  ⟨h.made, h.live, fun _ _ => by rw [h.obj], h.dead⟩

theorem task_waits {β : Type} {o : Op β} {b : β} (ho : Waits β o) :
    task users i w o b w' ↔ w' = w := by
  cases o <;> first | exact ho.elim | exact Iff.rfl

theorem exists_answer {β : Type} (o : Op β) (ho : Waits β o) : ∃ b w', task users i w o b w' := by
  suffices h : Nonempty β from ⟨h.some, w, (task_waits ho).2 rfl⟩
  cases o <;> first | exact ho.elim | exact ⟨()⟩ | exact ⟨(0 : Int)⟩ | exact ⟨none⟩ | skip
  case base => exact ⟨⟨0, 0, .none, false, .unspec⟩⟩
  case errno => exact ⟨.other⟩
  case recv | recvmsg => exact ⟨⟨0, []⟩⟩
  case recvmmsg => exact ⟨(0, [])⟩
  case udpCopyBufferNums => exact ⟨(0 : Nat)⟩
  case undefMsg => exact ⟨(none, fun _ => 0, 0)⟩
  case undefCmd => exact ⟨(0 : Octet)⟩
  case getsockname => exact ⟨(0, .zero)⟩

theorem stable_task : Stable (task users i) (amid users i) Waits (Proper users i)
    (Rely users i) (Guarantee i) where
  env w w' β o b hP he := by
    refine ⟨fun ho => ?_, fun _ => he⟩
    rw [task_waits ho] at he
    subst he
    exact .refl (hP.1 ho).1
  assert w w' β o ho hw hP := by
    refine ⟨fun _ => ⟨hw.counted, hw.live (hP.1 ho).2⟩, exists_answer o ho, fun b w'' he => ?_⟩
    rw [task_waits ho] at he
    exact he ▸ .refl
  wait w w₁ w' β o b ho hw he := ⟨fun ho => hw.trans (he.1 ho), fun hno => absurd ho hno⟩
  refl w := .refl
  trans w₁ w₂ w₃ h h' := ⟨h'.made.trans h.made, h'.live.trans h.live,
    fun j hj => (h'.obj j hj).trans (h.obj j hj), fun o ho => h'.dead o (h.dead o ho)⟩
  step w w' β o b hP he := hP.2.2 b w' he

/-! ## Parts of a run -/

/-- What stays true while server `i` waits. -/
structure Lasting (users : Ptr → HevSocks5User) (i : Nat) (I : Shared → Prop) : Prop where
  counted : ∀ w, I w → w.Counted users
  live : ∀ w, I w → i ∈ w.live
  rely : ∀ w w', I w → Rely users i w w' → I w'

/-- Calls that change nothing of what is shared. -/
def Neutral {β : Type} : Op β → Prop
  | .setServer _ | .authenticator _ | .ref _ | .unref _ => False
  | _ => True

theorem meets_neutral {I : Shared → Prop} (hI : Lasting users i I) {α : Type} {x : SysM α}
    (hx : x.Only Neutral) (hw : I w) :
    Meets (amid users i) (Proper users i) x w fun _ w' => I w' := by
  refine hx.meets ?_ hw
  intro w β o ho hw
  have hproper : (Waits β o) → Proper users i w o ∧ ∀ b w', amid users i w o b w' → I w' := by
    intro hwait
    refine ⟨⟨fun _ => ⟨hI.counted w hw, hI.live w hw⟩, exists_answer o hwait, fun b w' he => ?_⟩,
      fun b w' he => hI.rely w w' hw (he.1 hwait)⟩
    rw [task_waits hwait] at he
    exact he ▸ .refl
  cases o <;> first | exact ho.elim | exact hproper trivial | skip
  case server =>
    refine ⟨⟨fun h => h.elim, ⟨⟨(0, 0), seen (w.obj i)⟩, w, rfl, rfl⟩, fun b w' he => ?_⟩,
      fun b w' he => ?_⟩
    · exact he.2 ▸ .refl
    · exact (he.2 id).2 ▸ hw
  case users =>
    refine ⟨⟨fun h => h.elim, ⟨users, w, rfl, rfl⟩, fun b w' he => ?_⟩, fun b w' he => ?_⟩
    · exact he.2 ▸ .refl
    · exact (he.2 id).2 ▸ hw

theorem meets_call {I : Shared → Prop} (hI : Lasting users i I) {β : Type} {o : Op β}
    (ho : Neutral o) (hw : I w) :
    Meets (amid users i) (Proper users i) (Prog.op o) w fun _ w' => I w' :=
  meets_neutral hI ((only_op _).2 ho) hw

/-- The sockets of the server are set. -/
theorem meets_setFds {I : Shared → Prop} {α : Type}
    {f : HevSocks5ServerObj → HevSocks5ServerObj} (hf : ∀ self, (f self).obj = self.obj)
    {k : SysM α} {Q : α → Shared → Prop} (hw : I w)
    (hk : ∀ w', I w' → Meets (amid users i) (Proper users i) k w' Q) :
    Meets (amid users i) (Proper users i) (do
      let self ← server
      setServer (f self)
      k) w Q := by
  refine ⟨⟨fun h => h.elim, ⟨⟨(0, 0), seen (w.obj i)⟩, w, rfl, rfl⟩, fun b w' he => ?_⟩,
    fun self w₁ he => ?_⟩
  · exact he.2 ▸ .refl
  obtain ⟨hself, rfl⟩ := he.2 id
  -- the union is set to what it was
  have hset : ∀ w', task users i w₁ (.setServer (f self)) () w' → w' = w₁ := by
    intro w' he
    rw [show w' = _ from he, hf, show self.obj = _ from hself]
    rw [target_seen, Function.update_eq_self]
  refine ⟨⟨fun h => h.elim, ⟨(), _, rfl⟩, fun b w' he => ?_⟩, fun _ w' he => ?_⟩
  · exact hset w' he ▸ .refl
  · exact hk w' (hset w' (he.2 id) ▸ hw)

/-- Before the check of a user, and behind it. -/
def Shared.Serving (users : Ptr → HevSocks5User) (i : Nat) (w : Shared) : Prop :=
  w.Counted users ∧ i ∈ w.live

def Shared.Outset (users : Ptr → HevSocks5User) (i : Nat) (w : Shared) : Prop :=
  w.Serving users i ∧ ∀ p, w.obj i ≠ some (.user p)

/-- The union points to an authenticator. -/
def Shared.Asks (users : Ptr → HevSocks5User) (i : Nat) (w : Shared) : Prop :=
  w.Serving users i ∧ ∃ a, w.obj i = some (.auth a)

/-- The union points to a user with this name and password. -/
def Shared.HoldsUser (users : Ptr → HevSocks5User) (i : Nat) (name pass : Str) (w : Shared) :
    Prop :=
  ∃ p, w.obj i = some (.user p) ∧ (users p).name = name ∧ (users p).pass = pass

theorem Shared.Serving.rely (h : w.Serving users i) (hr : Rely users i w w') :
    w'.Serving users i :=
  ⟨hr.counted, hr.live h.2⟩

theorem lasting_serving : Lasting users i (Shared.Serving users i) :=
  ⟨fun _ h => h.1, fun _ h => h.2, fun _ _ h hr => h.rely hr⟩

theorem lasting_outset : Lasting users i (Shared.Outset users i) where
  counted _ h := h.1.1
  live _ h := h.1.2
  rely w w' h hr := by
    refine ⟨h.1.rely hr, fun p hp => ?_⟩
    rcases hr.obj h.1.2 with heq | ⟨a, ha⟩
    · exact h.2 p (heq ▸ hp)
    · cases ha ▸ hp

theorem lasting_asks : Lasting users i (Shared.Asks users i) where
  counted _ h := h.1.1
  live _ h := h.1.2
  rely w w' h hr := by
    refine ⟨h.1.rely hr, ?_⟩
    rcases hr.obj h.1.2 with heq | hauth
    · exact heq ▸ h.2
    · exact hauth

/-! ## The authentication stage -/

/-- User authentication is chosen when there is an authenticator. -/
theorem meets_readAuthMethod (h : w.Outset users i) :
    Meets (amid users i) (Proper users i) readAuthMethod w fun method w' =>
      w'.Outset users i ∧ (method = authMethodUser.toNat → w'.Asks users i) := by
  have hI : Lasting users i _ := lasting_outset
  unfold readAuthMethod
  refine (meets_call hI (by trivial) h).bind fun _ w₁ h₁ => ?_
  refine (meets_call hI (by trivial) h₁).bind fun self w₂ h₂ => ?_
  refine (meets_call hI (by trivial) h₂).bind fun r w₃ h₃ => ?_
  simp only [meets_ite, meets_pure]
  split
  · exact ⟨h₃, fun h => absurd h (by decide)⟩
  split
  · exact ⟨h₃, fun h => absurd h (by decide)⟩
  refine (meets_call hI (by trivial) h₃).bind fun r' w₄ h₄ => ?_
  rw [meets_ite]
  split
  · exact ⟨h₄, fun h => absurd h (by decide)⟩
  refine ⟨⟨fun h => h.elim, ⟨⟨(0, 0), seen (w₄.obj i)⟩, w₄, rfl, rfl⟩, fun b w' he => ?_⟩,
    fun self w₅ he => ?_⟩
  · exact he.2 ▸ .refl
  obtain ⟨hself, rfl⟩ := he.2 id
  refine ⟨h₄, fun hmethod => ⟨h₄.1, ?_⟩⟩
  cases hobj : w₅.obj i with
  | none =>
    rw [if_neg (not_not.2 (by rw [hself, hobj]; rfl)), methodLoop_eq] at hmethod
    split at hmethod <;> exact absurd hmethod (by decide)
  | some o =>
    cases o with
    | auth a => exact ⟨a, rfl⟩
    | user p => exact absurd hobj (h₄.2 p)

/-- A call that does not wait. -/
theorem meets_atomic {β : Type} {o : Op β} {Q : β → Shared → Prop} (ho : ¬ Waits β o)
    (hex : ∃ b w', task users i w o b w')
    (h : ∀ b w', task users i w o b w' → Guarantee i w w' ∧ Q b w') :
    Meets (amid users i) (Proper users i) (Prog.op o) w Q :=
  ⟨⟨fun hw => absurd hw ho, hex, fun b w' he => (h b w' he).1⟩, fun b w' he => (h b w' (he.2 ho)).2⟩

theorem meets_hevObjectRef {r : HevSocks5ServerRef} {o : Object} (hr : w.target i r = some o)
    (h : w.Sound users) (ho : 0 < w.refs o) :
    Meets (amid users i) (Proper users i) (hevObjectRef r) w fun _ w' =>
      w.Moves users w' fun o' => if o' = o then 1 else 0 := by
  have href := h.moves_ref ho
  obtain ⟨_, w₁, hrun, -⟩ := id href
  refine meets_atomic id ⟨(), w₁, o, hr, hrun⟩ ?_
  rintro _ w₁ ⟨o', ho', hrun⟩
  obtain rfl : o = o' := Option.some.inj (hr.symm.trans ho')
  have hm := href.eq_of_run hrun
  exact ⟨hm.keeps.guarantee, hm⟩

theorem meets_hevObjectUnref {r : HevSocks5ServerRef} {o : Object} (hr : w.target i r = some o)
    (h : w.Sound users) (ho : 0 < w.free users o) :
    Meets (amid users i) (Proper users i) (hevObjectUnref r) w fun _ w' =>
      w.Moves users w' fun o' => if o' = o then -1 else 0 := by
  have hunref := h.moves_unref ho
  obtain ⟨_, w₁, hrun, -⟩ := id hunref
  refine meets_atomic id ⟨(), w₁, o, hr, hrun⟩ ?_
  rintro _ w₁ ⟨o', ho', hrun⟩
  obtain rfl : o = o' := Option.some.inj (hr.symm.trans ho')
  have hm := hunref.eq_of_run hrun
  exact ⟨hm.keeps.guarantee, hm⟩

/-- The union points to the user: the reference that the user got is the server's, and the one
    that the authenticator lost was. -/
theorem meets_setUser {w₀ : Shared} (hc : w₀.Counted users) (hi : i ∈ w₀.live) {a : Nat}
    {user : Ptr} (ha : w₀.obj i = some (.auth a))
    (hm : w₀.Moves users w fun o =>
      (if o = .user user then 1 else 0) + if o = .auth a then -1 else 0)
    {self : HevSocks5ServerObj} (hself : self.obj = .user user) :
    Meets (amid users i) (Proper users i) (setServer self) w fun _ w' =>
      w'.Serving users i ∧ w'.obj i = some (.user user) := by
  refine meets_atomic id ⟨(), _, rfl⟩ ?_
  rintro _ w' he
  have he : w' = { w with obj := Function.update w.obj i (some (.user user)) } := by
    rw [show w' = _ from he, hself]
    rfl
  have hserv := servers_point w' hi (he ▸ hm.keeps.live) (v := some (.user user))
    (by rw [he, ← hm.keeps.obj])
  have hc' : w'.Counted users := by
    refine hc.of_moves w' hm (by rw [he]) (by rw [he]) (by rw [he]) (by rw [he]) fun o => ?_
    rw [hserv, show w'.outside = _ by rw [he], hm.keeps.outside, ha]
    simp only [Option.some.injEq, eq_comm (b := o)]
    split <;> split <;> omega
  refine ⟨⟨by rw [he], by rw [he], fun j hj => ?_, fun o ho => by rw [he]; exact ho⟩,
    ⟨hc', ?_⟩, ?_⟩
  · rw [he]
    exact Function.update_of_ne hj _ _
  · rw [show w'.live = _ by rw [he], hm.keeps.live]
    exact hi
  · rw [he]
    exact Function.update_self ..

/-- **A user is checked**: the user gets a reference, then the authenticator loses one. -/
theorem meets_checkUser (h : w.Asks users i) (name pass : Str) :
    Meets (amid users i) (Proper users i) (checkUser name pass) w fun r w' =>
      w'.Serving users i ∧ (r = 0 → w'.HoldsUser users i name pass) := by
  obtain ⟨⟨hc, hi⟩, a, ha⟩ := h
  have hfail : (-1 : Int) ≠ 0 := by decide
  have hauth : 0 < w.free users (.auth a) := hc.free_held hi ha
  have hget : Meets (amid users i) (Proper users i)
      (authenticator (HevSocks5Authenticator.get name)) w fun user w' =>
        w' = w ∧ (user ≠ 0 → w.Contains users a user ∧ (users user).name = name) := by
    have hends := hc.sound.ends_get (refs_pos_of_free hauth) name
    obtain ⟨user, w', hrun, -⟩ := id hends
    refine meets_atomic id ⟨user, w', a, ha, hrun⟩ ?_
    rintro user w' ⟨a', ha', hrun⟩
    obtain rfl : a = a' := by simpa [ha] using ha'
    have := hends.eq_of_run hrun
    exact ⟨this.1 ▸ .refl, this⟩
  have husers : Meets (amid users i) (Proper users i) Sys.users w fun us w' =>
      us = users ∧ w' = w :=
    meets_atomic id ⟨users, w, rfl, rfl⟩ fun b w' he => ⟨he.2 ▸ .refl, he⟩
  unfold checkUser
  refine hget.bind fun user w₁ h₁ => ?_
  rw [meets_ite, h₁.1]
  split
  · exact ⟨⟨hc, hi⟩, fun h => absurd h hfail⟩
  rename_i huser
  refine husers.bind fun _ w₂ h₂ => ?_
  simp only [meets_ite, h₂]
  split
  · exact ⟨⟨hc, hi⟩, fun h => absurd h hfail⟩
  rename_i hpass
  have hpass : (users user).pass = pass := by
    by_contra hne
    exact hpass (((users user).checker_neg pass).2 hne)
  obtain ⟨hcontains, hname⟩ := h₁.2 huser
  refine (meets_hevObjectRef rfl hc.sound (hc.sound.refs_pos hcontains)).bind fun _ w₃ hm₁ => ?_
  have hobj : w₃.obj i = some (.auth a) := hm₁.keeps.obj ▸ ha
  have hserver : Meets (amid users i) (Proper users i) server w₃ fun self w' =>
      self.obj = .auth ∧ w' = w₃ := by
    refine meets_atomic id ⟨⟨(0, 0), seen (w₃.obj i)⟩, w₃, rfl, rfl⟩ fun self w' he => ?_
    exact ⟨he.2 ▸ .refl, by rw [he.1, hobj]; rfl, he.2⟩
  refine hserver.bind fun self w₄ h₄ => ?_
  rw [h₄.1, h₄.2]
  have hfree : 0 < w₃.free users (.auth a) := by
    rw [hm₁.free, if_neg (by simp)]
    omega
  refine (meets_hevObjectUnref (r := .auth) hobj hm₁.sound hfree).bind fun _ w₅ hm₂ => ?_
  refine (meets_setUser hc hi ha (hm₁.trans hm₂) rfl).bind fun _ w₆ h₆ => ?_
  exact ⟨h₆.1, fun _ => ⟨user, h₆.2, hname, hpass⟩⟩

theorem neutral_of_writes {msg : String} {octets : List Octet} {β : Type} {o : Op β}
    (h : o.Writes msg octets) : Neutral o := by
  cases o <;> first | exact trivial | exact h.elim

theorem neutral_of_opens {msg : String} {β : Type} {o : Op β} (h : o.Opens msg) : Neutral o := by
  cases o <;> first | exact trivial | exact h.elim

theorem meets_readAuthUser (h : w.Asks users i) :
    Meets (amid users i) (Proper users i) readAuthUser w fun r w' =>
      w'.Serving users i ∧ (r = 0 → ∃ name pass, w'.HoldsUser users i name pass) := by
  have hI : Lasting users i _ := lasting_asks
  have hfail : ∀ {w : Shared}, w.Asks users i → w.Serving users i ∧
      ((-1 : Int) = 0 → ∃ name pass, w.HoldsUser users i name pass) :=
    fun h => ⟨h.1, fun h => absurd h (by decide)⟩
  unfold readAuthUser
  refine (meets_call hI (by trivial) h).bind fun _ w₁ h₁ => ?_
  refine (meets_call hI (by trivial) h₁).bind fun self w₂ h₂ => ?_
  refine (meets_call hI (by trivial) h₂).bind fun r w₃ h₃ => ?_
  simp only [meets_ite, meets_pure]
  split
  · exact hfail h₃
  split
  · exact hfail h₃
  split
  · exact hfail h₃
  refine (meets_call hI (by trivial) h₃).bind fun name w₄ h₄ => ?_
  simp only [meets_ite, meets_pure]
  split
  · exact hfail h₄
  split
  · exact hfail h₄
  refine (meets_call hI (by trivial) h₄).bind fun pass w₅ h₅ => ?_
  rw [meets_ite]
  split
  · exact hfail h₅
  · exact (meets_checkUser h₅ _ _).mono fun r w₆ h₆ => ⟨h₆.1, fun h => ⟨_, _, h₆.2 h⟩⟩

/-- **A server that has authenticated a user holds it**: the union points to the user, who is
    alive. -/
theorem holds_of_authenticated (h : w.Asks users i)
    (hr : Returns (amid users i) readAuthUser w 0 w') :
    ∃ p, w'.obj i = some (.user p) ∧ 0 < w'.refs (.user p) := by
  obtain ⟨⟨hc, hi⟩, huser⟩ := (meets_readAuthUser h).returns hr
  obtain ⟨_, _, p, hobj, -, -⟩ := huser rfl
  exact ⟨p, hobj, hc.held hi hobj⟩

theorem meets_auth (h : w.Outset users i) :
    Meets (amid users i) (Proper users i) HevSocks5Server.auth w fun _ w' =>
      w'.Serving users i := by
  unfold HevSocks5Server.auth
  refine (meets_readAuthMethod h).bind fun method w₁ h₁ => ?_
  have hwrite : (writeAuthMethod method).Only Neutral :=
    (writes_writeAuthMethod method).mono neutral_of_writes
  by_cases hmethod : method = authMethodUser.toNat
  · refine (meets_neutral lasting_asks hwrite (h₁.2 hmethod)).bind fun res w₂ h₂ => ?_
    have hnone : method ≠ authMethodNone.toNat := by
      rw [hmethod]
      decide
    simp only [meets_ite, meets_pure, if_neg hnone, if_pos hmethod]
    split
    · exact h₂.1
    refine (meets_readAuthUser h₂).bind fun res w₃ h₃ => ?_
    refine (meets_neutral lasting_serving ((writes_writeAuthUser res).mono neutral_of_writes)
      h₃.1).bind fun res' w₄ h₄ => ?_
    split <;> exact h₄
  · refine (meets_neutral lasting_outset hwrite h₁.1).bind fun res w₂ h₂ => ?_
    simp only [meets_ite, meets_pure, if_neg hmethod]
    split
    · exact h₂.1
    · split <;> exact h₂.1

/-! ## The run -/

theorem meets_opens {I : Shared → Prop} (hI : Lasting users i I) {α : Type} {x : SysM α}
    {msg : String} (hx : x.Only (Op.Opens msg)) (hw : I w) :
    Meets (amid users i) (Proper users i) x w fun _ w' => I w' :=
  meets_neutral hI (hx.mono neutral_of_opens) hw

theorem meets_connect (h : w.Serving users i) (addr : SockAddrIn6) :
    Meets (amid users i) (Proper users i) (HevSocks5Server.connect addr) w fun _ w' =>
      w'.Serving users i := by
  have hI : Lasting users i _ := lasting_serving
  have hdrop : ∀ {fd : Int} {w : Shared}, w.Serving users i →
      Meets (amid users i) (Proper users i) (do drop fd; return (-1 : Int)) w fun _ w' =>
        w'.Serving users i :=
    fun h => (meets_opens hI (opens_drop "" _) h).bind fun _ _ h => h
  unfold HevSocks5Server.connect
  refine (meets_call hI (by trivial) h).bind fun _ w₁ h₁ => ?_
  refine (meets_opens hI (opens_hevSocks5Socket "" _) h₁).bind fun fd w₂ h₂ => ?_
  rw [meets_ite]
  split
  · exact h₂
  refine (meets_call hI (by trivial) h₂).bind fun res w₃ h₃ => ?_
  rw [meets_ite]
  split
  · exact hdrop h₃
  refine (meets_call hI (by trivial) h₃).bind fun t w₄ h₄ => ?_
  refine (meets_opens hI (opens_hevSocks5SetTimeout "" _) h₄).bind fun _ w₅ h₅ => ?_
  refine (meets_call hI (by trivial) h₅).bind fun res w₆ h₆ => ?_
  rw [meets_ite]
  split
  · exact hdrop h₆
  refine (meets_call hI (by trivial) h₆).bind fun t w₇ h₇ => ?_
  refine (meets_opens hI (opens_hevSocks5SetTimeout "" _) h₇).bind fun _ w₈ h₈ => ?_
  exact meets_setFds (fun _ => rfl) h₈ fun _ h => h

theorem meets_bindRelay (h : w.Serving users i) (addr : SockAddrIn6) :
    Meets (amid users i) (Proper users i) (bindRelay addr) w fun _ w' => w'.Serving users i := by
  have hI : Lasting users i _ := lasting_serving
  unfold bindRelay
  refine (meets_opens hI (opens_hevSocks5Socket "" _) h).bind fun fd w₁ h₁ => ?_
  rw [meets_ite]
  split
  · exact h₁
  refine (meets_call hI (by trivial) h₁).bind fun res w₂ h₂ => ?_
  rw [meets_ite]
  split
  · exact (meets_opens hI (opens_drop "" _) h₂).bind fun _ _ h => h
  refine (meets_opens hI (opens_udpBind _ _) h₂).bind fun r w₃ h₃ => ?_
  rw [meets_ite]
  split
  · exact (meets_opens hI (opens_drop "" _) h₃).bind fun _ _ h => h
  · exact meets_setFds (fun _ => rfl) h₃ fun _ h => h

theorem meets_bind_server (h : w.Serving users i) (addr : Option SockAddrIn6) :
    Meets (amid users i) (Proper users i) (HevSocks5Server.bind addr) w fun _ w' =>
      w'.Serving users i := by
  have hI : Lasting users i _ := lasting_serving
  unfold HevSocks5Server.bind
  refine (meets_call hI (by trivial) h).bind fun _ w₁ h₁ => ?_
  refine (meets_opens hI (opens_hevSocks5Socket "" _) h₁).bind fun fd w₂ h₂ => ?_
  rw [meets_ite]
  split
  · exact h₂
  refine meets_setFds (fun _ => rfl) h₂ fun w₃ h₃ => ?_
  cases addr with
  | none => exact h₃
  | some addr => exact (meets_bindRelay h₃ addr).bind fun _ _ h => h

theorem meets_execute (h : w.Serving users i) (cmd : Octet) (addr : SockAddrIn6) :
    Meets (amid users i) (Proper users i) (execute cmd addr) w fun _ w' => w'.Serving users i := by
  have htype : ∀ {type : HevSocks5Type} {α : Type} {a : α} {w : Shared}, w.Serving users i →
      Meets (amid users i) (Proper users i) (do setType type; return a) w fun _ w' =>
        w'.Serving users i := by
    intro type α a w h
    have hx : (setType type).Only Neutral :=
      .bind ((only_op _).2 trivial) fun _ => (only_op _).2 trivial
    exact (meets_neutral lasting_serving hx h).bind fun _ _ h => h
  unfold execute
  simp only [meets_ite]
  split
  · exact (meets_connect h addr).bind fun _ _ h₁ => htype h₁
  split
  · exact (meets_bind_server h _).bind fun _ _ h₁ => htype h₁
  split
  · exact (meets_bind_server h _).bind fun _ _ h₁ => htype h₁
  · exact h

theorem meets_executeRequest (h : w.Serving users i) (req : Request) :
    Meets (amid users i) (Proper users i) (executeRequest req) w fun _ w' =>
      w'.Serving users i := by
  unfold executeRequest
  rw [meets_ite]
  split
  · cases req.cmd with
    | some cmd => exact meets_execute h cmd req.addr
    | none =>
      refine (meets_call lasting_serving (by trivial) h).bind fun cmd w₁ h₁ => ?_
      exact meets_execute h₁ cmd req.addr
  · exact h

theorem meets_handshake (h : w.Outset users i) :
    Meets (amid users i) (Proper users i) handshake w fun _ w' => w'.Serving users i := by
  have hI : Lasting users i _ := lasting_outset
  unfold handshake
  refine (meets_call hI (by trivial) h).bind fun _ w₁ h₁ => ?_
  refine (meets_call hI (by trivial) h₁).bind fun t w₂ h₂ => ?_
  refine (meets_opens hI (opens_hevSocks5SetTimeout "" _) h₂).bind fun _ w₃ h₃ => ?_
  refine (meets_auth h₃).bind fun res w₄ h₄ => ?_
  rw [meets_ite]
  split
  · exact h₄
  have hread : (readRequest .succ .zero).Only Neutral := by
    refine (only_readRequest _ _).mono ?_
    rintro β o (h | h) <;> cases o <;> first | exact trivial | exact h.elim
  refine (meets_neutral lasting_serving hread h₄).bind fun req w₅ h₅ => ?_
  rw [meets_ite]
  split
  · exact h₅
  refine (meets_executeRequest h₅ req).bind fun r w₆ h₆ => ?_
  have hwrite : (writeResponse r.1 r.2).Only Neutral :=
    (writes_writeResponse _ _).mono neutral_of_writes
  refine (meets_neutral lasting_serving hwrite h₆).bind fun res w₇ h₇ => ?_
  rw [meets_ite]
  split <;> exact h₇

theorem neutral_service : service.Only Neutral := by
  refine .bind ((only_op _).2 trivial) fun _ => .bind ((only_op _).2 trivial) fun self => ?_
  have hudp : (do
      hevSocks5SetTimeout (← hevSocks5GetUdpTimeout)
      hevSocks5UdpSplice (← server).fds.1
      return (0 : Int)).Only Neutral := by
    refine .bind ((only_op _).2 trivial) fun _ => ?_
    refine .bind ((opens_hevSocks5SetTimeout "" _).mono neutral_of_opens) fun _ => ?_
    exact .bind ((only_op _).2 trivial) fun _ => .bind ((only_op _).2 trivial) fun _ => only_pure _
  cases self.type with
  | tcp =>
    exact .bind ((only_op _).2 (by trivial)) fun _ =>
      .bind ((only_op _).2 (by trivial)) fun _ => only_pure _
  | udpInUdp => exact hudp
  | udpInTcp => exact hudp
  | none => exact only_pure _

/-- **A run** of a server whose union does not point to a user. -/
theorem meets_run (h : w.Outset users i) :
    Meets (amid users i) (Proper users i) run w fun _ w' => w'.Serving users i := by
  have hI : Lasting users i _ := lasting_outset
  unfold run
  refine (meets_call hI (by trivial) h).bind fun _ w₁ h₁ => ?_
  refine (meets_call hI (by trivial) h₁).bind fun self w₂ h₂ => ?_
  refine (meets_opens hI (opens_addOrModFd "" _) h₂).bind fun _ w₃ h₃ => ?_
  refine (meets_handshake h₃).bind fun res w₄ h₄ => ?_
  rw [meets_ite]
  split
  · exact h₄
  refine (meets_neutral lasting_serving neutral_service h₄).bind fun res w₅ h₅ => ?_
  rw [meets_ite]
  split <;> exact h₅

/-! ## The destructor -/

/-- The calls have answers. -/
def Shared.Answered (users : Ptr → HevSocks5User) (i : Nat) : Assert Op Shared := fun w _ o =>
  ∃ b w', task users i w o b w'

theorem Shared.Proper.answered {β : Type} {o : Op β} (h : Proper users i w o) :
    Answered users i w o :=
  h.2.1

/-- Calls that change nothing of what is shared, in a destructor. -/
theorem meets_task {α : Type} {x : SysM α} (hx : x.Only Neutral) :
    Meets (task users i) (Answered users i) x w fun _ w' => w' = w := by
  refine hx.meets (I := fun w' => w' = w) ?_ rfl
  rintro w₁ β o ho rfl
  have hwait : Waits β o → Answered users i w₁ o ∧ ∀ b w', task users i w₁ o b w' → w' = w₁ :=
    fun h => ⟨exists_answer o h, fun b w' he => (task_waits h).1 he⟩
  cases o <;> first | exact ho.elim | exact hwait trivial | skip
  case server => exact ⟨⟨⟨(0, 0), seen (w₁.obj i)⟩, w₁, rfl, rfl⟩, fun b w' he => he.2⟩
  case users => exact ⟨⟨users, w₁, rfl, rfl⟩, fun b w' he => he.2⟩

theorem meets_drop_if {c : Prop} [Decidable c] {fd : Int} {α : Type} {k : SysM α}
    {Q : α → Shared → Prop} (h : Meets (task users i) (Answered users i) k w Q) :
    Meets (task users i) (Answered users i) (if c then do drop fd; k else k) w Q := by
  rw [meets_ite]
  split
  · refine (meets_task ((opens_drop "" fd).mono neutral_of_opens)).bind fun _ w' hsame => ?_
    rwa [hsame]
  · exact h

/-- **The destructor** drops the reference of the server. -/
theorem meets_destruct (hs : w.Sound users) (ho : ∀ o, w.obj i = some o → 0 < w.free users o) :
    Meets (task users i) (Answered users i) destruct w fun _ w' =>
      w.Moves users w' fun o => if w.obj i = some o then -1 else 0 := by
  have hend : hevSocks5Destruct.Only Neutral := by
    refine .bind ((only_op _).2 trivial) fun _ => .bind ((only_op _).2 trivial) fun self => ?_
    exact .ite ((opens_drop "" _).mono neutral_of_opens) (only_pure _)
  unfold destruct
  refine (meets_task (x := logD _) ((only_op _).2 (by trivial))).bind fun _ w₁ h₁ => ?_
  rw [h₁]
  refine ⟨⟨⟨(0, 0), seen (w.obj i)⟩, w, rfl, rfl⟩, ?_⟩
  rintro self w₂ ⟨hself, h₂⟩
  rw [h₂]
  refine meets_drop_if (meets_drop_if ?_)
  rw [hself]
  cases hobj : w.obj i with
  | none =>
    refine (meets_task hend).mono fun _ w₅ h₅ => ?_
    rw [h₅]
    simpa [hobj] using Moves.refl hs
  | some o =>
    have hne : seen (some o) ≠ .null := by cases o <;> exact nofun
    have htarget : w.target i (seen (some o)) = some o := by
      cases o with
      | auth a => exact hobj
      | user p => rfl
    have hunref := hs.moves_unref (ho o hobj)
    obtain ⟨_, w', hrun, -⟩ := id hunref
    rw [if_pos hne]
    refine ⟨⟨(), w', o, htarget, hrun⟩, ?_⟩
    rintro _ w₅ ⟨o', ho', hrun⟩
    obtain rfl : o = o' := Option.some.inj (htarget.symm.trans ho')
    have hm := hunref.eq_of_run hrun
    refine (meets_task hend).mono fun _ w₆ h₆ => ?_
    rw [h₆]
    simpa only [Option.some.injEq, eq_comm] using hm

/-- What a server that is destructed leaves. -/
theorem Shared.Serving.destructed (h : w.Serving users i)
    (hm : w.Moves users w' fun o => if w.obj i = some o then -1 else 0) :
    Shared.Counted users { w' with live := w'.live.erase i } ∧
      ∀ j, j ≠ i → Rely users j w { w' with live := w'.live.erase i } := by
  have hserv : ∀ o, Shared.servers { w' with live := w'.live.erase i } o =
      w.servers o + if w.obj i = some o then -1 else 0 := by
    intro o
    rw [servers_eq h.2]
    show ∑ j ∈ w'.live.erase i, (if w'.obj j = some o then (1 : Int) else 0) = _
    rw [hm.keeps.live, hm.keeps.obj]
    split <;> omega
  have hc := h.1.of_moves { w' with live := w'.live.erase i } hm rfl rfl rfl rfl fun o => by
    rw [hserv]
    show (w'.outside o : Int) + _ = _
    rw [hm.keeps.outside]
    omega
  refine ⟨hc, fun j hj => ⟨hc, ?_, fun hlive => ?_, fun _ => .inl ?_, fun o _ => hm.keeps.dead o⟩⟩
  · exact (hm.keeps.made).symm ▸ Finset.Subset.refl _
  · exact Finset.mem_erase.2 ⟨hj, hm.keeps.live ▸ hlive⟩
  · exact congrFun hm.keeps.obj j

/-! ## The system -/

/-- **The invariant of the system**: every reference has a holder, and the servers that run are in
    the middle of a run that goes well. -/
structure System.Invariant (users : Ptr → HevSocks5User) (S : System) : Prop where
  counted : S.shared.Counted users
  task : ∀ i x, S.tasks i = some x → x.Paused Waits ∧ i ∈ S.shared.live ∧
    Meets (amid users i) (Proper users i) x S.shared fun _ w' => w'.Serving users i

namespace System

variable {S S' : System}

theorem invariant_init (mem : Ptr → HevRBTreeNode) (obj : Nat → Option Object) :
    (init mem obj).Invariant users := by
  have hempty : ∀ a, HevSocks5Authenticator.Represents ((init mem obj).shared.index users a)
      ⟨∅, fun _ => 0⟩ := fun a => HevSocks5Authenticator.represents_new _ _ _
  have hnot : ∀ a p, ¬ (init mem obj).shared.Contains users a p := by
    intro a p hp
    rw [contains_iff (hempty a)] at hp
    simp at hp
  have hmembers : ∀ o, (init mem obj).shared.members users o = 0 := by
    intro o
    cases o with
    | auth a => rfl
    | user p =>
      refine if_neg ?_
      rintro ⟨a, h⟩
      exact hnot a p h
  have hfree : ∀ o, (init mem obj).shared.free users o = 0 := by
    intro o
    rw [Shared.free, hmembers]
    rfl
  refine ⟨⟨⟨id, fun a => ⟨_, hempty a⟩, fun a b p ha => absurd ha (hnot a p), fun o => ?_⟩,
    fun o => ?_, fun a p hp => absurd hp (hnot a p), fun _ _ => rfl⟩, by simp [init]⟩
  · rw [hfree]
  · rw [hfree]
    simp [init, Shared.servers]

/-- The tasks while something else happens. -/
theorem Invariant.interfere {w' : Shared} (h : S.Invariant users) (hc : w'.Counted users)
    {tasks : Nat → Option (SysM Int)}
    (htasks : ∀ j x, tasks j = some x → (S.tasks j = some x ∧ Rely users j S.shared w') ∨
      x.Paused Waits ∧ j ∈ w'.live ∧
        Meets (amid users j) (Proper users j) x w' fun _ w' => w'.Serving users j) :
    System.Invariant users ⟨w', tasks⟩ := by
  refine ⟨hc, fun j x hx => ?_⟩
  rcases htasks j x hx with ⟨hx, hr⟩ | hnew
  · obtain ⟨hpaused, hlive, hm⟩ := h.task j x hx
    exact ⟨hpaused, hr.live hlive, hm.interfere stable_task hpaused hr fun _ h => h.rely hr⟩
  · exact hnew

/-- A server that pauses leaves every reference with a holder. -/
theorem serving_of_paused {x : SysM Int} (hx : x.Paused Waits)
    (h : Meets (amid users i) (Proper users i) x w fun _ w' => w'.Serving users i) :
    w.Serving users i := by
  cases x with
  | ret a => exact h
  | call o k => exact h.1.1 hx

theorem Shared.Guarantee.rely {j : Nat} (h : Guarantee i w w') (hc : w'.Counted users)
    (hj : j ≠ i) : Rely users j w w' where
  counted := hc
  made := by rw [h.made]
  live hj := by rwa [h.live]
  obj _ := .inl (h.obj j hj)
  dead o _ := h.dead o

/-- **A step** keeps the invariant, and brings no object back to life. -/
theorem Invariant.step (h : S.Invariant users) (hs : S.Step users S') :
    S'.Invariant users ∧ ∀ o ∈ S.shared.made, o ∈ S'.shared.made ∧
      (S.shared.refs o = 0 → S'.shared.refs o = 0) := by
  cases hs with
  | @call c w' hc he =>
    obtain ⟨hcounted, hrely⟩ := (h.counted.ends_exec hc).eq_of_run he
    refine ⟨h.interfere hcounted fun j x hx => .inl ⟨hx, hrely j⟩, fun o ho => ?_⟩
    exact ⟨(hrely 0).made ho, (hrely 0).dead o ho⟩
  | start i hlive htask hobj =>
    refine ⟨h.interfere h.counted fun j x hx => ?_, fun o ho => ⟨ho, id⟩⟩
    by_cases hj : j = i
    · subst hj
      rw [Function.update_self, Option.some.injEq] at hx
      subst hx
      exact .inr ⟨trivial, hlive, meets_run ⟨⟨h.counted, hlive⟩, hobj⟩⟩
    · rw [Function.update_of_ne hj] at hx
      exact .inl ⟨hx, .refl h.counted⟩
  | @resume i x x' w' htask hr =>
    obtain ⟨-, hlive, hm⟩ := h.task i x htask
    obtain ⟨hm', hpaused, hg⟩ := hm.resumes stable_task hr
    have hserving := serving_of_paused hpaused hm'
    refine ⟨h.interfere hserving.1 fun j y hy => ?_, fun o ho => ⟨hg.made ▸ ho, hg.dead o⟩⟩
    by_cases hj : j = i
    · subst hj
      rw [Function.update_self, Option.some.injEq] at hy
      subst hy
      exact .inr ⟨hpaused, hserving.2, hm'⟩
    · rw [Function.update_of_ne hj] at hy
      exact .inl ⟨hy, Shared.Guarantee.rely hg hserving.1 hj⟩
  | finish i htask =>
    refine ⟨h.interfere h.counted fun j x hx => .inl ⟨?_, .refl h.counted⟩, fun o ho => ⟨ho, id⟩⟩
    by_cases hj : j = i
    · subst hj
      rw [Function.update_self] at hx
      cases hx
    · rwa [Function.update_of_ne hj] at hx
  | @destruct i w' hlive htask hr =>
    have hserving : S.shared.Serving users i := ⟨h.counted, hlive⟩
    have hm := (meets_destruct h.counted.sound fun _ => h.counted.free_held hlive).returns hr
    obtain ⟨hc, hrely⟩ := hserving.destructed hm
    refine ⟨h.interfere hc fun j x hx => .inl ⟨hx, hrely j ?_⟩, fun o ho => ?_⟩
    · rintro rfl
      rw [htask] at hx
      cases hx
    · exact ⟨hm.keeps.made.symm ▸ ho, hm.keeps.dead o⟩

/-- **A run of the system** keeps the invariant, and brings no object back to life. -/
theorem Invariant.leads (h : S.Invariant users) (hl : S.Leads users S') :
    S'.Invariant users ∧ ∀ o ∈ S.shared.made, o ∈ S'.shared.made ∧
      (S.shared.refs o = 0 → S'.shared.refs o = 0) := by
  induction hl with
  | refl => exact ⟨h, fun o ho => ⟨ho, id⟩⟩
  | tail _ hs ih =>
    obtain ⟨h₁, hkeep⟩ := ih
    obtain ⟨h₂, hstep⟩ := h₁.step hs
    refine ⟨h₂, fun o ho => ?_⟩
    obtain ⟨hmade, hdead⟩ := hkeep o ho
    exact ⟨(hstep o hmade).1, fun h0 => (hstep o hmade).2 (hdead h0)⟩

/-! ## Every reference has a holder -/

/-- **Every reference has a holder**: a caller, a server, or the authenticator that contains the
    user; and no use of an object comes too late. -/
structure Accounted (users : Ptr → HevSocks5User) (S : System) : Prop where
  refs : ∀ o, S.shared.refs o = S.shared.outside o + S.shared.servers o + S.shared.members users o
  one : ∀ a b p, S.shared.Contains users a p → S.shared.Contains users b p → a = b
  fresh : ¬ S.shared.stale
  /-- what the union of a server holds is alive -/
  held : ∀ i ∈ S.shared.live, ∀ o, S.shared.obj i = some o → 0 < S.shared.refs o
  /-- when everything is released every count is zero -/
  released : (∀ o, S.shared.outside o = 0) → S.shared.live = ∅ → ∀ o, S.shared.refs o = 0
  /-- a count that has reached zero stays there -/
  once : ∀ S', S.Leads users S' → ∀ o ∈ S.shared.made, S.shared.refs o = 0 →
    S'.shared.refs o = 0
  /-- nothing gets stuck -/
  calls : ∀ c, S.shared.Allows users c → ∃ w', exec users c S.shared = some ((), w')
  runs : ∀ i x, S.tasks i = some x → (∃ res, x = .ret res) ∨
    ∃ x' w', Resumes (task users i) Waits x S.shared x' w'
  destructs : ∀ i ∈ S.shared.live, ∃ w', Returns (task users i) destruct S.shared () w'

theorem Invariant.released (h : S.Invariant users) (hout : ∀ o, S.shared.outside o = 0)
    (hlive : S.shared.live = ∅) (o : Object) : S.shared.refs o = 0 := by
  have hrefs : ∀ o, S.shared.refs o = S.shared.members users o := by
    intro o
    rw [h.counted.refs_eq, hout, Shared.servers, hlive, Finset.sum_empty]
    omega
  rw [hrefs]
  cases o with
  | auth a => rfl
  | user p =>
    refine if_neg ?_
    rintro ⟨a, ha⟩
    -- the authenticator that contains the user is alive
    have hpos := h.counted.alive a p ha
    rw [hrefs] at hpos
    exact Int.lt_irrefl 0 hpos

theorem Invariant.accounted (h : S.Invariant users) : S.Accounted users where
  refs := h.counted.refs_eq
  one := h.counted.sound.disjoint
  fresh := h.counted.sound.fresh
  held i hi o ho := h.counted.held hi ho
  released := h.released
  once S' hl o ho := ((h.leads hl).2 o ho).2
  calls c hc := by
    obtain ⟨_, w', he, -⟩ := h.counted.ends_exec hc
    exact ⟨w', he⟩
  runs i x hx := by
    obtain ⟨hpaused, -, hm⟩ := h.task i x hx
    exact hm.exists_resumes stable_task Shared.Proper.answered hpaused
  destructs i hi := by
    obtain ⟨_, w', hr⟩ :=
      (meets_destruct h.counted.sound fun _ => h.counted.free_held hi).exists_returns id
    exact ⟨w', hr⟩

end System

/-! ## A user who is deleted -/

/-- What callers may do, as far as counts show it: a user to whom only callers hold references is
    in no authenticator. -/
def Shared.permits (w : Shared) : Call → Bool
  | .newUser user => .user user.val ∉ w.made
  | .newAuth a => .auth a ∉ w.made
  | .ref o | .unref o => 0 < w.outside o
  | .add a user =>
    0 < w.outside (.auth a) ∧ 0 < w.outside (.user user.val) ∧
      w.refs (.user user.val) = w.outside (.user user.val)
  | .del a _ | .clear a => 0 < w.outside (.auth a)
  | .construct i => i ∉ w.live
  | .setAuth i a => i ∈ w.live ∧ 0 < w.outside (.auth a)

theorem Shared.Counted.allows (h : w.Counted users) {c : Call} (hc : w.permits c = true) :
    w.Allows users c := by
  cases c <;> simp only [permits, decide_eq_true_eq] at hc
  case add a user =>
    obtain ⟨ha, hu, hrefs⟩ := hc
    refine ⟨ha, hu, fun b hb => absurd (h.refs_eq (.user user.val)) ?_⟩
    have := w.servers_nonneg (.user user.val)
    rw [members_of_contains hb]
    omega
  all_goals exact hc

/-- Callers call, one call after the other. -/
def Shared.calls (users : Ptr → HevSocks5User) (cs : List Call) (w : Shared) : Option Shared :=
  cs.foldlM (fun w c => if w.permits c then (exec users c w).map Prod.snd else none) w

namespace System

variable {S : System}

theorem leads_of_calls (h : S.Invariant users) {cs : List Call}
    (hcs : S.shared.calls users cs = some w') : S.Leads users { S with shared := w' } := by
  induction cs generalizing S with
  | nil =>
    obtain rfl := Option.some.inj hcs
    exact .refl
  | cons c cs ih =>
    obtain ⟨w₁, h₁, hrest⟩ := Option.bind_eq_some_iff.1 hcs
    dsimp only at h₁
    split at h₁
    · rename_i hc
      obtain ⟨⟨_, w₂⟩, he, rfl⟩ := Option.map_eq_some_iff.1 h₁
      have hstep : S.Step users { S with shared := w₂ } := .call c (h.counted.allows hc) he
      exact (ih (h.step hstep).1 hrest).head hstep
    · cases h₁

/-- **A run by itself** is one of the system. -/
theorem leads_of_returns {res : Int} (hlive : i ∈ S.shared.live) (htask : S.tasks i = none)
    (hobj : ∀ p, S.shared.obj i ≠ some (.user p))
    (hr : Returns (task users i) run S.shared res w') :
    S.Leads users ⟨w', Function.update S.tasks i (some (.ret res))⟩ := by
  obtain ⟨x₁, w₁, hpiece, hrest⟩ := hr.resumes Waits
  obtain ⟨rfl, rfl⟩ := hpiece.eq_of_paused trivial
  let during : SysM Int × Shared → System := fun s => ⟨s.2, Function.update S.tasks i (some s.1)⟩
  have hstep : ∀ s s', Resumes (task users i) Waits s.1 s.2 s'.1 s'.2 →
      (during s).Step users (during s') := by
    intro s s' hs
    have := Step.resume (S := during s) i (Function.update_self ..) hs
    rwa [Function.update_idem] at this
  exact (hrest.lift during hstep).head (.start i hlive htask hobj)

end System

/-! ## Every run -/

/-- **References are counted**: in every state that callers and servers can reach, in whatever
    order they run, every reference has a holder. -/
theorem references_counted (users : Ptr → HevSocks5User) (mem : Ptr → HevRBTreeNode)
    (obj : Nat → Option Object) {S : System} (hS : (System.init mem obj).Leads users S) :
    S.Accounted users :=
  ((System.invariant_init mem obj).leads hS).1.accounted

/-- The user whose name is `u` and whose password is `p`. -/
def loginUsers : Ptr → HevSocks5User := fun _ => ⟨strOf [117] 1, strOf [112] 1⟩

/-- The calls of a server whose client logs in and then sends nothing more. -/
def loginTask : Shared × List Octet → {β : Type} → Op β → Option (β × (Shared × List Octet)) :=
  fun w _ o =>
    match o with
    | .logD _ => some ((), w)
    | .base => some (⟨3, -1, .none, false, .unspec⟩, w)
    | .setBase _ => some ((), w)
    | .tcpTimeout => some (-1, w)
    | .addFd _ => some (0, w)
    | .recv _ n _ => some (⟨(w.2.take n).length, w.2.take n⟩, (w.1, w.2.drop n))
    | .send _ data => some (data.length, w)
    | .server => some (⟨(-1, -1), seen (w.1.obj 1)⟩, w)
    | .setServer self =>
      some ((), ({ w.1 with obj := Function.update w.1.obj 1 (w.1.target 1 self.obj) }, w.2))
    | .users => some (loginUsers, w)
    | .authenticator x =>
      match w.1.obj 1 with
      | some (.auth a) => (onAuth loginUsers a x w.1).map fun r => (r.1, (r.2, w.2))
      | _ => none
    | .ref r => do
      let o ← w.1.target 1 r
      (Shared.ref o w.1).map fun r => (r.1, (r.2, w.2))
    | .unref r => do
      let o ← w.1.target 1 r
      (Shared.unref loginUsers o w.1).map fun r => (r.1, (r.2, w.2))
    | _ => none

theorem task_of_loginTask (w : Shared × List Octet) {β : Type} (o : Op β) (b : β)
    (w' : Shared × List Octet) (h : loginTask w o = some (b, w')) :
    task loginUsers 1 w.1 o b w'.1 := by
  cases o <;> simp only [loginTask, Option.some.injEq, Prod.mk.injEq, reduceCtorEq] at h
  case logD | base | setBase | tcpTimeout | addFd | recv | send =>
    obtain ⟨-, rfl⟩ := h
    rfl
  case server | users =>
    obtain ⟨rfl, rfl⟩ := h
    exact ⟨rfl, rfl⟩
  case setServer =>
    obtain ⟨-, rfl⟩ := h
    rfl
  case authenticator x =>
    split at h
    · rename_i a ha
      obtain ⟨r, hr, hb⟩ := Option.map_eq_some_iff.1 h
      obtain ⟨rfl, rfl⟩ := Prod.mk.inj hb
      exact ⟨a, ha, hr⟩
    · cases h
  case ref | unref =>
    obtain ⟨o, ho, h⟩ := Option.bind_eq_some_iff.1 h
    obtain ⟨r, hr, hb⟩ := Option.map_eq_some_iff.1 h
    obtain ⟨-, rfl⟩ := Prod.mk.inj hb
    exact ⟨o, ho, hr⟩

/-- Callers call, server 1 runs while its client sends the octets, and callers call again. -/
def loginCalls (before after : List Call) (octets : List Octet) (w : Shared) :
    Option (Shared × Shared) := do
  let w₁ ← w.calls loginUsers before
  let (_, w₂) ← exec loginTask run (w₁, octets)
  let w₃ ← w₂.1.calls loginUsers after
  return (w₁, w₃)

theorem leads_of_loginCalls {S : System} (h : S.Invariant loginUsers) (htask : S.tasks 1 = none)
    {before after : List Call} {octets : List Octet} {w₁ w₃ : Shared}
    (hcalls : loginCalls before after octets S.shared = some (w₁, w₃)) (hlive : 1 ∈ w₁.live)
    {a : Nat} (hauth : w₁.obj 1 = some (.auth a)) :
    ∃ tasks, S.Leads loginUsers ⟨w₃, tasks⟩ := by
  obtain ⟨w₁', hbefore, hcalls⟩ := Option.bind_eq_some_iff.1 hcalls
  obtain ⟨⟨res, w₂⟩, hrun, hcalls⟩ := Option.bind_eq_some_iff.1 hcalls
  obtain ⟨w₃', hafter, hcalls⟩ := Option.bind_eq_some_iff.1 hcalls
  obtain ⟨rfl, rfl⟩ := Prod.mk.inj (Option.some.inj hcalls)
  have hserver := System.leads_of_calls h hbefore
  have huser : ∀ p, w₁'.obj 1 ≠ some (.user p) := by
    intro p
    rw [hauth]
    simp
  have hlogin := hserver.trans (System.leads_of_returns (i := 1) hlive htask huser
    ((returns_of_exec task_of_loginTask hrun).proj id))
  exact ⟨_, hlogin.trans (System.leads_of_calls (h.leads hlogin).1 hafter)⟩

/-- A user is added, the server is given the authenticator, and when its client has logged in the
    user is deleted. -/
theorem loginCalls_delete : (loginCalls
    [.newAuth 0, .newUser ⟨4, by decide⟩, .add 0 ⟨4, by decide⟩, .construct 1, .setAuth 1 0]
    [.del 0 ⟨[117], by decide⟩] [5, 1, 2, 1, 1, 117, 1, 112]
    (System.init (fun _ => ⟨0, 0, 0⟩) fun _ => none).shared).any (fun w =>
      (1 ∈ w.1.live ∧ w.1.obj 1 = some (.auth 0)) ∧ w.2.obj 1 = some (.user 4) ∧
        w.2.refs (.user 4) = 1 ∧ w.2.outside (.user 4) = 0) = true := by
  decide +kernel

/-- A server holds the user it has authenticated, when the authenticator has lost him. -/
theorem references_counted_held : ∃ S : System,
    (System.init (fun _ => ⟨0, 0, 0⟩) fun _ => none).Leads loginUsers S ∧ S.Accounted loginUsers ∧
      S.shared.obj 1 = some (.user 4) ∧ S.shared.refs (.user 4) = 1 ∧
      S.shared.outside (.user 4) = 0 := by
  obtain ⟨⟨w₁, w₃⟩, hcalls, hw⟩ := (Option.any_eq_true ..).1 loginCalls_delete
  have hw := of_decide_eq_true hw
  obtain ⟨tasks, hleads⟩ :=
    leads_of_loginCalls (System.invariant_init _ _) rfl hcalls hw.1.1 hw.1.2
  exact ⟨_, hleads, references_counted loginUsers _ _ hleads, hw.2⟩

end HevSocks5
