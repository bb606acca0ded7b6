/-
  The descriptors of a server.

  Between its functions exactly the stored descriptors are open, and each is
  stored once (`Files.Owned`).
-/
import HevSocks5.Files

namespace HevSocks5

open Interact Sys HevSocks5Server

namespace Files

/-- Exactly these descriptors are open, and each is listed once. -/
structure Holds (w : Files) (fds : List Int) : Prop where
  misused : w.misused = false
  opened : ∀ fd, fd ∈ w.opened ↔ 0 ≤ fd ∧ fd ∈ fds
  distinct : fds.Pairwise fun a b => 0 ≤ a → a ≠ b

/-- Exactly the stored descriptors are open, and each is stored once. -/
abbrev Owned (w : Files) : Prop := w.Holds w.fields

/-- A descriptor that is not stored yet. -/
def withOpen (w : Files) (fd : Int) : Files := { w with opened := insert fd w.opened }

variable {w w' w₁ : Files} {fd : Int}

theorem Owned.sound (h : w.Owned) : w.Sound :=
  ⟨h.misused, fun fd hfd h0 => (h.opened fd).2 ⟨h0, hfd⟩⟩

theorem Owned.like (h : w.Owned) (hl : Like w w') : w'.Owned where
  misused := hl.misused.trans h.misused
  opened fd := by rw [hl.opened, hl.fields, h.opened]
  distinct := hl.fields ▸ h.distinct

theorem Sound.withOpen (h : w.Sound) : (w.withOpen fd).Sound :=
  ⟨h.misused, fun fd hfd h0 => Finset.mem_insert_of_mem (h.stored fd hfd h0)⟩

/-- A new descriptor is stored in a field that was empty. -/
theorem Owned.store (h : w.Owned) (h0 : 0 ≤ fd) (hnew : fd ∉ w.opened) (l₁ l₂ : List Int) {a : Int}
    (ha : a < 0) (hw : w.fields = l₁ ++ a :: l₂) (hw' : w'.fields = l₁ ++ fd :: l₂)
    (hopened : w'.opened = insert fd w.opened) (hmisused : w'.misused = w.misused) :
    w'.Owned := by
  have hold : ∀ x ∈ l₁ ++ l₂, 0 ≤ x → x ≠ fd := by
    rintro x hx hx0 rfl
    refine hnew ((h.opened x).2 ⟨hx0, ?_⟩)
    rw [hw]
    simp only [List.mem_append, List.mem_cons] at hx ⊢
    tauto
  have hd := h.distinct
  rw [hw, List.pairwise_append, List.pairwise_cons] at hd
  obtain ⟨hd₁, ⟨-, hd₂⟩, hd₃⟩ := hd
  refine ⟨hmisused.trans h.misused, fun x => ?_, ?_⟩
  · rw [hopened, hw', Finset.mem_insert, h.opened, hw]
    simp only [List.mem_append, List.mem_cons]
    constructor
    · rintro (rfl | ⟨hx0, hx⟩)
      · exact ⟨h0, .inr (.inl rfl)⟩
      · refine ⟨hx0, ?_⟩
        rcases hx with hx | rfl | hx
        · exact .inl hx
        · omega
        · exact .inr (.inr hx)
    · rintro ⟨hx0, hx | rfl | hx⟩
      · exact .inr ⟨hx0, .inl hx⟩
      · exact .inl rfl
      · exact .inr ⟨hx0, .inr (.inr hx)⟩
  · rw [hw', List.pairwise_append, List.pairwise_cons]
    refine ⟨hd₁, ⟨fun b hb h0 heq => ?_, hd₂⟩, fun x hx b hb hx0 => ?_⟩
    · exact hold b (List.mem_append_right _ hb) (heq ▸ h0) heq.symm
    · rcases List.mem_cons.1 hb with rfl | hb
      · exact hold x (List.mem_append_left _ hx) hx0
      · exact hd₃ x hx b (List.mem_cons_of_mem _ hb) hx0

theorem Holds.perm {l l' : List Int} (h : w.Holds l) (hp : l.Perm l') : w.Holds l' where
  misused := h.misused
  opened fd := by rw [h.opened, hp.mem_iff]
  distinct := by
    refine h.distinct.perm hp fun {a b} hab h0 heq => ?_
    exact hab (heq ▸ h0) heq.symm

theorem Holds.eq_empty {l : List Int} (h : w.Holds l) (hneg : ∀ fd ∈ l, fd < 0) : w.opened = ∅ := by
  ext fd
  rw [h.opened]
  constructor
  · rintro ⟨h0, hfd⟩
    have := hneg fd hfd
    omega
  · intro hfd
    simp at hfd

/-- The first descriptor is closed, or it was none. -/
theorem Holds.tail {l : List Int} (h : w.Holds (fd :: l)) (hmisused : w'.misused = false)
    (hopened : ∀ x, x ∈ w'.opened ↔ x ∈ w.opened ∧ (0 ≤ fd → x ≠ fd)) : w'.Holds l where
  misused := hmisused
  opened x := by
    have hd := (List.pairwise_cons.1 h.distinct).1
    rw [hopened, h.opened, List.mem_cons]
    constructor
    · rintro ⟨⟨h0, rfl | hx⟩, hne⟩
      · exact absurd rfl (hne h0)
      · exact ⟨h0, hx⟩
    · rintro ⟨h0, hx⟩
      exact ⟨⟨h0, .inr hx⟩, fun hfd heq => hd x hx hfd heq.symm⟩
  distinct := (List.pairwise_cons.1 h.distinct).2

end Files

/-! ## Sockets -/

section
variable {w w₁ : Files} {fd : Int}

theorem spares_addOrModFd (fd : Int) : Spares files (addOrModFd fd) :=
  .bind (spares_op trivial) fun _ =>
    .ite (.bind (spares_op trivial) fun _ => spares_pure _) (spares_pure _)

/-- What follows leaves the descriptors alone. -/
theorem Spares.owned {α : Type} {O : Type → Type} {E : Env O Files} {x : Prog O α}
    (hx : Spares E x) (h : w.Owned) : Always E Files.Sound x w fun _ w' => w'.Owned :=
  (hx w h.sound).mono fun _ _ hl => h.like hl

/-- A descriptor that is not stored is given up. -/
theorem always_drop (h : w.Sound) (hnew : fd ∉ w.opened) (hl : (w.withOpen fd).Like w₁) :
    Always files Files.Sound (drop fd) w₁ fun _ w' => w.Like w' := by
  have h₁ : w₁.Sound := h.withOpen.like hl
  rintro _ w₂ rfl
  refine ⟨h₁, ?_⟩
  rintro _ w₃ rfl
  have hmem : fd ∈ w₂.opened := hl.opened ▸ Finset.mem_insert_self fd w.opened
  have hlike : w.Like { w₂ with
      opened := w₂.opened.erase fd, misused := w₂.misused || decide (fd ∉ w₂.opened) } := by
    refine ⟨hl.fd, hl.fds, hl.client, ?_, ?_⟩
    · show w₂.opened.erase fd = w.opened
      rw [hl.opened]
      exact Finset.erase_insert hnew
    · show (w₂.misused || decide (fd ∉ w₂.opened)) = w.misused
      rw [decide_eq_false (not_not.2 hmem), Bool.or_false]
      exact hl.misused
  exact ⟨h.like hlike, hlike⟩

theorem always_hevSocks5Socket (type : SockType) (h : w.Sound) :
    Always files Files.Sound (hevSocks5Socket type) w fun fd w' =>
      (fd < 0 ∧ w.Like w') ∨ (0 ≤ fd ∧ fd ∉ w.opened ∧ (w.withOpen fd).Like w') := by
  unfold hevSocks5Socket
  rintro fd w₁ he
  rcases he with ⟨hneg, rfl⟩ | ⟨h0, hnew, rfl⟩
  · refine ⟨h, (always_ite ..).2 ?_⟩
    rw [if_pos hneg]
    exact .inl ⟨by decide, .refl⟩
  have h₁ : (w.withOpen fd).Sound := h.withOpen
  refine ⟨h₁, (always_ite ..).2 ?_⟩
  rw [if_neg (by omega)]
  rintro res w₂ rfl
  refine ⟨h₁, (always_ite ..).2 ?_⟩
  split
  · rintro _ w₃ rfl
    have hlike : w.Like { w.withOpen fd with
        opened := (w.withOpen fd).opened.erase fd,
        misused := (w.withOpen fd).misused || decide (fd ∉ (w.withOpen fd).opened) } := by
      refine ⟨rfl, rfl, rfl, Finset.erase_insert hnew, ?_⟩
      simp [Files.withOpen]
    exact ⟨h.like hlike, .inl ⟨by decide, hlike⟩⟩
  · refine (spares_addOrModFd fd _ h₁).bind fun _ w₃ h₃ => (always_ite ..).2 ?_
    split
    · rintro _ w₄ rfl
      exact ⟨h₁.like h₃, .inr ⟨h0, hnew, h₃⟩⟩
    · exact .inr ⟨h0, hnew, h₃⟩

end

/-! ## Destruction -/

/-- A descriptor is given up, if it is one. -/
theorem post_dropStored {l : List Int} {α : Type} {k : Unit → SysM α} {Q : α → Files → Prop}
    (h : w.Holds (fd :: l))
    (hk : ∀ w', w'.Holds l → w'.self = w.self → Post files (k ()) w' Q) :
    if 0 ≤ fd then Post files (drop fd >>= k) w Q else Post files (k ()) w Q := by
  split
  case isTrue h0 =>
    rintro _ w₁ rfl
    refine ⟨trivial, ?_⟩
    rintro _ w₂ rfl
    have hmem : fd ∈ w₁.opened := (h.opened fd).2 ⟨h0, List.mem_cons_self⟩
    refine ⟨trivial, hk _ (h.tail ?_ fun x => ?_) rfl⟩
    · show (w₁.misused || decide (fd ∉ w₁.opened)) = false
      rw [h.misused, decide_eq_false (not_not.2 hmem)]
      rfl
    · rw [Finset.mem_erase]
      tauto
  case isFalse h0 => exact hk w (h.tail h.misused (by tauto)) rfl

theorem post_hevSocks5Destruct {l : List Int} (h : w.Holds (w.self.fd :: l)) :
    Post files hevSocks5Destruct w fun _ w' => w'.Holds l := by
  rintro _ w₁ rfl
  refine ⟨trivial, ?_⟩
  rintro self w₂ ⟨rfl, rfl⟩
  refine ⟨trivial, (always_ite ..).2 (post_dropStored h ?_)⟩
  exact fun _ h' _ => h'

/-! ## The authentication stage and the request -/

namespace HevSocks5Server

theorem mild_of_reads {msg : String} {β : Type} {o : Op β} (h : o.Reads msg) : o.Mild := by
  cases o <;> first | exact trivial | exact h.elim

theorem mild_of_writes {msg : String} {octets : List Octet} {β : Type} {o : Op β}
    (h : o.Writes msg octets) : o.Mild := by
  cases o <;> first | exact trivial | exact h.elim

theorem spares_checkUser (name pass : Str) : Spares files (checkUser name pass) := by
  refine .bind (spares_op trivial) fun user => .ite (spares_pure _) ?_
  refine .bind (spares_op trivial) fun users => .ite (spares_pure _) ?_
  refine .bind (spares_op trivial) fun _ => ?_
  exact spares_setServer (f := fun self => { self with obj := .user user }) (fun _ => rfl)
    (g := fun self => hevObjectUnref self.obj) (fun _ => (only_op _).2 trivial) (spares_pure _)

theorem spares_readAuthUser : Spares files readAuthUser := by
  refine .bind (spares_op trivial) fun _ => ?_
  refine .bind (spares_op trivial) fun _ => .bind (spares_op trivial) fun _ => ?_
  refine .ite (spares_pure _) (.ite (spares_pure _) (.ite (spares_pure _) ?_))
  refine .bind (spares_op trivial) fun _ => .ite (spares_pure _) (.ite (spares_pure _) ?_)
  exact .bind (spares_op trivial) fun _ => .ite (spares_pure _) (spares_checkUser _ _)

theorem spares_auth : Spares files HevSocks5Server.auth := by
  refine .bind (spares_of_mild (reads_readAuthMethod.mono mild_of_reads)) fun method => ?_
  refine .bind (spares_of_mild ((writes_writeAuthMethod method).mono mild_of_writes)) fun _ => ?_
  refine .ite (spares_pure _) (.ite (spares_pure _) (.ite ?_ (spares_pure _)))
  refine .bind spares_readAuthUser fun res => ?_
  refine .bind (spares_of_mild ((writes_writeAuthUser res).mono mild_of_writes)) fun _ => ?_
  exact .ite (spares_pure _) (spares_pure _)

theorem spares_readRequest (rep : HevSocks5ResRep) (addr : SockAddrIn6) :
    Spares files (readRequest rep addr) := by
  refine .bind (spares_op trivial) fun _ => ?_
  refine .bind (spares_op trivial) fun self => .bind (spares_op trivial) fun req => ?_
  refine .ite (spares_pure _) (.ite (spares_pure _) ?_)
  dsimp only
  cases addrRest (req.data.getD 3 0) (req.data.getD 4 0) with
  | none => exact spares_pure _
  | some addrlen =>
    refine .bind (spares_op (by trivial)) fun r => .ite (spares_pure _) ?_
    refine .bind (spares_op (by trivial)) fun self => ?_
    refine .bind (spares_of_mild ((only_hevSocks5AddrIntoSockaddr6 _ _ _).mono
      fun h => mild_of_reads (h.reads ""))) fun r => .ite (spares_pure _) ?_
    exact spares_setBase (f := fun self => { self with addrFamily := r.2.2 }) (fun _ => rfl)
      (spares_pure _)

/-! ## The commands -/

variable {w w₁ : Files} {fd : Int}

/-- A new descriptor is stored in the first field. -/
theorem owned_fst (h : w.Owned) (hfst : w.fds.1 < 0) (h0 : 0 ≤ fd) (hnew : fd ∉ w.opened)
    (hl : (w.withOpen fd).Like w₁) : Files.Owned { w₁ with fds := (fd, w₁.fds.2) } := by
  refine h.store h0 hnew [w.self.fd] [w.fds.2, w.client.klass.fd] hfst rfl ?_
    hl.opened hl.misused
  show [w₁.self.fd, fd, w₁.fds.2, w₁.client.klass.fd] = _
  rw [hl.fd, hl.fds, hl.client]
  rfl

theorem owned_snd (h : w.Owned) (hsnd : w.fds.2 < 0) (h0 : 0 ≤ fd) (hnew : fd ∉ w.opened)
    (hl : (w.withOpen fd).Like w₁) : Files.Owned { w₁ with fds := (w₁.fds.1, fd) } := by
  refine h.store h0 hnew [w.self.fd, w.fds.1] [w.client.klass.fd] hsnd rfl ?_
    hl.opened hl.misused
  show [w₁.self.fd, w₁.fds.1, fd, w₁.client.klass.fd] = _
  rw [hl.fd, hl.fds, hl.client]
  rfl

/-- The fields are set to what was read and a new descriptor. -/
theorem always_setFds {f : Int × Int → Int × Int} {α : Type} {k : SysM α}
    {Q : α → Files → Prop} (hw : w.Sound) (hset : Files.Owned { w with fds := f w.fds })
    (hk : Always files Files.Sound k { w with fds := f w.fds } Q) :
    Always files Files.Sound (do
      let self ← server
      setServer { self with fds := f self.fds }
      k) w Q := by
  rintro self w₁ ⟨hself, rfl⟩
  refine ⟨hw, ?_⟩
  rintro _ w₂ he
  have he : w₂ = { w₁ with fds := f w₁.fds } := by rw [show w₂ = _ from he, hself]
  subst he
  exact ⟨hset.sound, hk⟩

theorem always_connect (h : w.Owned) (hfst : w.fds.1 < 0) (addr : SockAddrIn6) :
    Always files Files.Sound (HevSocks5Server.connect addr) w fun _ w' => w'.Owned := by
  unfold HevSocks5Server.connect
  rintro _ w₀ rfl
  refine ⟨h.sound, (always_hevSocks5Socket .stream h.sound).bind fun fd w₁ h₁ => ?_⟩
  rw [always_ite]
  split
  · exact h.like (h₁.resolve_right fun h => by omega).2
  obtain ⟨h0, hnew, hl₁⟩ := h₁.resolve_left fun h => by omega
  have hs : ∀ {w' : Files}, (w₀.withOpen fd).Like w' → w'.Sound := h.sound.withOpen.like
  have hdrop : ∀ {w' : Files}, (w₀.withOpen fd).Like w' →
      Always files Files.Sound (do drop fd; return (-1 : Int)) w' fun _ w' => w'.Owned :=
    fun hl => (always_drop h.sound hnew hl).bind fun _ _ h' => h.like h'
  rintro res w₂ rfl
  refine ⟨hs hl₁, (always_ite ..).2 ?_⟩
  split
  · exact hdrop hl₁
  rintro t w₃ rfl
  refine ⟨hs hl₁, (spares_hevSocks5SetTimeout t _ (hs hl₁)).bind fun _ w₄ h₄ => ?_⟩
  have hl₄ := hl₁.trans h₄
  rintro res w₅ rfl
  refine ⟨hs hl₄, (always_ite ..).2 ?_⟩
  split
  · exact hdrop hl₄
  rintro t w₆ rfl
  refine ⟨hs hl₄, (spares_hevSocks5SetTimeout t _ (hs hl₄)).bind fun _ w₇ h₇ => ?_⟩
  have hl₇ := hl₄.trans h₇
  have hset := owned_fst h hfst h0 hnew hl₇
  exact always_setFds (f := fun fds => (fd, fds.2)) (hs hl₇) hset hset

theorem spares_udpBind (sock : Int) (src : SockAddrIn6) : Spares files (udpBind sock src) := by
  refine .bind (spares_op trivial) fun _ => .bind (spares_op trivial) fun self => ?_
  refine .bind (spares_op (by trivial)) fun r => .ite (spares_pure _) ?_
  refine .bind (spares_op (by trivial)) fun res => .ite (spares_pure _) ?_
  exact .bind (spares_op (by trivial)) fun r => .ite (spares_pure _) (spares_pure _)

theorem always_bindRelay (h : w.Owned) (hsnd : w.fds.2 < 0) (addr : SockAddrIn6) :
    Always files Files.Sound (bindRelay addr) w fun _ w' => w'.Owned := by
  unfold bindRelay
  refine (always_hevSocks5Socket .dgram h.sound).bind fun fd w₁ h₁ => ?_
  rw [always_ite]
  split
  · exact h.like (h₁.resolve_right fun h => by omega).2
  obtain ⟨h0, hnew, hl₁⟩ := h₁.resolve_left fun h => by omega
  have hs : ∀ {w' : Files}, (w.withOpen fd).Like w' → w'.Sound := h.sound.withOpen.like
  have hdrop : ∀ {w' : Files} (addr : SockAddrIn6), (w.withOpen fd).Like w' →
      Always files Files.Sound (do drop fd; return ((-1 : Int), addr)) w' fun _ w' => w'.Owned :=
    fun _ hl => (always_drop h.sound hnew hl).bind fun _ _ h' => h.like h'
  rintro res w₂ rfl
  refine ⟨hs hl₁, (always_ite ..).2 ?_⟩
  split
  · exact hdrop addr hl₁
  refine (spares_udpBind fd addr _ (hs hl₁)).bind fun r w₃ h₃ => (always_ite ..).2 ?_
  have hl₃ := hl₁.trans h₃
  split
  · exact hdrop r.2 hl₃
  have hset := owned_snd h hsnd h0 hnew hl₃
  exact always_setFds (f := fun fds => (fds.1, fd)) (hs hl₃) hset hset

theorem always_bind_files (h : w.Owned) (hfst : w.fds.1 < 0) (hsnd : w.fds.2 < 0)
    (addr : Option SockAddrIn6) :
    Always files Files.Sound (HevSocks5Server.bind addr) w fun _ w' => w'.Owned := by
  unfold HevSocks5Server.bind
  rintro _ w₀ rfl
  refine ⟨h.sound, (always_hevSocks5Socket .dgram h.sound).bind fun fd w₁ h₁ => ?_⟩
  rw [always_ite]
  split
  · exact h.like (h₁.resolve_right fun h => by omega).2
  obtain ⟨h0, hnew, hl₁⟩ := h₁.resolve_left fun h => by omega
  have hset := owned_fst h hfst h0 hnew hl₁
  refine always_setFds (f := fun fds => (fd, fds.2)) (h.sound.withOpen.like hl₁) hset ?_
  cases addr with
  | none => exact hset
  | some addr =>
    have hsnd₁ : w₁.fds.2 < 0 := by
      rw [hl₁.fds]
      exact hsnd
    exact (always_bindRelay hset hsnd₁ addr).bind fun _ _ h' => h'

theorem spares_setType (type : HevSocks5Type) : Spares files (setType type) := by
  rintro w hw self w₁ ⟨rfl, rfl⟩
  refine ⟨hw, ?_⟩
  rintro _ w₂ rfl
  have hl : w₁.Like { w₁ with self := { w₁.self with type } } := ⟨rfl, rfl, rfl, rfl, rfl⟩
  exact ⟨hw.like hl, hl⟩

theorem always_execute (h : w.Owned) (hfst : w.fds.1 < 0) (hsnd : w.fds.2 < 0) (cmd : Octet)
    (addr : SockAddrIn6) :
    Always files Files.Sound (execute cmd addr) w fun _ w' => w'.Owned := by
  unfold execute
  simp only [always_ite]
  split
  · exact (always_connect h hfst addr).bind fun _ _ h' => (spares_setType .tcp).owned h' |>.bind
      fun _ _ h' => h'
  split
  · exact (always_bind_files h hfst hsnd (some addr)).bind fun _ _ h' =>
      (spares_setType .udpInUdp).owned h' |>.bind fun _ _ h' => h'
  split
  · exact (always_bind_files h hfst hsnd none).bind fun _ _ h' =>
      (spares_setType .udpInTcp).owned h' |>.bind fun _ _ h' => h'
  · exact h

theorem always_executeRequest (h : w.Owned) (hfst : w.fds.1 < 0) (hsnd : w.fds.2 < 0)
    (req : Request) : Always files Files.Sound (executeRequest req) w fun _ w' => w'.Owned := by
  unfold executeRequest
  rw [always_ite]
  split
  · cases req.cmd with
    | some cmd => exact always_execute h hfst hsnd cmd req.addr
    | none =>
      rintro cmd w₁ rfl
      exact ⟨h.sound, always_execute h hfst hsnd cmd req.addr⟩
  · exact h

theorem always_handshake (h : w.Owned) (hfst : w.fds.1 < 0) (hsnd : w.fds.2 < 0) :
    Always files Files.Sound HevSocks5Server.handshake w fun _ w' => w'.Owned := by
  unfold HevSocks5Server.handshake
  rintro _ w₀ rfl
  refine ⟨h.sound, ?_⟩
  rintro t w₁ rfl
  refine ⟨h.sound, (spares_hevSocks5SetTimeout t _ h.sound).bind fun _ w₂ h₂ => ?_⟩
  refine (spares_auth _ (h.like h₂).sound).bind fun res w₃ h₃ => (always_ite ..).2 ?_
  have hl₃ := h₂.trans h₃
  split
  · exact h.like hl₃
  refine (spares_readRequest _ _ _ (h.like hl₃).sound).bind fun req w₄ h₄ => (always_ite ..).2 ?_
  have hl₄ := hl₃.trans h₄
  split
  · exact h.like hl₄
  rw [← hl₄.fds] at hfst hsnd
  refine (always_executeRequest (h.like hl₄) hfst hsnd req).bind fun r w₅ h₅ => ?_
  have hwrite : Spares files (do
      let res ← writeResponse r.1 r.2
      if res < 0 ∨ r.1 ≠ .succ then return (-1 : Int) else return 0) :=
    .bind (spares_of_mild ((writes_writeResponse r.1 r.2).mono mild_of_writes)) fun _ =>
      .ite (spares_pure _) (spares_pure _)
  exact hwrite.owned h₅

theorem spares_udpSplice (fd : Int) : Spares files (hevSocks5UdpSplice fd) :=
  fun _ hw _ _ hl => ⟨hw.like hl, hl⟩

theorem spares_service : Spares files HevSocks5Server.service := by
  refine .bind (spares_op trivial) fun _ => .bind (spares_op trivial) fun self => ?_
  have hudp : Spares files (do
      hevSocks5SetTimeout (← hevSocks5GetUdpTimeout)
      hevSocks5UdpSplice (← server).fds.1
      return (0 : Int)) := by
    refine .bind (spares_op trivial) fun t => .bind (spares_hevSocks5SetTimeout t) fun _ => ?_
    exact .bind (spares_op trivial) fun self => .bind (spares_udpSplice _) fun _ => spares_pure _
  cases self.type with
  | tcp =>
    exact .bind (spares_op trivial) fun self => .bind (spares_op trivial) fun _ => spares_pure _
  | udpInUdp => exact hudp
  | udpInTcp => exact hudp
  | none => exact spares_pure _

theorem always_run (h : w.Owned) (hfst : w.fds.1 < 0) (hsnd : w.fds.2 < 0) :
    Always files Files.Sound HevSocks5Server.run w fun _ w' => w'.Owned := by
  unfold HevSocks5Server.run
  rintro _ w₀ rfl
  refine ⟨h.sound, ?_⟩
  rintro self w₁ ⟨rfl, rfl⟩
  refine ⟨h.sound, (spares_addOrModFd _ _ h.sound).bind fun _ w₂ h₂ => ?_⟩
  rw [← h₂.fds] at hfst hsnd
  refine (always_handshake (h.like h₂) hfst hsnd).bind fun res w₃ h₃ => (always_ite ..).2 ?_
  split
  · exact h₃
  · exact (spares_service.bind fun _ => .ite (spares_pure _) (spares_pure _)).owned h₃

/-- The calls of a server do not touch a client. -/
theorem post_client {α : Type} (x : SysM α) :
    Post files x w fun _ (w' : Files) => w'.client.klass.fd = w.client.klass.fd := by
  refine always_of_step (I := fun w' : Files => w'.client.klass.fd = w.client.klass.fd) ?_ x rfl
  intro w₁ w₂ β o b h he
  refine ⟨trivial, ?_⟩
  cases o
  case udpSplice => exact he.client.trans h
  case socket => rcases he with ⟨-, rfl⟩ | ⟨-, -, rfl⟩ <;> exact h
  all_goals first | exact he ▸ h | exact he.2 ▸ h

theorem post_destruct (h : w.Owned) (hclient : w.client.klass.fd < 0) :
    Post files HevSocks5Server.destruct w fun _ w' => w'.opened = ∅ ∧ w'.misused = false := by
  have h₀ : w.Holds (w.fds.1 :: w.fds.2 :: w.self.fd :: [w.client.klass.fd]) := by
    refine h.perm ?_
    exact (List.Perm.swap ..).trans (.cons _ (.swap ..))
  rintro _ w₁ rfl
  refine ⟨trivial, ?_⟩
  rintro self w₂ ⟨hfds, rfl⟩
  refine ⟨trivial, ?_⟩
  rw [← hfds] at h₀
  refine (always_ite ..).2 (post_dropStored h₀ ?_)
  intro w₃ h₃ hself₃
  refine (always_ite ..).2 (post_dropStored h₃ ?_)
  intro w₄ h₄ hself₄
  have hend : ∀ {w' : Files}, w' = w₄ → Post files hevSocks5Destruct w'
      fun _ w' => w'.opened = ∅ ∧ w'.misused = false := by
    rintro _ rfl
    rw [← hself₃, ← hself₄] at h₄
    refine (post_hevSocks5Destruct h₄).mono fun _ _ h' => ⟨h'.eq_empty ?_, h'.misused⟩
    simpa using hclient
  refine (always_ite ..).2 ?_
  split
  · exact fun _ _ he => ⟨trivial, hend he⟩
  · exact hend rfl

end HevSocks5Server

end HevSocks5
