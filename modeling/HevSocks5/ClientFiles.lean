/-
  The descriptors of a client.
-/
import HevSocks5.ServerFiles

namespace HevSocks5

open Interact Sys

namespace HevSocks5Client

variable {α β : Type} {w w' w₁ : Files} {fd : Int}

/-! ## The calls of a client -/

theorem always_files {J : Files → Prop} {x : SysM α} {Q : α → Files → Prop}
    (h : Always files J x w Q) : Always clientFiles J (x.inl : ClientM α) w Q :=
  (always_inl x Q).2 h

theorem spares_inl {x : SysM α} (hx : Spares files x) : Spares clientFiles (x.inl : ClientM α) :=
  fun w hw => always_files (hx w hw)

theorem spares_call {o : Op β} (ho : o.Mild) : Spares clientFiles (Prog.op (.inl o)) :=
  spares_inl (spares_op ho)

theorem spares_client : Spares clientFiles client :=
  fun _ hw _ _ he => ⟨he.2 ▸ hw, he.2 ▸ .refl⟩

theorem spares_newAddr (atype : Octet) : Spares clientFiles (newAddr atype) := by
  have hmalloc : Spares clientFiles hevMalloc0 := fun _ hw _ _ he => ⟨he ▸ hw, he ▸ .refl⟩
  refine .bind hmalloc fun ptr => ?_
  cases ptr <;> exact spares_pure _

theorem spares_hevFree (ptr : Ptr) : Spares clientFiles (hevFree ptr) :=
  fun _ hw _ _ he => ⟨he ▸ hw, he ▸ .refl⟩

theorem spares_getUpstreamAddr : Spares clientFiles getUpstreamAddr := by
  rintro w hw self w₁ ⟨rfl, rfl⟩
  refine ⟨hw, ?_⟩
  cases hk : w₁.client.klass with
  | tcp addr =>
    simp only [Prog.bind, hk]
    rintro _ w₂ rfl
    have hl : w₁.Like { w₁ with client := { w₁.client with klass := .tcp none } } := by
      refine ⟨rfl, rfl, ?_, rfl, rfl⟩
      rw [hk]
      rfl
    exact ⟨hw.like hl, hl⟩
  | udp fd =>
    simp only [Prog.bind, hk]
    rintro self w₂ ⟨-, rfl⟩
    refine ⟨hw, ?_⟩
    simp only [Prog.inl, Prog.bind]
    cases self.addrFamily with
    | ipv4 => exact spares_newAddr _ _ hw
    | ipv6 => exact spares_newAddr _ _ hw
    | unspec => exact spares_pure _ _ hw

theorem spares_writeAuthMethods : Spares clientFiles writeAuthMethods := by
  refine .bind spares_client fun self => .bind (spares_call trivial) fun _ => ?_
  exact .bind (spares_call (by trivial)) fun _ => .ite (spares_pure _) (spares_pure _)

theorem spares_writeAuthCreds : Spares clientFiles writeAuthCreds := by
  refine .bind spares_client fun self => ?_
  cases self.user with
  | none => exact spares_pure _
  | some user =>
    cases self.pass with
    | none => exact spares_pure _
    | some pass =>
      refine .bind (spares_call trivial) fun _ => .bind (spares_call (by trivial)) fun _ => ?_
      exact .ite (spares_pure _) (spares_pure _)

theorem spares_writeRequest : Spares clientFiles writeRequest := by
  refine .bind (spares_call trivial) fun self => ?_
  cases reqCmd self.type with
  | none => exact spares_pure _
  | some cmd =>
    refine .bind spares_getUpstreamAddr fun addr => ?_
    cases addr with
    | none => exact fun _ _ _ _ he => he.elim
    | some addr =>
      refine .ite (spares_pure _) (.bind (spares_call trivial) fun _ => ?_)
      refine .bind (spares_call (by trivial)) fun _ => .ite (spares_pure _) ?_
      exact .bind (spares_hevFree _) fun _ => spares_pure _

theorem spares_readAuthMethod : Spares clientFiles readAuthMethod := by
  refine .bind (spares_call trivial) fun _ => .bind (spares_call (by trivial)) fun _ => ?_
  exact .ite (spares_pure _) (.ite (spares_pure _) (spares_pure _))

theorem spares_readAuthCreds : Spares clientFiles readAuthCreds := by
  refine .bind (spares_call trivial) fun _ => .bind (spares_call (by trivial)) fun _ => ?_
  exact .ite (spares_pure _) (.ite (spares_pure _) (.ite (spares_pure _) (spares_pure _)))

/-! ## The sockets of a client -/

/-- The descriptors are accounted for, and those of a server are as they were. -/
structure Kept (w w' : Files) : Prop where
  owned : w'.Owned
  fds : w'.fds = w.fds

theorem kept_like (h : w.Owned) (hl : w.Like w') : Kept w w' := ⟨h.like hl, hl.fds⟩

theorem always_connect (h : w.Owned) (hfd : w.self.fd < 0) (addr : List Octet) (port : UInt16) :
    Always files Files.Sound (HevSocks5Client.connect addr port) w fun _ w' => Kept w w' := by
  unfold HevSocks5Client.connect
  rintro t w₀ rfl
  refine ⟨h.sound, (spares_hevSocks5SetTimeout t _ h.sound).bind fun _ w₁ hl₁ => ?_⟩
  have hs₁ := h.sound.like hl₁
  rintro self w₂ ⟨rfl, rfl⟩
  refine ⟨hs₁, (spares_of_mild ((only_hevSocks5NameIntoSockaddr6 ..).mono ?_) _ hs₁).bind
    fun r w₃ h₃ => (always_ite ..).2 ?_⟩
  · exact fun ho => HevSocks5Server.mild_of_reads (ho.reads "")
  have hl₃ := hl₁.trans h₃
  have ho := h.like hl₃
  split
  · exact kept_like h hl₃
  refine (always_hevSocks5Socket .stream ho.sound).bind fun fd w₄ h₄ => (always_ite ..).2 ?_
  split
  · exact kept_like h (hl₃.trans (h₄.resolve_right fun h => by omega).2)
  obtain ⟨h0, hnew, hl₄⟩ := h₄.resolve_left fun h => by omega
  have hs : ∀ {w' : Files}, (w₃.withOpen fd).Like w' → w'.Sound := ho.sound.withOpen.like
  have hdrop : Always files Files.Sound (do drop fd; return (-1 : Int)) w₄ fun _ w' => Kept w₀ w' :=
    (always_drop ho.sound hnew hl₄).bind fun _ _ h' => kept_like h (hl₃.trans h')
  rintro res w₅ rfl
  refine ⟨hs hl₄, (always_ite ..).2 ?_⟩
  split
  · exact hdrop
  rintro res w₆ rfl
  refine ⟨hs hl₄, (always_ite ..).2 ?_⟩
  split
  · exact hdrop
  rintro self w₇ ⟨rfl, rfl⟩
  refine ⟨hs hl₄, ?_⟩
  rintro _ w₈ rfl
  have hset : Files.Owned { w₇ with self := { w₇.self with fd } } := by
    refine ho.store h0 hnew [] [w₃.fds.1, w₃.fds.2, w₃.client.klass.fd]
      (hl₃.fd ▸ hfd) rfl ?_ hl₄.opened hl₄.misused
    show [fd, w₇.fds.1, w₇.fds.2, w₇.client.klass.fd] = _
    rw [hl₄.fds, hl₄.client]
    rfl
  refine ⟨hset.sound, ?_⟩
  have hend := spares_setBase (f := fun self => { self with addrFamily := r.2.2 }) (fun _ => rfl)
    (spares_pure (0 : Int))
  refine (hend _ hset.sound).mono fun _ _ hl => ⟨hset.like hl, ?_⟩
  rw [hl.fds, ← hl₃.fds]
  exact hl₄.fds

/-- A socket that the client has connected is not stored yet. -/
theorem always_udpSocket (h : w.Sound) (saddr : SockAddrIn6) :
    Always files Files.Sound (udpSocket saddr) w fun fd w' =>
      (fd < 0 ∧ w.Like w') ∨ (0 ≤ fd ∧ fd ∉ w.opened ∧ (w.withOpen fd).Like w') := by
  unfold udpSocket
  refine (always_hevSocks5Socket .dgram h).bind fun fd w₁ h₁ => (always_ite ..).2 ?_
  split
  · exact .inl ⟨by decide, (h₁.resolve_right fun h => by omega).2⟩
  obtain ⟨h0, hnew, hl₁⟩ := h₁.resolve_left fun h => by omega
  have hs := h.withOpen.like hl₁
  have hdrop : Always files Files.Sound (do drop fd; return (-1 : Int)) w₁ fun fd w' =>
      (fd < 0 ∧ w.Like w') ∨ (0 ≤ fd ∧ fd ∉ w.opened ∧ (w.withOpen fd).Like w') :=
    (always_drop h hnew hl₁).bind fun _ _ h' => .inl ⟨by decide, h'⟩
  rintro res w₂ rfl
  refine ⟨hs, (always_ite ..).2 ?_⟩
  split
  · exact hdrop
  rintro res w₃ rfl
  refine ⟨hs, (always_ite ..).2 ?_⟩
  split
  · exact hdrop
  · exact .inr ⟨h0, hnew, hl₁⟩

theorem always_udpSetUpstreamAddr (h : w.Owned) (hfd : w.client.klass.fd < 0) (addr : Mem) :
    Always clientFiles Files.Sound (udpSetUpstreamAddr addr) w fun _ w' => Kept w w' := by
  have hrefl : Kept w w := ⟨h, rfl⟩
  rintro self w₀ ⟨rfl, rfl⟩
  refine ⟨h.sound, (always_ite ..).2 ?_⟩
  split
  · exact hrefl
  rintro self w₁ ⟨rfl, rfl⟩
  refine ⟨h.sound, ?_⟩
  refine (spares_inl (spares_of_mild ((only_hevSocks5AddrIntoSockaddr6 ..).mono ?_)) _ h.sound).bind
    fun r w₂ hl₂ => (always_ite ..).2 ?_
  · exact fun ho => HevSocks5Server.mild_of_reads (ho.reads "")
  have ho := h.like hl₂
  split
  · exact kept_like h hl₂
  refine (always_files (always_udpSocket ho.sound r.2.1)).bind fun fd w₃ h₃ =>
    (always_ite ..).2 ?_
  split
  · exact kept_like h (hl₂.trans (h₃.resolve_right fun h => by omega).2)
  obtain ⟨h0, hnew, hl₃⟩ := h₃.resolve_left fun h => by omega
  have hs : ∀ {w' : Files}, (w₂.withOpen fd).Like w' → w'.Sound := ho.sound.withOpen.like
  rintro self w₄ ⟨rfl, rfl⟩
  refine ⟨hs hl₃, ?_⟩
  rintro _ w₅ rfl
  have hl₅ : (w₂.withOpen fd).Like { w₄ with self := { w₄.self with udpAssociated := true } } :=
    hl₃.trans ⟨rfl, rfl, rfl, rfl, rfl⟩
  refine ⟨hs hl₅, ?_⟩
  rintro self w₆ ⟨rfl, rfl⟩
  refine ⟨hs hl₅, ?_⟩
  rintro _ w₇ rfl
  have hset : Files.Owned { w₄ with
      self := { w₄.self with udpAssociated := true },
      client := { w₄.client with klass := .udp fd } } := by
    refine ho.store h0 hnew [w₂.self.fd, w₂.fds.1, w₂.fds.2] [] (hl₂.client ▸ hfd) rfl ?_
      hl₃.opened hl₃.misused
    show [w₄.self.fd, w₄.fds.1, w₄.fds.2, fd] = _
    rw [hl₃.fd, hl₃.fds]
    rfl
  exact ⟨hset.sound, hset, hl₃.fds.trans hl₂.fds⟩

/-! ## A life -/

variable {w₂ : Files}

theorem Kept.trans (h : Kept w w₁) (h' : Kept w₁ w₂) : Kept w w₂ := ⟨h'.owned, h'.fds.trans h.fds⟩

/-- The program may store a socket in a client that has none. -/
def Keeps (x : ClientM α) : Prop :=
  ∀ w : Files, w.Owned → w.client.klass.fd < 0 →
    Always clientFiles Files.Sound x w fun _ w' => Kept w w'

theorem keeps_of_spares {x : ClientM α} (hx : Spares clientFiles x) : Keeps x :=
  fun w h _ => (hx w h.sound).mono fun _ _ hl => kept_like h hl

theorem Keeps.after {x : ClientM α} {f : α → ClientM β} (hx : Spares clientFiles x)
    (hf : ∀ a, Keeps (f a)) : Keeps (x >>= f) := by
  intro w h hfd
  refine (hx w h.sound).bind fun a w₁ hl => ?_
  rw [← hl.client] at hfd
  exact (hf a w₁ (h.like hl) hfd).mono fun _ _ h' => (kept_like h hl).trans h'

theorem Keeps.before {x : ClientM α} {f : α → ClientM β} (hx : Keeps x)
    (hf : ∀ a, Spares clientFiles (f a)) : Keeps (x >>= f) := by
  intro w h hfd
  refine (hx w h hfd).bind fun a w₁ h₁ => ?_
  exact (hf a w₁ h₁.owned.sound).mono fun _ _ hl => h₁.trans (kept_like h₁.owned hl)

theorem Keeps.ite {c : Prop} [Decidable c] {x y : ClientM α} (hx : Keeps x) (hy : Keeps y) :
    Keeps (if c then x else y) := by
  split
  · exact hx
  · exact hy

theorem keeps_pure (a : α) : Keeps (pure a : ClientM α) := keeps_of_spares (spares_pure a)

theorem keeps_setUpstreamAddr (addr : Mem) : Keeps (setUpstreamAddr addr) := by
  refine .after spares_client fun self => ?_
  cases self.klass with
  | tcp _ => exact keeps_pure _
  | udp _ => exact fun w h hfd => always_udpSetUpstreamAddr h hfd addr

theorem keeps_readResponse : Keeps readResponse := by
  refine .after (spares_call trivial) fun _ => .after (spares_call (by trivial)) fun res => ?_
  refine .ite (keeps_pure _) (.ite (keeps_pure _) (.ite (keeps_pure _) ?_))
  cases addrRest (res.data.getD 3 0) with
  | none => exact keeps_pure _
  | some addrlen =>
    refine .after (spares_call (by trivial)) fun r => .ite (keeps_pure _) ?_
    exact .before (keeps_setUpstreamAddr _) fun _ => .ite (spares_pure _) (spares_pure _)

theorem keeps_handshakeStandard : Keeps handshakeStandard := by
  have hrequest : Keeps handshakeStandard.request := by
    refine .after spares_writeRequest fun _ => .ite (keeps_pure _) ?_
    exact .before keeps_readResponse fun _ => .ite (spares_pure _) (spares_pure _)
  refine .after spares_writeAuthMethods fun _ => .ite (keeps_pure _) ?_
  refine .after spares_readAuthMethod fun _ => .ite (keeps_pure _) (.ite ?_ ?_)
  · refine .after spares_writeAuthCreds fun _ => .ite (keeps_pure _) ?_
    exact .after spares_readAuthCreds fun _ => .ite (keeps_pure _) hrequest
  · exact .ite (keeps_pure _) hrequest

theorem keeps_handshakePipeline : Keeps handshakePipeline := by
  have hresponse : Keeps handshakePipeline.response :=
    .before keeps_readResponse fun _ => .ite (spares_pure _) (spares_pure _)
  refine .after spares_writeAuthMethods fun _ => .ite (keeps_pure _) ?_
  refine .after spares_writeAuthCreds fun _ => .ite (keeps_pure _) ?_
  refine .after spares_writeRequest fun _ => .ite (keeps_pure _) ?_
  refine .after spares_readAuthMethod fun _ => .ite (keeps_pure _) (.ite ?_ ?_)
  · exact .after spares_readAuthCreds fun _ => .ite (keeps_pure _) hresponse
  · exact .ite (keeps_pure _) hresponse

theorem keeps_handshake (pipeline : Bool) : Keeps (HevSocks5Client.handshake pipeline) := by
  have hset (t : Int) : Spares clientFiles (hevSocks5SetTimeout t).inl :=
    spares_inl (spares_hevSocks5SetTimeout t)
  have hudp (res : Int) : Spares clientFiles (do
      hevSocks5SetTimeout (← hevSocks5GetUdpTimeout)
      return res : ClientM Int) :=
    .bind (spares_call trivial) fun t => .bind (hset t) fun _ => spares_pure _
  have hend (res : Int) : Spares clientFiles (handshakeEnd res) := by
    refine .bind (spares_call trivial) fun self => ?_
    cases self.type with
    | none => exact spares_pure _
    | tcp => exact spares_pure _
    | udpInTcp => exact hudp res
    | udpInUdp => exact hudp res
  refine .after (spares_call trivial) fun t => .after (hset t) fun _ => ?_
  exact .before (.ite keeps_handshakePipeline keeps_handshakeStandard) hend

theorem post_destruct (h : w.Owned) (hfds : w.fds.1 < 0 ∧ w.fds.2 < 0) :
    Post clientFiles HevSocks5Client.destruct w fun _ w' => w'.opened = ∅ ∧ w'.misused = false := by
  have h₀ : w.Holds (w.client.klass.fd :: w.self.fd :: [w.fds.1, w.fds.2]) := by
    have hcomm : ([w.self.fd, w.fds.1, w.fds.2] ++ [w.client.klass.fd]).Perm
        ([w.client.klass.fd] ++ [w.self.fd, w.fds.1, w.fds.2]) := List.perm_append_comm
    exact h.perm hcomm
  rintro self w₁ ⟨rfl, rfl⟩
  refine ⟨trivial, ?_⟩
  have hend : ∀ {w' : Files}, w'.Holds (w'.self.fd :: [w₁.fds.1, w₁.fds.2]) →
      Post clientFiles (hevSocks5Destruct.inl : ClientM Unit) w' fun _ w' =>
        w'.opened = ∅ ∧ w'.misused = false := by
    intro w' h'
    refine always_files ((post_hevSocks5Destruct h').mono fun _ _ h' => ?_)
    refine ⟨h'.eq_empty ?_, h'.misused⟩
    simpa using hfds
  cases hk : w₁.client.klass with
  | tcp addr =>
    have h₁ : w₁.Holds [w₁.self.fd, w₁.fds.1, w₁.fds.2] := by
      refine h₀.tail h₀.misused fun x => ?_
      rw [hk]
      simp [HevSocks5ClientClass.fd]
    cases addr with
    | none =>
      simp only [Prog.bind, hk]
      exact hend h₁
    | some addr =>
      simp only [Prog.bind, hk]
      rintro _ w₂ rfl
      exact ⟨trivial, hend h₁⟩
  | udp fd =>
    simp only [Prog.bind, hk]
    rw [hk] at h₀
    have hdrop := post_dropStored h₀ (k := fun _ => pure ()) (Q := fun _ w' =>
      w'.Holds [w₁.self.fd, w₁.fds.1, w₁.fds.2] ∧ w'.self = w₁.self) fun w' h' hself => ⟨h', hself⟩
    refine (always_ite ..).2 ?_
    split at hdrop
    · rw [bind_pure] at hdrop
      rw [if_pos ‹_›]
      refine (always_files hdrop).bind ?_
      rintro _ w₂ ⟨h₂, hself⟩
      refine hend ?_
      rw [hself]
      exact h₂
    · rw [if_neg ‹_›]
      exact hend hdrop.1

/-! ## Failures -/

end HevSocks5Client

/-- Calls that store nothing in the object. -/
def Sys.Op.Stateless {β : Type} : Op β → Prop
  | setBase _ | udpSplice _ => False
  | _ => True

theorem post_stateless {x : SysM α} (hx : x.Only Op.Stateless) :
    Post files x w fun _ w' => w'.self = w.self ∧ w'.client = w.client := by
  refine hx.always (I := fun w' : Files => w'.self = w.self ∧ w'.client = w.client) ?_ ⟨rfl, rfl⟩
  rintro w₁ w₂ β o b ho h he
  refine ⟨trivial, ?_⟩
  cases o
  case setBase => exact ho.elim
  case udpSplice => exact ho.elim
  case socket => rcases he with ⟨-, rfl⟩ | ⟨-, -, rfl⟩ <;> exact h
  all_goals first | exact he ▸ h | exact he.2 ▸ h

theorem stateless_of_makes {o : Op β} (h : o.Makes) : o.Stateless := by
  cases o <;> first | exact trivial | exact h.elim

theorem stateless_of_resolves {o : Op β} (h : o.Resolves) : o.Stateless := by
  cases o <;> first | exact trivial | exact h.elim

namespace Files

/-- The fields that a failure leaves as they were. -/
structure Same (w w' : Files) : Prop where
  fd : w'.self.fd = w.self.fd
  addrFamily : w'.self.addrFamily = w.self.addrFamily
  udpAssociated : w'.self.udpAssociated = w.self.udpAssociated
  client : w'.client.klass.fd = w.client.klass.fd

theorem same_of_eq (h : w'.self = w.self ∧ w'.client = w.client) : Same w w' := by
  constructor <;> simp [h.1, h.2]

theorem Same.trans {w₂ : Files} (h : Same w w₁) (h' : Same w₁ w₂) : Same w w₂ where
  fd := h'.fd.trans h.fd
  addrFamily := h'.addrFamily.trans h.addrFamily
  udpAssociated := h'.udpAssociated.trans h.udpAssociated
  client := h'.client.trans h.client

end Files

namespace HevSocks5Client

theorem post_same {x : SysM α} (hx : x.Only Op.Stateless) : Post files x w fun _ w' => w.Same w' :=
  (post_stateless hx).mono fun _ _ h => Files.same_of_eq h

theorem post_hevSocks5SetTimeout (t : Int) :
    Post files (hevSocks5SetTimeout t) w fun _ w' => w.Same w' := by
  rintro self w₀ ⟨rfl, rfl⟩
  refine ⟨trivial, (always_ite ..).2 ?_⟩
  split
  · rintro _ w₁ rfl
    exact ⟨trivial, rfl, rfl, rfl, rfl⟩
  · exact ⟨rfl, rfl, rfl, rfl⟩

/-- **A client that has failed to connect** is the one that it was. -/
theorem post_connect (addr : List Octet) (port : UInt16) :
    Post files (HevSocks5Client.connect addr port) w fun res w' => res < 0 → w.Same w' := by
  have hmakes : ∀ {β : Type} {o : Op β}, o.Makes → o.Stateless := stateless_of_makes
  rintro t w₀ rfl
  refine ⟨trivial, (post_hevSocks5SetTimeout t).bind fun _ w₁ h₁ => ?_⟩
  rintro self w₂ ⟨rfl, rfl⟩
  have hlook := post_same (w := w₂) ((only_hevSocks5NameIntoSockaddr6 addr port .zero
    w₂.self.addrFamily).mono stateless_of_resolves)
  refine ⟨trivial, hlook.bind fun r w₃ h₃ => (always_ite ..).2 ?_⟩
  have hs₃ := h₁.trans h₃
  split
  · exact fun _ => hs₃
  refine (post_same ((makes_hevSocks5Socket .stream).mono hmakes)).bind fun fd w₄ h₄ =>
    (always_ite ..).2 ?_
  have hs₄ := hs₃.trans h₄
  split
  · exact fun _ => hs₄
  have hdrop : Post files (do drop fd; return (-1 : Int)) w₄ fun res w' => res < 0 → w₀.Same w' :=
    (post_same ((makes_drop fd).mono hmakes)).bind fun _ _ h' _ => hs₄.trans h'
  rintro res w₅ rfl
  refine ⟨trivial, (always_ite ..).2 ?_⟩
  split
  · exact hdrop
  rintro res w₆ rfl
  refine ⟨trivial, (always_ite ..).2 ?_⟩
  split
  · exact hdrop
  · exact fun _ _ _ => ⟨trivial, fun _ _ _ => ⟨trivial, fun _ _ _ => ⟨trivial, fun _ _ _ =>
      ⟨trivial, fun h => absurd h (by decide)⟩⟩⟩⟩

theorem stateless_udpSocket (saddr : SockAddrIn6) : (udpSocket saddr).Only Op.Stateless := by
  have hdrop (fd : Int) : (do drop fd; return (-1 : Int) : SysM Int).Only Op.Stateless :=
    .bind ((makes_drop fd).mono stateless_of_makes) fun _ => only_pure _
  refine .bind ((makes_hevSocks5Socket .dgram).mono stateless_of_makes) fun fd => ?_
  refine .ite (only_pure _) (.bind ((only_op _).2 trivial) fun _ => .ite (hdrop fd) ?_)
  exact .bind ((only_op _).2 trivial) fun _ => .ite (hdrop fd) (only_pure _)

theorem post_udpSetUpstreamAddr (addr : Mem) :
    Post clientFiles (udpSetUpstreamAddr addr) w fun res w' => res < 0 → w.Same w' := by
  rintro self w₀ ⟨rfl, rfl⟩
  refine ⟨trivial, (always_ite ..).2 ?_⟩
  split
  · exact fun h => absurd h (by decide)
  rintro self w₁ ⟨rfl, rfl⟩
  refine ⟨trivial, ?_⟩
  refine (always_files (post_same ((only_hevSocks5AddrIntoSockaddr6 ..).mono
    stateless_of_resolves))).bind fun r w₂ h₂ => (always_ite ..).2 ?_
  split
  · exact fun _ => h₂
  refine (always_files (post_same (stateless_udpSocket r.2.1))).bind fun fd w₃ h₃ =>
    (always_ite ..).2 ?_
  split
  · exact fun _ => h₂.trans h₃
  · exact fun _ _ _ => ⟨trivial, fun _ _ _ => ⟨trivial, fun _ _ _ => ⟨trivial, fun _ _ _ =>
      ⟨trivial, fun h => absurd h (by decide)⟩⟩⟩⟩

/-- **A client that has failed to set its upstream address** is the one that it was. -/
theorem post_setUpstreamAddr (addr : Mem) :
    Post clientFiles (setUpstreamAddr addr) w fun res w' => res < 0 → w.Same w' := by
  rintro self w₀ ⟨rfl, rfl⟩
  refine ⟨trivial, ?_⟩
  cases hk : w₀.client.klass with
  | tcp _ =>
    simp only [Prog.bind, hk]
    exact fun h => absurd h (by decide)
  | udp _ =>
    simp only [Prog.bind, hk]
    exact post_udpSetUpstreamAddr addr

/-! ## Lives -/

/-- At most one connect, and at most one handshake. -/
def life (server : Option (List Octet × UInt16)) (pipeline : Option Bool) : ClientM Unit := do
  if let some (addr, port) := server then
    let _ ← HevSocks5Client.connect addr port
  if let some pipeline := pipeline then
    let _ ← HevSocks5Client.handshake pipeline

end HevSocks5Client

namespace Files

/-- A new server, whatever its fields are set to that are not descriptors. -/
def newServer (self : HevSocks5Obj) : Files where
  self
  fds := (HevSocks5Server.construct self.fd).2.fds
  client := ⟨none, none, .tcp none⟩
  opened := if 0 ≤ self.fd then {self.fd} else ∅
  misused := false

/-- A new client, whatever its fields are set to that are not descriptors. -/
def newClient (self : HevSocks5Obj) (user pass : Option (List Octet))
    (klass : { k : HevSocks5ClientClass // k.fd = -1 }) : Files where
  self := { self with fd := (HevSocks5Client.construct self.type).fd }
  fds := (-1, -1)
  client := ⟨user, pass, klass⟩
  opened := ∅
  misused := false

/-- Every descriptor is closed, and was closed once. -/
def Closed (w : Files) : Prop := w.opened = ∅ ∧ w.misused = false

theorem owned_newServer (self : HevSocks5Obj) : (newServer self).Owned where
  misused := rfl
  opened fd := by
    show fd ∈ (if 0 ≤ self.fd then {self.fd} else ∅ : Finset Int) ↔
      0 ≤ fd ∧ fd ∈ [self.fd, -1, -1, -1]
    split
    all_goals
      simp only [Finset.mem_singleton, Finset.notMem_empty, List.mem_cons, List.not_mem_nil,
        or_false, false_iff]
      omega
  distinct := by
    show List.Pairwise (fun a b : Int => 0 ≤ a → a ≠ b) [self.fd, -1, -1, -1]
    simp only [List.pairwise_cons, List.mem_cons, List.not_mem_nil]
    grind

theorem owned_newClient (self : HevSocks5Obj) (user pass : Option (List Octet))
    (klass : { k : HevSocks5ClientClass // k.fd = -1 }) :
    (newClient self user pass klass).Owned := by
  have hfields : (newClient self user pass klass).fields = [-1, -1, -1, -1] := by
    show [-1, -1, -1, klass.1.fd] = _
    rw [klass.2]
  refine ⟨rfl, fun fd => ?_, ?_⟩
  · rw [hfields]
    simp only [newClient, Finset.notMem_empty, List.mem_cons, List.not_mem_nil, or_false,
      false_iff]
    omega
  · rw [hfields]
    decide

end Files

/-- The descriptors through the life of a client. -/
theorem HevSocks5Client.always_life (h : w.Owned) (hself : w.self.fd < 0)
    (hclient : w.client.klass.fd < 0) (server : Option (List Octet × UInt16))
    (pipeline : Option Bool) :
    Always clientFiles Files.Sound (life server pipeline) w fun _ w' => Kept w w' := by
  have hhandshake : Keeps (do
      if let some pipeline := pipeline then
        let _ ← HevSocks5Client.handshake pipeline : ClientM Unit) := by
    cases pipeline with
    | none => exact keeps_pure _
    | some pipeline => exact .before (keeps_handshake pipeline) fun _ => spares_pure _
  cases server with
  | none => exact hhandshake w h hclient
  | some server =>
    have hconnect := (HevSocks5Client.always_connect h hself server.1 server.2).and
      (HevSocks5Server.post_client _)
    refine (always_files hconnect).bind fun _ w₁ ⟨h₁, hclient₁⟩ => ?_
    exact (hhandshake w₁ h₁.owned (hclient₁ ▸ hclient)).mono fun _ _ h' => h₁.trans h'

/-- **Every descriptor is closed once.**  A server or a client that has lived holds no closed
    descriptor at any time, and its destruction closes what it holds; a client that fails to
    connect, or to set its upstream address, is left as it was. -/
theorem descriptors_conserved :
    (∀ self : HevSocks5Obj, (Files.newServer self).Sound ∧
      Always files Files.Sound HevSocks5Server.run (Files.newServer self) fun _ w =>
        Post files HevSocks5Server.destruct w fun _ w' => w'.Closed) ∧
    (∀ (self : HevSocks5Obj) (user pass : Option (List Octet))
      (klass : { k : HevSocks5ClientClass // k.fd = -1 })
      (server : Option (List Octet × UInt16)) (pipeline : Option Bool),
      (Files.newClient self user pass klass).Sound ∧
      Always clientFiles Files.Sound (HevSocks5Client.life server pipeline)
        (Files.newClient self user pass klass) fun _ w =>
          Post clientFiles HevSocks5Client.destruct w fun _ w' => w'.Closed) ∧
    (∀ (w : Files) (addr : List Octet) (port : UInt16),
      Post files (HevSocks5Client.connect addr port) w fun res w' => res < 0 → w.Same w') ∧
    ∀ (w : Files) (addr : Mem),
      Post clientFiles (HevSocks5Client.setUpstreamAddr addr) w
        fun res w' => res < 0 → w.Same w' := by
  have hneg : (-1 : Int) < 0 := by decide
  refine ⟨fun self => ?_, fun self user pass klass server pipeline => ?_,
    fun w => HevSocks5Client.post_connect, fun w => HevSocks5Client.post_setUpstreamAddr⟩
  · have h := Files.owned_newServer self
    refine ⟨h.sound, ?_⟩
    have hrun := (HevSocks5Server.always_run h hneg hneg).and
      (HevSocks5Server.post_client _)
    exact hrun.mono fun _ w ⟨hw, hclient⟩ =>
      HevSocks5Server.post_destruct hw (hclient ▸ hneg)
  · have h := Files.owned_newClient self user pass klass
    have hklass : (Files.newClient self user pass klass).client.klass.fd < 0 := by
      show klass.1.fd < 0
      rw [klass.2]
      exact hneg
    refine ⟨h.sound, ?_⟩
    refine (HevSocks5Client.always_life h hneg hklass server
      pipeline).mono fun _ w hw => HevSocks5Client.post_destruct hw.owned ?_
    rw [hw.fds]
    exact ⟨hneg, hneg⟩

end HevSocks5
