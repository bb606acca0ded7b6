/-
  Descriptors.

  `Files` is an object (a server or a client) with the descriptors that are
  open on its behalf: the one that it was given and the ones that `socket`
  has returned since.  Every call that opens, closes or stores a descriptor is
  kept track of, and any call may fail.  A number that was closed may be
  returned by `socket` again.
-/
import HevSocks5.UdpCalls
import HevSocks5.ServerCalls
import HevSocks5.Client

namespace HevSocks5

open Interact Sys

/-- The descriptor that a subclass stores. -/
def HevSocks5ClientClass.fd : HevSocks5ClientClass → Int
  | tcp _ => -1
  | udp fd => fd

structure Files where
  self : HevSocks5Obj
  /-- the `fds` of a server -/
  fds : Int × Int
  client : HevSocks5ClientObj
  /-- the descriptors that are open -/
  opened : Finset Int
  /-- a descriptor was closed that was not open -/
  misused : Bool

namespace Files

/-- The fields that store descriptors. -/
def fields (w : Files) : List Int := [w.self.fd, w.fds.1, w.fds.2, w.client.klass.fd]

/-- **No stored descriptor is a closed one**, and none was closed that was not open. -/
structure Sound (w : Files) : Prop where
  misused : w.misused = false
  stored : ∀ fd ∈ w.fields, 0 ≤ fd → fd ∈ w.opened

/-- Descriptors are as they were. -/
structure Like (w w' : Files) : Prop where
  fd : w'.self.fd = w.self.fd
  fds : w'.fds = w.fds
  client : w'.client.klass.fd = w.client.klass.fd
  opened : w'.opened = w.opened
  misused : w'.misused = w.misused

end Files

/-- The calls of a server, and the ones that a client shares with it.  A splicer neither opens nor
    closes a descriptor (`files_of_splicer`). -/
def files : Env Op Files := fun w _ o b w' =>
  match o with
  | .base => b = w.self ∧ w' = w
  | .setBase self => w' = { w with self }
  | .server => b.fds = w.fds ∧ w' = w
  | .setServer server => w' = { w with fds := server.fds }
  | .socket _ => (b < 0 ∧ w' = w) ∨
      (0 ≤ b ∧ b ∉ w.opened ∧ w' = { w with opened := insert b w.opened })
  | .close fd =>
    w' = { w with opened := w.opened.erase fd, misused := w.misused || decide (fd ∉ w.opened) }
  | .udpSplice _ => w.Like w'
  | _ => w' = w

/-- The calls of a client. -/
def clientFiles : Env (Both Op ClientOp) Files := fun w _ o b w' =>
  match o with
  | .inl o => files w o b w'
  | .inr .client => b = w.client ∧ w' = w
  | .inr (.setClient client) => w' = { w with client }
  | .inr .malloc0 => w' = w
  | .inr (.free _) => w' = w
  | .inr .nullAddr => False
  | .inr .overrun => False

namespace Files

variable {w w' w₁ w₂ : Files}

theorem Like.refl : Like w w := ⟨rfl, rfl, rfl, rfl, rfl⟩

theorem Like.trans (h : Like w w₁) (h' : Like w₁ w₂) : Like w w₂ where
  fd := h'.fd.trans h.fd
  fds := h'.fds.trans h.fds
  client := h'.client.trans h.client
  opened := h'.opened.trans h.opened
  misused := h'.misused.trans h.misused

theorem Like.fields (h : Like w w') : w'.fields = w.fields := by
  rw [Files.fields, Files.fields, h.fd, h.fds, h.client]

theorem Sound.like (h : w.Sound) (hl : Like w w') : w'.Sound where
  misused := hl.misused.trans h.misused
  stored fd hfd h0 := by
    rw [hl.fields] at hfd
    rw [hl.opened]
    exact h.stored fd hfd h0

end Files

/-! ## What leaves the descriptors alone -/

/-- Calls that change nothing here. -/
def Sys.Op.Mild {β : Type} : Op β → Prop
  | setBase _ | setServer _ | socket _ | close _ | udpSplice _ => False
  | _ => True

theorem eq_of_mild {w w' : Files} {β : Type} {o : Op β} {b : β} (ho : o.Mild)
    (he : files w o b w') : w' = w := by
  cases o <;> first | exact ho.elim | exact he | exact he.2

/-- The program leaves the descriptors as they are. -/
def Spares {O : Type → Type} (E : Env O Files) {α : Type} (x : Prog O α) : Prop :=
  ∀ w : Files, w.Sound → Always E Files.Sound x w fun _ w' => w.Like w'

section
variable {α β : Type} {O : Type → Type} {E : Env O Files}

theorem spares_pure (a : α) : Spares E (pure a : Prog O α) := fun _ _ => .refl

theorem Spares.bind {x : Prog O α} {f : α → Prog O β} (hx : Spares E x)
    (hf : ∀ a, Spares E (f a)) : Spares E (x >>= f) := by
  intro w hw
  refine (hx w hw).bind fun a w₁ h₁ => ?_
  exact (hf a w₁ (hw.like h₁)).mono fun _ _ h₂ => h₁.trans h₂

theorem Spares.ite {c : Prop} [Decidable c] {x y : Prog O α} (hx : Spares E x)
    (hy : Spares E y) : Spares E (if c then x else y) := by
  split
  · exact hx
  · exact hy

end

section
variable {α β : Type}

theorem spares_of_mild {x : SysM α} (hx : x.Only Op.Mild) : Spares files x := by
  intro w hw
  have h := hx.always (E := files) (J := Files.Sound) (I := fun w' => w' = w) ?_ rfl
  · exact h.mono fun _ w' h => h ▸ .refl
  · rintro w₁ w₂ β o b ho rfl he
    have := eq_of_mild ho he
    exact ⟨this ▸ hw, this⟩

theorem spares_op {o : Op β} (ho : o.Mild) : Spares files (Prog.op o) :=
  spares_of_mild ((only_op o).2 ho)

/-- Other fields of the base are set. -/
theorem spares_setBase {f : HevSocks5Obj → HevSocks5Obj} (hf : ∀ self, (f self).fd = self.fd)
    {k : SysM α} (hk : Spares files k) : Spares files (do setBase (f (← base)); k) := by
  rintro w hw _ w₁ ⟨rfl, rfl⟩
  refine ⟨hw, ?_⟩
  rintro _ w₂ rfl
  have hl : w₁.Like { w₁ with self := f w₁.self } := ⟨hf _, rfl, rfl, rfl, rfl⟩
  refine ⟨hw.like hl, ?_⟩
  exact (hk _ (hw.like hl)).mono fun _ _ h => hl.trans h

/-- Other fields of the server are set. -/
theorem spares_setServer {f : HevSocks5ServerObj → HevSocks5ServerObj}
    (hf : ∀ self, (f self).fds = self.fds) {g : HevSocks5ServerObj → SysM Unit}
    (hg : ∀ self, (g self).Only Op.Mild) {k : SysM α} (hk : Spares files k) :
    Spares files (do
      let self ← server
      g self
      setServer (f self)
      k) := by
  rintro w hw self w₁ ⟨hfds, rfl⟩
  refine ⟨hw, (spares_of_mild (hg self) w₁ hw).bind fun _ w₂ h₂ => ?_⟩
  rintro _ w₃ rfl
  have hl : w₁.Like { w₂ with fds := (f self).fds } :=
    ⟨h₂.fd, (hf self).trans hfds, h₂.client, h₂.opened, h₂.misused⟩
  refine ⟨hw.like hl, ?_⟩
  exact (hk _ (hw.like hl)).mono fun _ _ h => hl.trans h

theorem spares_hevSocks5SetTimeout (timeout : Int) :
    Spares files (hevSocks5SetTimeout timeout) := by
  rintro w hw _ w₁ ⟨rfl, rfl⟩
  refine ⟨hw, (always_ite ..).2 ?_⟩
  split
  · rintro _ w₂ rfl
    have hl : w₁.Like { w₁ with self := { w₁.self with timeout } } := ⟨rfl, rfl, rfl, rfl, rfl⟩
    exact ⟨hw.like hl, hl⟩
  · exact .refl

end

/-! ## The UDP splicer -/

namespace HevSocks5UDP

variable {fd : Int} {bufs : List Mem}

theorem spares_associate (ds : List Datagram) : Spares files (associate fd ds) := by
  refine .bind (spares_op trivial) fun self => .ite (spares_pure _) ?_
  refine .bind (spares_op trivial) fun res => .ite (spares_pure _) ?_
  exact spares_setBase (f := fun self => { self with udpAssociated := true }) (fun _ => rfl)
    (spares_pure _)

theorem spares_recvmmsg (slots : List Slot) (nonblock : Bool) :
    Spares files (recvmmsg slots nonblock) := by
  refine .bind (spares_op trivial) fun self => ?_
  cases self.type
  case udpInTcp =>
    refine spares_of_mild (only_recvmmsgTcp.mono ?_)
    intro β o ho
    cases o <;> first | exact trivial | exact ho.elim
  case udpInUdp =>
    refine .bind (spares_op (by trivial)) fun fd => .bind (spares_op (by trivial)) fun r => ?_
    refine .ite (spares_pure _) (.bind (spares_associate r.2) fun ok => .ite (spares_pure _) ?_)
    cases parseUdp (fill slots r.2) (r.2.take r.1.toNat) <;> exact spares_pure _
  all_goals exact spares_pure _

theorem mild_of_forwards {β : Type} {o : Op β} (h : o.Forwards) : o.Mild := by
  cases o <;> first | exact trivial | exact h.elim

theorem spares_fwdResult (res : Int) : Spares files (fwdResult res) :=
  spares_of_mild ((only_fwdResult res).mono fun h => mild_of_forwards h.forwards)

theorem spares_fwdF (bind : Bool) : Spares files (fwdF fd bufs bind) := by
  refine .bind (spares_recvmmsg _ _) fun r => ?_
  exact .bind (spares_of_mild ((only_fwdRest _ _ _ _).mono mild_of_forwards)) fun _ => spares_pure _

theorem spares_sendmmsg (msgv : List OutMsg) : Spares files (sendmmsg msgv) := by
  refine .bind (spares_op trivial) fun self => ?_
  cases self.type
  case udpInTcp =>
    unfold sendmmsgTcp
    cases gather OutMsg.frame msgv with
    | none => exact spares_pure _
    | some iov =>
      exact .bind (spares_op (by trivial)) fun _ =>
        .bind (spares_op (by trivial)) fun _ => .ite (spares_pure _) (spares_pure _)
  case udpInUdp =>
    unfold sendmmsgUdp
    cases gather OutMsg.packet msgv with
    | none => exact spares_pure _
    | some iov => exact .bind (spares_op (by trivial)) fun _ => spares_op (by trivial)
  all_goals exact spares_pure _

theorem spares_fwdB : Spares files (fwdB fd bufs) := by
  refine .bind (spares_op trivial) fun r => .ite ?_ ?_
  · refine .bind (spares_sendmmsg _) fun res => .bind (spares_fwdResult res) fun _ => spares_pure _
  · exact .bind (spares_fwdResult _) fun _ => spares_pure _

theorem spares_taskIoYielder (type : HevTaskYieldType) : Spares files (taskIoYielder type) := by
  have hyield : Spares files (hevSocks5TaskIoYielder type) := by
    cases type with
    | yield => exact .bind (spares_op trivial) fun _ => spares_pure _
    | waitio =>
      refine .bind (spares_op trivial) fun self => .ite ?_ ?_
      · exact .bind (spares_op trivial) fun _ => spares_pure _
      · exact .bind (spares_op trivial) fun _ => .ite (spares_pure _) (spares_pure _)
  have hstop : Spares files (do hevSocks5SetTimeout 0; return (-1 : Int)) :=
    .bind (spares_hevSocks5SetTimeout 0) fun _ => spares_pure _
  refine .bind (spares_op trivial) fun self => .ite ?_ hyield
  refine .bind (spares_op trivial) fun res => .ite hstop (.ite ?_ hyield)
  exact .bind (spares_op trivial) fun e => .ite hstop hyield

theorem spares_splicerLoop {rounds : Nat} {resF resB : Int} {bind : Bool} {bufsF bufsB : List Mem} :
    Spares files (splicerLoop fd rounds resF resB bind bufsF bufsB) := by
  induction rounds generalizing resF resB bind bufsF bufsB with
  | zero => exact spares_pure _
  | succ rounds ih =>
    unfold splicerLoop
    refine .bind (.ite (spares_fwdF _) (spares_pure _)) fun rF => ?_
    refine .bind (.ite spares_fwdB (spares_pure _)) fun rB => ?_
    dsimp only
    cases yieldType rF.1 rB.1 with
    | none => exact spares_pure _
    | some type => exact .bind (spares_taskIoYielder type) fun _ => .ite (spares_pure _) ih

theorem spares_splicer {rounds : Nat} : Spares files (splicer fd rounds) := by
  have hset : ∀ {α : Type} {x : SysM α}, x.Only Op.Sets → Spares files x := by
    intro α x hx
    refine spares_of_mild (hx.mono ?_)
    intro β o ho
    cases o <;> first | exact trivial | exact ho.elim
  refine .bind (hset ((only_op _).2 trivial)) fun num => ?_
  refine .bind (hset ((only_op _).2 trivial)) fun buf => ?_
  cases buf with
  | none => exact spares_pure _
  | some buf =>
    refine .bind (hset ((only_op _).2 (by trivial))) fun fdA => ?_
    refine .bind (hset only_modOrAddFd) fun _ => ?_
    refine .bind (hset only_addOrModFd) fun _ => .bind spares_splicerLoop fun _ => spares_pure _

end HevSocks5UDP

/-- **What the splicer does** is what the call of a splicer may do. -/
theorem files_of_splicer {w w' : Files} {fd res : Int} {rounds : Nat} (hw : w.Sound)
    (h : Returns files (HevSocks5UDP.splicer fd rounds) w res w') :
    files w (.udpSplice fd) () w' :=
  (HevSocks5UDP.spares_splicer w hw).returns h

end HevSocks5
