/-
  The request, the reply and the relay of a run.

  A run makes at most one reply.  A reply of success follows a login and a
  complete request for one of the three commands, whose sockets are open; only
  behind such a reply that was sent the server relays.  A run that has received
  the head of a request makes exactly one reply, and ends with -1 if the reply
  is not success (`reply_agrees`).
-/
import HevSocks5.ServerCalls
import HevSocks5.Wire

namespace HevSocks5

open Interact Sys HevSocks5Server

/-- A receive call that has got all octets it was to get says so. -/
def Told {β : Type} (o : Op β) (b : β) : Prop :=
  match o with
  | .recv _ n _ => 0 < n → b.data.length = n → b.res = n
  | _ => True

def toldHost : Env Op Host := fun w _ o b w' => host w o b w' ∧ Told o b

/-! ## What is to be shown -/

/-- What the server sends as a reply. -/
def replyOctets (rep : HevSocks5ResRep) (addr : SockAddrIn6) : List Octet :=
  [version5, rep.octet, 0] ++ addr.octets

/-- The type of a server that serves the command. -/
def typeOf (cmd : Octet) : Option HevSocks5Type :=
  if cmd = reqCmdConnect then some .tcp
  else if cmd = reqCmdUdpAsc then some .udpInUdp
  else if cmd = reqCmdFwdUdp then some .udpInTcp
  else none

namespace Host

/-- The replies; the messages of the authentication stage have two octets. -/
def replies (w : Host) : List (List Octet × Int) := w.sends.filter fun s => 2 < s.1.length

/-- The type and the sockets are the ones of the command, and the relay socket of an association
    is bound to the address. -/
structure Acquired (w : Host) (cmd : Octet) (addr : SockAddrIn6) : Prop where
  type : typeOf cmd = some w.self.type
  fst : w.server.fds.1 ∈ w.opened
  snd : cmd = reqCmdUdpAsc → w.server.fds.2 ∈ w.opened ∧ w.name w.server.fds.2 = some addr

/-- **The request is served**: behind a login, in which `sends` were sent, a complete request was
    received, and what it needs is acquired. -/
def Served (w₀ w : Host) (sends : List (List Octet × Int)) (addr : SockAddrIn6) : Prop :=
  ∃ (login : List Octet) (cmd rsv : Octet) (dest : Endpoint), Login w₀ w login sends ∧
    w.read = login ++ requestOctets cmd rsv dest ∧ w.Acquired cmd addr

/-- There is exactly one reply, the last that was sent; one of success for a request that is
    served. -/
def Replied (w₀ w : Host) (rep : HevSocks5ResRep) (addr : SockAddrIn6) (res : Int) : Prop :=
  ∃ sends, w.sends = sends ++ [(replyOctets rep addr, res)] ∧
    w.replies = [(replyOctets rep addr, res)] ∧ (rep = .succ → w₀.Served w sends addr)

/-- The replies so far and the relay. -/
structure Agrees (w₀ w : Host) : Prop where
  reply : w.replies = [] ∨ ∃ rep addr res, w₀.Replied w rep addr res
  relay : "socks5 server service" ∈ w.entered → ∃ addr res, w₀.Replied w .succ addr res ∧ 0 < res
  cmd : w.undef = false

/-- The end of a run that has read a request. -/
def Concludes (w₀ w : Host) (ret : Int) : Prop :=
  "socks5 server read request" ∈ w.entered → ∀ login sends, Login w₀ w login sends →
    login <+: w.read → login.length + 5 ≤ w.read.length →
      ∃ rep addr res, w₀.Replied w rep addr res ∧
        (rep ≠ .succ → ret = -1 ∧ "socks5 server service" ∉ w.entered)

/-- A server of which nothing was run so far. -/
structure Fresh (w : Host) : Prop where
  entered : w.entered = []
  read : w.read = []
  sends : w.sends = []
  undef : w.undef = false

end Host

/-! ## Before the reply -/

/-- The functions that are entered behind the reply, and behind the authentication stage. -/
def behindReply : List String := ["socks5 server service"]

def behindAuth : List String := "socks5 server read request" :: behindReply

/-- Calls that neither answer the client nor enter one of these functions. -/
def Early (late : List String) {β : Type} : Op β → Prop
  | .logD msg => msg ∉ late
  | .send _ data => data.length = 2
  | .undefCmd => False
  | _ => True

/-- Nothing has happened but such calls. -/
structure Host.Unanswered (late : List String) (w : Host) : Prop where
  entered : ∀ f ∈ late, f ∉ w.entered
  replies : w.replies = []
  undef : w.undef = false

section
variable {late : List String} {w w₀ w' : Host}

theorem Host.Fresh.unanswered (h : w.Fresh) : w.Unanswered late :=
  ⟨by simp [h.entered], by simp [Host.replies, h.sends], h.undef⟩

theorem Host.Unanswered.mono {late' : List String} (h : w.Unanswered late) (hsub : late' ⊆ late) :
    w.Unanswered late' :=
  ⟨fun f hf => h.entered f (hsub hf), h.replies, h.undef⟩

theorem Host.Unanswered.agrees (h : w.Unanswered late) (hsub : behindReply ⊆ late) :
    w₀.Agrees w :=
  ⟨.inl h.replies, fun hmem => absurd hmem (h.entered _ (hsub (by simp [behindReply]))), h.undef⟩

theorem Host.Unanswered.step {β : Type} {o : Op β} {b : β} (h : w.Unanswered late)
    (ho : Early late o) (he : host w o b w') : w'.Unanswered late := by
  have hsame : w'.entered = w.entered → w'.sends = w.sends → w'.undef = w.undef →
      w'.Unanswered late := by
    intro hentered hsends hundef
    exact ⟨hentered ▸ h.entered, (congrArg _ hsends).trans h.replies, hundef.trans h.undef⟩
  cases o
  case logD msg =>
    obtain rfl := he
    refine ⟨fun f hf hmem => ?_, h.replies, h.undef⟩
    rcases List.mem_append.1 hmem with hmem | hmem
    · exact h.entered f hf hmem
    · obtain rfl := List.mem_singleton.1 hmem
      exact ho hf
  case send fd data =>
    obtain ⟨auth, hv, rfl⟩ := he
    have hlen : data.length = 2 := ho
    refine ⟨h.entered, ?_, h.undef⟩
    rw [Host.replies, List.filter_append, show w.sends.filter _ = [] from h.replies]
    simp [hlen]
  case undefCmd => exact ho.elim
  all_goals
    obtain ⟨hentered, hsends, hundef⟩ := (host_changes he).unrecorded (by trivial)
    exact hsame hentered hsends hundef

/-- A program of such calls. -/
theorem always_early {α : Type} {x : SysM α} (hx : x.Only (Early late))
    (hsub : behindReply ⊆ late) (h : w.Unanswered late) :
    Always toldHost w₀.Agrees x w fun _ w' => w'.Unanswered late := by
  refine hx.always ?_ h
  intro w₁ w₂ β o b ho hw he
  have h₂ := hw.step ho he.1
  exact ⟨h₂.agrees hsub, h₂⟩

end

/-! ## The authentication stage -/

theorem early_of_reads {late : List String} {msg : String} (hmsg : msg ∉ late) {β : Type}
    {o : Op β} (h : o.Reads msg) : Early late o := by
  cases o <;> first | exact trivial | exact h.elim | exact h ▸ hmsg

/-- The messages of the authentication stage have two octets. -/
theorem early_of_writes {late : List String} {msg : String} (hmsg : msg ∉ late) {a b : Octet}
    {β : Type} {o : Op β} (h : o.Writes msg [a, b]) : Early late o := by
  cases o <;> first | exact trivial | exact h.elim | skip
  case logD => exact h ▸ hmsg
  case send => exact congrArg List.length h

theorem early_auth : HevSocks5Server.auth.Only (Early behindAuth) := by
  refine .bind (reads_readAuthMethod.mono (early_of_reads (by decide))) fun method => ?_
  refine .bind ((writes_writeAuthMethod method).mono (early_of_writes (by decide))) fun _ => ?_
  refine .ite (only_pure _) (.ite (only_pure _) (.ite ?_ (only_pure _)))
  have huser : readAuthUser.Only (Early behindAuth) := by
    refine only_readAuthUser.mono ?_
    rintro β o (h | h)
    · exact early_of_reads (by decide) h
    · cases o <;> first | exact trivial | exact h.elim
  refine .bind huser fun res => ?_
  refine .bind ((writes_writeAuthUser res).mono (early_of_writes (by decide))) fun _ => ?_
  exact .ite (only_pure _) (only_pure _)

/-! ## The request -/

theorem early_readRequest (rep : HevSocks5ResRep) (addr : SockAddrIn6) :
    (readRequest rep addr).Only (Early behindReply) := by
  refine (only_readRequest rep addr).mono ?_
  rintro β o (h | h)
  · exact early_of_reads (by decide) h
  · cases o <;> first | exact trivial | exact h.elim

theorem talk_hevSocks5AddrIntoSockaddr6 (addr : Mem) (saddr : SockAddrIn6)
    (family : HevSocks5AddrFamily) (w : Host) :
    Post host (hevSocks5AddrIntoSockaddr6 addr saddr family) w fun _ w' => w.Talk [] [] w' := by
  refine (only_hevSocks5AddrIntoSockaddr6 addr saddr family).always ?_ .refl
  intro w₁ w₂ β o b ho h he
  refine ⟨trivial, h.silent he ?_⟩
  cases o <;> first | exact trivial | exact ho.elim

/-- What `read_request` tells about the octets that it has received. -/
structure HevSocks5Server.Request.Reads (req : Request) (read : List Octet) : Prop where
  head : req.res < 0 → read.length < 5
  /-- without an error, there is a command, and the request is complete -/
  body : req.rep = .succ → 0 ≤ req.res → ∃ cmd rsv dest, req.cmd = some cmd ∧
    read = requestOctets cmd rsv dest

theorem HevSocks5Server.Request.reads_refused {rep : HevSocks5ResRep} {addr : SockAddrIn6}
    {read : List Octet} (h : rep ≠ .succ) : (⟨0, none, rep, addr⟩ : Request).Reads read :=
  ⟨fun hneg => absurd hneg (by simp), fun hsucc => absurd hsucc h⟩

theorem post_readRequest (addr : SockAddrIn6) (w : Host) :
    Post toldHost (readRequest .succ addr) w fun req w' => ∃ read,
      w.Talk read [] w' ∧ req.Reads read := by
  simp only [readRequest, always_bind, always_op]
  rintro _ w₁ ⟨he, -⟩
  have h₁ := Host.Talk.refl.silent he trivial
  refine ⟨trivial, ?_⟩
  rintro self w₂ ⟨⟨-, rfl⟩, -⟩
  refine ⟨trivial, ?_⟩
  rintro req w₃ ⟨he, htold⟩
  obtain ⟨h₂, hlen⟩ := h₁.recv he
  obtain ⟨hle, -⟩ := he
  refine ⟨trivial, ?_⟩
  rw [always_ite]
  split
  · rename_i hres
    refine ⟨_, h₂, fun _ => ?_, fun _ h => absurd h (by simp)⟩
    have hne : req.data.length ≠ 5 := fun h => hres (htold (by decide) h)
    simp only [List.nil_append]
    omega
  rename_i hres
  obtain ⟨ver, cmd, rsv, atype, second, hdata⟩ : ∃ ver cmd rsv atype second,
      req.data = [ver, cmd, rsv, atype, second] := by
    have h5 := hlen (not_not.1 hres)
    generalize req.data = l at h5
    rcases l with _ | ⟨a, _ | ⟨b, _ | ⟨c, _ | ⟨d, _ | ⟨e, _ | ⟨f, l⟩⟩⟩⟩⟩⟩ <;>
      simp at h5
    exact ⟨a, b, c, d, e, rfl⟩
  rw [hdata] at h₂ ⊢
  simp only [List.getD_cons_zero, List.getD_cons_succ, always_ite, always_pure]
  split
  · exact ⟨_, h₂, Request.reads_refused (by decide)⟩
  rename_i hver
  obtain rfl : ver = version5 := not_not.1 hver
  cases hrest : addrRest atype second with
  | none => exact ⟨_, h₂, Request.reads_refused (by decide)⟩
  | some addrlen =>
    simp only [always_bind, always_op, always_ite, always_pure]
    rintro r w₄ ⟨he, -⟩
    obtain ⟨h₃, hlen'⟩ := h₂.recv he
    refine ⟨trivial, ?_⟩
    split
    · exact ⟨_, h₃, Request.reads_refused (by decide)⟩
    rename_i hr
    rintro self' w₅ ⟨⟨-, rfl⟩, -⟩
    refine ⟨trivial, ?_⟩
    refine ((talk_hevSocks5AddrIntoSockaddr6 _ _ _ _).env And.left).mono ?_
    rintro ⟨res, saddr, family⟩ w₆ h₆
    have h₄ := h₃.quiet h₆
    split
    · exact ⟨_, h₄, Request.reads_refused (by decide)⟩
    rintro self'' w₇ ⟨⟨-, rfl⟩, -⟩
    refine ⟨trivial, ?_⟩
    rintro _ w₈ ⟨he, -⟩
    refine ⟨trivial, _, h₄.silent he trivial, fun h => absurd h (by simp), fun _ _ => ?_⟩
    obtain ⟨dest, hdest⟩ : ∃ e : Endpoint, e.octets = atype :: second :: r.data := by
      refine Endpoint.exists_octets_eq ?_
      rw [Endpoint.addrRest_eq_some.1 hrest, ← hlen' (not_not.1 hr)]
      simp
      omega
    refine ⟨cmd, rsv, dest, rfl, ?_⟩
    rw [requestOctets, hdest]
    simp

/-! ## The sockets -/

/-- Calls about open sockets and timeouts. -/
def Handles {β : Type} : Op β → Prop
  | .base | .setBase _ | .logD _ | .addFd _ | .modFd _ | .delFd _ => True
  | .setsockopt .. | .binder .. | .socketConnect .. | .getsockname _ => True
  | .connectTimeout | .tcpTimeout | .udpTimeout => True
  | _ => False

section
variable {w w' : Host}

theorem same_of_handles {β : Type} {o : Op β} {b : β} (ho : Handles o) (he : host w o b w') :
    w.Same w' := by
  cases o <;> first | exact ho.elim | exact same_of_idle (by trivial) he | skip
  case getsockname =>
    obtain ⟨-, rfl⟩ := he
    exact .refl
  all_goals
    obtain ⟨auth, hv, rfl⟩ := he
    exact ⟨rfl, rfl, rfl, rfl, rfl, fun _ => hv⟩

theorem post_handles {α : Type} {x : SysM α} (hx : x.Only Handles) (w : Host) :
    Post host x w fun _ w' => w.Same w' := by
  refine hx.always ?_ .refl
  intro w₁ w₂ β o b ho hw he
  exact ⟨trivial, hw.trans (same_of_handles ho he)⟩

theorem post_drop (fd : Int) {α : Type} {a : α} {Q : α → Host → Prop} (h : ∀ w', Q a w') :
    Post host (do drop fd; return a) w Q :=
  (always_of_step (I := fun _ => True) (fun _ _ => ⟨trivial, trivial⟩) _ trivial).bind
    fun _ w' _ => h w'

/-- A new socket is open, and the others stay open. -/
theorem post_hevSocks5Socket (type : SockType) (w : Host) :
    Post host (hevSocks5Socket type) w fun fd w' => fd < 0 ∨
      fd ∈ w'.opened ∧ w.opened ⊆ w'.opened ∧ w'.server = w.server := by
  simp only [hevSocks5Socket, always_bind, always_op]
  rintro fd w₁ he
  refine ⟨trivial, ?_⟩
  rw [always_ite]
  split
  · exact .inl (by simp)
  rename_i hfd
  simp only [host, if_neg hfd] at he
  obtain ⟨-, rfl⟩ := he
  simp only [always_bind, always_op, always_ite, always_pure]
  rintro res w₂ he
  have h₂ := same_of_handles (by trivial) he
  refine ⟨trivial, ?_⟩
  split
  · exact fun _ _ _ => ⟨trivial, .inl (by simp)⟩
  have hadd : (addOrModFd fd).Only Handles := .bind ((only_op _).2 (by trivial)) fun _ =>
    .ite (.bind ((only_op _).2 (by trivial)) fun _ => only_pure _) (only_pure _)
  refine (post_handles hadd w₂).mono ?_
  rintro _ w₃ h₃
  have hopened : ∀ {w'}, w₂.Same w' → fd ∈ w'.opened ∧ w.opened ⊆ w'.opened ∧
      w'.server = w.server := by
    intro w' h'
    have h := h₂.trans h'
    rw [h.opened, h.server]
    exact ⟨List.mem_cons_self, List.subset_cons_self _ _, rfl⟩
  split
  · rintro res' w₄ he
    exact ⟨trivial, .inr (hopened (h₃.trans (same_of_handles (by trivial) he)))⟩
  · exact .inr (hopened h₃)

theorem post_connect (addr : SockAddrIn6) (w : Host) :
    Post host (HevSocks5Server.connect addr) w fun res w' =>
      res < 0 ∨ w'.server.fds.1 ∈ w'.opened := by
  simp only [HevSocks5Server.connect]
  refine (post_handles ((only_op _).2 (by trivial)) w).bind fun _ w₁ h₁ => ?_
  refine (post_hevSocks5Socket .stream w₁).bind fun fd w₂ hfd => ?_
  rw [always_ite]
  split
  · exact .inl (by simp)
  rename_i hneg
  obtain ⟨hfd, -, -⟩ := hfd.resolve_left hneg
  refine (post_handles ((only_op _).2 (by trivial)) w₂).bind fun res w₃ h₃ => ?_
  rw [always_ite]
  split
  · exact post_drop fd fun _ => .inl (by simp)
  have htimeout : ∀ t : Int, (hevSocks5SetTimeout t).Only Handles := fun t =>
    .bind ((only_op _).2 (by trivial)) fun _ => .ite ((only_op _).2 (by trivial)) (only_pure _)
  refine (post_handles ((only_op _).2 (by trivial)) w₃).bind fun t w₄ h₄ => ?_
  refine (post_handles (htimeout t) w₄).bind fun _ w₅ h₅ => ?_
  refine (post_handles ((only_op _).2 (by trivial)) w₅).bind fun res w₆ h₆ => ?_
  rw [always_ite]
  split
  · exact post_drop fd fun _ => .inl (by simp)
  refine (post_handles ((only_op _).2 (by trivial)) w₆).bind fun t w₇ h₇ => ?_
  refine (post_handles (htimeout t) w₇).bind fun _ w₈ h₈ => ?_
  have h := (((((h₃.trans h₄).trans h₅).trans h₆).trans h₇).trans h₈)
  simp only [always_bind, always_op, always_pure]
  rintro self _ ⟨-, rfl⟩
  refine ⟨trivial, ?_⟩
  rintro _ _ rfl
  exact ⟨trivial, .inr (h.opened ▸ hfd)⟩

/-- The relay socket is bound to what is reported. -/
theorem post_udpBind (sock : Int) (src : SockAddrIn6) (w : Host) :
    Post host (udpBind sock src) w fun r w' => r.1 < 0 ∨
      w'.name sock = some r.2 ∧ w'.opened = w.opened ∧ w'.server = w.server := by
  simp only [udpBind]
  refine (post_handles ((only_op _).2 (by trivial)) w).bind fun _ w₁ h₁ => ?_
  refine (post_handles ((only_op _).2 (by trivial)) w₁).bind fun self w₂ h₂ => ?_
  refine (post_handles ((only_op _).2 (by trivial)) w₂).bind fun r w₃ h₃ => ?_
  have h := (h₁.trans h₂).trans h₃
  rw [always_ite]
  split
  · exact .inl (by simp)
  simp only [always_bind, always_op, always_ite, always_pure]
  rintro res w₄ he
  refine ⟨trivial, ?_⟩
  split
  · exact .inl (by simp)
  rename_i hres
  simp only [host, if_neg hres] at he
  obtain ⟨port, rfl⟩ := he
  rintro r' _ ⟨hname, rfl⟩
  refine ⟨trivial, ?_⟩
  split
  · exact .inl (by simp)
  rename_i hres'
  have hname := hname (by omega) _ (by simp; rfl)
  exact .inr ⟨by simp [hname], h.opened, h.server⟩

theorem post_bindRelay (addr : SockAddrIn6) (w : Host) :
    Post host (bindRelay addr) w fun r w' => r.1 < 0 ∨
      w'.server.fds.2 ∈ w'.opened ∧ w'.name w'.server.fds.2 = some r.2 ∧
        w'.server.fds.1 = w.server.fds.1 ∧ w.opened ⊆ w'.opened := by
  simp only [bindRelay]
  refine (post_hevSocks5Socket .dgram w).bind fun fd w₁ hfd => ?_
  rw [always_ite]
  split
  · exact .inl (by simp)
  rename_i hneg
  obtain ⟨hfd, hsub, hserver⟩ := hfd.resolve_left hneg
  refine (post_handles ((only_op _).2 (by trivial)) w₁).bind fun res w₂ h₂ => ?_
  rw [always_ite]
  split
  · exact post_drop fd fun _ => .inl (by simp)
  refine (post_udpBind fd addr w₂).bind fun r w₃ hr => ?_
  rw [always_ite]
  split
  · exact post_drop fd fun _ => .inl (by simp)
  rename_i hr0
  obtain ⟨hname, hopened, hserver'⟩ := hr.resolve_left hr0
  simp only [always_bind, always_op, always_pure]
  rintro self _ ⟨rfl, rfl⟩
  refine ⟨trivial, ?_⟩
  rintro _ _ rfl
  refine ⟨trivial, .inr ⟨?_, hname, ?_, ?_⟩⟩
  · exact hopened ▸ h₂.opened ▸ hfd
  · exact congrArg (·.fds.1) ((hserver'.trans h₂.server).trans hserver)
  · exact hopened ▸ h₂.opened ▸ hsub

theorem post_bind (addr : Option SockAddrIn6) (w : Host) :
    Post host (HevSocks5Server.bind addr) w fun r w' => r.1 < 0 ∨
      w'.server.fds.1 ∈ w'.opened ∧ ∀ a ∈ addr, ∃ b ∈ r.2,
        w'.server.fds.2 ∈ w'.opened ∧ w'.name w'.server.fds.2 = some b := by
  simp only [HevSocks5Server.bind]
  refine (post_handles ((only_op _).2 (by trivial)) w).bind fun _ w₁ h₁ => ?_
  refine (post_hevSocks5Socket .dgram w₁).bind fun fd w₂ hfd => ?_
  rw [always_ite]
  split
  · exact .inl (by simp)
  rename_i hneg
  obtain ⟨hfd, -, -⟩ := hfd.resolve_left hneg
  simp only [always_bind, always_op]
  rintro self _ ⟨-, rfl⟩
  refine ⟨trivial, ?_⟩
  rintro _ w₃ rfl
  refine ⟨trivial, ?_⟩
  cases addr with
  | none => exact .inr ⟨hfd, by simp⟩
  | some addr =>
    refine (post_bindRelay addr _).bind fun r w₄ hr => ?_
    refine hr.imp id ?_
    rintro ⟨hopened, hname, hfst, hsub⟩
    refine ⟨?_, fun a _ => ⟨r.2, rfl, hopened, hname⟩⟩
    rw [hfst]
    exact hsub hfd

theorem post_setType (type : HevSocks5Type) (w : Host) :
    Post host (setType type) w fun _ w' => w.Same w' ∧ w'.self.type = type := by
  simp only [setType, always_bind, always_op]
  rintro self _ ⟨rfl, rfl⟩
  refine ⟨trivial, ?_⟩
  rintro _ _ rfl
  exact ⟨trivial, ⟨rfl, rfl, rfl, rfl, rfl, id⟩, rfl⟩

/-- **A command is executed** with success only if what it needs is acquired. -/
theorem post_execute (cmd : Octet) (addr : SockAddrIn6) (w : Host) :
    Post host (execute cmd addr) w fun r w' => r.1 = .succ → w'.Acquired cmd r.2 := by
  unfold execute
  by_cases hconnect : cmd = reqCmdConnect
  · rw [if_pos hconnect]
    refine (post_connect addr w).bind fun res w₁ hres => ?_
    refine (post_setType .tcp w₁).bind fun _ w₂ h₂ => ?_
    obtain ⟨h₂, htype⟩ := h₂
    intro hsucc
    have hfst : w₁.server.fds.1 ∈ w₁.opened := by
      refine hres.resolve_left fun hneg => ?_
      simp [hneg] at hsucc
    refine ⟨?_, h₂.server ▸ h₂.opened ▸ hfst, fun h => ?_⟩
    · rw [htype, typeOf, if_pos hconnect]
    · exact absurd (hconnect.symm.trans h) (by decide)
  rw [if_neg hconnect]
  by_cases hudp : cmd = reqCmdUdpAsc
  · rw [if_pos hudp]
    refine (post_bind (some addr) w).bind fun r w₁ hr => ?_
    refine (post_setType .udpInUdp w₁).bind fun _ w₂ h₂ => ?_
    obtain ⟨h₂, htype⟩ := h₂
    intro hsucc
    obtain ⟨hfst, hsnd⟩ := hr.resolve_left fun hneg => by simp [hneg] at hsucc
    obtain ⟨b, hb, hopened, hname⟩ := hsnd addr rfl
    refine ⟨?_, h₂.server ▸ h₂.opened ▸ hfst, fun _ => ?_⟩
    · rw [htype, typeOf, if_neg hconnect, if_pos hudp]
    · rw [h₂.server, h₂.opened, h₂.name, hname, show r.2 = some b from hb]
      exact ⟨hopened, rfl⟩
  rw [if_neg hudp]
  by_cases hfwd : cmd = reqCmdFwdUdp
  · rw [if_pos hfwd]
    refine (post_bind none w).bind fun r w₁ hr => ?_
    refine (post_setType .udpInTcp w₁).bind fun _ w₂ h₂ => ?_
    obtain ⟨h₂, htype⟩ := h₂
    intro hsucc
    obtain ⟨hfst, -⟩ := hr.resolve_left fun hneg => by simp [hneg] at hsucc
    refine ⟨?_, h₂.server ▸ h₂.opened ▸ hfst, fun h => absurd h hudp⟩
    rw [htype, typeOf, if_neg hconnect, if_neg hudp, if_pos hfwd]
  · rw [if_neg hfwd]
    exact fun hsucc => absurd hsucc (by simp)

end

/-- The calls of the commands. -/
def Local {β : Type} : Op β → Prop
  | .base | .setBase _ | .server | .setServer _ | .addFd _ | .modFd _ | .delFd _ => True
  | .logD msg => msg ∉ behindReply
  | .socket _ | .setsockopt .. | .close _ | .bind .. | .getsockname _ => True
  | .binder .. | .socketConnect .. | .connectTimeout | .tcpTimeout => True
  | _ => False

theorem Local.silent {β : Type} {o : Op β} (h : Local o) : Silent o := by
  cases o <;> first | exact trivial | exact h.elim

theorem Local.early {β : Type} {o : Op β} (h : Local o) : Early behindReply o := by
  cases o <;> first | exact trivial | exact h | exact h.elim

theorem local_of_opens {msg : String} (hmsg : msg ∉ behindReply) {β : Type} {o : Op β}
    (h : o.Opens msg) : Local o := by
  cases o <;> first | exact trivial | exact h.elim | exact h ▸ hmsg

theorem local_hevSocks5Socket (type : SockType) : (hevSocks5Socket type).Only Local :=
  (opens_hevSocks5Socket _ type).mono (local_of_opens (show "" ∉ behindReply by decide))

theorem local_drop (fd : Int) : (drop fd).Only Local :=
  (opens_drop _ fd).mono (local_of_opens (show "" ∉ behindReply by decide))

theorem local_hevSocks5SetTimeout (timeout : Int) : (hevSocks5SetTimeout timeout).Only Local :=
  (opens_hevSocks5SetTimeout _ timeout).mono (local_of_opens (show "" ∉ behindReply by decide))

theorem local_connect (addr : SockAddrIn6) : (HevSocks5Server.connect addr).Only Local := by
  refine .bind ((only_op _).2 (show _ ∉ behindReply by decide)) fun _ => ?_
  refine .bind (local_hevSocks5Socket _) fun fd => .ite (only_pure _) ?_
  refine .bind ((only_op _).2 trivial) fun _ => .ite ?_ ?_
  · exact .bind (local_drop fd) fun _ => only_pure _
  refine .bind ((only_op _).2 trivial) fun _ => .bind (local_hevSocks5SetTimeout _) fun _ => ?_
  refine .bind ((only_op _).2 trivial) fun _ => .ite ?_ ?_
  · exact .bind (local_drop fd) fun _ => only_pure _
  refine .bind ((only_op _).2 trivial) fun _ => .bind (local_hevSocks5SetTimeout _) fun _ => ?_
  exact .bind ((only_op _).2 trivial) fun _ => .bind ((only_op _).2 trivial) fun _ => only_pure _

theorem local_udpBind (sock : Int) (src : SockAddrIn6) : (udpBind sock src).Only Local :=
  (opens_udpBind sock src).mono (local_of_opens (by decide))

theorem local_bindRelay (addr : SockAddrIn6) : (bindRelay addr).Only Local := by
  refine .bind (local_hevSocks5Socket _) fun fd => .ite (only_pure _) ?_
  refine .bind ((only_op _).2 trivial) fun _ => .ite ?_ ?_
  · exact .bind (local_drop fd) fun _ => only_pure _
  refine .bind (local_udpBind _ _) fun _ => .ite ?_ ?_
  · exact .bind (local_drop fd) fun _ => only_pure _
  · exact .bind ((only_op _).2 trivial) fun _ => .bind ((only_op _).2 trivial) fun _ => only_pure _

theorem local_bind (addr : Option SockAddrIn6) : (HevSocks5Server.bind addr).Only Local := by
  refine .bind ((only_op _).2 (show _ ∉ behindReply by decide)) fun _ => ?_
  refine .bind (local_hevSocks5Socket _) fun fd => .ite (only_pure _) ?_
  refine .bind ((only_op _).2 trivial) fun _ => .bind ((only_op _).2 trivial) fun _ => ?_
  cases addr with
  | none => exact only_pure _
  | some addr => exact .bind (local_bindRelay addr) fun _ => only_pure _

theorem local_setType (type : HevSocks5Type) : (setType type).Only Local :=
  .bind ((only_op _).2 trivial) fun _ => (only_op _).2 trivial

theorem local_execute (cmd : Octet) (addr : SockAddrIn6) : (execute cmd addr).Only Local := by
  refine .ite ?_ (.ite ?_ (.ite ?_ (only_pure _)))
  · exact .bind (local_connect addr) fun _ => .bind (local_setType _) fun _ => only_pure _
  · exact .bind (local_bind _) fun _ => .bind (local_setType _) fun _ => only_pure _
  · exact .bind (local_bind _) fun _ => .bind (local_setType _) fun _ => only_pure _

theorem talk_of_local {α : Type} {x : SysM α} (hx : x.Only Local) (w : Host) :
    Post toldHost x w fun _ w' => w.Talk [] [] w' := by
  refine hx.always ?_ .refl
  intro w₁ w₂ β o b ho h he
  exact ⟨trivial, h.silent he.1 ho.silent⟩

/-! ## The run -/

theorem Login.mono {w₀ w w' : Host} {login read : List Octet}
    {sends sends' : List (List Octet × Int)} (h : Login w₀ w login sends)
    (ht : w.Talk read sends' w') : Login w₀ w' login sends := by
  cases h with
  | none hmethod hlen hmem hres => exact .none hmethod hlen hmem hres
  | user hmethod hlen hmem hres hname hpass hmatch =>
    exact .user hmethod hlen hmem hres hname hpass fun hv => ht.matched (hmatch hv)

/-- The octets of a login are determined by what was received. -/
theorem Login.append_inj {w₀ w : Host} {login login' r r' : List Octet}
    {sends sends' : List (List Octet × Int)} (h : Login w₀ w login sends)
    (h' : Login w₀ w login' sends') (heq : login ++ r = login' ++ r') : login = login' := by
  cases h with
  | none hmethod hlen =>
    cases h' with
    | none hmethod' hlen' =>
      obtain ⟨rfl, -⟩ := methodOctets_append_inj hlen hlen' heq
      rfl
    | user hmethod' => exact absurd (hmethod.symm.trans hmethod') (by decide)
  | user hmethod hlen _ _ hname hpass =>
    cases h' with
    | none hmethod' => exact absurd (hmethod'.symm.trans hmethod) (by decide)
    | user hmethod' hlen' _ _ hname' hpass' =>
      rw [List.append_assoc, List.append_assoc] at heq
      obtain ⟨hmethods, heq⟩ := methodOctets_append_inj hlen hlen' heq
      obtain ⟨hname, hpass, -⟩ := userOctets_append_inj hname hpass hname' hpass' heq
      rw [hmethods, hname, hpass]

namespace Host

/-- How a handshake ends. -/
inductive Outcome (w₀ w : Host) (ret : Int) : Prop
  /-- there is no login -/
  | rejected (hret : ret = -1) (h : w.Unanswered behindAuth)
  /-- there is no head of a request -/
  | short (hret : ret = -1) (h : w.Unanswered behindReply) {login read : List Octet}
      {sends : List (List Octet × Int)} (hlogin : Login w₀ w login sends)
      (hread : w.read = login ++ read) (hlen : read.length < 5)
  /-- there is one reply, and the handshake succeeds if that is a success and was sent -/
  | replied {rep : HevSocks5ResRep} {addr : SockAddrIn6} {res : Int}
      (h : w₀.Replied w rep addr res) (hservice : "socks5 server service" ∉ w.entered)
      (hundef : w.undef = false) (hret : ret = -1 ∨ rep = .succ ∧ 0 < res)

variable {w₀ w w' : Host} {ret : Int}

theorem Outcome.agrees (h : w₀.Outcome w ret) : w₀.Agrees w := by
  cases h with
  | rejected _ h => exact h.agrees (List.subset_cons_self _ _)
  | short _ h => exact h.agrees (List.Subset.refl _)
  | replied h hservice hundef =>
    exact ⟨.inr ⟨_, _, _, h⟩, fun hmem => absurd hmem hservice, hundef⟩

theorem Outcome.concludes (h : w₀.Outcome w ret) : w₀.Concludes w ret := by
  rintro hmem login sends hlogin ⟨tail, htail⟩ hlen
  cases h with
  | rejected _ h => exact absurd hmem (h.entered _ (by simp [behindAuth]))
  | short _ _ hlogin' hread hlen' =>
    obtain rfl := hlogin'.append_inj hlogin (hread.symm.trans htail.symm)
    rw [hread, List.length_append] at hlen
    omega
  | replied h hservice _ hret =>
    exact ⟨_, _, _, h, fun hrep => ⟨hret.resolve_right fun hs => hrep hs.1, hservice⟩⟩

/-- A request stays served while nothing is received and no socket is touched. -/
theorem Served.keep {sends sends' : List (List Octet × Int)} {addr : SockAddrIn6}
    (h : w₀.Served w sends addr) (ht : w.Talk [] sends' w') (hself : w'.self.type = w.self.type)
    (hserver : w'.server = w.server) (hopened : w'.opened = w.opened) (hname : w'.name = w.name) :
    w₀.Served w' sends addr := by
  obtain ⟨login, cmd, rsv, dest, hlogin, hread, hacq⟩ := h
  refine ⟨login, cmd, rsv, dest, hlogin.mono ht, ?_, hself ▸ hacq.type, ?_, ?_⟩
  · rw [ht.read_eq, hread, List.append_nil]
  · rw [hserver, hopened]
    exact hacq.fst
  · rw [hserver, hopened, hname]
    exact hacq.snd

end Host

theorem always_writeResponse {w₀ w : Host} {rep : HevSocks5ResRep} {addr : SockAddrIn6}
    (h : w.Unanswered behindReply) (hserved : rep = .succ → w₀.Served w w.sends addr) :
    Always toldHost w₀.Agrees (writeResponse rep addr) w fun ret w' =>
      w₀.Outcome w' (if ret < 0 ∨ rep ≠ .succ then -1 else 0) := by
  simp only [writeResponse, always_bind, always_op]
  rintro _ w₁ ⟨he, -⟩
  have hearly : Early behindReply (.logD "socks5 server write response" : Op Unit) :=
    show _ ∉ behindReply by decide
  have h₁ := h.step hearly he
  have ht₁ := Host.Talk.refl.silent he trivial
  obtain rfl := he
  refine ⟨h₁.agrees (List.Subset.refl _), ?_⟩
  rintro self _ ⟨⟨-, rfl⟩, -⟩
  refine ⟨h₁.agrees (List.Subset.refl _), ?_⟩
  rintro res w₂ ⟨he, -⟩
  have ht : w.Talk [] [(replyOctets rep addr, res)] w₂ :=
    ht₁.send he
  obtain ⟨auth, -, hw₂⟩ := he
  have hreplied : w₀.Replied w₂ rep addr res := by
    refine ⟨w.sends, ht.sends_eq, ?_, fun hsucc => (hserved hsucc).keep ht ?_ ?_ ?_ ?_⟩
    · rw [Host.replies, ht.sends_eq, List.filter_append, show w.sends.filter _ = [] from h.replies]
      simp [replyOctets]
    all_goals rw [hw₂]
  have hservice : "socks5 server service" ∉ w₂.entered := by
    rw [hw₂]
    exact h₁.entered _ (by simp [behindReply])
  have hundef : w₂.undef = false := by
    rw [hw₂]
    exact h.undef
  refine ⟨⟨.inr ⟨_, _, _, hreplied⟩, fun hmem => absurd hmem hservice, hundef⟩, ?_⟩
  rw [always_ite]
  split
  · exact .replied hreplied hservice hundef (.inl (by simp))
  · refine .replied hreplied hservice hundef ?_
    by_cases hrep : rep = .succ
    · exact .inr ⟨hrep, by omega⟩
    · exact .inl (by simp [hrep])

/-- What comes before the authentication stage. -/
theorem always_begin {w₀ w : Host} {α : Type} {x : SysM α} (hx : x.Only fun o => Idle o ∧
    Early behindAuth o) (h : w.Unanswered behindAuth) :
    Always toldHost w₀.Agrees x w fun _ w' => w'.Unanswered behindAuth ∧ w.Same w' :=
  (always_early (hx.mono And.right) (List.subset_cons_self _ _) h).and
    ((post_idle (hx.mono And.left) w).env And.left)

/-- The handshake behind the authentication stage. -/
theorem always_answer {w₀ w : Host} {login : List Octet} {sends : List (List Octet × Int)}
    (h : w.Unanswered behindReply) (hlogin : Login w₀ w login sends) (hread : w.read = login)
    (hsends : w.sends = sends) :
    Always toldHost w₀.Agrees (do
      let req ← readRequest .succ .zero
      if req.res < 0 then return -1
      else
        let (rep, addr) ← executeRequest req
        let res ← writeResponse rep addr
        if res < 0 ∨ rep ≠ .succ then return -1 else return 0) w
      fun ret w' => w₀.Outcome w' ret := by
  have hsub := List.Subset.refl behindReply
  refine ((always_early (early_readRequest .succ .zero) hsub h).and
    (post_readRequest .zero w)).bind ?_
  rintro req w₁ ⟨h₁, read, ht₁, hreq⟩
  have hlogin₁ := hlogin.mono ht₁
  have hread₁ : w₁.read = login ++ read := by rw [ht₁.read_eq, hread]
  rw [always_ite]
  split
  · rename_i hneg
    exact .short rfl h₁ hlogin₁ hread₁ (hreq.head hneg)
  rename_i hneg
  -- the command, or none if the request is refused
  have hexec : Always toldHost w₀.Agrees (executeRequest req) w₁ fun r w' =>
      w₁.Talk [] [] w' ∧ w'.Unanswered behindReply ∧ (r.1 = .succ → ∃ cmd rsv dest,
        read = requestOctets cmd rsv dest ∧ w'.Acquired cmd r.2) := by
    unfold executeRequest
    by_cases hrep : req.rep = .succ
    · obtain ⟨cmd, rsv, dest, hcmd, hoctets⟩ := hreq.body hrep (by omega)
      rw [if_pos hrep, hcmd]
      have hlocal := local_execute cmd req.addr
      have hpost := (talk_of_local hlocal w₁).and ((post_execute cmd req.addr w₁).env And.left)
      refine ((always_early (hlocal.mono Local.early) hsub h₁).and hpost).mono ?_
      rintro r w₂ ⟨h₂, ht₂, hacq⟩
      exact ⟨ht₂, h₂, fun hsucc => ⟨cmd, rsv, dest, hoctets, hacq hsucc⟩⟩
    · rw [if_neg hrep]
      exact ⟨.refl, h₁, fun hsucc => absurd hsucc hrep⟩
  refine hexec.bind ?_
  rintro ⟨rep, addr⟩ w₂ ⟨ht₂, h₂, hserved⟩
  refine (always_writeResponse h₂ fun hsucc => ?_).bind fun ret w₃ h₃ => ?_
  · obtain ⟨cmd, rsv, dest, rfl, hacq⟩ := hserved hsucc
    have hsends₂ : w₂.sends = sends := by
      rw [ht₂.sends_eq, ht₁.sends_eq, hsends, List.append_nil, List.append_nil]
    refine ⟨login, cmd, rsv, dest, hsends₂ ▸ hlogin₁.mono ht₂, ?_, hacq⟩
    rw [ht₂.read_eq, hread₁, List.append_nil]
  · rw [always_ite]
    split
    · rwa [if_pos ‹_›] at h₃
    · rwa [if_neg ‹_›] at h₃

theorem Login.of_same {w₀ w w' : Host} {login : List Octet} {sends : List (List Octet × Int)}
    (h : Login w w' login sends) (hs : w₀.Same w) : Login w₀ w' login sends := by
  have hmethod : w₀.server.method = w.server.method := by rw [hs.server]
  cases h with
  | none h hlen hmem hres => exact .none (hmethod.trans h) hlen hmem hres
  | user h hlen hmem hres hname hpass hmatch =>
    exact .user (hmethod.trans h) hlen hmem hres hname hpass fun hv => hmatch (hs.valid hv)

theorem always_handshake_agrees {w₀ w : Host} (h : w.Unanswered behindAuth) (hs : w₀.Same w)
    (hread : w₀.read = []) (hsends : w₀.sends = []) :
    Always toldHost w₀.Agrees handshake w fun ret w' => w₀.Outcome w' ret := by
  have hlog : (logD "socks5 server handshake").Only fun o => Idle o ∧ Early behindAuth o :=
    (only_op _).2 ⟨trivial, show _ ∉ behindAuth by decide⟩
  have htimeout : hevSocks5GetTcpTimeout.Only fun o => Idle o ∧ Early behindAuth o :=
    (only_op _).2 ⟨trivial, trivial⟩
  unfold handshake
  refine (always_begin hlog h).bind fun _ w₁ ⟨h₁, hs₁⟩ => ?_
  refine (always_begin htimeout h₁).bind fun timeout w₂ ⟨h₂, hs₂⟩ => ?_
  refine (always_begin ?_ h₂).bind fun _ w₃ ⟨h₃, hs₃⟩ => ?_
  · exact .bind ((only_op _).2 ⟨trivial, trivial⟩) fun _ =>
      .ite ((only_op _).2 ⟨trivial, trivial⟩) (only_pure _)
  have hsame := ((hs.trans hs₁).trans hs₂).trans hs₃
  refine ((always_early early_auth (List.subset_cons_self _ _) h₃).and
    ((post_auth w₃).env And.left)).bind ?_
  rintro res w₄ ⟨h₄, hres⟩
  rw [always_ite]
  split
  · exact .rejected rfl h₄
  rename_i hneg
  obtain ⟨login, sends, ht, hlogin⟩ := hres.resolve_left fun h => hneg (h ▸ by decide)
  refine always_answer (h₄.mono (List.subset_cons_self _ _)) (hlogin.of_same hsame) ?_ ?_
  · rw [ht.read_eq, hsame.read, hread, List.nil_append]
  · rw [ht.sends_eq, hsame.sends, hsends, List.nil_append]

/-! ## The relay -/

/-- Calls of the relay but for the fields of the object. -/
def Splices {β : Type} : Op β → Prop
  | .base | .server | .logD _ | .udpTimeout | .tcpSplice _ | .udpSplice _ => True
  | _ => False

/-- The reply has been sent, and the request stays served. -/
structure Host.Relaying (w₀ w : Host) : Prop where
  reply : ∃ addr res, w₀.Replied w .succ addr res ∧ 0 < res
  undef : w.undef = false

section
variable {w₀ w w' : Host}

theorem Host.Relaying.agrees (h : w₀.Relaying w) : w₀.Agrees w := by
  obtain ⟨addr, res, hr⟩ := h.reply
  exact ⟨.inr ⟨.succ, addr, res, hr.1⟩, fun _ => ⟨addr, res, hr⟩, h.undef⟩

theorem Host.Relaying.concludes (h : w₀.Relaying w) {ret : Int} : w₀.Concludes w ret := by
  obtain ⟨addr, res, hr, -⟩ := h.reply
  exact fun _ _ _ _ _ _ => ⟨.succ, addr, res, hr, fun hne => absurd rfl hne⟩

theorem Host.Outcome.failed {ret : Int} (h : w₀.Outcome w ret) : w₀.Outcome w (-1) := by
  cases h with
  | rejected _ h => exact .rejected rfl h
  | short _ h hlogin hread hlen => exact .short rfl h hlogin hread hlen
  | replied h hservice hundef => exact .replied h hservice hundef (.inl rfl)

theorem Host.Outcome.relaying {ret : Int} (h : w₀.Outcome w ret) (hret : ¬ ret < 0) :
    w₀.Relaying w := by
  cases h with
  | rejected hneg => exact absurd hneg (by omega)
  | short hneg => exact absurd hneg (by omega)
  | replied h hservice hundef hsucc =>
    obtain ⟨rfl, hres⟩ := hsucc.resolve_left fun hneg => hret (by omega)
    exact ⟨⟨_, _, h, hres⟩, hundef⟩

theorem Host.Relaying.keep (h : w₀.Relaying w) (hs : w.Same w') (ht : w.Talk [] [] w')
    (htype : w'.self.type = w.self.type) (hundef : w'.undef = w.undef) : w₀.Relaying w' := by
  obtain ⟨addr, res, ⟨sends, hsends, hreplies, hserved⟩, hres⟩ := h.reply
  refine ⟨⟨addr, res, ⟨sends, hs.sends.trans hsends, ?_, fun hsucc => ?_⟩, hres⟩,
    hundef.trans h.undef⟩
  · rw [Host.replies, hs.sends]
    exact hreplies
  · exact (hserved hsucc).keep ht htype hs.server hs.opened hs.name

theorem Host.Relaying.step {β : Type} {o : Op β} {b : β} (h : w₀.Relaying w) (ho : Splices o)
    (he : host w o b w') : w₀.Relaying w' := by
  have ht := Host.Talk.refl.silent he (by cases o <;> first | exact trivial | exact ho.elim)
  cases o <;> first | exact ho.elim | skip
  case base | server =>
    obtain ⟨-, rfl⟩ := he
    exact h
  case logD =>
    obtain rfl := he
    exact h.keep ⟨rfl, rfl, rfl, rfl, rfl, id⟩ ht rfl rfl
  all_goals
    obtain ⟨auth, hv, rfl⟩ := he
    exact h.keep ⟨rfl, rfl, rfl, rfl, rfl, fun _ => hv⟩ ht rfl rfl

theorem always_splices {α : Type} {x : SysM α} (hx : x.Only Splices) (h : w₀.Relaying w) :
    Always toldHost w₀.Agrees x w fun _ w' => w₀.Relaying w' :=
  hx.always (fun ho h he => ⟨(h.step ho he.1).agrees, h.step ho he.1⟩) h

theorem always_setTimeout (timeout : Int) (h : w₀.Relaying w) :
    Always toldHost w₀.Agrees (hevSocks5SetTimeout timeout) w fun _ w' => w₀.Relaying w' := by
  simp only [hevSocks5SetTimeout, always_bind, always_op, always_ite, always_pure]
  rintro self _ ⟨⟨rfl, rfl⟩, -⟩
  refine ⟨h.agrees, ?_⟩
  split
  · rintro _ w₁ ⟨he, -⟩
    have ht := Host.Talk.refl.silent he (by trivial)
    have hs := same_of_idle (by trivial) he
    obtain rfl := he
    have h₁ := h.keep hs ht rfl rfl
    exact ⟨h₁.agrees, h₁⟩
  · exact h

theorem always_service (h : w₀.Relaying w) :
    Always toldHost w₀.Agrees service w fun _ w' => w₀.Relaying w' := by
  unfold service
  refine (always_splices ((only_op _).2 (by trivial)) h).bind fun _ w₁ h₁ => ?_
  refine (always_splices ((only_op _).2 (by trivial)) h₁).bind fun self w₂ h₂ => ?_
  have hudp : Always toldHost w₀.Agrees (do
      hevSocks5SetTimeout (← hevSocks5GetUdpTimeout)
      hevSocks5UdpSplice (← server).fds.1
      return 0 : SysM Int) w₂ fun _ w' => w₀.Relaying w' := by
    refine (always_splices ((only_op _).2 (by trivial)) h₂).bind fun timeout w₃ h₃ => ?_
    refine (always_setTimeout timeout h₃).bind fun _ w₄ h₄ => always_splices ?_ h₄
    exact .bind ((only_op _).2 (by trivial)) fun _ => .bind ((only_op _).2 (by trivial)) fun _ =>
      only_pure _
  cases self.type with
  | none => exact h₂
  | tcp =>
    refine always_splices (.bind ((only_op _).2 (by trivial)) fun _ => ?_) h₂
    exact .bind ((only_op _).2 (by trivial)) fun _ => only_pure _
  | udpInTcp => exact hudp
  | udpInUdp => exact hudp

theorem always_run_agrees (h : w.Fresh) : Always toldHost w.Agrees run w fun ret w' =>
    w.Agrees w' ∧ w.Concludes w' ret := by
  have hlog : (logD "socks5 server run").Only fun o => Idle o ∧ Early behindAuth o :=
    (only_op _).2 ⟨trivial, show _ ∉ behindAuth by decide⟩
  have hbase : base.Only fun o => Idle o ∧ Early behindAuth o := (only_op _).2 ⟨trivial, trivial⟩
  unfold run
  refine (always_begin hlog h.unanswered).bind fun _ w₁ ⟨h₁, hs₁⟩ => ?_
  refine (always_begin hbase h₁).bind fun self w₂ ⟨h₂, hs₂⟩ => ?_
  refine (always_begin ?_ h₂).bind fun _ w₃ ⟨h₃, hs₃⟩ => ?_
  · exact .bind ((only_op _).2 ⟨trivial, trivial⟩) fun _ =>
      .ite (.bind ((only_op _).2 ⟨trivial, trivial⟩) fun _ => only_pure _) (only_pure _)
  refine (always_handshake_agrees h₃ ((hs₁.trans hs₂).trans hs₃) h.read h.sends).bind ?_
  rintro ret w₄ hend
  rw [always_ite]
  split
  · exact ⟨hend.agrees, hend.failed.concludes⟩
  rename_i hneg
  refine (always_service (hend.relaying hneg)).bind fun ret w₅ h₅ => ?_
  rw [always_ite]
  split
  · exact ⟨h₅.agrees, h₅.concludes⟩
  · exact ⟨h₅.agrees, h₅.concludes⟩

end

/-! ## A client that connects -/

/-- An authenticator with no users. -/
def noUsers : HevSocks5Authenticator :=
  .new (fun _ => ⟨0, 0, 0⟩) (fun _ => ⟨⟨[], Str.length_nil⟩, ⟨[], Str.length_nil⟩⟩) fun _ => 0

/-- The server of a client that connects to 192.0.2.7, port 53. -/
def connectHost : Host where
  self := (construct 3).1
  server := (construct 3).2
  auth := noUsers
  looked := []
  entered := []
  read := []
  sends := []
  opened := [3]
  name := fun _ => none
  undef := false

/-- Every call succeeds, and the socket that is opened is 4. -/
def connects : Host → {β : Type} → Op β → Option (β × Host) := fun w _ o =>
  let wait : Host := { w with auth := noUsers }
  match o with
  | .base => some (w.self, w)
  | .setBase self => some ((), { w with self })
  | .server => some (w.server, w)
  | .setServer server => some ((), { w with server })
  | .logD msg => some ((), { w with entered := w.entered ++ [msg] })
  | .recv _ n _ =>
    let sent : List Octet := [5, 1, 0, 5, 1, 0, 1, 192, 0, 2, 7, 0, 53]
    let data := (sent.drop w.read.length).take n
    if data.length = n then some (⟨n, data⟩, { wait with read := w.read ++ data }) else none
  | .send _ data =>
    some (data.length, { wait with sends := w.sends ++ [(data, (data.length : Int))] })
  | .socket _ =>
    if 4 ∈ w.opened then none
    else some (4, { w with opened := 4 :: w.opened, name := Function.update w.name 4 none })
  | .setsockopt .. => some (0, wait)
  | .binder .. => some (0, wait)
  | .socketConnect .. => some (0, wait)
  | .connectTimeout => some (-1, wait)
  | .tcpTimeout => some (-1, wait)
  | .addFd _ => some (0, wait)
  | .tcpSplice _ => some ((), wait)
  | _ => none

theorem toldHost_of_connects (w : Host) {β : Type} (o : Op β) (b : β) (w' : Host)
    (h : connects w o = some (b, w')) : toldHost w o b w' := by
  have hwait : ∀ w : Host, w.Waits { w with auth := noUsers } := fun w =>
    ⟨noUsers, ⟨_, HevSocks5Authenticator.represents_new _ _ _⟩, rfl⟩
  cases o <;> simp only [connects, Option.some.injEq, Prod.mk.injEq, reduceCtorEq] at h
  case base | server =>
    obtain ⟨rfl, rfl⟩ := h
    exact ⟨⟨rfl, rfl⟩, trivial⟩
  case setBase | setServer | logD =>
    obtain ⟨-, rfl⟩ := h
    exact ⟨rfl, trivial⟩
  case send fd data =>
    obtain ⟨rfl, rfl⟩ := h
    exact ⟨hwait { w with sends := w.sends ++ [(data, (data.length : Int))] }, trivial⟩
  case recv fd n flags =>
    split at h
    · rename_i hn
      obtain ⟨rfl, rfl⟩ := Prod.mk.inj (Option.some.inj h)
      exact ⟨⟨Nat.le_of_eq hn, fun _ => hn, hwait { w with read := w.read ++ _ }⟩, fun _ _ => rfl⟩
    · cases h
  case socket =>
    split at h
    · cases h
    · rename_i hmem
      obtain ⟨rfl, rfl⟩ := Prod.mk.inj (Option.some.inj h)
      refine ⟨?_, trivial⟩
      simp only [host]
      rw [if_neg (by decide)]
      exact ⟨hmem, trivial⟩
  all_goals
    obtain ⟨-, rfl⟩ := h
    exact ⟨hwait w, trivial⟩

end HevSocks5
