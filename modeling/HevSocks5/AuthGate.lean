/-
  The authentication gate of the server.

  With an authenticator set, a run reads a request, connects, binds, begins its
  service or reports success of the sub-negotiation only when the client is
  `Authenticated`: it has offered user authentication and has sent the name and
  the password of a user that the authenticator held at the lookup
  (`authentication_gate`).
-/
import HevSocks5.ServerAuth
import HevSocks5.ServerCalls

namespace HevSocks5

open Interact Sys Total HevSocks5Server

/-- **The client is authenticated**: it offered user authentication, and at a lookup the name that
    it sent was the name of a user, and the password that it sent was the password of this user. -/
def Host.Authenticated (w : Host) : Prop :=
  ∃ (methods : List Octet) (name pass : Str),
    methodOctets methods ++ userOctets name.octets pass.octets <+: w.read ∧
    methods.length < 256 ∧ authMethodUser ∈ methods ∧ name.Fits ∧ pass.Fits ∧ w.Matched name pass

/-- The functions that are entered for authenticated clients only. -/
def gated : List String :=
  ["socks5 server read request", "socks5 server connect", "socks5 server bind",
    "socks5 server service"]

/-- One of these functions was entered, or success of the sub-negotiation was reported. -/
def Host.Open (w : Host) : Prop :=
  (∃ f ∈ gated, f ∈ w.entered) ∨ ∃ res, ([1, 0], res) ∈ w.sends

def Host.Guarded (w : Host) : Prop := w.Open → w.Authenticated

/-! ## Before the client is authenticated -/

/-- Calls that open nothing. -/
def Plain {β : Type} : Op β → Prop
  | .logD msg => msg ∉ gated
  | .send _ data => data ≠ [1, 0]
  | _ => True

section
variable {w w' : Host}

theorem not_open_of_plain {β : Type} {o : Op β} {b : β} (h : ¬ w.Open) (ho : Plain o)
    (he : host w o b w') : ¬ w'.Open := by
  have hsame : w'.entered = w.entered → w'.sends = w.sends → ¬ w'.Open := by
    intro hentered hsends
    unfold Host.Open
    rw [hentered, hsends]
    exact h
  cases o
  case logD msg =>
    obtain rfl := he
    rintro (⟨f, hf, hmem⟩ | hsend)
    · rcases List.mem_append.1 hmem with hmem | hmem
      · exact h (.inl ⟨f, hf, hmem⟩)
      · obtain rfl := List.mem_singleton.1 hmem
        exact ho hf
    · exact h (.inr hsend)
  case send fd data =>
    obtain ⟨auth, hv, rfl⟩ := he
    rintro (hf | ⟨res, hmem⟩)
    · exact h (.inl hf)
    · rcases List.mem_append.1 hmem with hmem | hmem
      · exact h (.inr ⟨res, hmem⟩)
      · simp only [List.mem_singleton, Prod.mk.injEq] at hmem
        exact ho hmem.1.symm
  case undefCmd =>
    obtain rfl := he
    exact hsame rfl rfl
  all_goals
    obtain ⟨hentered, hsends, -⟩ := (host_changes he).unrecorded (by trivial)
    exact hsame hentered hsends

/-- A program of such calls. -/
theorem always_plain {α : Type} {x : SysM α} (hx : x.Only Plain) (h : ¬ w.Open) :
    Always host Host.Guarded x w fun _ w' => ¬ w'.Open := by
  refine hx.always ?_ h
  intro w₁ w₂ β o b ho hw he
  have h₂ := not_open_of_plain hw ho he
  exact ⟨fun hopen => absurd hopen h₂, h₂⟩

theorem plain_of_reads {msg : String} (hmsg : msg ∉ gated) {β : Type} {o : Op β}
    (h : o.Reads msg) : Plain o := by
  cases o <;> first | exact trivial | exact h.elim | exact h ▸ hmsg

theorem plain_readAuthMethod : readAuthMethod.Only Plain :=
  reads_readAuthMethod.mono (plain_of_reads (by decide))

theorem plain_writeAuthMethod (method : Int) : (writeAuthMethod method).Only Plain := by
  refine (writes_writeAuthMethod method).mono ?_
  intro β o h
  cases o <;> first | exact trivial | exact h.elim | skip
  case logD => exact h ▸ (by decide : _ ∉ gated)
  case send =>
    obtain rfl := h
    simp [Plain, version5]

theorem plain_readAuthUser : readAuthUser.Only Plain := by
  refine only_readAuthUser.mono ?_
  rintro β o (h | h)
  · exact plain_of_reads (by decide) h
  · cases o <;> first | exact trivial | exact h.elim

theorem plain_writeAuthUser : (writeAuthUser (-1)).Only Plain := by
  refine (writes_writeAuthUser (-1)).mono ?_
  intro β o h
  cases o <;> first | exact trivial | exact h.elim | skip
  case logD => exact h ▸ (by decide : _ ∉ gated)
  case send =>
    obtain rfl := h
    exact show _ ≠ _ by decide

/-! ## An authenticated client -/

/-- Octets and lookups are never undone. -/
theorem Host.Authenticated.step {β : Type} {o : Op β} {b : β} (h : w.Authenticated)
    (he : host w o b w') : w'.Authenticated := by
  obtain ⟨methods, name, pass, hread, hmethods, hmem, hname, hpass, s, hs, hm⟩ := h
  have hc := host_changes he
  exact ⟨methods, name, pass, hread.trans hc.read, hmethods, hmem, hname, hpass, s,
    hc.looked.subset hs, hm⟩

theorem always_authenticated {α : Type} (x : SysM α) (h : w.Authenticated) :
    Always host Host.Guarded x w fun _ w' => w'.Authenticated :=
  always_of_step (fun h he => ⟨fun _ => h.step he, h.step he⟩) x h

/-! ## The run -/

/-- Before the authentication stage of a server whose authenticator is set. -/
structure Host.Ready (w : Host) : Prop where
  closed : ¬ w.Open
  obj : w.server.obj = .auth
  valid : w.auth.Valid
  read : w.read = []

/-- **The authentication stage** succeeds for authenticated clients only. -/
theorem always_auth (h : w.Ready) :
    Always host Host.Guarded HevSocks5Server.auth w fun res w' =>
      w'.Guarded ∧ (res = -1 ∨ w'.Authenticated) := by
  have hguard : ∀ {w : Host}, ¬ w.Open → w.Guarded := fun h ho => absurd ho h
  have hmethod : w.server.method = authMethodUser := by
    simp [HevSocks5ServerObj.method, h.obj]
  unfold HevSocks5Server.auth
  refine ((always_plain plain_readAuthMethod h.closed).and (post_readAuthMethod w)).bind ?_
  rintro method w₁ ⟨hclosed₁, read, h₁, hm⟩
  refine ((always_plain (plain_writeAuthMethod method) hclosed₁).and
    (post_writeAuthMethod method w₁)).bind ?_
  rintro ret w₂ ⟨hclosed₂, res, h₂, -⟩
  simp only [always_ite, always_pure]
  split
  · exact ⟨hguard hclosed₂, .inl trivial⟩
  rw [hmethod] at hm
  rcases hm with rfl | ⟨rfl, methods, hlen, hmem, rfl⟩
  · rw [if_neg (by decide), if_neg (by decide)]
    exact ⟨hguard hclosed₂, .inl trivial⟩
  rw [if_neg (by decide), if_pos (by decide)]
  refine ((always_plain plain_readAuthUser hclosed₂).and (post_readAuthUser w₂)).bind ?_
  rintro _ w₃ ⟨hclosed₃, read, h₃, rfl | ⟨rfl, name, pass, hname, hpass, rfl, hmatch⟩⟩
  · refine (always_plain plain_writeAuthUser hclosed₃).bind ?_
    rintro res' w₄ hclosed₄
    rw [or_neg_one, if_pos (by decide)]
    exact ⟨hguard hclosed₄, .inl rfl⟩
  · have hauth : w₃.Authenticated := by
      refine ⟨methods, name, pass, ?_, hlen, hmem, hname, hpass,
        hmatch (h₂.valid (h₁.valid h.valid))⟩
      rw [h₃.read_eq, h₂.read_eq, h₁.read_eq, h.read]
      simp
    refine (always_authenticated _ hauth).bind ?_
    rintro res' w₄ h₄
    split
    · exact ⟨fun _ => h₄, .inl rfl⟩
    · exact ⟨fun _ => h₄, .inr h₄⟩

/-- What comes before the authentication stage. -/
theorem Host.Ready.always {α : Type} {x : SysM α} (h : w.Ready)
    (hx : x.Only fun o => Idle o ∧ Plain o) :
    Always host Host.Guarded x w fun _ w' => w'.Ready := by
  refine ((always_plain (hx.mono And.right) h.closed).and (post_idle (hx.mono And.left) w)).mono ?_
  rintro _ w' ⟨hclosed, hsame⟩
  exact ⟨hclosed, hsame.server ▸ h.obj, hsame.valid h.valid, hsame.read.trans h.read⟩

/-- What comes behind a stage that succeeds for authenticated clients only. -/
theorem always_unless_failed {x : SysM Int}
    (h : w.Guarded) {res : Int} (hres : res = -1 ∨ w.Authenticated) :
    Always host Host.Guarded (if res < 0 then pure (-1) else x) w fun res w' =>
      w'.Guarded ∧ (res = -1 ∨ w'.Authenticated) := by
  rw [always_ite]
  split
  · exact ⟨h, .inl rfl⟩
  rename_i hneg
  have hw : w.Authenticated := hres.resolve_left fun h => hneg (h ▸ by decide)
  exact (always_authenticated _ hw).mono fun _ _ h => ⟨fun _ => h, .inr h⟩

theorem always_handshake (h : w.Ready) :
    Always host Host.Guarded handshake w fun res w' =>
      w'.Guarded ∧ (res = -1 ∨ w'.Authenticated) := by
  have hlog : (logD "socks5 server handshake").Only fun o => Idle o ∧ Plain o :=
    (only_op _).2 ⟨trivial, show "socks5 server handshake" ∉ gated by decide⟩
  have htimeout : hevSocks5GetTcpTimeout.Only fun o => Idle o ∧ Plain o :=
    (only_op _).2 ⟨trivial, trivial⟩
  unfold handshake
  refine (h.always hlog).bind fun _ w₁ h₁ => ?_
  refine (h₁.always htimeout).bind fun timeout w₂ h₂ => ?_
  refine (h₂.always ?_).bind fun _ w₃ h₃ => ?_
  · exact .bind ((only_op _).2 ⟨trivial, trivial⟩) fun _ =>
      .ite ((only_op _).2 ⟨trivial, trivial⟩) (only_pure _)
  refine (always_auth h₃).bind ?_
  rintro res w₄ ⟨hg, hres⟩
  exact always_unless_failed hg hres

theorem always_run (h : w.Ready) :
    Always host Host.Guarded run w fun res w' =>
      w'.Guarded ∧ (res = -1 ∨ w'.Authenticated) := by
  have hlog : (logD "socks5 server run").Only fun o => Idle o ∧ Plain o :=
    (only_op _).2 ⟨trivial, show "socks5 server run" ∉ gated by decide⟩
  have hbase : base.Only fun o => Idle o ∧ Plain o := (only_op _).2 ⟨trivial, trivial⟩
  unfold run
  refine (h.always hlog).bind fun _ w₁ h₁ => ?_
  refine (h₁.always hbase).bind fun self w₂ h₂ => ?_
  refine (h₂.always ?_).bind fun _ w₃ h₃ => ?_
  · exact .bind ((only_op _).2 ⟨trivial, trivial⟩) fun _ =>
      .ite (.bind ((only_op _).2 ⟨trivial, trivial⟩) fun _ => only_pure _) (only_pure _)
  refine (always_handshake h₃).bind ?_
  rintro res w₄ ⟨hg, hres⟩
  exact always_unless_failed hg hres

/-- **The authentication gate.**  Whatever the client sends, wherever a receive or a send fails,
    and whatever other tasks do to the users meanwhile: what is kept for authenticated clients
    happens for authenticated clients only.  For every other client the run returns -1, and no
    request is read. -/
theorem authentication_gate (hobj : w.server.obj = .auth) (hauth : w.auth.Valid)
    (hstart : w.entered = [] ∧ w.sends = [] ∧ w.read = []) :
    (∀ w', Reaches host run w w' → w'.Guarded) ∧
      ∀ res w', Returns host run w res w' → ¬ w'.Authenticated →
        res = -1 ∧ "socks5 server read request" ∉ w'.entered := by
  have hclosed : ¬ w.Open := by
    rintro (⟨f, -, hmem⟩ | ⟨res, hmem⟩)
    · simp [hstart.1] at hmem
    · simp [hstart.2.1] at hmem
  obtain ⟨hreaches, hreturns⟩ := always_iff.1 (always_run ⟨hclosed, hobj, hauth, hstart.2.2⟩)
  refine ⟨hreaches, fun res w' hrun hnot => ?_⟩
  obtain ⟨hg, hres⟩ := hreturns res w' hrun
  refine ⟨hres.resolve_right hnot, fun hmem => hnot (hg (.inl ⟨_, ?_, hmem⟩))⟩
  simp [gated]

end

/-! ## A client that logs in -/

def loginName : Str := ⟨[117], by decide⟩

def loginPass : Str := ⟨[112], by decide⟩

/-- An authenticator with one user. -/
def oneUser : HevSocks5Authenticator where
  tree := { root := 4, mem := fun _ => ⟨pack 0 .black, 0, 0⟩ }
  users := fun _ => ⟨loginName, loginPass⟩
  refs := fun _ => 1

theorem valid_oneUser : oneUser.Valid := by
  refine ⟨⟨Finmap.singleton loginName 4, fun _ => 1⟩, rfl, .node .black .nil 4 .nil, ?_, ?_⟩
  · refine ⟨⟨⟨rfl, rfl, trivial, trivial⟩, ⟨List.nodup_singleton 4, ?_⟩⟩, rfl, ?_, ?_⟩
    · intro p hp
      obtain rfl := List.mem_singleton.1 hp
      exact ⟨by decide, show (4 : Ptr) &&& 3 = 0 by decide⟩
    · exact ⟨1, by simp [Shape.Bal]⟩
    · exact List.pairwise_singleton _ _
  · intro n p
    by_cases hn : n = loginName
    · subst hn
      simp [oneUser, eq_comm]
    · have hnot :
          (Finmap.singleton loginName (4 : Ptr) : Finmap fun _ : Str => Ptr).lookup n = none :=
        Finmap.lookup_eq_none.2 (by simpa using hn)
      simp [hnot, oneUser, Ne.symm hn]

/-- The server of a client that logs in and then sends nothing more. -/
def loginHost : Host where
  self := (construct 3).1
  server := { (construct 3).2 with obj := .auth }
  auth := oneUser
  looked := []
  entered := []
  read := []
  sends := []
  opened := []
  name := fun _ => none
  undef := false

def login : Host → {β : Type} → Op β → Option (β × Host) := fun w _ o =>
  let wait : Host := { w with auth := oneUser }
  match o with
  | .base => some (w.self, w)
  | .setBase self => some ((), { w with self })
  | .server => some (w.server, w)
  | .setServer server => some ((), { w with server })
  | .logD msg => some ((), { w with entered := w.entered ++ [msg] })
  | .recv _ n _ =>
    let data := (([5, 1, 2, 1, 1, 117, 1, 112] : List Octet).drop w.read.length).take n
    if data.length = n then some (⟨n, data⟩, { wait with read := w.read ++ data })
    else some (⟨-1, []⟩, wait)
  | .send _ data =>
    some (data.length, { wait with sends := w.sends ++ [(data, (data.length : Int))] })
  | .authenticator x =>
    (x w.auth).map fun r => (r.1, { w with auth := r.2, looked := w.looked ++ [w.auth] })
  | .users => some (w.auth.users, w)
  | .ref _ => some ((), wait)
  | .unref _ => some ((), wait)
  | .tcpTimeout => some (-1, wait)
  | .addFd _ => some (0, wait)
  | _ => none

theorem host_of_login (w : Host) {β : Type} (o : Op β) (b : β) (w' : Host)
    (h : login w o = some (b, w')) : host w o b w' := by
  have hwait : ∀ w : Host, w.Waits { w with auth := oneUser } := fun w =>
    ⟨oneUser, valid_oneUser, rfl⟩
  cases o <;> simp only [login, Option.some.injEq, Prod.mk.injEq, reduceCtorEq] at h
  case base | server | users =>
    obtain ⟨rfl, rfl⟩ := h
    exact ⟨rfl, rfl⟩
  case setBase | setServer | logD =>
    obtain ⟨-, rfl⟩ := h
    rfl
  case send fd data =>
    obtain ⟨rfl, rfl⟩ := h
    exact hwait { w with sends := w.sends ++ [(data, (data.length : Int))] }
  case ref | unref | tcpTimeout | addFd =>
    obtain ⟨-, rfl⟩ := h
    exact hwait w
  case recv fd n flags =>
    split at h
    · rename_i hn
      obtain ⟨rfl, rfl⟩ := Prod.mk.inj (Option.some.inj h)
      exact ⟨Nat.le_of_eq hn, fun _ => hn, hwait { w with read := w.read ++ _ }⟩
    · obtain ⟨rfl, rfl⟩ := Prod.mk.inj (Option.some.inj h)
      refine ⟨by simp, fun hn => absurd hn (by simp), ?_⟩
      rw [List.append_nil]
      exact hwait w
  case authenticator x =>
    obtain ⟨r, hr, rfl, rfl⟩ := Option.map_eq_some_iff.1 h
    exact ⟨r.2, hr, rfl⟩

theorem authentication_gate_login :
    ∃ w', Reaches host run loginHost w' ∧ w'.Open ∧ w'.Authenticated := by
  obtain ⟨res, w', hrun, hw'⟩ := exists_returns_of_exec host_of_login (x := run) (w := loginHost)
    (fun _ w' => "socks5 server read request" ∈ w'.entered) (by decide +kernel)
  have hopen : w'.Open := .inl ⟨_, by simp [gated], of_decide_eq_true hw'⟩
  rcases hrun.eq_or_reaches with rfl | hreach
  · exact absurd hw' (by decide)
  · have hgate := authentication_gate (w := loginHost) rfl valid_oneUser ⟨rfl, rfl, rfl⟩
    exact ⟨w', hreach, hopen, hgate.1 w' hreach hopen⟩

end HevSocks5
