/-
  What the server makes of the octets of a client.

  The octets of the client come in segments of any sizes; the connection does
  not fail, but it may end.  A receive call takes octets of one segment, and one
  that waits for all it asks for goes on to the segments that follow.

  The handshake executes a command if and only if the octets begin with a
  `Hello` that is accepted, and then it has received that and no more
  (`exact_parsing`).
-/
import HevSocks5.Base.Determined
import HevSocks5.Wire

namespace HevSocks5

open Interact Sys HevSocks5Server

/-- The host, and the octets that the client has still to send, segment by segment. -/
structure Inbound where
  host : Host
  segments : List (List Octet)

/-! ## Segments -/

/-- A receive call takes octets of the first segment that has any, and leaves the rest of it. -/
def receive (n : Nat) : List (List Octet) → List Octet × List (List Octet)
  | [] => ([], [])
  | [] :: segments => receive n segments
  | (a :: segment) :: segments => ((a :: segment).take n, (a :: segment).drop n :: segments)

/-- With `MSG_WAITALL` it goes on to the segments that follow, until it has `n` octets. -/
def receiveAll (n : Nat) : List (List Octet) → List Octet × List (List Octet)
  | [] => ([], [])
  | segment :: segments =>
    if n ≤ segment.length then (segment.take n, segment.drop n :: segments)
    else
      let r := receiveAll (n - segment.length) segments
      (segment ++ r.1, r.2)

/-- What a receive call gets, and what it leaves. -/
def gets (n : Nat) (flags : MsgFlags) (segments : List (List Octet)) :
    List Octet × List (List Octet) :=
  if flags = .waitall then receiveAll n segments else receive n segments

/-- A call that waits for all does not see the segments. -/
theorem receiveAll_eq (n : Nat) (segments : List (List Octet)) :
    (receiveAll n segments).1 = segments.flatten.take n ∧
      (receiveAll n segments).2.flatten = segments.flatten.drop n := by
  induction segments generalizing n with
  | nil => simp [receiveAll]
  | cons segment segments ih =>
    unfold receiveAll
    split
    case isTrue hle =>
      rw [List.flatten_cons, List.take_append_of_le_length hle, List.drop_append_of_le_length hle]
      exact ⟨rfl, rfl⟩
    case isFalse hlt =>
      have hlen : segment.length ≤ n := Nat.le_of_lt (Nat.lt_of_not_le hlt)
      obtain ⟨htake, hdrop⟩ := ih (n - segment.length)
      rw [List.flatten_cons, List.take_append, List.drop_append, List.take_of_length_le hlen,
        List.drop_of_length_le hlen]
      exact ⟨congrArg (segment ++ ·) htake, hdrop⟩

/-- One that does not wait for all does. -/
example : receive 3 [[5], [1, 0]] = ([5], [[], [1, 0]]) ∧
    receive 3 [[5, 1, 0]] = ([5, 1, 0], [[]]) := ⟨rfl, rfl⟩

/-- No octet is lost. -/
theorem gets_append (n : Nat) (flags : MsgFlags) (segments : List (List Octet)) :
    (gets n flags segments).1 ++ (gets n flags segments).2.flatten = segments.flatten := by
  unfold gets
  split
  · obtain ⟨htake, hdrop⟩ := receiveAll_eq n segments
    rw [htake, hdrop, List.take_append_drop]
  · induction segments with
    | nil => rfl
    | cons segment segments ih =>
      cases segment with
      | nil => exact ih
      | cons a segment =>
        rw [receive, List.flatten_cons, ← List.append_assoc, List.take_append_drop]
        rfl

theorem length_gets_le (n : Nat) (flags : MsgFlags) (segments : List (List Octet)) :
    (gets n flags segments).1.length ≤ n := by
  unfold gets
  split
  · rw [(receiveAll_eq n segments).1]
    exact List.length_take_le _ _
  · induction segments with
    | nil => exact Nat.zero_le n
    | cons segment segments ih =>
      cases segment with
      | nil => exact ih
      | cons a segment => exact List.length_take_le _ _

namespace Inbound

def stream (w : Inbound) : List Octet := w.segments.flatten

/-- Receives get what there is, sends succeed, and names are looked up to what `R` says. -/
def Reliable (R : Resolver) (timeout : Int) (w : Inbound) {β : Type} (o : Op β) (b : β)
    (w' : Inbound) : Prop :=
  match o with
  | .recv _ n flags =>
    b.data = (gets n flags w.segments).1 ∧ w'.segments = (gets n flags w.segments).2 ∧
      if flags = .waitall ∧ b.data.length < n then b.res ≠ n else b.res = b.data.length
  | .send _ _ => 0 < b ∧ w'.segments = w.segments
  | .inetPton4 name => b = R.pton4 name ∧ w'.segments = w.segments
  | .inetPton6 name => b = R.pton6 name ∧ w'.segments = w.segments
  | .getaddrinfo name family => b = R.lookup name family ∧ w'.segments = w.segments
  | .tcpTimeout => b = timeout ∧ w'.segments = w.segments
  | _ => w'.segments = w.segments

theorem stream_eq {w w' : Inbound} (h : w'.segments = w.segments) : w'.stream = w.stream :=
  congrArg List.flatten h

end Inbound

/-- The system calls of a server whose users stay as they are. -/
def inbound (R : Resolver) (timeout : Int) : Env Op Inbound := fun w _ o b w' =>
  host w.host o b w'.host ∧ w'.host.auth = w.host.auth ∧ w.Reliable R timeout o b w'

/-! ## What decides the outcome -/

/-- What the handshake depends on. -/
structure Inbound.View where
  self : HevSocks5Obj
  server : HevSocks5ServerObj
  auth : HevSocks5Authenticator
  stream : List Octet

namespace Inbound

def view (w : Inbound) : View := ⟨w.host.self, w.host.server, w.host.auth, w.stream⟩

def View.Valid (v : View) : Prop := v.auth.Valid

/-- Calls whose answer is known. -/
def Known {β : Type} : Op β → Prop
  | .base | .setBase _ | .server | .setServer _ | .logD _ | .users | .ref _ | .unref _ => True
  | .tcpTimeout | .inetPton4 _ | .inetPton6 _ | .getaddrinfo .. => True
  | .authenticator x => ∃ name, x = HevSocks5Authenticator.get name
  | _ => False

end Inbound

theorem Host.Waits.eq {w w' : Host} (h : w.Waits w') (hauth : w'.auth = w.auth) : w' = w := by
  obtain ⟨auth, -, rfl⟩ := h
  obtain rfl : auth = w.auth := hauth
  rfl

section
variable {R : Resolver} {timeout : Int}

open Inbound

theorem view_eq {w w' : Inbound} {host : Host} (hhost : w'.host = host)
    (hsegments : w'.segments = w.segments) :
    w'.view = ⟨host.self, host.server, host.auth, w.stream⟩ := by
  rw [view, hhost, stream_eq hsegments]

/-- A call that waits, and is always answered in the same way. -/
theorem determined_answered {β : Type} {o : Op β} (a : β)
    (h : ∀ w b w', inbound R timeout w o b w' ↔
      w.host.Waits w'.host ∧ w'.host.auth = w.host.auth ∧ b = a ∧ w'.segments = w.segments) :
    (Prog.op o).Determined (inbound R timeout) view View.Valid := by
  refine .op (fun _ => a) id (fun _ hv => hv)
    (fun w hv => ⟨w, (h _ _ _).2 ⟨⟨_, hv, rfl⟩, rfl, rfl, rfl⟩⟩) ?_
  intro w b w' _ he
  obtain ⟨hhost, hauth, rfl, hsegments⟩ := (h _ _ _).1 he
  exact ⟨rfl, view_eq (hhost.eq hauth) hsegments⟩

theorem determined_known {β : Type} {o : Op β} (ho : Known o) :
    (Prog.op o).Determined (inbound R timeout) view View.Valid := by
  cases o
  case base =>
    refine .op View.self id (fun _ h => h) (fun w _ => ⟨w, ⟨rfl, rfl⟩, rfl, rfl⟩) ?_
    rintro w b w' - ⟨⟨rfl, hhost⟩, -, hsegments⟩
    exact ⟨rfl, view_eq hhost hsegments⟩
  case setBase self =>
    refine .op (fun _ => ()) (fun v => { v with self }) (fun _ h => h)
      (fun w _ => ⟨⟨{ w.host with self }, w.segments⟩, rfl, rfl, rfl⟩) ?_
    rintro w b w' - ⟨hhost, -, hsegments⟩
    exact ⟨rfl, view_eq hhost hsegments⟩
  case server =>
    refine .op View.server id (fun _ h => h) (fun w _ => ⟨w, ⟨rfl, rfl⟩, rfl, rfl⟩) ?_
    rintro w b w' - ⟨⟨rfl, hhost⟩, -, hsegments⟩
    exact ⟨rfl, view_eq hhost hsegments⟩
  case setServer server =>
    refine .op (fun _ => ()) (fun v => { v with server }) (fun _ h => h)
      (fun w _ => ⟨⟨{ w.host with server }, w.segments⟩, rfl, rfl, rfl⟩) ?_
    rintro w b w' - ⟨hhost, -, hsegments⟩
    exact ⟨rfl, view_eq hhost hsegments⟩
  case logD msg =>
    refine .op (fun _ => ()) id (fun _ h => h)
      (fun w _ => ⟨⟨{ w.host with entered := w.host.entered ++ [msg] }, w.segments⟩,
        rfl, rfl, rfl⟩) ?_
    rintro w b w' - ⟨hhost, -, hsegments⟩
    exact ⟨rfl, (view_eq hhost hsegments).trans rfl⟩
  case users =>
    refine .op (fun v => v.auth.users) id (fun _ h => h) (fun w _ => ⟨w, ⟨rfl, rfl⟩, rfl, rfl⟩) ?_
    rintro w b w' - ⟨⟨rfl, hhost⟩, -, hsegments⟩
    exact ⟨rfl, view_eq hhost hsegments⟩
  case authenticator x =>
    obtain ⟨name, rfl⟩ := ho
    refine .op (fun v => ((HevSocks5Authenticator.get name v.auth).map (·.1)).getD 0) id
      (fun _ h => h) (fun w hv => ?_) ?_
    · obtain ⟨user, hget⟩ := HevSocks5Authenticator.Valid.get hv name
      refine ⟨⟨{ w.host with looked := w.host.looked ++ [w.host.auth] }, w.segments⟩, ?_, rfl, rfl⟩
      have hget' : HevSocks5Authenticator.get name w.host.auth = some (user, w.host.auth) := hget
      exact ⟨w.host.auth, by simp [view, hget'], rfl⟩
    · rintro w b w' hv ⟨⟨auth, hget, hhost⟩, hauth, hsegments⟩
      obtain ⟨user, hget'⟩ := HevSocks5Authenticator.Valid.get hv name
      rw [show w.host.auth = w.view.auth from rfl, hget', Option.some.injEq, Prod.mk.injEq] at hget
      obtain ⟨rfl, rfl⟩ := hget
      exact ⟨by simp [hget'], (view_eq hhost hsegments).trans rfl⟩
  case ref | unref =>
    refine .op (fun _ => ()) id (fun _ h => h) (fun w hv => ⟨w, ⟨_, hv, rfl⟩, rfl, rfl⟩) ?_
    rintro w b w' - ⟨hhost, hauth, hsegments⟩
    exact ⟨rfl, view_eq (hhost.eq hauth) hsegments⟩
  case tcpTimeout | inetPton4 | inetPton6 | getaddrinfo =>
    exact determined_answered _ fun _ _ _ => Iff.rfl
  all_goals exact ho.elim

/-- What a receive call leaves behind that waits for all. -/
theorem view_of_recv {fd : Int} {n : Nat} {r : Received} {w w' : Inbound}
    (he : inbound R timeout w (.recv fd n .waitall) r w') :
    w'.view = { w.view with stream := w.stream.drop n } ∧ r.data = w.stream.take n ∧
      (r.res = n ↔ n ≤ w.stream.length) := by
  obtain ⟨⟨-, -, auth, -, hhost⟩, hauth, hdata, hsegments, hres⟩ := he
  obtain ⟨htake, hdrop⟩ := receiveAll_eq n w.segments
  have hdata : r.data = w.stream.take n := hdata.trans htake
  have hstream : w'.stream = w.stream.drop n := (congrArg List.flatten hsegments).trans hdrop
  refine ⟨?_, hdata, ?_⟩
  · rw [hhost] at hauth
    obtain rfl : auth = w.host.auth := hauth
    simp [view, hhost, hstream]
  · have hlen : r.data.length = min n w.stream.length := by rw [hdata, List.length_take]
    split at hres
    case isTrue hlt => exact iff_of_false hres (by omega)
    case isFalse hge =>
      have hge : ¬ r.data.length < n := fun h => hge ⟨rfl, h⟩
      exact iff_of_true (by omega) (by omega)

theorem exists_recv (w : Inbound) (hv : View.Valid w.view) (fd : Int) (n : Nat)
    (flags : MsgFlags) : ∃ b w', inbound R timeout w (.recv fd n flags) b w' := by
  rcases hr : gets n flags w.segments with ⟨data, segments⟩
  have hle : data.length ≤ n := by
    have := length_gets_le n flags w.segments
    rwa [hr] at this
  refine ⟨⟨if flags = .waitall ∧ data.length < n then -1 else data.length, data⟩,
    ⟨{ w.host with read := w.host.read ++ data }, segments⟩,
    ⟨hle, fun hres => ?_, w.host.auth, hv, rfl⟩, rfl, ?_⟩
  · dsimp only at hres ⊢
    split at hres <;> omega
  · simp only [Reliable, hr]
    refine ⟨trivial, trivial, ?_⟩
    split
    · omega
    · rfl

/-- A receive call, and the check that all was received. -/
theorem determined_recv {α : Type} {fd : Int} {n : Nat} {m : Int} (hm : m = n) (a : α)
    {k : Received → SysM α}
    (hk : ∀ data, (k ⟨m, data⟩).Determined (inbound R timeout) view View.Valid) :
    (do let r ← hevTaskIoSocketRecv fd n .waitall
        if r.res ≠ m then return a else k r).Determined (inbound R timeout) view View.Valid := by
  subst hm
  refine .call (fun w hv => exists_recv w hv fd n .waitall) fun c hc => ?_
  by_cases hn : n ≤ c.stream.length
  · obtain ⟨a', c', hc', hk⟩ := hk (c.stream.take n) { c with stream := c.stream.drop n } hc
    refine ⟨a', c', hc', ?_⟩
    rintro w ⟨res, data⟩ w' rfl he
    obtain ⟨hview, hdata, hres⟩ := view_of_recv he
    obtain rfl : data = w.stream.take n := hdata
    obtain rfl : res = n := hres.2 hn
    rw [if_neg (not_not.2 rfl)]
    exact hk w' hview
  · refine ⟨a, { c with stream := c.stream.drop n }, hc, ?_⟩
    rintro w r w' rfl he
    obtain ⟨hview, -, hres⟩ := view_of_recv he
    rw [if_pos fun h => hn (hres.1 h)]
    exact ⟨⟨w', .ret a w'⟩, rfl, hview⟩

/-- A send call, and the check that it has succeeded. -/
theorem determined_send {fd : Int} {data : List Octet} :
    (do let res ← hevTaskIoSocketSend fd data
        if res ≤ 0 then return -1 else return 0 : SysM Int).Determined (inbound R timeout) view
      View.Valid := by
  refine .call (fun w hv => ⟨1, ⟨{ w.host with sends := w.host.sends ++ [(data, 1)] }, w.segments⟩,
    ⟨w.host.auth, hv, rfl⟩, rfl, by decide, rfl⟩) fun c hc => ⟨0, c, hc, ?_⟩
  rintro w res w' rfl ⟨⟨auth, -, hhost⟩, hauth, hres, hstream⟩
  rw [hhost] at hauth
  obtain rfl : auth = w.host.auth := hauth
  rw [if_neg (by omega)]
  exact ⟨⟨w', .ret _ w'⟩, rfl, by simp [view, hhost, stream_eq hstream]⟩

/-! ## The handshake as far as the request -/

theorem determined_readAuthMethod :
    readAuthMethod.Determined (inbound R timeout) view View.Valid := by
  refine .bind (determined_known trivial) fun _ => .bind (determined_known trivial) fun self => ?_
  refine determined_recv rfl _ fun head => .ite (.pure _) ?_
  refine determined_recv rfl _ fun methods => ?_
  exact .bind (determined_known trivial) fun _ => .pure _

theorem determined_writeAuthMethod (method : Int) :
    (writeAuthMethod method).Determined (inbound R timeout) view View.Valid :=
  .bind (determined_known trivial) fun _ => .bind (determined_known trivial) fun _ =>
    determined_send

theorem determined_checkUser (name pass : Str) :
    (checkUser name pass).Determined (inbound R timeout) view View.Valid := by
  refine .bind (determined_known ⟨name, rfl⟩) fun user => .ite (.pure _) ?_
  refine .bind (determined_known trivial) fun users => .ite (.pure _) ?_
  refine .bind (determined_known trivial) fun _ => .bind (determined_known trivial) fun _ => ?_
  refine .bind (determined_known trivial) fun _ => .bind (determined_known trivial) fun _ => ?_
  exact .pure _

theorem determined_readAuthUser :
    readAuthUser.Determined (inbound R timeout) view View.Valid := by
  refine .bind (determined_known trivial) fun _ => .bind (determined_known trivial) fun self => ?_
  refine determined_recv rfl _ fun head => .ite (.pure _) (.ite (.pure _) ?_)
  refine determined_recv (by push_cast; rfl) _ fun name => .ite (.pure _) ?_
  exact determined_recv rfl _ fun pass => determined_checkUser _ _

theorem determined_writeAuthUser (authRes : Int) :
    (writeAuthUser authRes).Determined (inbound R timeout) view View.Valid :=
  .bind (determined_known trivial) fun _ => .bind (determined_known trivial) fun _ =>
    determined_send

theorem determined_auth :
    HevSocks5Server.auth.Determined (inbound R timeout) view View.Valid := by
  refine .bind determined_readAuthMethod fun method => ?_
  refine .bind (determined_writeAuthMethod method) fun _ => .ite (.pure _) (.ite (.pure _) ?_)
  refine .ite (.bind determined_readAuthUser fun res => ?_) (.pure _)
  exact .bind (determined_writeAuthUser res) fun _ => .ite (.pure _) (.pure _)

theorem determined_addrIntoSockaddr6 (addr : Mem) (saddr : SockAddrIn6)
    (family : HevSocks5AddrFamily) :
    (hevSocks5AddrIntoSockaddr6 addr saddr family).Determined (inbound R timeout) view
      View.Valid := by
  unfold hevSocks5AddrIntoSockaddr6
  refine .ite (.pure _) (.ite (.pure _) (.ite ?_ (.pure _)))
  unfold hevSocks5NameIntoSockaddr6
  refine .bind ?_ fun r => .ite (.pure _) (.bind ?_ fun r => .ite (.pure _) ?_)
  · refine .bind (determined_known trivial) fun r => ?_
    cases r <;> exact .pure _
  · refine .bind (determined_known trivial) fun r => ?_
    cases r <;> exact .pure _
  · refine .bind (determined_known trivial) fun r => ?_
    rcases r with _ | _ | _ | _ <;> exact .pure _

theorem determined_readRequest (rep : HevSocks5ResRep) (addr : SockAddrIn6) :
    (readRequest rep addr).Determined (inbound R timeout) view View.Valid := by
  refine .bind (determined_known trivial) fun _ => .bind (determined_known trivial) fun self => ?_
  refine determined_recv rfl _ fun head => .ite (.pure _) ?_
  dsimp only
  cases addrRest (head.getD 3 0) (head.getD 4 0) with
  | none => exact .pure _
  | some addrlen =>
    refine determined_recv rfl _ fun rest => .bind (determined_known trivial) fun self => ?_
    refine .bind (determined_addrIntoSockaddr6 _ _ _) fun r => .ite (.pure _) ?_
    refine .bind (determined_known trivial) fun self => ?_
    exact .bind (determined_known trivial) fun _ => .pure _

/-- `hev_socks5_server_handshake` as far as the request; nothing when it has failed by then. -/
def handshakeRequest : SysM (Option Request) := do
  logD "socks5 server handshake"
  hevSocks5SetTimeout (← hevSocks5GetTcpTimeout)
  let res ← auth
  if res < 0 then return none
  else
    let req ← readRequest .succ .zero
    if req.res < 0 then return none else return some req

theorem handshake_eq : handshake = do
    match ← handshakeRequest with
    | none => return -1
    | some req =>
      let (rep, addr) ← executeRequest req
      let res ← writeResponse rep addr
      if res < 0 ∨ rep ≠ .succ then return -1 else return 0 := by
  simp only [handshake, handshakeRequest, bind_assoc]
  refine bind_congr fun _ => bind_congr fun _ => bind_congr fun _ => bind_congr fun res => ?_
  split
  · rfl
  · simp only [bind_assoc]
    refine bind_congr fun req => ?_
    split <;> rfl

theorem determined_handshakeRequest :
    handshakeRequest.Determined (inbound R timeout) view View.Valid := by
  refine .bind (determined_known trivial) fun _ => .bind (determined_known trivial) fun _ => ?_
  refine .bind (.bind (determined_known trivial) fun _ => .ite (determined_known trivial)
    (.pure _)) fun _ => ?_
  refine .bind determined_auth fun res => .ite (.pure _) ?_
  exact .bind (determined_readRequest _ _) fun _ => .ite (.pure _) (.pure _)

/-! ## What is received -/

/-- Nothing that the handshake depends on has changed but the octets to come. -/
structure Inbound.Settled (w w' : Inbound) : Prop where
  self : w'.host.self = w.host.self
  server : w'.host.server = w.host.server
  auth : w'.host.auth = w.host.auth

namespace Inbound.Settled

variable {w w₁ w₂ : Inbound}

theorem refl : w.Settled w := ⟨rfl, rfl, rfl⟩

theorem trans (h : w.Settled w₁) (h' : w₁.Settled w₂) : w.Settled w₂ :=
  ⟨h'.self.trans h.self, h'.server.trans h.server, h'.auth.trans h.auth⟩

end Inbound.Settled

variable {w w' : Inbound}

/-- Calls that tell the server something. -/
def Asks {β : Type} : Op β → Prop
  | .base | .server | .logD _ | .users | .ref _ | .unref _ | .tcpTimeout => True
  | _ => False

theorem settled_of_asks {β : Type} {o : Op β} {b : β} (ho : Asks o)
    (he : inbound R timeout w o b w') : w.Settled w' ∧ w'.stream = w.stream := by
  obtain ⟨hhost, hauth, hstream⟩ := he
  cases o
  case base | server | users =>
    obtain ⟨-, hhost⟩ := hhost
    exact ⟨⟨by rw [hhost], by rw [hhost], hauth⟩, stream_eq hstream⟩
  case logD msg =>
    have hhost : w'.host = _ := hhost
    exact ⟨⟨by rw [hhost], by rw [hhost], hauth⟩, stream_eq hstream⟩
  case ref | unref =>
    have h := hhost.eq hauth
    exact ⟨⟨congrArg Host.self h, congrArg Host.server h, hauth⟩, stream_eq hstream⟩
  case tcpTimeout =>
    have h := hhost.eq hauth
    exact ⟨⟨congrArg Host.self h, congrArg Host.server h, hauth⟩, stream_eq hstream.2⟩
  all_goals exact ho.elim

/-- A receive call, and the check that all was received. -/
theorem post_recv {α : Type} {fd : Int} {n : Nat} {m : Int} (hm : m = n) {a : α}
    {k : Received → SysM α} {Q : α → Inbound → Prop}
    (hshort : ∀ w', w.Settled w' → w.stream.length < n → Q a w')
    (hk : ∀ data w', w.Settled w' → data.length = n → w.stream = data ++ w'.stream →
      Post (inbound R timeout) (k ⟨m, data⟩) w' Q) :
    Post (inbound R timeout) (do
      let r ← hevTaskIoSocketRecv fd n .waitall
      if r.res ≠ m then return a else k r) w Q := by
  subst hm
  simp only [always_bind, always_op]
  rintro ⟨res, data⟩ w₁ he
  refine ⟨trivial, ?_⟩
  obtain ⟨hview, hdata, hres⟩ := view_of_recv he
  obtain rfl : data = w.stream.take n := hdata
  have hsettled : w.Settled w₁ :=
    ⟨congrArg View.self hview, congrArg View.server hview, congrArg View.auth hview⟩
  have hstream : w₁.stream = w.stream.drop n := congrArg View.stream hview
  by_cases hn : n ≤ w.stream.length
  · obtain rfl : res = n := hres.2 hn
    rw [if_neg (not_not.2 rfl)]
    refine hk _ w₁ hsettled ?_ ?_
    · rw [List.length_take, Nat.min_eq_left hn]
    · rw [hstream, List.take_append_drop]
  · rw [if_pos fun h => hn (hres.1 h)]
    exact hshort w₁ hsettled (Nat.lt_of_not_le hn)

/-- **The greeting** that offers the method of the server is received, or there is none. -/
theorem post_readAuthMethod_inbound :
    Post (inbound R timeout) readAuthMethod w fun r w' => w.Settled w' ∧
      ((∃ methods : List Octet, methods.length < 256 ∧ w.host.server.method ∈ methods ∧
          w.stream = methodOctets methods ++ w'.stream ∧ r = w.host.server.method.toNat) ∨
        r = -1 ∧ ∀ methods rest : List Octet, methods.length < 256 →
          w.host.server.method ∈ methods → w.stream ≠ methodOctets methods ++ rest) := by
  simp only [readAuthMethod, always_bind, always_op]
  rintro _ w₁ he
  obtain ⟨h₁, hs₁⟩ := settled_of_asks (by trivial) he
  refine ⟨trivial, ?_⟩
  rintro self w₂ he
  obtain ⟨h₂, hs₂⟩ := settled_of_asks (by trivial) he
  have hw₂ := h₁.trans h₂
  have hs : w₂.stream = w.stream := hs₂.trans hs₁
  refine ⟨trivial, ?_⟩
  rw [← hs]
  refine (always_bind _ _ _).1 (post_recv rfl (fun w₃ h₃ hlt => ?_) fun head w₃ h₃ hlen hs₃ => ?_)
  · refine ⟨hw₂.trans h₃, .inr ⟨rfl, fun methods rest _ _ h => ?_⟩⟩
    rw [h] at hlt
    simp only [methodOctets, List.length_append, List.length_cons] at hlt
    omega
  obtain ⟨ver, n, rfl⟩ := List.length_eq_two.1 hlen
  simp only [List.getD_cons_zero, List.getD_cons_succ, always_ite, always_pure]
  split
  · rename_i hver
    refine ⟨hw₂.trans h₃, .inr ⟨trivial, fun methods rest _ _ h => ?_⟩⟩
    rw [hs₃] at h
    simp only [methodOctets, List.cons_append, List.cons.injEq] at h
    exact hver h.1
  rename_i hver
  obtain rfl : ver = version5 := not_not.1 hver
  refine post_recv rfl (fun w₄ h₄ hlt => ?_) fun methods w₄ h₄ hlen₄ hs₄ => ?_
  · refine ⟨(hw₂.trans h₃).trans h₄, .inr ⟨rfl, fun methods rest hm _ h => ?_⟩⟩
    rw [hs₃] at h
    simp only [methodOctets, List.cons_append, List.nil_append, List.cons.injEq, true_and] at h
    have hn : n.toNat = methods.length := by
      rw [h.1, UInt8.toNat_ofNat', Nat.mod_eq_of_lt hm]
    rw [h.2, List.length_append] at hlt
    omega
  simp only [always_bind, always_op, always_pure]
  rintro server w₅ he
  obtain ⟨h₅, hs₅⟩ := settled_of_asks (by trivial) he
  refine ⟨trivial, ?_⟩
  have hw₅ := ((hw₂.trans h₃).trans h₄).trans h₅
  obtain ⟨⟨hserver, -⟩, -⟩ := he
  have hmethod : (if server.obj ≠ .null then authMethodUser else authMethodNone) =
      w.host.server.method := by
    rw [hserver, ((hw₂.trans h₃).trans h₄).server]
    rfl
  rw [hmethod, methodLoop_eq]
  have hm : methods.length < 256 := hlen₄ ▸ n.toNat_lt
  have hstream : w₂.stream = methodOctets methods ++ w₅.stream := by
    rw [hs₃, hs₄, hs₅, methodOctets, hlen₄, UInt8.ofNat_toNat]
    simp
  refine ⟨hw₅, ?_⟩
  by_cases hmem : w.host.server.method ∈ methods
  · exact .inl ⟨methods, hm, hmem, hstream, if_pos hmem⟩
  · refine .inr ⟨if_neg hmem, fun methods' rest hm' hmem' h => ?_⟩
    obtain ⟨rfl, -⟩ := methodOctets_append_inj hm hm' (hstream.symm.trans h)
    exact hmem hmem'

/-- A message is sent. -/
theorem post_send_inbound {data : List Octet} {msg : String} :
    Post (inbound R timeout) (do
      logD msg
      let res ← hevTaskIoSocketSend (← base).fd data
      if res ≤ 0 then return -1 else return 0 : SysM Int) w fun r w' =>
        r = 0 ∧ w.Settled w' ∧ w'.stream = w.stream := by
  simp only [always_bind, always_op]
  rintro _ w₁ he
  obtain ⟨h₁, hs₁⟩ := settled_of_asks (by trivial) he
  refine ⟨trivial, ?_⟩
  rintro self w₂ he
  obtain ⟨h₂, hs₂⟩ := settled_of_asks (by trivial) he
  refine ⟨trivial, ?_⟩
  rintro res w₃ ⟨⟨auth, -, hhost⟩, hauth, hres, hs₃⟩
  refine ⟨trivial, ?_⟩
  have h₃ : w₂.Settled w₃ := ⟨by rw [hhost], by rw [hhost], hauth⟩
  rw [if_neg (by omega)]
  exact ⟨rfl, (h₁.trans h₂).trans h₃, ((stream_eq hs₃).trans hs₂).trans hs₁⟩

/-- The authenticator holds a user with this name and password. -/
def HevSocks5Authenticator.Accepts (s : HevSocks5Authenticator) (name pass : Str) : Prop :=
  ∃ m user, s.Represents m ∧ m.users.lookup name = some user ∧ (s.users user).pass = pass

theorem HevSocks5Authenticator.accepts_iff {s : HevSocks5Authenticator} {name pass : Str}
    {user : Ptr} (hv : s.Valid) (h : HevSocks5Authenticator.get name s = some (user, s)) :
    s.Accepts name pass ↔ user ≠ 0 ∧ (s.users user).pass = pass := by
  constructor
  · rintro ⟨m, user', hm, hlook, hpass⟩
    obtain ⟨-, rfl⟩ := (ends_lookup hm name).eq_of_run h
    rw [hlook, Option.getD_some]
    exact ⟨get_ne_zero hm hlook, hpass⟩
  · rintro ⟨h0, hpass⟩
    obtain ⟨m, hm⟩ := hv
    obtain ⟨-, rfl⟩ := (ends_lookup hm name).eq_of_run h
    cases hlook : m.users.lookup name with
    | none => exact absurd (by rw [hlook, Option.getD_none]) h0
    | some user' =>
      rw [hlook, Option.getD_some] at hpass
      exact ⟨m, user', hm, hlook, hpass⟩

/-- **The user is accepted**, or not. -/
theorem post_checkUser_inbound {name pass : Str} (hv : w.host.auth.Valid) :
    Post (inbound R timeout) (checkUser name pass) w fun r w' =>
      w'.host.self = w.host.self ∧ w'.host.auth = w.host.auth ∧ w'.stream = w.stream ∧
        (w.host.auth.Accepts name pass ∧ r = 0 ∨ ¬ w.host.auth.Accepts name pass ∧ r = -1) := by
  obtain ⟨user, hget⟩ := hv.get name
  rw [HevSocks5Authenticator.accepts_iff hv hget]
  simp only [checkUser, always_bind, always_op]
  rintro user' w₁ ⟨⟨auth, hget', hhost⟩, hauth₁, hsegments⟩
  have hs₁ : w₁.stream = w.stream := stream_eq hsegments
  rw [hget, Option.some.injEq, Prod.mk.injEq] at hget'
  obtain ⟨rfl, rfl⟩ := hget'
  have hself₁ : w₁.host.self = w.host.self := by rw [hhost]
  refine ⟨trivial, ?_⟩
  rw [always_ite]
  split
  · rename_i h0
    exact ⟨hself₁, hauth₁, hs₁, .inr ⟨fun h => h.1 h0, rfl⟩⟩
  rename_i h0
  simp only [always_bind, always_op]
  rintro users w₂ he
  obtain ⟨h₂, hs₂⟩ := settled_of_asks (by trivial) he
  obtain ⟨⟨husers, -⟩, -⟩ := he
  refine ⟨trivial, ?_⟩
  have hcheck : (users user).checker pass < 0 ↔ (w.host.auth.users user).pass ≠ pass := by
    rw [husers, hauth₁, HevSocks5User.checker_neg]
  rw [always_ite]
  split
  · rename_i hneg
    exact ⟨h₂.self.trans hself₁, h₂.auth.trans hauth₁, hs₂.trans hs₁,
      .inr ⟨fun h => hcheck.1 hneg h.2, rfl⟩⟩
  rename_i hneg
  simp only [always_bind, always_op, always_pure]
  rintro _ w₃ he
  obtain ⟨h₃, hs₃⟩ := settled_of_asks (by trivial) he
  refine ⟨trivial, ?_⟩
  rintro self w₄ he
  obtain ⟨h₄, hs₄⟩ := settled_of_asks (by trivial) he
  refine ⟨trivial, ?_⟩
  rintro _ w₅ he
  obtain ⟨h₅, hs₅⟩ := settled_of_asks (by trivial) he
  refine ⟨trivial, ?_⟩
  rintro _ w₆ ⟨hhost₆, hauth₆, hs₆⟩
  have h := ((h₂.trans h₃).trans h₄).trans h₅
  have hs : w₅.stream = w.stream := by rw [hs₅, hs₄, hs₃, hs₂, hs₁]
  refine ⟨trivial, ?_, ?_, ?_, .inl ⟨⟨h0, ?_⟩, trivial⟩⟩
  · rw [show w₆.host = _ from hhost₆]
    exact h.self.trans hself₁
  · exact hauth₆.trans (h.auth.trans hauth₁)
  · exact (stream_eq hs₆).trans hs
  · exact not_not.1 fun hne => hneg (hcheck.2 hne)

theorem userOctets_eq {name pass : List Octet} {nlen plen : Octet} {s : List Octet}
    (hn : name.length = nlen.toNat) (hp : pass.length = plen.toNat) :
    [authVersion1, nlen] ++ (name ++ [plen] ++ (pass ++ s)) = userOctets name pass ++ s := by
  rw [userOctets, hn, hp, UInt8.ofNat_toNat, UInt8.ofNat_toNat]
  simp

/-- **The login** of a user who is accepted is received, or there is none. -/
theorem post_readAuthUser_inbound (hv : w.host.auth.Valid) :
    Post (inbound R timeout) readAuthUser w fun r w' =>
      w'.host.self = w.host.self ∧ w'.host.auth = w.host.auth ∧
      ((∃ name pass : Str, name.Fits ∧ pass.Fits ∧ w.host.auth.Accepts name pass ∧
          w.stream = userOctets name.octets pass.octets ++ w'.stream ∧ r = 0) ∨
        r = -1 ∧ ∀ (name pass : Str) (rest : List Octet), name.Fits → pass.Fits →
          w.host.auth.Accepts name pass →
            w.stream ≠ userOctets name.octets pass.octets ++ rest) := by
  simp only [readAuthUser, always_bind, always_op]
  rintro _ w₁ he
  obtain ⟨h₁, hs₁⟩ := settled_of_asks (by trivial) he
  refine ⟨trivial, ?_⟩
  rintro self w₂ he
  obtain ⟨h₂, hs₂⟩ := settled_of_asks (by trivial) he
  have hw₂ := h₁.trans h₂
  have hs : w₂.stream = w.stream := hs₂.trans hs₁
  refine ⟨trivial, ?_⟩
  rw [← hs, ← hw₂.self, ← hw₂.auth]
  rw [← hw₂.auth] at hv
  refine (always_bind _ _ _).1 (post_recv rfl (fun w₃ h₃ hlt => ?_) fun head w₃ h₃ hlen hs₃ => ?_)
  · refine ⟨h₃.self, h₃.auth, .inr ⟨rfl, fun name pass rest _ _ _ h => ?_⟩⟩
    rw [h] at hlt
    simp only [userOctets, List.length_append, List.length_cons] at hlt
    omega
  obtain ⟨ver, nlen, rfl⟩ := List.length_eq_two.1 hlen
  simp only [List.getD_cons_zero, List.getD_cons_succ, always_ite, always_pure]
  -- what the stream would be, if it began with a login
  have hbegin : ∀ {name pass : Str} {rest : List Octet}, name.Fits → pass.Fits →
      w₂.stream = userOctets name.octets pass.octets ++ rest → ver = authVersion1 ∧
        nlen.toNat = name.octets.length ∧ w₃.stream =
          name.octets ++ (UInt8.ofNat pass.octets.length :: (pass.octets ++ rest)) := by
    intro name pass rest hname hpass h
    rw [hs₃] at h
    simp only [userOctets, List.cons_append, List.nil_append, List.append_assoc,
      List.cons.injEq] at h
    refine ⟨h.1, ?_, h.2.2⟩
    rw [h.2.1, UInt8.toNat_ofNat', Nat.mod_eq_of_lt hname.2]
  split
  · rename_i hver
    exact ⟨h₃.self, h₃.auth, .inr ⟨trivial, fun name pass rest hname hpass _ h =>
      hver (hbegin hname hpass h).1⟩⟩
  rename_i hver
  obtain rfl : ver = authVersion1 := not_not.1 hver
  split
  · rename_i hzero
    refine ⟨h₃.self, h₃.auth, .inr ⟨trivial, fun name pass rest hname hpass _ h => ?_⟩⟩
    have hlen := (hbegin hname hpass h).2.1
    rw [hzero] at hlen
    exact absurd hname.1 (by simp at hlen; omega)
  rename_i hnlen
  refine post_recv (by push_cast; rfl) (fun w₄ h₄ hlt => ?_) fun name w₄ h₄ hlen₄ hs₄ => ?_
  · refine ⟨(h₃.trans h₄).self, (h₃.trans h₄).auth,
      .inr ⟨rfl, fun name pass rest hname hpass _ h => ?_⟩⟩
    obtain ⟨-, hlen, hrest⟩ := hbegin hname hpass h
    rw [hrest] at hlt
    simp at hlt
    omega
  obtain ⟨name, plen, rfl, hn⟩ := exists_concat_of_length hlen₄
  have hget : (name ++ [plen]).getD nlen.toNat 0 = plen := by simp [← hn]
  dsimp only
  rw [hget]
  have hbegin' : ∀ {name' pass : Str} {rest : List Octet}, name'.Fits → pass.Fits →
      w₂.stream = userOctets name'.octets pass.octets ++ rest →
        plen.toNat = pass.octets.length ∧ w₄.stream = pass.octets ++ rest := by
    intro name' pass rest hname hpass h
    obtain ⟨-, hlen, hrest⟩ := hbegin hname hpass h
    rw [hs₄, List.append_assoc] at hrest
    obtain ⟨-, hrest⟩ := List.append_inj hrest (by omega)
    simp only [List.cons_append, List.nil_append, List.cons.injEq] at hrest
    refine ⟨?_, hrest.2⟩
    rw [hrest.1, UInt8.toNat_ofNat', Nat.mod_eq_of_lt hpass.2]
  have hw₄ := h₃.trans h₄
  split
  · rename_i hzero
    refine ⟨hw₄.self, hw₄.auth, .inr ⟨rfl, fun name pass rest hname hpass _ h => ?_⟩⟩
    have hlen := (hbegin' hname hpass h).1
    rw [hzero] at hlen
    exact absurd hpass.1 (by simp at hlen; omega)
  rename_i hplen
  refine post_recv rfl (fun w₅ h₅ hlt => ?_) fun pass w₅ h₅ hlen₅ hs₅ => ?_
  · refine ⟨(hw₄.trans h₅).self, (hw₄.trans h₅).auth,
      .inr ⟨rfl, fun name pass rest hname hpass _ h => ?_⟩⟩
    obtain ⟨hlen, hrest⟩ := hbegin' hname hpass h
    rw [hrest, List.length_append] at hlt
    omega
  have hw₅ := hw₄.trans h₅
  have hoct : (strOf (name ++ [plen]) nlen).octets = name := List.take_left' hn
  have hoct' : (strOf pass plen).octets = pass := octets_strOf hlen₅
  have hn0 : nlen.toNat ≠ 0 := fun h => hnlen (UInt8.toNat_inj.1 h)
  have hp0 : plen.toNat ≠ 0 := fun h => hplen (UInt8.toNat_inj.1 h)
  have hnlt := nlen.toNat_lt
  have hplt := plen.toNat_lt
  have hfits : (strOf (name ++ [plen]) nlen).Fits := by
    unfold Str.Fits
    rw [hoct]
    omega
  have hfits' : (strOf pass plen).Fits := by
    unfold Str.Fits
    rw [hoct']
    omega
  refine (post_checkUser_inbound (hw₅.auth ▸ hv)).mono ?_
  rintro r w₆ ⟨hself, hauth, hs₆, hr⟩
  rw [hw₅.auth] at hr
  have hstream : w₂.stream = userOctets (strOf (name ++ [plen]) nlen).octets
      (strOf pass plen).octets ++ w₆.stream := by
    rw [hoct, hoct', hs₃, hs₄, hs₅, hs₆]
    exact userOctets_eq hn hlen₅
  refine ⟨hself.trans hw₅.self, hauth.trans hw₅.auth, ?_⟩
  rcases hr with ⟨hacc, rfl⟩ | ⟨hnot, rfl⟩
  · exact .inl ⟨_, _, hfits, hfits', hacc, hstream, rfl⟩
  · refine .inr ⟨rfl, fun name' pass' rest hname hpass hacc h => hnot ?_⟩
    obtain ⟨rfl, rfl, -⟩ := userOctets_append_inj hfits hfits' hname hpass (hstream.symm.trans h)
    exact hacc

/-- The octets `l` are a greeting that the server accepts, and the login that it asks for. -/
def Host.LogsIn (w : Host) (l : List Octet) : Prop :=
  ∃ methods : List Octet, methods.length < 256 ∧ w.server.method ∈ methods ∧
    (w.server.obj = .null ∧ l = methodOctets methods ∨
      w.server.obj ≠ .null ∧ ∃ name pass : Str, name.Fits ∧ pass.Fits ∧
        w.auth.Accepts name pass ∧ l = methodOctets methods ++ userOctets name.octets pass.octets)

/-- **The authentication stage** succeeds if the stream begins so, and fails if not. -/
theorem post_auth_inbound (hv : w.host.auth.Valid) :
    Post (inbound R timeout) HevSocks5Server.auth w fun r w' =>
      w'.host.self = w.host.self ∧
      ((∃ l, w.host.LogsIn l ∧ w.stream = l ++ w'.stream ∧ r = 0) ∨
        r = -1 ∧ ∀ l rest, w.host.LogsIn l → w.stream ≠ l ++ rest) := by
  unfold HevSocks5Server.auth
  refine post_readAuthMethod_inbound.bind ?_
  rintro method w₁ ⟨h₁, hmethod⟩
  refine post_send_inbound.bind ?_
  rintro _ w₂ ⟨rfl, h₂, hs₂⟩
  have hw₂ := h₁.trans h₂
  rw [if_neg (by decide)]
  rcases hmethod with ⟨methods, hlen, hmem, hs₁, rfl⟩ | ⟨rfl, hnone⟩
  swap
  · rw [if_neg (by decide), if_neg (by decide)]
    refine ⟨hw₂.self, .inr ⟨rfl, fun l rest hl h => ?_⟩⟩
    obtain ⟨methods, hlen, hmem, ⟨-, rfl⟩ | ⟨-, name, pass, -, -, -, rfl⟩⟩ := hl
    · exact hnone methods rest hlen hmem h
    · exact hnone methods (userOctets name.octets pass.octets ++ rest) hlen hmem (by simpa using h)
  rw [← hs₂] at hs₁
  by_cases hobj : w.host.server.obj = .null
  · have hmethod : w.host.server.method = authMethodNone := if_neg (not_not.2 hobj)
    rw [hmethod, if_pos (by rfl)]
    exact ⟨hw₂.self, .inl ⟨_, ⟨methods, hlen, hmem, .inl ⟨hobj, rfl⟩⟩, hs₁, rfl⟩⟩
  · have hmethod : w.host.server.method = authMethodUser := if_pos hobj
    rw [hmethod, if_neg (by decide), if_pos (by rfl)]
    refine (post_readAuthUser_inbound (hw₂.auth.symm ▸ hv)).bind ?_
    rintro r w₃ ⟨hself₃, hauth₃, hr⟩
    refine post_send_inbound.bind ?_
    rintro _ w₄ ⟨rfl, h₄, hs₄⟩
    have hself := (h₄.self.trans hself₃).trans hw₂.self
    rw [hw₂.auth] at hr
    rcases hr with ⟨name, pass, hname, hpass, hacc, hs₃, rfl⟩ | ⟨rfl, hnone⟩
    · rw [if_neg (by decide)]
      refine ⟨hself, .inl ⟨_, ⟨methods, hlen, hmem,
        .inr ⟨hobj, name, pass, hname, hpass, hacc, rfl⟩⟩, ?_, rfl⟩⟩
      rw [hs₁, hs₃, hs₄, List.append_assoc]
    · rw [or_neg_one, if_pos (by decide)]
      refine ⟨hself, .inr ⟨rfl, fun l rest hl h => ?_⟩⟩
      obtain ⟨methods', hlen', -, ⟨hnull, -⟩ | ⟨-, name, pass, hname, hpass, hacc, rfl⟩⟩ := hl
      · exact hobj hnull
      · rw [hs₁, List.append_assoc] at h
        obtain ⟨-, h⟩ := methodOctets_append_inj hlen hlen' h
        exact hnone name pass rest hname hpass hacc h

/-- **The request**, for an address that is looked up, is received, or there is none. -/
theorem post_readRequest_inbound :
    Post (inbound R timeout) (readRequest .succ .zero) w fun req w' =>
      (∃ cmd rsv dest saddr, Endpoint.sockaddr R w.host.self.addrFamily dest = some saddr ∧
          w.stream = requestOctets cmd rsv dest ++ w'.stream ∧ req = ⟨0, some cmd, .succ, saddr⟩) ∨
        (req.res < 0 ∨ req.rep ≠ .succ) ∧ ∀ cmd rsv dest saddr rest,
          Endpoint.sockaddr R w.host.self.addrFamily dest = some saddr →
            w.stream ≠ requestOctets cmd rsv dest ++ rest := by
  simp only [readRequest, always_bind, always_op]
  rintro _ w₁ he
  obtain ⟨h₁, hs₁⟩ := settled_of_asks (by trivial) he
  refine ⟨trivial, ?_⟩
  rintro self w₂ he
  obtain ⟨h₂, hs₂⟩ := settled_of_asks (by trivial) he
  have hw₂ := h₁.trans h₂
  have hs : w₂.stream = w.stream := hs₂.trans hs₁
  refine ⟨trivial, ?_⟩
  rw [← hs, ← hw₂.self]
  refine (always_bind _ _ _).1 (post_recv rfl (fun w₃ h₃ hlt => ?_) fun head w₃ h₃ hlen hs₃ => ?_)
  · refine .inr ⟨.inl (by decide), fun cmd rsv dest saddr rest _ h => ?_⟩
    obtain ⟨atype, second, l, hdest, -⟩ := dest.exists_second
    rw [h, requestOctets, hdest] at hlt
    simp at hlt
    omega
  obtain ⟨ver, cmd, rsv, atype, second, rfl⟩ := exists_five hlen
  simp only [List.getD_cons_zero, List.getD_cons_succ]
  -- what the stream would be, if it began with a request
  have hbegin : ∀ {cmd' rsv' : Octet} {dest : Endpoint} {rest : List Octet},
      w₂.stream = requestOctets cmd' rsv' dest ++ rest → ver = version5 ∧
        ∃ l, addrRest atype second = some l.length ∧ dest.octets = atype :: second :: l ∧
          w₃.stream = l ++ rest := by
    intro cmd' rsv' dest rest h
    obtain ⟨atype', second', l, hdest, hrest⟩ := dest.exists_second
    rw [hs₃, requestOctets, hdest] at h
    simp only [List.cons_append, List.nil_append, List.cons.injEq] at h
    obtain ⟨rfl, -, -, rfl, rfl, h⟩ := h
    exact ⟨rfl, l, hrest, hdest, h⟩
  split
  · rename_i hver
    exact .inr ⟨.inr (by decide), fun cmd rsv dest saddr rest _ h => hver (hbegin h).1⟩
  rename_i hver
  obtain rfl : ver = version5 := not_not.1 hver
  cases hrest : addrRest atype second with
  | none =>
    refine .inr ⟨.inr (by decide), fun cmd rsv dest saddr rest _ h => ?_⟩
    obtain ⟨-, l, hl, -⟩ := hbegin h
    rw [hrest] at hl
    cases hl
  | some addrlen =>
    refine post_recv rfl (fun w₄ h₄ hlt => ?_) fun l w₄ h₄ hlen₄ hs₄ => ?_
    · refine .inr ⟨.inr (by decide), fun cmd rsv dest saddr rest _ h => ?_⟩
      obtain ⟨-, l, hl, -, hs⟩ := hbegin h
      rw [hrest, Option.some.injEq] at hl
      rw [hs, List.length_append] at hlt
      omega
    simp only [always_bind, always_op]
    rintro self' w₅ he
    obtain ⟨h₅, hs₅⟩ := settled_of_asks (by trivial) he
    have hself : self'.addrFamily = w₂.host.self.addrFamily := by
      obtain ⟨⟨hself, -⟩, -⟩ := he
      rw [hself, (h₃.trans h₄).self]
    refine ⟨trivial, ?_⟩
    obtain ⟨dest, hdest⟩ : ∃ e : Endpoint, e.octets = atype :: second :: l := by
      refine Endpoint.exists_octets_eq ?_
      rw [Endpoint.addrRest_eq_some.1 hrest]
      simp [hlen₄]
      omega
    have hserves : R.Serves (inbound R timeout) fun w' => w'.stream = w₅.stream := by
      rintro w w' β o b ho hw ⟨-, -, hreliable⟩
      cases o
      case inetPton4 | inetPton6 | getaddrinfo =>
        exact ⟨hreliable.1, (stream_eq hreliable.2).trans hw⟩
      all_goals exact ho.elim
    have hlook := hserves.post_addrIntoSockaddr6 (.ofList (atype :: second :: l)) .zero
      self'.addrFamily rfl
    rw [← hdest, Endpoint.destination_octets, hself] at hlook
    rw [← hdest, hself]
    refine hlook.mono ?_
    rintro ⟨ret, saddr, family⟩ w₆ ⟨hs₆, hsaddr⟩
    dsimp only at hsaddr ⊢
    have hstream : w₂.stream = requestOctets cmd rsv dest ++ w₆.stream := by
      rw [hs₃, hs₄, hs₆, hs₅, requestOctets, hdest]
      simp
    rw [always_ite]
    split
    · rename_i hneg
      rw [if_pos hneg] at hsaddr
      have hrep : HevSocks5ResRep.addr ≠ .succ := by decide
      refine .inr ⟨.inr hrep, fun cmd' rsv' dest' saddr' rest hsaddr' h => ?_⟩
      obtain ⟨-, -, rfl, -⟩ := requestOctets_append_inj (hstream.symm.trans h)
      rw [← hsaddr] at hsaddr'
      cases hsaddr'
    · rename_i hneg
      rw [if_neg hneg] at hsaddr
      simp only [always_bind, always_op, always_pure]
      rintro self'' w₇ he
      obtain ⟨-, hs₇⟩ := settled_of_asks (by trivial) he
      refine ⟨trivial, ?_⟩
      rintro _ w₈ ⟨-, -, hs₈⟩
      refine ⟨trivial, .inl ⟨cmd, rsv, dest, saddr, hsaddr.symm, ?_, rfl⟩⟩
      rw [hstream, stream_eq hs₈, hs₇]

/-! ## The octets of the handshake -/

/-- The server accepts what the client says, and the address is looked up to `saddr`. -/
structure Hello.Accepted (R : Resolver) (w : Host) (m : Hello) (saddr : SockAddrIn6) : Prop where
  methods_lt : m.methods.length < 256
  method_mem : w.server.method ∈ m.methods
  login : match m.login with
    | none => w.server.obj = .null
    | some (name, pass) =>
      w.server.obj ≠ .null ∧ name.Fits ∧ pass.Fits ∧ w.auth.Accepts name pass
  dest : m.dest.sockaddr R w.self.addrFamily = some saddr

theorem Hello.Accepted.logsIn {w : Host} {m : Hello} {saddr : SockAddrIn6}
    (h : m.Accepted R w saddr) : w.LogsIn (methodOctets m.methods ++ m.loginOctets) := by
  have hlogin := h.login
  refine ⟨m.methods, h.methods_lt, h.method_mem, ?_⟩
  unfold loginOctets
  rcases hm : m.login with _ | ⟨name, pass⟩
  · rw [hm] at hlogin
    exact .inl ⟨hlogin, List.append_nil _⟩
  · rw [hm] at hlogin
    exact .inr ⟨hlogin.1, name, pass, hlogin.2.1, hlogin.2.2.1, hlogin.2.2.2, rfl⟩

theorem Host.LogsIn.exists_accepted {w : Host} {l : List Octet} (h : w.LogsIn l)
    (cmd : Octet) {rsv : Octet} {dest : Endpoint} {saddr : SockAddrIn6}
    (hdest : dest.sockaddr R w.self.addrFamily = some saddr) :
    ∃ m : Hello, m.Accepted R w saddr ∧ m.octets = l ++ requestOctets cmd rsv dest ∧
      m.cmd = cmd := by
  obtain ⟨methods, hlen, hmem, ⟨hobj, rfl⟩ | ⟨hobj, name, pass, hname, hpass, hacc, rfl⟩⟩ := h
  · exact ⟨⟨methods, none, cmd, rsv, dest⟩, ⟨hlen, hmem, hobj, hdest⟩, rfl, rfl⟩
  · refine ⟨⟨methods, some (name, pass), cmd, rsv, dest⟩,
      ⟨hlen, hmem, ⟨hobj, hname, hpass, hacc⟩, hdest⟩, ?_, rfl⟩
    simp [Hello.octets, Hello.loginOctets]

/-- The octets of a login are determined by the stream. -/
theorem Host.LogsIn.append_inj {w : Host} {l l' r r' : List Octet} (h : w.LogsIn l)
    (h' : w.LogsIn l') (heq : l ++ r = l' ++ r') : l = l' ∧ r = r' := by
  obtain ⟨methods, hlen, -, hl⟩ := h
  obtain ⟨methods', hlen', -, hl'⟩ := h'
  rcases hl with ⟨hobj, rfl⟩ | ⟨hobj, name, pass, hname, hpass, -, rfl⟩
  · rcases hl' with ⟨-, rfl⟩ | ⟨hobj', -⟩
    · obtain ⟨rfl, rfl⟩ := methodOctets_append_inj hlen hlen' heq
      exact ⟨rfl, rfl⟩
    · exact absurd hobj hobj'
  · rcases hl' with ⟨hobj', -⟩ | ⟨-, name', pass', hname', hpass', -, rfl⟩
    · exact absurd hobj' hobj
    · rw [List.append_assoc, List.append_assoc] at heq
      obtain ⟨rfl, hbody⟩ := methodOctets_append_inj hlen hlen' heq
      obtain ⟨rfl, rfl, rfl⟩ := userOctets_append_inj hname hpass hname' hpass' hbody
      exact ⟨rfl, rfl⟩

/-- What the octets of a handshake say is determined by the stream. -/
theorem Hello.Accepted.octets_inj {w : Host} {m m' : Hello} {saddr saddr' : SockAddrIn6}
    {r r' : List Octet} (h : m.Accepted R w saddr) (h' : m'.Accepted R w saddr')
    (heq : m.octets ++ r = m'.octets ++ r') :
    m.octets = m'.octets ∧ m.cmd = m'.cmd ∧ saddr = saddr' ∧ r = r' := by
  simp only [octets, ← List.append_assoc] at heq ⊢
  rw [List.append_assoc (_ ++ _), List.append_assoc (_ ++ _)] at heq
  obtain ⟨hlogin, hreq⟩ := h.logsIn.append_inj h'.logsIn heq
  obtain ⟨hcmd, hrsv, hdest, rfl⟩ := requestOctets_append_inj hreq
  refine ⟨by rw [hlogin, hcmd, hrsv, hdest], hcmd, ?_, rfl⟩
  have hsaddr := h.dest
  rw [hdest, h'.dest, Option.some.injEq] at hsaddr
  exact hsaddr.symm

/-- Octets are received or still to come. -/
theorem read_append_stream {β : Type} {o : Op β} {b : β} (he : inbound R timeout w o b w') :
    w'.host.read ++ w'.stream = w.host.read ++ w.stream := by
  obtain ⟨hhost, -, hreliable⟩ := he
  cases o
  case recv =>
    obtain ⟨-, -, auth, -, hhost⟩ := hhost
    obtain ⟨hdata, hsegments, -⟩ := hreliable
    simp only [hhost, stream, hsegments, hdata, List.append_assoc, gets_append]
  case send =>
    obtain ⟨auth, -, hhost⟩ := hhost
    rw [hhost, stream_eq hreliable.2]
  case authenticator =>
    obtain ⟨auth, -, hhost⟩ := hhost
    rw [hhost, stream_eq hreliable]
  case undefCmd =>
    rw [show w'.host = _ from hhost, stream_eq hreliable]
  case inetPton4 | inetPton6 | getaddrinfo | tcpTimeout =>
    rw [(talk_of_silent (by trivial) hhost).read_eq, stream_eq hreliable.2, List.append_nil]
  all_goals
    rw [(talk_of_silent (by trivial) hhost).read_eq, stream_eq hreliable, List.append_nil]

theorem post_read_append_stream {α : Type} (x : SysM α) :
    Post (inbound R timeout) x w fun _ w' =>
      w'.host.read ++ w'.stream = w.host.read ++ w.stream :=
  always_of_step (I := fun w' : Inbound => w'.host.read ++ w'.stream = w.host.read ++ w.stream)
    (fun hw he => ⟨trivial, (read_append_stream he).trans hw⟩) x rfl

/-- What the handshake has received and what it goes on with. -/
structure ExactlyParsed (R : Resolver) (w : Inbound) (req : Option Request) (w' : Inbound) :
    Prop where
  /-- a command is executed exactly for a stream that begins with an accepted `Hello` -/
  executes : (∃ r ∈ req, r.rep = .succ) ↔ ∃ (m : Hello) (saddr : SockAddrIn6) (rest : List Octet),
    m.Accepted R w.host saddr ∧ w.stream = m.octets ++ rest
  /-- and then these octets were received, the rest was not, and the request is the one of it -/
  exact : ∀ (m : Hello) (saddr : SockAddrIn6) (rest : List Octet), m.Accepted R w.host saddr →
    w.stream = m.octets ++ rest →
      req = some ⟨0, some m.cmd, .succ, saddr⟩ ∧ w'.host.read = m.octets ∧ w'.stream = rest

theorem post_handshakeRequest (hv : w.host.auth.Valid) :
    Post (inbound R timeout) handshakeRequest w fun req w' =>
      (∃ (m : Hello) (saddr : SockAddrIn6), m.Accepted R w.host saddr ∧
          w.stream = m.octets ++ w'.stream ∧ req = some ⟨0, some m.cmd, .succ, saddr⟩) ∨
        (∀ r ∈ req, r.rep ≠ .succ) ∧ ∀ (m : Hello) (saddr : SockAddrIn6) (rest : List Octet),
          m.Accepted R w.host saddr → w.stream ≠ m.octets ++ rest := by
  simp only [handshakeRequest, hevSocks5SetTimeout, always_bind, always_op]
  rintro _ w₁ he
  obtain ⟨h₁, hs₁⟩ := settled_of_asks (by trivial) he
  refine ⟨trivial, ?_⟩
  rintro t w₂ he
  obtain ⟨h₂, hs₂⟩ := settled_of_asks (by trivial) he
  refine ⟨trivial, ?_⟩
  rintro self w₃ he
  obtain ⟨h₃, hs₃⟩ := settled_of_asks (by trivial) he
  obtain ⟨⟨hself, -⟩, -⟩ := he
  have h := (h₁.trans h₂).trans h₃
  have hs : w₃.stream = w.stream := (hs₃.trans hs₂).trans hs₁
  refine ⟨trivial, ?_⟩
  -- the timeout is set, or it is not
  refine Always.mono (Q := fun _ (w' : Inbound) =>
    w'.host.self.addrFamily = w.host.self.addrFamily ∧ w'.host.server = w.host.server ∧
      w'.host.auth = w.host.auth ∧ w'.stream = w.stream) ?_ ?_
  · rw [always_ite]
    split
    · rintro _ w₄ ⟨hhost, hauth, hs₄⟩
      have hhost : w₄.host = _ := hhost
      refine ⟨trivial, ?_, ?_, hauth.trans h.auth, (stream_eq hs₄).trans hs⟩
      · rw [hhost]
        show self.addrFamily = _
        rw [hself, (h₁.trans h₂).self]
      · rw [hhost]
        exact h.server
    · exact ⟨congrArg HevSocks5Obj.addrFamily h.self, h.server, h.auth, hs⟩
  rintro _ w₄ ⟨hfamily, hserver, hauth, hs₄⟩
  have hlogs : ∀ l, w₄.host.LogsIn l ↔ w.host.LogsIn l := by
    intro l
    unfold Host.LogsIn
    rw [hserver, hauth]
  refine (post_auth_inbound (hauth.symm ▸ hv)).mono ?_
  rintro res w₅ ⟨hself₅, ⟨l, hl, hs₅, rfl⟩ | ⟨rfl, hnone⟩⟩
  swap
  · rw [if_pos (by decide)]
    refine .inr ⟨by simp, fun m saddr rest hm heq => ?_⟩
    refine hnone _ (requestOctets m.cmd m.rsv m.dest ++ rest) ((hlogs _).2 hm.logsIn) ?_
    rw [hs₄, heq, Hello.octets]
    simp
  rw [if_neg (by decide)]
  have hl := (hlogs l).1 hl
  rw [hs₄] at hs₅
  refine post_readRequest_inbound.bind ?_
  rw [hself₅, hfamily]
  rintro req w₆ (⟨cmd, rsv, dest, saddr, hsaddr, hs₆, rfl⟩ | ⟨hfail, hnone⟩)
  · rw [if_neg (by simp)]
    obtain ⟨m, hm, hoct, rfl⟩ := hl.exists_accepted cmd hsaddr
    refine .inl ⟨m, saddr, hm, ?_, rfl⟩
    rw [hs₅, hs₆, hoct, List.append_assoc]
  · have hnot : ∀ (m : Hello) (saddr : SockAddrIn6) (rest : List Octet),
        m.Accepted R w.host saddr → w.stream ≠ m.octets ++ rest := by
      intro m saddr rest hm heq
      have heq' : l ++ w₅.stream = methodOctets m.methods ++ m.loginOctets ++
          (requestOctets m.cmd m.rsv m.dest ++ rest) := by
        rw [← hs₅, heq, Hello.octets]
        simp
      obtain ⟨-, hreq⟩ := hl.append_inj hm.logsIn heq'
      exact hnone _ _ _ _ _ hm.dest hreq
    rw [always_ite]
    split
    · exact .inr ⟨by simp, hnot⟩
    · rename_i hneg
      refine .inr ⟨fun r hr => ?_, hnot⟩
      obtain rfl := Option.some.inj hr
      exact hfail.resolve_left hneg

theorem post_exactlyParsed (hv : w.host.auth.Valid) (hread : w.host.read = []) :
    Post (inbound R timeout) handshakeRequest w fun req w' => ExactlyParsed R w req w' := by
  refine ((post_handshakeRequest hv).and (post_read_append_stream _)).mono ?_
  rw [hread, List.nil_append]
  rintro req w' ⟨⟨m, saddr, hm, hs, rfl⟩ | ⟨hreq, hnone⟩, hkeep⟩
  · refine ⟨iff_of_true ⟨_, rfl, rfl⟩ ⟨m, saddr, _, hm, hs⟩, fun m' saddr' rest hm' hs' => ?_⟩
    obtain ⟨hoct, hcmd, rfl, rfl⟩ := hm.octets_inj hm' (hs.symm.trans hs')
    rw [hs', ← hoct] at hkeep
    exact ⟨by rw [hcmd], by rw [← hoct, List.append_cancel_right hkeep], rfl⟩
  · refine ⟨iff_of_false ?_ ?_, fun m saddr rest hm hs => absurd hs (hnone m saddr rest hm)⟩
    · rintro ⟨r, hr, hsucc⟩
      exact hreq r hr hsucc
    · rintro ⟨m, saddr, rest, hm, hs⟩
      exact hnone m saddr rest hm hs

end

/-! ## A client that connects -/

/-- A new server with no user, and a client that connects to 192.0.2.7, port 53, and goes on. -/
def plainInbound : Inbound where
  host :=
    { self := (construct 3).1, server := (construct 3).2,
      auth := .new (fun _ => ⟨0, 0, 0⟩) (fun _ => ⟨⟨[], by decide⟩, ⟨[], by decide⟩⟩) fun _ => 0,
      looked := [], entered := [], read := [], sends := [], opened := [3], name := fun _ => none,
      undef := false }
  segments := [[5], [1, 0, 5, 1, 0], [1, 192, 0, 2, 7, 0], [], [53, 104]]

theorem size_host : #[(192 : Octet), 0, 2, 7].size = 4 := rfl

def plainHello : Hello := ⟨[0], none, 1, 0, .ipv4 ⟨#[192, 0, 2, 7], size_host⟩ (0, 53)⟩

def noResolver : Resolver := ⟨fun _ => none, fun _ => none, fun _ _ => none⟩

end HevSocks5
