/-
  The server of a meeting.

  One specification for each of its functions, as for the client.  Only the
  commands use sockets, and a command succeeds just when none of them fails.
-/
import HevSocks5.MeetingClient

namespace HevSocks5

open Interact Interact.Prog Sys HevSocks5Server

section
variable {R : Resolver} {w w' : ServerSide} {s out : List Octet}

abbrev ServerMeets (R : Resolver) {α : Type} (x : SysM α) (f : Fed ServerSide Octet)
    (Q : α → Fed ServerSide Octet → Prop) : Prop :=
  Meets (serverWiring R).fed (serverWiring R).Can x f Q

/-- The calls of a server that are answered whatever happens. -/
def Served {β : Type} (o : Op β) : Prop :=
  match o with
  | .base | .setBase _ | .server | .setServer _ | .users | .ref _ | .unref _ | .logD _ => True
  | .socket _ | .setsockopt .. | .binder .. | .socketConnect .. | .bind .. => True
  | .getsockname _ | .addFd _ | .modFd _ | .delFd _ | .close _ => True
  | .connectTimeout | .tcpTimeout => True
  | .inetPton4 _ | .inetPton6 _ | .getaddrinfo .. => True
  | _ => False

theorem server_can {f : Fed ServerSide Octet} {β : Type} {o : Op β} (ho : Served o) :
    (serverWiring R).Can f o := by
  match o with
  | .base => exact ⟨f.world.self, f.world, rfl, rfl⟩
  | .setBase self => exact ⟨(), _, rfl⟩
  | .server => exact ⟨f.world.server, f.world, rfl, rfl⟩
  | .setServer server => exact ⟨(), _, rfl⟩
  | .users => exact ⟨f.world.auth.users, f.world, rfl, rfl⟩
  | .ref obj => exact ⟨(), _, rfl⟩
  | .unref obj => exact ⟨(), _, rfl⟩
  | .logD msg => exact ⟨(), _, rfl⟩
  | .socket type => exact ⟨0, _, rfl⟩
  | .setsockopt fd opt => exact ⟨0, _, rfl⟩
  | .binder fd addr => exact ⟨0, _, rfl⟩
  | .socketConnect fd addr => exact ⟨0, _, rfl⟩
  | .bind fd addr => exact ⟨0, _, rfl⟩
  | .getsockname fd => exact ⟨(0, .zero), _, rfl⟩
  | .addFd fd => exact ⟨0, _, rfl⟩
  | .modFd fd => exact ⟨0, _, rfl⟩
  | .delFd fd => exact ⟨(), _, rfl⟩
  | .close fd => exact ⟨(), _, rfl⟩
  | .connectTimeout => exact ⟨0, _, rfl⟩
  | .tcpTimeout => exact ⟨0, _, rfl⟩
  | .inetPton4 name => exact ⟨R.pton4 name, _, rfl, rfl⟩
  | .inetPton6 name => exact ⟨R.pton6 name, _, rfl, rfl⟩
  | .getaddrinfo name family => exact ⟨R.lookup name family, _, rfl, rfl⟩

theorem meets_serverTimeout (timeout : Int) :
    ServerMeets R (hevSocks5SetTimeout timeout) ⟨w, s, out⟩ fun _ f =>
      ∃ timeout, f = ⟨{ w with self := { w.self with timeout } }, s, out⟩ := by
  unfold hevSocks5SetTimeout
  refine Wiring.meets_own rfl (server_can trivial) ?_
  rintro _ w₁ ⟨rfl, rfl⟩
  rw [meets_ite]
  split
  · refine Wiring.meets_own rfl (server_can trivial) ?_
    rintro _ _ rfl
    exact ⟨timeout, rfl⟩
  · exact ⟨w₁.self.timeout, rfl⟩

/-! ## The authentication stage -/

theorem meets_greeted (m : Octet) :
    ServerMeets R readAuthMethod ⟨w, [version5, 1, m] ++ s, out⟩ fun r f =>
      r = (if m = w.server.method then (m.toNat : Int) else -1) ∧ f = ⟨w, s, out⟩ := by
  unfold readAuthMethod
  refine Wiring.meets_own rfl (server_can trivial) ?_
  rintro _ _ rfl
  refine Wiring.meets_own rfl (server_can trivial) ?_
  rintro _ _ ⟨rfl, rfl⟩
  have hin : [version5, 1, m] ++ s = [version5, 1] ++ ([m] ++ s) := rfl
  rw [hin]
  refine Wiring.meets_take rfl rfl ?_
  rw [if_neg (by simp), if_neg (by simp)]
  refine Wiring.meets_take rfl rfl ?_
  rw [if_neg (by simp)]
  refine Wiring.meets_own rfl (server_can trivial) ?_
  rintro _ w₁ ⟨rfl, rfl⟩
  refine ⟨?_, rfl⟩
  show methodLoop w₁.server.method [m] = _
  rw [methodLoop]
  split
  case isTrue h => rw [h]
  case isFalse => rfl

theorem meets_select (method : Int) :
    ServerMeets R (writeAuthMethod method) ⟨w, s, out⟩ fun r f =>
      r = 0 ∧ f = ⟨w, s, out ++ [version5, UInt8.ofInt method]⟩ := by
  unfold writeAuthMethod
  refine Wiring.meets_own rfl (server_can trivial) ?_
  rintro _ _ rfl
  refine Wiring.meets_own rfl (server_can trivial) ?_
  rintro _ _ ⟨rfl, rfl⟩
  refine Wiring.meets_put rfl ?_
  exact ⟨rfl, rfl⟩

theorem meets_accept (res : Int) :
    ServerMeets R (writeAuthUser res) ⟨w, s, out⟩ fun r f =>
      r = 0 ∧ f = ⟨w, s, out ++ [1, UInt8.ofInt res]⟩ := by
  unfold writeAuthUser
  refine Wiring.meets_own rfl (server_can trivial) ?_
  rintro _ _ rfl
  refine Wiring.meets_own rfl (server_can trivial) ?_
  rintro _ _ ⟨rfl, rfl⟩
  refine Wiring.meets_put rfl ?_
  exact ⟨rfl, rfl⟩

/-- **The user is accepted**, or not. -/
theorem meets_checked {name pass : Str} (hv : w.auth.Valid) :
    ServerMeets R (checkUser name pass) ⟨w, s, out⟩ fun r f =>
      (w.auth.Accepts name pass ∧ r = 0 ∨ ¬ w.auth.Accepts name pass ∧ r = -1) ∧
        ∃ server, f = ⟨{ w with server }, s, out⟩ := by
  obtain ⟨user, hget⟩ := hv.get name
  rw [HevSocks5Authenticator.accepts_iff hv hget]
  unfold checkUser
  refine Wiring.meets_own rfl ⟨user, w, w.auth, hget, rfl⟩ ?_
  rintro user' _ ⟨auth, hget', rfl⟩
  rw [hget, Option.some.injEq, Prod.mk.injEq] at hget'
  obtain ⟨rfl, rfl⟩ := hget'
  rw [meets_ite]
  split
  case isTrue h0 => exact ⟨.inr ⟨fun h => h.1 h0, rfl⟩, w.server, rfl⟩
  case isFalse h0 =>
    refine Wiring.meets_own rfl (server_can trivial) ?_
    rintro _ w₁ ⟨rfl, rfl⟩
    dsimp only
    have hcheck := HevSocks5User.checker_neg (w.auth.users user) pass
    rw [meets_ite]
    split
    case isTrue hneg =>
      exact ⟨.inr ⟨fun h => hcheck.1 hneg h.2, rfl⟩, w.server, rfl⟩
    case isFalse hneg =>
      have hpass : (w.auth.users user).pass = pass := not_not.1 fun hne => hneg (hcheck.2 hne)
      refine Wiring.meets_own rfl (server_can trivial) ?_
      rintro _ _ rfl
      refine Wiring.meets_own rfl (server_can trivial) ?_
      rintro _ w₂ ⟨rfl, rfl⟩
      refine Wiring.meets_own rfl (server_can trivial) ?_
      rintro _ _ rfl
      refine Wiring.meets_own rfl (server_can trivial) ?_
      rintro _ _ rfl
      exact ⟨.inl ⟨⟨h0, hpass⟩, rfl⟩, _, rfl⟩

theorem meets_user {name pass : Str} (hn : name.Fits) (hp : pass.Fits) (hv : w.auth.Valid) :
    ServerMeets R readAuthUser ⟨w, userOctets name.octets pass.octets ++ s, out⟩ fun r f =>
      (w.auth.Accepts name pass ∧ r = 0 ∨ ¬ w.auth.Accepts name pass ∧ r = -1) ∧
        ∃ server, f = ⟨{ w with server }, s, out⟩ := by
  have hnlen : (UInt8.ofNat name.octets.length).toNat = name.octets.length := by
    rw [UInt8.toNat_ofNat', Nat.mod_eq_of_lt hn.2]
  have hplen : (UInt8.ofNat pass.octets.length).toNat = pass.octets.length := by
    rw [UInt8.toNat_ofNat', Nat.mod_eq_of_lt hp.2]
  have hzero {l : List Octet} (hlen : (UInt8.ofNat l.length).toNat = l.length)
      (h : 0 < l.length) : UInt8.ofNat l.length ≠ 0 := by
    intro h0
    rw [h0] at hlen
    exact absurd hlen (Nat.ne_of_lt h)
  have hoctets : userOctets name.octets pass.octets ++ s =
      [authVersion1, UInt8.ofNat name.octets.length] ++
        ((name.octets ++ [UInt8.ofNat pass.octets.length]) ++ (pass.octets ++ s)) := by
    simp [userOctets]
  have hname : strOf (name.octets ++ [UInt8.ofNat pass.octets.length])
      (UInt8.ofNat name.octets.length) = name := Str.ext_octets (List.take_left' hnlen.symm)
  have hpass : strOf pass.octets (UInt8.ofNat pass.octets.length) = pass :=
    Str.ext_octets (List.take_of_length_le (Nat.le_of_eq hplen.symm))
  rw [hoctets]
  unfold readAuthUser
  refine Wiring.meets_own rfl (server_can trivial) ?_
  rintro _ _ rfl
  refine Wiring.meets_own rfl (server_can trivial) ?_
  rintro _ _ ⟨rfl, rfl⟩
  refine Wiring.meets_take rfl rfl ?_
  rw [if_neg (by simp), if_neg (by simp)]
  simp only [List.getD_cons_zero, List.getD_cons_succ, hnlen]
  rw [if_neg (hzero hnlen hn.1)]
  refine Wiring.meets_take rfl (by simp) ?_
  have hget : (name.octets ++ [UInt8.ofNat pass.octets.length]).getD name.octets.length 0 =
      UInt8.ofNat pass.octets.length := by simp
  rw [if_neg (by simp)]
  dsimp only
  rw [hget, if_neg (hzero hplen hp.1), hplen]
  refine Wiring.meets_take rfl rfl ?_
  rw [if_neg (by simp), hname, hpass]
  exact meets_checked hv

/-! ## The request -/

/-- The lookups do nothing else. -/
theorem meets_lookup (addr : Mem) (saddr : SockAddrIn6) (family : HevSocks5AddrFamily) :
    ServerMeets R (hevSocks5AddrIntoSockaddr6 addr saddr family) ⟨w, s, out⟩ fun r f =>
      f = ⟨w, s, out⟩ ∧ (if r.1 < 0 then none else some r.2.1) = R.destination family addr := by
  have hserves : R.Serves (serverWiring R).fed fun f => f = ⟨w, s, out⟩ := by
    rintro f f' β o b ho rfl he
    cases o <;> first | exact ho.elim | skip
    case inetPton4 =>
      obtain ⟨w', ⟨hb, rfl⟩, rfl⟩ := he
      exact ⟨hb, rfl⟩
    case inetPton6 =>
      obtain ⟨w', ⟨hb, rfl⟩, rfl⟩ := he
      exact ⟨hb, rfl⟩
    case getaddrinfo =>
      obtain ⟨w', ⟨hb, rfl⟩, rfl⟩ := he
      exact ⟨hb, rfl⟩
  have hcan : ServerMeets R (hevSocks5AddrIntoSockaddr6 addr saddr family) ⟨w, s, out⟩
      fun _ _ => True := by
    refine (only_hevSocks5AddrIntoSockaddr6 addr saddr family).meets (I := fun _ => True) ?_ trivial
    intro f β o ho _
    refine ⟨server_can ?_, fun _ _ _ => trivial⟩
    cases o <;> first | exact ho.elim | trivial
  exact (hcan.and (hserves.post_addrIntoSockaddr6 addr saddr family rfl)).mono fun _ _ h => h.2

/-- **The request** is resolved, or not. -/
theorem meets_readRequest {cmd rsv : Octet} {dest : Endpoint} (addr : SockAddrIn6) :
    ServerMeets R (readRequest .succ addr) ⟨w, requestOctets cmd rsv dest ++ s, out⟩ fun req f =>
      req.res = 0 ∧
      (∃ addrFamily, f = ⟨{ w with self := { w.self with addrFamily } }, s, out⟩) ∧
      ((∃ saddr, dest.sockaddr R w.self.addrFamily = some saddr ∧
          req = ⟨0, some cmd, .succ, saddr⟩) ∨
        dest.sockaddr R w.self.addrFamily = none ∧ req.rep = .addr) := by
  obtain ⟨atype, second, l, hl, hrest⟩ := dest.exists_second
  have hoctets : requestOctets cmd rsv dest ++ s =
      [version5, cmd, rsv, atype, second] ++ (l ++ s) := by
    simp [requestOctets, hl]
  rw [hoctets, ← Endpoint.destination_octets, hl]
  unfold readRequest
  refine Wiring.meets_own rfl (server_can trivial) ?_
  rintro _ _ rfl
  refine Wiring.meets_own rfl (server_can trivial) ?_
  rintro _ _ ⟨rfl, rfl⟩
  refine Wiring.meets_take rfl rfl ?_
  rw [if_neg (by simp), if_neg (by simp)]
  simp only [List.getD_cons_zero, List.getD_cons_succ, hrest]
  refine Wiring.meets_take rfl rfl ?_
  rw [if_neg (by simp)]
  refine Wiring.meets_own rfl (server_can trivial) ?_
  rintro _ w₁ ⟨rfl, rfl⟩
  refine (meets_lookup _ _ _).bind ?_
  rintro ⟨res, saddr, family⟩ _ ⟨rfl, hdest⟩
  dsimp only at hdest ⊢
  rw [← hdest, meets_ite]
  split
  case isTrue h => exact ⟨rfl, ⟨_, rfl⟩, .inr ⟨rfl, rfl⟩⟩
  case isFalse h =>
    refine Wiring.meets_own rfl (server_can trivial) ?_
    rintro _ _ ⟨rfl, rfl⟩
    refine Wiring.meets_own rfl (server_can trivial) ?_
    rintro _ _ rfl
    exact ⟨rfl, ⟨_, rfl⟩, .inl ⟨saddr, rfl, rfl⟩⟩

theorem not_length_cons_le (a : Octet) (l : List Octet) : ¬ ((a :: l).length : Int) ≤ 0 := by
  rw [List.length_cons]
  omega

theorem meets_writeResponse (rep : HevSocks5ResRep) (addr : SockAddrIn6) :
    ServerMeets R (writeResponse rep addr) ⟨w, s, out⟩ fun r f =>
      r = 0 ∧ f = ⟨w, s, out ++ replyOctets rep addr⟩ := by
  unfold writeResponse
  refine Wiring.meets_own rfl (server_can trivial) ?_
  rintro _ _ rfl
  refine Wiring.meets_own rfl (server_can trivial) ?_
  rintro _ _ ⟨rfl, rfl⟩
  refine Wiring.meets_put rfl ?_
  simp only [List.cons_append, List.nil_append]
  rw [if_neg (not_length_cons_le _ _)]
  exact ⟨rfl, rfl⟩

/-! ## The commands -/

/-- A call about a socket has failed. -/
structure Broken (s out : List Octet) (f : Fed ServerSide Octet) : Prop where
  input : f.input = s
  output : f.output = out
  failed : f.world.failed = true

/-- No call has failed, and the last connection was made to `target`. -/
structure Working (w : ServerSide) (s out : List Octet) (target : Option SockAddrIn6)
    (f : Fed ServerSide Octet) : Prop where
  input : f.input = s
  output : f.output = out
  failed : f.world.failed = w.failed
  target : f.world.target = target

/-- A result that is negative just when a call has failed. -/
def Results (w : ServerSide) (s out : List Octet) (target : Option SockAddrIn6) (r : Int)
    (f : Fed ServerSide Octet) : Prop :=
  r < 0 ∧ Broken s out f ∨ 0 ≤ r ∧ Working w s out target f

theorem Results.broken {target : Option SockAddrIn6} {f : Fed ServerSide Octet}
    (h : Broken s out f) : Results w s out target (-1) f := .inl ⟨by decide, h⟩

theorem Results.working {target : Option SockAddrIn6} {f : Fed ServerSide Octet}
    (h : Working w s out target f) : Results w s out target 0 f := .inr ⟨Int.le_refl 0, h⟩

theorem broken_of_note {w : ServerSide} {res : Int} (h : res < 0) :
    Broken s out ⟨w.note res, s, out⟩ :=
  ⟨rfl, rfl, by simp [ServerSide.note, h]⟩

theorem note_of_nonneg {w : ServerSide} {res : Int} (h : ¬ res < 0) : w.note res = w := by
  simp [ServerSide.note, h]

/-- The failures of a server are noted. -/
theorem ServerSide.makesSockets : MakesSockets (serverWiring R).fed (serverWiring R).Can
    (fun f res => { f with world := f.world.note res }) (fun _ => True) (fun _ => True) where
  socket f type := by
    refine ⟨server_can trivial, ?_⟩
    rintro fd _ ⟨w₁, rfl, rfl⟩
    exact ⟨trivial, rfl⟩
  option f fd opt := by
    refine ⟨server_can trivial, ?_⟩
    rintro res _ ⟨w₁, rfl, rfl⟩
    refine ⟨trivial, ?_⟩
    split
    · rfl
    · rfl
  addFd f fd := by
    refine ⟨server_can trivial, ?_⟩
    rintro res _ ⟨w₁, rfl, rfl⟩
    rfl
  modFd f fd := by
    refine ⟨server_can trivial, ?_⟩
    rintro res _ ⟨w₁, rfl, rfl⟩
    rfl
  close f fd res _ _ := by
    refine ⟨server_can trivial, ?_⟩
    rintro _ _ ⟨w₁, rfl, rfl⟩
    rfl
  note_of_nonneg f res h := by rw [note_of_nonneg h]

/-- A socket is given up behind a call that has failed. -/
theorem meets_drop {α : Type} {a : α} (fd : Int) {Q : α → Fed ServerSide Octet → Prop}
    (h : Q a ⟨w, s, out⟩) : ServerMeets R (do drop fd; return a) ⟨w, s, out⟩ Q := by
  simp only [drop, bind_assoc]
  refine Wiring.meets_own rfl (server_can trivial) ?_
  rintro _ _ rfl
  refine Wiring.meets_own rfl (server_can trivial) ?_
  rintro _ _ rfl
  exact h

/-- A socket option that the server relies on. -/
theorem meets_setsockopt {α : Type} {fd : Int} {opt : SockOpt} (hopt : opt ≠ .rcvbuf)
    {k : Int → SysM α} {Q : α → Fed ServerSide Octet → Prop}
    (hk : ∀ res, ServerMeets R (k res) ⟨w.note res, s, out⟩ Q) :
    ServerMeets R (setsockopt fd opt >>= k) ⟨w, s, out⟩ Q := by
  refine Wiring.meets_own rfl (server_can trivial) ?_
  rintro res _ rfl
  rw [if_neg hopt]
  exact hk res

theorem meets_socket (type : SockType) :
    ServerMeets R (hevSocks5Socket type) ⟨w, s, out⟩ fun fd f =>
      fd < 0 ∧ Broken s out f ∨ 0 ≤ fd ∧ f = ⟨w, s, out⟩ := by
  refine (ServerSide.makesSockets.meets_hevSocks5Socket type).mono ?_
  rintro fd f (⟨hfd, res, hres, -, rfl⟩ | ⟨hfd, -, rfl⟩)
  · exact .inl ⟨hfd, broken_of_note hres⟩
  · exact .inr ⟨hfd, rfl⟩

theorem meets_reached (addr : SockAddrIn6) :
    ServerMeets R (HevSocks5Server.connect addr) ⟨w, s, out⟩ (Results w s out (some addr)) := by
  unfold HevSocks5Server.connect
  refine Wiring.meets_own rfl (server_can trivial) ?_
  rintro _ _ rfl
  refine (meets_socket .stream).bind ?_
  rintro fd f (⟨hfd, hbroken⟩ | ⟨hfd, rfl⟩)
  · rw [if_pos hfd]
    exact .broken hbroken
  rw [if_neg (Int.not_lt.2 hfd)]
  refine Wiring.meets_own rfl (server_can trivial) ?_
  rintro res _ rfl
  rw [meets_ite]
  split
  case isTrue h => exact meets_drop fd (.broken (broken_of_note h))
  case isFalse h =>
    rw [note_of_nonneg h]
    refine Wiring.meets_own rfl (server_can trivial) ?_
    rintro timeout _ rfl
    refine (meets_serverTimeout timeout).bind ?_
    rintro _ _ ⟨timeout', rfl⟩
    refine Wiring.meets_own rfl (server_can trivial) ?_
    rintro res _ rfl
    rw [meets_ite]
    split
    case isTrue hres =>
      exact meets_drop fd (.broken ⟨rfl, rfl, by simp [ServerSide.note, hres]⟩)
    case isFalse hres =>
      rw [note_of_nonneg hres]
      refine Wiring.meets_own rfl (server_can trivial) ?_
      rintro timeout _ rfl
      refine (meets_serverTimeout timeout).bind ?_
      rintro _ _ ⟨timeout'', rfl⟩
      refine Wiring.meets_own rfl (server_can trivial) ?_
      rintro _ _ ⟨rfl, rfl⟩
      refine Wiring.meets_own rfl (server_can trivial) ?_
      rintro _ _ rfl
      exact .working ⟨rfl, rfl, rfl, rfl⟩

theorem meets_udpBind (fd : Int) (src : SockAddrIn6) :
    ServerMeets R (udpBind fd src) ⟨w, s, out⟩ fun r f => Results w s out w.target r.1 f := by
  unfold udpBind
  refine Wiring.meets_own rfl (server_can trivial) ?_
  rintro _ _ rfl
  refine Wiring.meets_own rfl (server_can trivial) ?_
  rintro _ _ ⟨rfl, rfl⟩
  refine Wiring.meets_own rfl (server_can trivial) ?_
  rintro ⟨res, name⟩ _ rfl
  dsimp only
  rw [meets_ite]
  split
  case isTrue h => exact .broken (broken_of_note h)
  case isFalse h =>
    rw [note_of_nonneg h]
    refine Wiring.meets_own rfl (server_can trivial) ?_
    rintro res _ rfl
    rw [meets_ite]
    split
    case isTrue hres => exact .broken (broken_of_note hres)
    case isFalse hres =>
      rw [note_of_nonneg hres]
      refine Wiring.meets_own rfl (server_can trivial) ?_
      rintro ⟨res, name⟩ _ rfl
      dsimp only
      rw [meets_ite]
      split
      case isTrue hlast => exact .broken (broken_of_note hlast)
      case isFalse hlast =>
        rw [note_of_nonneg hlast]
        exact .working ⟨rfl, rfl, rfl, rfl⟩

theorem meets_relayBound (addr : SockAddrIn6) :
    ServerMeets R (bindRelay addr) ⟨w, s, out⟩ fun r f => Results w s out w.target r.1 f := by
  unfold bindRelay
  refine (meets_socket .dgram).bind ?_
  rintro fd f (⟨hfd, hbroken⟩ | ⟨hfd, rfl⟩)
  · rw [if_pos hfd]
    exact .broken hbroken
  rw [if_neg (Int.not_lt.2 hfd)]
  refine meets_setsockopt (by decide) fun res => (meets_ite ..).2 ?_
  split
  case isTrue h => exact meets_drop fd (.broken (broken_of_note h))
  case isFalse h =>
    rw [note_of_nonneg h]
    refine (meets_udpBind fd addr).bind ?_
    rintro ⟨res, src⟩ f hres
    dsimp only at hres ⊢
    refine (meets_ite ..).2 ?_
    rcases hres with ⟨hneg, ⟨hin, hout, hfailed⟩⟩ | ⟨hpos, ⟨hin, hout, hfailed, htarget⟩⟩
    · obtain ⟨w₁, _, _⟩ := f
      obtain rfl : _ = s := hin
      obtain rfl : _ = out := hout
      rw [if_pos hneg]
      exact meets_drop fd (.broken ⟨rfl, rfl, hfailed⟩)
    · obtain ⟨w₁, _, _⟩ := f
      obtain rfl : _ = s := hin
      obtain rfl : _ = out := hout
      rw [if_neg (Int.not_lt.2 hpos)]
      refine Wiring.meets_own rfl (server_can trivial) ?_
      rintro _ _ ⟨rfl, rfl⟩
      refine Wiring.meets_own rfl (server_can trivial) ?_
      rintro _ _ rfl
      exact .working ⟨rfl, rfl, hfailed, htarget⟩

/-- The sockets of an association, or the one of a client whose datagrams come forwarded. -/
theorem meets_bound (addr : Option SockAddrIn6) :
    ServerMeets R (HevSocks5Server.bind addr) ⟨w, s, out⟩ fun r f =>
      Results w s out w.target r.1 f := by
  unfold HevSocks5Server.bind
  refine Wiring.meets_own rfl (server_can trivial) ?_
  rintro _ _ rfl
  refine (meets_socket .dgram).bind ?_
  rintro fd f (⟨hfd, hbroken⟩ | ⟨hfd, rfl⟩)
  · rw [if_pos hfd]
    exact .broken hbroken
  rw [if_neg (Int.not_lt.2 hfd)]
  refine Wiring.meets_own rfl (server_can trivial) ?_
  rintro _ w₁ ⟨rfl, rfl⟩
  refine Wiring.meets_own rfl (server_can trivial) ?_
  rintro _ _ rfl
  cases addr with
  | none => exact .working ⟨rfl, rfl, rfl, rfl⟩
  | some addr =>
    refine (meets_relayBound addr).bind ?_
    rintro ⟨res, src⟩ f (h | ⟨hpos, ⟨hin, hout, hfailed, htarget⟩⟩)
    · exact .inl h
    · exact .inr ⟨hpos, hin, hout, hfailed, htarget⟩

theorem meets_setType (type : HevSocks5Type) {f : Fed ServerSide Octet} :
    ServerMeets R (setType type) f fun _ f' =>
      f' = { f with world := { f.world with self := { f.world.self with type } } } := by
  unfold setType
  refine Wiring.meets_own rfl (server_can trivial) ?_
  rintro _ _ ⟨rfl, rfl⟩
  refine ⟨server_can trivial, ?_⟩
  rintro _ f ⟨w', rfl, rfl⟩
  rfl

/-- **The command is executed**, or one of its sockets fails. -/
theorem meets_executed {type : HevSocks5Type} {cmd : Octet}
    (hcmd : HevSocks5Client.reqCmd type = some cmd) (addr : SockAddrIn6) :
    ServerMeets R (execute cmd addr) ⟨w, s, out⟩ fun r f =>
      r.1 ≠ .succ ∧ Broken s out f ∨
      r.1 = .succ ∧ f.world.self.type = type ∧
        Working w s out (if type = .tcp then some addr else w.target) f := by
  have hend {r : Int} {rep : HevSocks5ResRep} {target : Option SockAddrIn6}
      {f : Fed ServerSide Octet} (hrep : rep ≠ .succ) (h : Results w s out target r f)
      (addr' : SockAddrIn6) (ht : target = if type = .tcp then some addr else w.target) :
      ServerMeets R (do
        setType type
        return (if r < 0 then rep else .succ, addr')) f fun r f =>
          r.1 ≠ .succ ∧ Broken s out f ∨
          r.1 = .succ ∧ f.world.self.type = type ∧
            Working w s out (if type = .tcp then some addr else w.target) f := by
    refine (meets_setType type).bind ?_
    rintro _ _ rfl
    rcases h with ⟨hneg, ⟨hin, hout, hfailed⟩⟩ | ⟨hpos, ⟨hin, hout, hfailed, htarget⟩⟩
    · rw [if_pos hneg]
      exact .inl ⟨hrep, hin, hout, hfailed⟩
    · rw [if_neg (Int.not_lt.2 hpos)]
      exact .inr ⟨rfl, rfl, hin, hout, hfailed, htarget.trans ht⟩
  unfold execute
  cases type with
  | none => cases hcmd
  | tcp =>
    obtain rfl : reqCmdConnect = cmd := Option.some.inj hcmd
    rw [if_pos rfl]
    refine (meets_reached addr).bind ?_
    rintro r f hr
    exact hend (by decide) hr addr rfl
  | udpInUdp =>
    obtain rfl : reqCmdUdpAsc = cmd := Option.some.inj hcmd
    rw [if_neg (by decide), if_pos rfl]
    refine (meets_bound _).bind ?_
    rintro ⟨r, addr'⟩ f hr
    exact hend (by decide) hr _ rfl
  | udpInTcp =>
    obtain rfl : reqCmdFwdUdp = cmd := Option.some.inj hcmd
    rw [if_neg (by decide), if_neg (by decide), if_pos rfl]
    refine (meets_bound _).bind ?_
    rintro ⟨r, addr'⟩ f hr
    exact hend (by decide) hr addr rfl

/-! ## The handshake -/

/-- The sub-negotiation. -/
def subNegotiation : SysM Int := do
  let res ← readAuthUser
  let res' ← writeAuthUser res
  if (BitVec.ofInt 32 res ||| BitVec.ofInt 32 res').toInt < 0 then return -1 else return 0

/-- The authentication stage behind the greeting. -/
def authBehind (method : Int) : SysM Int :=
  if method = authMethodNone.toNat then return 0
  else if method = authMethodUser.toNat then subNegotiation
  else return -1

/-- The handshake behind the authentication stage. -/
def handshakeBehind (res : Int) : SysM Int := do
  if res < 0 then return -1
  else
    let req ← readRequest .succ .zero
    if req.res < 0 then return -1
    else
      let (rep, addr) ← executeRequest req
      let res ← writeResponse rep addr
      if res < 0 ∨ rep ≠ .succ then return -1 else return 0

/-- The greeting, and the method that is selected. -/
def selectMethod : SysM Int := do
  logD "socks5 server handshake"
  hevSocks5SetTimeout (← hevSocks5GetTcpTimeout)
  let method ← readAuthMethod
  let res ← writeAuthMethod method
  return if res < 0 then -1 else method

theorem serverHandshake_eq : HevSocks5Server.handshake = (do
    let method ← selectMethod
    let res ← authBehind method
    handshakeBehind res) := by
  simp only [HevSocks5Server.handshake, HevSocks5Server.auth, selectMethod, bind_assoc, pure_bind]
  refine bind_congr fun _ => bind_congr fun _ => bind_congr fun _ => bind_congr fun method => ?_
  refine bind_congr fun res => ?_
  split
  · rfl
  · rfl

theorem meets_selectMethod (m : Octet) :
    ServerMeets R selectMethod ⟨w, [version5, 1, m] ++ s, out⟩ fun r f =>
      r = (if m = w.server.method then (m.toNat : Int) else -1) ∧
        ∃ timeout, f = ⟨{ w with self := { w.self with timeout } }, s,
          out ++ [version5, UInt8.ofInt r]⟩ := by
  unfold selectMethod
  refine Wiring.meets_own rfl (server_can trivial) ?_
  rintro _ _ rfl
  refine Wiring.meets_own rfl (server_can trivial) ?_
  rintro timeout _ rfl
  refine (meets_serverTimeout timeout).bind ?_
  rintro _ _ ⟨timeout', rfl⟩
  refine (meets_greeted m).bind ?_
  rintro method _ ⟨hmethod, rfl⟩
  refine (meets_select method).bind ?_
  rintro _ _ ⟨rfl, rfl⟩
  exact ⟨hmethod, timeout', rfl⟩

theorem meets_subNegotiation {name pass : Str} (hn : name.Fits) (hp : pass.Fits)
    (hv : w.auth.Valid) :
    ServerMeets R subNegotiation ⟨w, userOctets name.octets pass.octets ++ s, out⟩ fun r f =>
      (w.auth.Accepts name pass ∧ r = 0 ∨ ¬ w.auth.Accepts name pass ∧ r = -1) ∧
        ∃ server, f = ⟨{ w with server }, s, out ++ [1, UInt8.ofInt r]⟩ := by
  unfold subNegotiation
  refine (meets_user hn hp hv).bind ?_
  rintro res _ ⟨hres, server, rfl⟩
  refine (meets_accept res).bind ?_
  rintro _ _ ⟨rfl, rfl⟩
  rcases hres with ⟨hacc, rfl⟩ | ⟨hacc, rfl⟩
  · exact ⟨.inl ⟨hacc, rfl⟩, server, rfl⟩
  · rw [if_pos (by decide)]
    exact ⟨.inr ⟨hacc, rfl⟩, server, rfl⟩

/-- **The request is answered**, with success just when it is resolved and no socket fails. -/
theorem meets_handshakeBehind {type : HevSocks5Type} {cmd rsv : Octet}
    (hcmd : HevSocks5Client.reqCmd type = some cmd) {dest : Endpoint} :
    ServerMeets R (handshakeBehind 0) ⟨w, requestOctets cmd rsv dest ++ s, out⟩ fun r f =>
      ∃ rep addr, f.input = s ∧ f.output = out ++ replyOctets rep addr ∧
        ((rep ≠ .succ ∧ r = -1 ∧
            (dest.sockaddr R w.self.addrFamily = none ∨ f.world.failed = true)) ∨
          rep = .succ ∧ r = 0 ∧ f.world.self.type = type ∧ f.world.failed = w.failed ∧
            ∃ saddr, dest.sockaddr R w.self.addrFamily = some saddr ∧
              f.world.target = if type = .tcp then some saddr else w.target) := by
  have hreply {w' : ServerSide} (rep : HevSocks5ResRep) (addr : SockAddrIn6)
      {Q : Int → Fed ServerSide Octet → Prop}
      (h : Q (if rep ≠ .succ then -1 else 0) ⟨w', s, out ++ replyOctets rep addr⟩) :
      ServerMeets R (do
        let res ← writeResponse rep addr
        if res < 0 ∨ rep ≠ .succ then return -1 else return 0) ⟨w', s, out⟩ Q := by
    refine (meets_writeResponse rep addr).bind ?_
    rintro _ _ ⟨rfl, rfl⟩
    rw [meets_ite]
    split
    case isTrue hrep =>
      have hne : rep ≠ .succ := hrep.resolve_left (by decide)
      rw [if_pos hne] at h
      exact h
    case isFalse hrep =>
      have hsucc : ¬ rep ≠ .succ := fun hne => hrep (.inr hne)
      rw [if_neg hsucc] at h
      exact h
  unfold handshakeBehind
  rw [if_neg (by decide)]
  refine (meets_readRequest .zero).bind ?_
  rintro req _ ⟨hres, ⟨family, rfl⟩, ⟨saddr, hdest, rfl⟩ | ⟨hdest, hrep⟩⟩
  · rw [if_neg (by rw [hres]; decide)]
    refine (meets_executed hcmd saddr).bind ?_
    rintro ⟨rep, addr⟩ ⟨w', _, _⟩ (⟨hrep, ⟨rfl, rfl, hfailed⟩⟩ | ⟨hrep, htype, ⟨rfl, rfl, hok, ht⟩⟩)
    · refine hreply rep addr ⟨rep, addr, rfl, rfl, .inl ⟨hrep, if_pos hrep, .inr hfailed⟩⟩
    · obtain rfl : rep = .succ := hrep
      exact hreply .succ addr ⟨.succ, addr, rfl, rfl, .inr ⟨rfl, rfl, htype, hok, saddr, hdest, ht⟩⟩
  · rw [if_neg (by rw [hres]; decide)]
    have hne : req.rep ≠ .succ := by
      rw [hrep]
      decide
    unfold executeRequest
    rw [if_neg hne, pure_bind]
    exact hreply req.rep req.addr ⟨_, _, rfl, rfl, .inl ⟨hne, if_pos hne, .inl hdest⟩⟩

end

end HevSocks5
