/-
  A client and a server that meet.

  Both run their handshake against each other over a pair of channels that lose
  nothing, with their steps interleaved in any way and the octets in pieces of
  any sizes.  Memory is there; the calls of the two about sockets of their own
  may fail, and the lookups of the server are answered by a resolver.
-/
import HevSocks5.Base.Channels
import HevSocks5.ClientDialog
import HevSocks5.ServerParse
import HevSocks5.ServerReply

namespace HevSocks5

open Interact Interact.Prog Sys HevSocks5Client

/-! ## The two parties -/

/-- The client, and whether a call about a socket of its own has failed. -/
structure ClientSide where
  self : HevSocks5Obj
  client : HevSocks5ClientObj
  failed : Bool

/-- The server, its authenticator, the last address that it has connected to, and whether a call
    about a socket of its own has failed. -/
structure ServerSide where
  self : HevSocks5Obj
  server : HevSocks5ServerObj
  auth : HevSocks5Authenticator
  target : Option SockAddrIn6
  failed : Bool

def ClientSide.note (w : ClientSide) (res : Int) : ClientSide :=
  { w with failed := w.failed || res < 0 }

def ServerSide.note (w : ServerSide) (res : Int) : ServerSide :=
  { w with failed := w.failed || res < 0 }

/-- The calls on the connection, which wait for all octets. -/
def Sys.Op.comm {β : Type} (o : Op β) : Comm Octet β :=
  match o with
  | .recv _ n .waitall => .take n fun data => ⟨n, data⟩
  | .send _ data => .put data data.length
  | .sendmsg _ data => .put data data.length
  | _ => .own

/-- The other calls of a client. -/
def clientCalls : Env (Both Op ClientOp) ClientSide := fun w _ o b w' =>
  match o with
  | .inl .base => b = w.self ∧ w' = w
  | .inl (.setBase self) => w' = { w with self }
  | .inl (.socket _) => w' = w.note b
  | .inl (.setsockopt _ opt) => w' = if opt = .rcvbuf then w else w.note b
  | .inl (.binder ..) => w' = w.note b
  | .inl (.socketConnect ..) => w' = w.note b
  | .inr .client => b = w.client ∧ w' = w
  | .inr (.setClient client) => w' = { w with client }
  | .inr .malloc0 => b ≠ none ∧ w' = w
  | _ => w' = w

/-- The other calls of a server whose users stay as they are. -/
def serverCalls (R : Resolver) : Env Op ServerSide := fun w _ o b w' =>
  match o with
  | .base => b = w.self ∧ w' = w
  | .setBase self => w' = { w with self }
  | .server => b = w.server ∧ w' = w
  | .setServer server => w' = { w with server }
  | .authenticator x => ∃ auth, x w.auth = some (b, auth) ∧ w' = { w with auth }
  | .users => b = w.auth.users ∧ w' = w
  | .socket _ => w' = w.note b
  | .setsockopt _ opt => w' = if opt = .rcvbuf then w else w.note b
  | .binder .. => w' = w.note b
  | .socketConnect _ addr => w' = { w.note b with target := if b < 0 then w.target else some addr }
  | .bind .. => w' = w.note b
  | .getsockname _ => w' = w.note b.1
  | .inetPton4 name => b = R.pton4 name ∧ w' = w
  | .inetPton6 name => b = R.pton6 name ∧ w' = w
  | .getaddrinfo name family => b = R.lookup name family ∧ w' = w
  | _ => w' = w

def clientWiring : Wiring Octet (Both Op ClientOp) ClientSide where
  env := clientCalls
  comm o :=
    match o with
    | .inl o => o.comm
    | .inr _ => .own

def serverWiring (R : Resolver) : Wiring Octet Op ServerSide where
  env := serverCalls R
  comm o := o.comm

/-- The two parties. -/
abbrev Meeting := Duplex Octet (Both Op ClientOp) ClientSide Int Op ServerSide Int

def Meeting.Step (R : Resolver) : Meeting → Meeting → Prop :=
  Duplex.Step clientWiring (serverWiring R)

/-- Before the handshake. -/
def Meeting.start (pipeline : Bool) (c : ClientSide) (s : ServerSide) : Meeting :=
  ⟨⟨handshake pipeline, c, []⟩, ⟨HevSocks5Server.handshake, s, []⟩, [], []⟩

/-! ## What is to be shown -/

/-- What the client asks for: the address in its request, and all that it sends. -/
def ClientSide.dialog (w : ClientSide) : Dialog := ⟨w.self, w.client, [], [], none⟩

/-- **A connected client**: one for TCP with an address of a known type, one for UDP with the
    family of its connection; its name and its password, if it has both, fit a message. -/
structure ClientSide.Connected (w : ClientSide) : Prop where
  kind : w.self.type = .tcp ∧
      (∃ addr, w.client.klass = .tcp (some addr) ∧ 0 < hevSocks5AddrLen addr.mem) ∨
    (w.self.type = .udpInTcp ∨ w.self.type = .udpInUdp) ∧ (∃ fd, w.client.klass = .udp fd) ∧
      w.self.addrFamily ≠ .unspec
  creds : ∀ user pass, w.client.user = some user → w.client.pass = some pass →
    (0 < user.length ∧ user.length < 256) ∧ 0 < pass.length ∧ pass.length < 256
  failed : w.failed = false

/-- **A server** without an authenticator, or with one of any users. -/
structure ServerSide.Opened (w : ServerSide) : Prop where
  obj : w.server.obj = .null ∨ w.server.obj = .auth ∧ w.auth.Valid
  target : w.target = none
  failed : w.failed = false

/-- The server wants no credentials and the client has none, or the authenticator holds those
    of the client. -/
def Admits (s : ServerSide) (c : ClientSide) : Prop :=
  s.server.obj = .null ∧ (c.client.user = none ∨ c.client.pass = none) ∨
  s.server.obj = .auth ∧ ∃ user pass : Str, c.client.user = some user.octets ∧
    c.client.pass = some pass.octets ∧ s.auth.Accepts user pass

/-- The destination of the address that the client sends, as the server resolves it. -/
def resolved (R : Resolver) (s : ServerSide) (c : ClientSide) : Option SockAddrIn6 :=
  R.destination s.self.addrFamily c.dialog.address

/-- **The handshakes agree**: `r` is the result of the client and `r'` that of the server. -/
structure Concord (R : Resolver) (c : ClientSide) (s : ServerSide) (r r' : Int) (n : Meeting) :
    Prop where
  client : r = 0 ∨ r = -1
  server : r' = 0 ∨ r' = -1
  agree : n.left.world.failed = false → (r = 0 ↔ r' = 0)
  succeeds : r = 0 → r' = 0
  exactly : r' = 0 ↔
    Admits s c ∧ (∃ addr, resolved R s c = some addr) ∧ n.right.world.failed = false
  type : r' = 0 → n.right.world.self.type = c.self.type
  target : r' = 0 →
    n.right.world.target = if c.self.type = .tcp then resolved R s c else none
  drained : r' = 0 → n.toRight = [] ∧ n.toLeft = []

/-- Both have returned, and agree. -/
def Concluded (R : Resolver) (c : ClientSide) (s : ServerSide) (n : Meeting) : Prop :=
  ∃ r r', n.left.prog = .ret r ∧ n.right.prog = .ret r' ∧ Concord R c s r r' n

end HevSocks5
