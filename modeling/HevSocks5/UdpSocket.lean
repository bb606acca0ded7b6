/-
  The sockets from which UDP is relayed.

  The splicer asks the class of its object for the socket of the relay.  A
  server and a UDP client have methods of their own for it
  (`HevSocks5Server.getFd`, `HevSocks5Client.udpGetFd`): both choose the stream
  or a UDP socket by the type of the object.  The splicer that is linked with
  either does what was shown of it for a tunnel that is given this socket
  (`Chooses.always_link`).
-/
import HevSocks5.Client
import HevSocks5.UdpTunnel

namespace HevSocks5

open Interact Interact.Prog Sys HevSocks5UDP

/-- The socket for a type of relay: the stream, or a socket of UDP. -/
def relayFd (type : HevSocks5Type) (stream udp : Int) : Int :=
  match type with
  | .udpInTcp => stream
  | .udpInUdp => udp
  | _ => -1

/-- `get_fd` is the program `y`. -/
def linkGetFd {B : Type → Type} (y : Prog B Int) {β : Type} (o : Op β) : Option (Prog B β) :=
  match o with
  | .getFd => some y
  | _ => none

/-- The calls of a splicer, and those of the `get_fd` that is linked with it. -/
def methodTunnel {B : Type → Type} (L : Resolver → Prop) (A : Int → Datagram → Prop)
    (G : Env B Tunnel) : Env (Both Op B) Tunnel := fun w _ o b w' =>
  match o with
  | .inl o => tunnel L A w o b w'
  | .inr o => G w o b w'

/-- Where a message of the stream begins. -/
def Tunnel.atStart (w : Tunnel) : Tunnel :=
  { w with conn := { w.conn with start := w.conn.read.length } }

/-- The calls of `get_fd`: the descriptor of the object is `fd`. -/
def baseTunnel (fd : Int) : Env Op Tunnel := fun w _ o b w' =>
  match o with
  | .base => (b.type = w.type ∧ b.fd = fd) ∧ w' = w.atStart
  | _ => False

/-- Those of a server. -/
def serverTunnel (fd : Int) (self : HevSocks5ServerObj) : Env Op Tunnel := fun w _ o b w' =>
  match o with
  | .server => b = self ∧ w' = w.atStart
  | o => baseTunnel fd w o b w'

/-- Those of a client. -/
def clientTunnel (fd : Int) (self : HevSocks5ClientObj) : Env (Both Op ClientOp) Tunnel :=
  fun w _ o b w' =>
    match o with
    | .inr .client => b = self ∧ w' = w.atStart
    | .inl o => baseTunnel fd w o b w'
    | _ => False

section
variable {L : Resolver → Prop} {A : Int → Datagram → Prop} {w : Tunnel} {α : Type}
  {B : Type → Type} {G : Env B Tunnel} {fd udp : Int}

/-- A method chooses the socket by the type of the relay. -/
def Chooses (G : Env B Tunnel) (y : Prog B Int) (fd udp : Int) : Prop :=
  ∀ w : Tunnel, Always G (fun w' => w' = w.atStart) y w fun b w' =>
    b = relayFd w.type fd udp ∧ w' = w.atStart

theorem chooses_server (self : HevSocks5ServerObj) :
    Chooses (serverTunnel fd self) HevSocks5Server.getFd fd self.fds.2 := by
  intro w
  simp only [HevSocks5Server.getFd, always_bind, always_op]
  rintro obj _ ⟨⟨htype, -⟩, rfl⟩
  refine ⟨rfl, ?_⟩
  rw [htype]
  cases w.type with
  | none => exact ⟨rfl, rfl⟩
  | tcp => exact ⟨rfl, rfl⟩
  | udpInTcp =>
    simp only [always_bind, always_op, always_pure]
    rintro obj' _ ⟨⟨-, rfl⟩, rfl⟩
    exact ⟨rfl, rfl, rfl⟩
  | udpInUdp =>
    simp only [always_bind, always_op, always_pure]
    rintro _ _ ⟨rfl, rfl⟩
    exact ⟨rfl, rfl, rfl⟩

theorem chooses_client {self : HevSocks5ClientObj} (hself : self.klass = .udp udp) :
    Chooses (clientTunnel fd self) HevSocks5Client.udpGetFd fd udp := by
  intro w
  simp only [HevSocks5Client.udpGetFd, monadLift_eq, inl_op, always_bind]
  rintro obj _ ⟨⟨htype, -⟩, rfl⟩
  refine ⟨rfl, ?_⟩
  simp only [Always, htype]
  cases w.type with
  | none => exact ⟨rfl, rfl⟩
  | tcp => exact ⟨rfl, rfl⟩
  | udpInTcp =>
    simp only [always_bind, always_pure]
    rintro obj' _ ⟨⟨-, rfl⟩, rfl⟩
    exact ⟨rfl, rfl, rfl⟩
  | udpInUdp =>
    simp only [always_bind]
    rintro client _ ⟨rfl, rfl⟩
    refine ⟨rfl, ?_⟩
    simp only [Always, hself]
    exact ⟨rfl, rfl⟩

/-- **The method is linked**: what is true of a tunnel that is given the socket is true of one
    whose `get_fd` chooses it. -/
theorem Chooses.always_link {y : Prog B Int} (hy : Chooses G y fd udp) {J : Tunnel → Prop}
    {x : SysM α} {Q : α → Tunnel → Prop} (h : Always (tunnel L A) J x w Q)
    (hfd : w.fdA = relayFd w.type fd udp) :
    Always (methodTunnel L A G) J (x.link (linkGetFd y)) w Q := by
  refine h.link (fun w => w.fdA = relayFd w.type fd udp) id ?_ ?_ hfd
  · intro w w' β o b hw _ he
    have hc := tunnel_changes he
    exact ⟨by rw [hc.fdA, hc.type, hw], he⟩
  · intro w β o y' hw ho hJ
    cases o <;> cases ho
    -- the call is `get_fd`, whose answer is the socket of the tunnel
    refine ((hy w).imp ?_).mono ?_
    · rintro _ rfl
      exact hJ _ _ ⟨rfl, rfl⟩
    · rintro b _ ⟨rfl, rfl⟩
      exact ⟨hw, hw.symm, rfl⟩

/-- **A relay of UDP-in-UDP**, from the socket that the object has for it, is in order and
    unmixed. -/
theorem Chooses.inOrder_of_reaches {y : Prog B Int} (hy : Chooses G y fd udp) {fdB : Int}
    {rounds : Nat} {w' : Tunnel} (htype : w.type = .udpInUdp) (hw : w.Fresh) (hfd : w.fdA = udp)
    (h : Reaches (methodTunnel L (fun _ d => d.data.length ≤ udpBufSize) G)
      ((splicer fdB rounds).link (linkGetFd y)) w w') : w'.InOrder L fdB := by
  refine (always_iff.1 (hy.always_link (hw.always_inOrder htype rounds) ?_)).1 w' h
  rw [hfd, htype]
  rfl

end

end HevSocks5
