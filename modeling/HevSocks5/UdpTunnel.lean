/-
  The two directions of the UDP splicer.

  A `Tunnel` is what has happened at the sockets of a splicer: the datagrams
  received from each socket and those handed to each.  Datagrams arrive in any
  batches, calls fail or not, a send may hand over a part of its messages, and
  what names are looked up to may change from one address to the next.

  In UDP-in-UDP mode each direction hands on datagrams in the order in which
  they were received, each made of its own octets and its own sender only
  (`relay_unmixed`).
-/
import HevSocks5.UdpCalls
import HevSocks5.UdpAccept
import HevSocks5.UdpSync

namespace HevSocks5

open Interact Sys HevSocks5UDP

structure Tunnel where
  type : HevSocks5Type
  fdA : Int
  /-- what names are looked up to at this time -/
  resolver : Resolver
  /-- the stream of UDP-in-TCP, and `errno` -/
  conn : Conn
  /-- the datagrams received from each socket -/
  received : Int → List Datagram
  /-- the datagrams handed to a socket for a destination -/
  forwarded : List (Int × SockAddrIn6 × List Octet)
  /-- the datagrams handed to a socket for its peer -/
  returned : List (Int × List Octet)
  /-- the octets handed to the stream, call by call -/
  written : List (List Octet)

namespace Tunnel

/-- Anything may be left in `errno`. -/
def withErrno (w : Tunnel) (e : Errno) : Tunnel := { w with conn := { w.conn with errno := e } }

/-- The first messages of a call are handed over. -/
def handOver (w : Tunnel) (fd : Int) (msgs : List (Option SockAddrIn6 × List Octet)) : Tunnel :=
  { w with
    forwarded := w.forwarded ++ msgs.filterMap fun m => m.1.map fun a => (fd, a, m.2)
    returned := w.returned ++ msgs.filterMap fun m => if m.1.isNone then some (fd, m.2) else none }

end Tunnel

/-- The system calls of the splicer, when the datagrams that arrive at a socket are in `A`, and
    names are looked up as in `L`. -/
def tunnel (L : Resolver → Prop) (A : Int → Datagram → Prop) : Env Op Tunnel := fun w _ o b w' =>
  match o with
  | .base => b.type = w.type ∧ ∃ R, L R ∧ w' = { w with resolver := R }
  | .setBase _ => w' = w
  | .getFd => b = w.fdA ∧ w' = { w with conn := { w.conn with start := w.conn.read.length } }
  | .errno => b = w.conn.errno ∧ w' = w
  | .recv fd n flags =>
    ∃ conn', conn w.conn (.recv fd n flags) b conn' ∧ w' = { w with conn := conn' }
  | .recvmsg fd n => ∃ conn', conn w.conn (.recvmsg fd n) b conn' ∧ w' = { w with conn := conn' }
  | .recvmmsg fd lens _ => ∃ ds e, (∀ d ∈ ds, A fd d) ∧ ds.length ≤ lens.length ∧
      (b.1 = ds.length ∨ b.1 ≤ 0 ∧ ds = []) ∧
      b.2 = List.zipWith (fun d n => { d with data := d.data.take n : Datagram }) ds lens ∧
      w' = { w.withErrno e with received := Function.update w.received fd (w.received fd ++ ds) }
  | .sendmmsg fd msgs => ∃ k e, k ≤ msgs.length ∧ (0 < b → b = k) ∧
      w' = (w.withErrno e).handOver fd (msgs.take k)
  | .sendmsg _ data => ∃ e, w' = { w.withErrno e with written := w.written ++ [data] }
  | .inetPton4 name => b = w.resolver.pton4 name ∧ ∃ e, w' = w.withErrno e
  | .inetPton6 name => b = w.resolver.pton6 name ∧ ∃ e, w' = w.withErrno e
  | .getaddrinfo name family => b = w.resolver.lookup name family ∧ ∃ e, w' = w.withErrno e
  | _ => ∃ e, w' = w.withErrno e

/-! ## What a call changes -/

/-- What a call changes: only datagrams that have arrived are received, only a receive call reads
    from the stream, and only a send call hands anything on. -/
structure Tunnel.Changes (A : Int → Datagram → Prop) {β : Type} (o : Op β) (w w' : Tunnel) :
    Prop where
  type : w'.type = w.type
  fdA : w'.fdA = w.fdA
  read : w.conn.read <+: w'.conn.read
  unread : ¬ o.Takes → w'.conn.read = w.conn.read
  received : ∀ fd, ∃ ds, (∀ d ∈ ds, A fd d) ∧ w'.received fd = w.received fd ++ ds
  aside : o.Aside → w'.received = w.received
  keeps : o.Keeps → w'.forwarded = w.forwarded ∧ w'.returned = w.returned
  holds : o.Holds → w'.written = w.written

theorem tunnel_changes {L : Resolver → Prop} {A : Int → Datagram → Prop} {w w' : Tunnel} {β : Type}
    {o : Op β} {b : β} (he : tunnel L A w o b w') : w.Changes A o w' := by
  -- the stream, the datagrams received and those handed on, where a call leaves them
  have hread : w.conn.read <+: w.conn.read := List.prefix_rfl
  have hreceived (fd : Int) : ∃ ds, (∀ d ∈ ds, A fd d) ∧ w.received fd = w.received fd ++ ds :=
    ⟨[], by simp, (List.append_nil _).symm⟩
  have hsame : w.Changes A o w :=
    ⟨rfl, rfl, hread, fun _ => rfl, hreceived, fun _ => rfl, fun _ => ⟨rfl, rfl⟩, fun _ => rfl⟩
  cases o
  case recv fd n flags =>
    obtain ⟨conn', hconn, rfl⟩ := he
    have hreads : w.conn.read <+: conn'.read := by
      by_cases hflags : flags = .waitall
      · simp only [conn, if_pos hflags] at hconn
        exact hconn.reads.1.read ▸ List.prefix_append _ _
      · simp only [conn, if_neg hflags] at hconn
        exact hconn.reads.1.read ▸ List.prefix_append _ _
    exact { hsame with read := hreads, unread := fun h => absurd trivial h }
  case recvmsg fd n =>
    obtain ⟨conn', hconn, rfl⟩ := he
    have hreads : w.conn.read <+: conn'.read :=
      (Conn.Waitall.reads hconn).1.read ▸ List.prefix_append _ _
    exact { hsame with read := hreads, unread := fun h => absurd trivial h }
  case recvmmsg fd lens flags =>
    obtain ⟨ds, e, hds, -, -, -, rfl⟩ := he
    refine { hsame with received := fun fd' => ?_, aside := fun h => h.elim }
    by_cases hfd : fd' = fd
    · subst hfd
      exact ⟨ds, hds, Function.update_self ..⟩
    · simp only [Function.update_of_ne hfd]
      exact hreceived fd'
  case sendmmsg =>
    obtain ⟨k, e, -, -, rfl⟩ := he
    exact { hsame with keeps := fun h => h.elim }
  case sendmsg =>
    obtain ⟨e, rfl⟩ := he
    exact { hsame with holds := fun h => h.elim }
  case base =>
    obtain ⟨-, R, -, rfl⟩ := he
    exact { hsame with }
  case errno | getFd =>
    obtain ⟨-, rfl⟩ := he
    exact { hsame with }
  case setBase =>
    obtain rfl := he
    exact hsame
  case inetPton4 | inetPton6 | getaddrinfo =>
    obtain ⟨-, e, rfl⟩ := he
    exact { hsame with }
  all_goals
    obtain ⟨e, rfl⟩ := he
    exact { hsame with }

/-! ## What the messages are made of -/

/-- What the relay may make of a datagram: its destination, as its header address is looked up,
    and its payload. -/
def Datagram.Forwards (L : Resolver → Prop) (d : Datagram) (out : SockAddrIn6 × List Octet) :
    Prop :=
  ∃ R family, L R ∧ d.forward R family = some out

section
variable {L : Resolver → Prop} {A : Int → Datagram → Prop}

theorem post_addrIntoSockaddr6_tunnel (addr : Mem) (saddr : SockAddrIn6)
    (family : HevSocks5AddrFamily) (w : Tunnel) :
    Post (tunnel L A) (hevSocks5AddrIntoSockaddr6 addr saddr family) w fun r _ =>
      (if r.1 < 0 then none else some r.2.1) = w.resolver.destination family addr := by
  have hserves : w.resolver.Serves (tunnel L A) fun w' => w'.resolver = w.resolver := by
    intro w₁ w₂ β o b ho hw he
    cases o
    case inetPton4 | inetPton6 | getaddrinfo =>
      obtain ⟨rfl, e, rfl⟩ := he
      exact ⟨hw ▸ rfl, hw⟩
    all_goals exact ho.elim
  exact (hserves.post_addrIntoSockaddr6 addr saddr family rfl).mono fun _ _ h => h.2

/-- Each destination is that of its entry. -/
theorem post_resolveAll_tunnel {ms : List HevSocks5UDPMsg} (h : ∀ m ∈ ms, m.IsSet) (w : Tunnel) :
    Post (tunnel L A) (resolveAll (ms.map some)) w fun r _ => ∀ dvec ∈ r,
      List.Forall₂ (fun d m => ∃ R family, L R ∧ HevSocks5UDPMsg.forward R family m = some d)
        dvec ms := by
  induction ms generalizing w with
  | nil =>
    rintro dvec ⟨⟩
    exact .nil
  | cons m ms ih =>
    have ih := ih fun m hm => h m (List.mem_cons_of_mem _ hm)
    obtain ⟨addr, buf, len⟩ := m
    cases addr with
    | unset => exact absurd rfl (h _ List.mem_cons_self)
    | null => exact nofun
    | addr a =>
      simp only [List.map_cons, resolveAll, fields, pure_bind]
      by_cases hlen : len = 0
      · rw [if_pos hlen]
        exact nofun
      rw [if_neg hlen]
      simp only [always_bind, always_op]
      rintro self w₁ ⟨-, R, hR, rfl⟩
      refine ⟨trivial, (post_addrIntoSockaddr6_tunnel a .zero _ _).mono ?_⟩
      rintro ⟨ret, saddr, fam⟩ w₂ hdest
      dsimp only at hdest ⊢
      rw [always_ite]
      split
      · exact nofun
      rename_i hret
      rw [if_neg hret] at hdest
      refine (ih w₂).bind ?_
      rintro (_ | dvec) w₃ hdvec
      · exact nofun
      · rintro _ ⟨⟩
        refine .cons ⟨R, self.addrFamily, hR, ?_⟩ (hdvec dvec rfl)
        simp [HevSocks5UDPMsg.forward, hlen, ← hdest]

end

/-- The entries of a batch: each is made of its own datagram. -/
theorem parseUdp_entries {bufs : List Mem} {ds : List Datagram} (h : ds.length ≤ bufs.length)
    (hdata : ∀ d ∈ ds, d.data.length ≤ udpBufSize) {svec : List Slot}
    (hp : parseUdp (fill (bufs.map fwdSlot) ds) ds = some svec) :
    ∃ ms : List HevSocks5UDPMsg, entries svec ds.length = ms.map some ∧ (∀ m ∈ ms, m.IsSet) ∧
      List.Forall₂ (fun m d => ∀ R family,
        HevSocks5UDPMsg.forward R family m = forwardOctets R family d.data) ms ds := by
  rw [fill_fwdSlot bufs ds h] at hp
  induction ds generalizing bufs svec with
  | nil => exact ⟨[], by simp [entries], by simp, .nil⟩
  | cons d ds ih =>
    cases bufs with
    | nil => simp at h
    | cons buf bufs =>
      simp only [List.zipWith_cons_cons, List.cons_append, parseUdp, List.length_cons,
        List.drop_succ_cons] at hp
      obtain ⟨s, hs, hp⟩ := Option.bind_eq_some_iff.1 hp
      obtain ⟨svec', hp', hsvec⟩ := Option.bind_eq_some_iff.1 hp
      obtain rfl := Option.some.inj hsvec
      obtain ⟨ms, hent, hset, hall⟩ := ih (by simpa using h)
        (fun d hd => hdata d (List.mem_cons_of_mem _ hd)) hp'
      refine ⟨s.msg :: ms, by simpa [entries] using hent, ?_, .cons (fun R family => ?_) hall⟩
      · exact List.forall_mem_cons.2 ⟨parseDatagram_isSet hs, hset⟩
      · have hd := parseDatagram_forward (R := R) buf (hdata d List.mem_cons_self) family
        rwa [hs, Option.bind_some] at hd

/-! ## What is handed over, and what it is made of -/

theorem sublistForall₂_append {α β : Type} {R : α → β → Prop} {l₁ m₁ : List α} {l₂ m₂ : List β}
    (h : List.SublistForall₂ R l₁ l₂) (h' : List.SublistForall₂ R m₁ m₂) :
    List.SublistForall₂ R (l₁ ++ m₁) (l₂ ++ m₂) := by
  induction h with
  | @nil l =>
    induction l with
    | nil => exact h'
    | cons b l ih => exact .cons_right ih
  | cons hr _ ih => exact .cons hr ih
  | cons_right _ ih => exact .cons_right ih

theorem sublistForall₂_append_left {α β : Type} {R : α → β → Prop} {l₁ : List α} {l₂ : List β}
    (h : List.SublistForall₂ R l₁ l₂) (m₂ : List β) : List.SublistForall₂ R l₁ (l₂ ++ m₂) := by
  have h' := sublistForall₂_append h (.nil (l := m₂))
  rwa [List.append_nil] at h'

theorem forall₂_comp {α β γ : Type} {R : α → β → Prop} {S : β → γ → Prop} {T : α → γ → Prop}
    (hT : ∀ {a b c}, R a b → S b c → T a c) {l : List α} {m : List β} {n : List γ}
    (h : List.Forall₂ R l m) (h' : List.Forall₂ S m n) : List.Forall₂ T l n := by
  induction h generalizing n with
  | nil =>
    cases h'
    exact .nil
  | cons hr _ ih =>
    cases h' with
    | cons hs h' => exact .cons (hT hr hs) (ih h')

/-- **Nothing is mixed**: what was handed over for a destination is, in order, made of some of the
    datagrams received from the relay socket, each of one; and what was handed over for the peer
    is made so of those received from the other socket.  The datagrams `pf` and `pb` were received
    last and are still to be handed on. -/
structure Unmixed (L : Resolver → Prop) (fdB : Int) (pf pb : List Datagram) (w : Tunnel) :
    Prop where
  type : w.type = .udpInUdp
  forward : ∃ ds, w.received w.fdA = ds ++ pf ∧
    List.SublistForall₂ (fun m d => m.1 = fdB ∧ Datagram.Forwards L d m.2) w.forwarded ds
  back : ∃ ds, w.received fdB = ds ++ pb ∧
    List.SublistForall₂ (fun m d => m = (w.fdA, d.truncate.toPacket)) w.returned ds
  written : w.written = []

section
variable {L : Resolver → Prop} {A : Int → Datagram → Prop} {fdB : Int} {pf pb : List Datagram}
  {w w' : Tunnel}

/-- What was received may stay where it is. -/
theorem Unmixed.drop (h : Unmixed L fdB pf pb w) : Unmixed L fdB [] [] w where
  type := h.type
  written := h.written
  forward := by
    obtain ⟨ds, hrec, hall⟩ := h.forward
    exact ⟨ds ++ pf, by rw [hrec, List.append_nil], sublistForall₂_append_left hall pf⟩
  back := by
    obtain ⟨ds, hrec, hall⟩ := h.back
    exact ⟨ds ++ pb, by rw [hrec, List.append_nil], sublistForall₂_append_left hall pb⟩

theorem Unmixed.aside {β : Type} {o : Op β} {b : β} (h : Unmixed L fdB pf pb w) (ho : o.Aside)
    (he : tunnel L A w o b w') : Unmixed L fdB pf pb w' := by
  have hc := tunnel_changes he
  have hreceived := hc.aside ho
  obtain ⟨hforwarded, hreturned⟩ := hc.keeps ho.holds.keeps
  refine ⟨hc.type.trans h.type, ?_, ?_, (hc.holds ho.holds).trans h.written⟩
  · rw [hreceived, hc.fdA, hforwarded]
    exact h.forward
  · rw [hreceived, hc.fdA, hreturned]
    exact h.back

theorem Unmixed.always {α : Type} {x : SysM α} (h : Unmixed L fdB pf pb w) (hx : x.Only Op.Aside) :
    Always (tunnel L A) (Unmixed L fdB [] []) x w fun _ w' => Unmixed L fdB pf pb w' :=
  hx.always (fun ho h he => ⟨(h.aside ho he).drop, h.aside ho he⟩) h

theorem Sys.Op.Prepares.aside {β : Type} {o : Op β} (h : o.Prepares) : o.Aside := by
  cases o <;> first | exact h.elim | trivial

theorem Sys.Op.Yields.aside {β : Type} {o : Op β} (h : o.Yields) : o.Aside := by
  cases o <;> first | exact h.elim | trivial

theorem Sys.Op.Sets.aside {β : Type} {o : Op β} (h : o.Sets) : o.Aside := by
  cases o <;> first | exact h.elim | trivial

theorem Unmixed.always_fwdResult (h : Unmixed L fdB pf pb w) (res : Int) :
    Always (tunnel L A) (Unmixed L fdB [] []) (fwdResult res) w
      fun _ w' => Unmixed L fdB [] [] w' :=
  (h.always ((only_fwdResult res).mono Op.Prepares.aside)).mono fun _ _ h => h.drop

/-- Datagrams are received from the relay socket. -/
theorem Unmixed.receive_forward {ds : List Datagram} {e : Errno} (h : Unmixed L fdB [] [] w) :
    Unmixed L fdB ds [] { w.withErrno e with
      received := Function.update w.received w.fdA (w.received w.fdA ++ ds) } where
  type := h.type
  written := h.written
  forward := by
    obtain ⟨ds', hrec, hall⟩ := h.forward
    rw [List.append_nil] at hrec
    exact ⟨ds', by simp [Tunnel.withErrno, hrec], hall⟩
  back := by
    obtain ⟨ds', hrec, hall⟩ := h.back
    rw [List.append_nil] at hrec
    by_cases hfd : fdB = w.fdA
    · exact ⟨ds' ++ ds, by simp [← hfd, hrec], sublistForall₂_append_left hall ds⟩
    · exact ⟨ds', by simp [Function.update_of_ne hfd, hrec], hall⟩

theorem Unmixed.receive_back {ds : List Datagram} {e : Errno} (h : Unmixed L fdB [] [] w) :
    Unmixed L fdB [] ds { w.withErrno e with
      received := Function.update w.received fdB (w.received fdB ++ ds) } where
  type := h.type
  written := h.written
  forward := by
    obtain ⟨ds', hrec, hall⟩ := h.forward
    rw [List.append_nil] at hrec
    by_cases hfd : w.fdA = fdB
    · exact ⟨ds' ++ ds, by simp [Tunnel.withErrno, ← hfd, hrec], sublistForall₂_append_left hall ds⟩
    · refine ⟨ds', ?_, hall⟩
      show Function.update w.received fdB _ w.fdA = ds' ++ []
      rw [Function.update_of_ne hfd, hrec, List.append_nil]
  back := by
    obtain ⟨ds', hrec, hall⟩ := h.back
    rw [List.append_nil] at hrec
    exact ⟨ds', by simp [hrec], hall⟩

/-- The first of the datagrams received are handed on. -/
theorem Unmixed.handOver_forward {dvec : List (SockAddrIn6 × List Octet)} {e : Errno} (k : Nat)
    (h : Unmixed L fdB pf [] w) (hd : List.Forall₂ (fun m d => Datagram.Forwards L d m) dvec pf) :
    Unmixed L fdB [] []
      ((w.withErrno e).handOver fdB ((dvec.map fun d => (some d.1, d.2)).take k)) where
  type := h.type
  written := h.written
  forward := by
    obtain ⟨ds, hrec, hall⟩ := h.forward
    refine ⟨ds ++ pf, by rw [List.append_nil]; exact hrec, sublistForall₂_append hall ?_⟩
    have hmap : ((dvec.map fun d => ((some d.1, d.2) : Option SockAddrIn6 × List Octet)).take
        k).filterMap (fun m => m.1.map fun a => (fdB, a, m.2)) =
          (dvec.take k).map fun d => (fdB, d) := by
      simp [← List.map_take, List.filterMap_map]
    rw [hmap, List.sublistForall₂_map_left_iff]
    refine List.sublistForall₂_iff.2 ⟨pf.take k, ?_, List.take_sublist k pf⟩
    exact (List.forall₂_take k hd).imp fun m d h => ⟨rfl, h⟩
  back := by
    obtain ⟨ds, hrec, hall⟩ := h.back
    refine ⟨ds, hrec, ?_⟩
    have hnone : ((dvec.map fun d => ((some d.1, d.2) : Option SockAddrIn6 × List Octet)).take
        k).filterMap (fun m => if m.1.isNone then some (fdB, m.2) else none) = [] := by
      simp [← List.map_take]
    simp only [Tunnel.handOver, hnone, List.append_nil]
    exact hall

theorem Unmixed.handOver_back {e : Errno} (k : Nat) (h : Unmixed L fdB [] pb w) :
    Unmixed L fdB [] [] ((w.withErrno e).handOver w.fdA
      ((pb.map fun d => ((none : Option SockAddrIn6), d.truncate.toPacket)).take k)) where
  type := h.type
  written := h.written
  forward := by
    obtain ⟨ds, hrec, hall⟩ := h.forward
    refine ⟨ds, hrec, ?_⟩
    have hnone : ((pb.map fun d => ((none : Option SockAddrIn6), d.truncate.toPacket)).take
        k).filterMap (fun m => m.1.map fun a => (w.fdA, a, m.2)) = [] := by
      simp [← List.map_take]
    simp only [Tunnel.handOver, hnone, List.append_nil]
    exact hall
  back := by
    obtain ⟨ds, hrec, hall⟩ := h.back
    refine ⟨ds ++ pb, by rw [List.append_nil]; exact hrec, sublistForall₂_append hall ?_⟩
    have hmap : ((pb.map fun d => ((none : Option SockAddrIn6), d.truncate.toPacket)).take
        k).filterMap (fun m => if m.1.isNone then some (w.fdA, m.2) else none) =
          (pb.take k).map fun d => (w.fdA, d.truncate.toPacket) := by
      simp [← List.map_take, List.filterMap_map]
    rw [hmap, List.sublistForall₂_map_left_iff]
    refine List.sublistForall₂_iff.2 ⟨pb.take k, ?_, List.take_sublist k pb⟩
    exact List.forall₂_same.2 fun d _ => rfl

/-! ## One round -/

theorem Unmixed.always_associate {fd : Int} {ds : List Datagram} (h : Unmixed L fdB pf pb w) :
    Always (tunnel L A) (Unmixed L fdB [] []) (associate fd ds) w
      fun _ w' => Unmixed L fdB pf pb w' := by
  refine h.always ?_
  refine .bind ((only_op _).2 trivial) fun self => .ite (only_pure _) ?_
  refine .bind ((only_op _).2 trivial) fun res => .ite (only_pure _) ?_
  refine .bind ((only_op _).2 trivial) fun self => ?_
  exact .bind ((only_op _).2 trivial) fun _ => only_pure _

/-- A batch received: its entries are made of its datagrams, which are still to be handed on. -/
def Batch (L : Resolver → Prop) (fdB : Int) (r : Int × List Slot) (w : Tunnel) : Prop :=
  ∃ ds ms, Unmixed L fdB ds [] w ∧ entries r.2 r.1.toNat = ms.map some ∧ (∀ m ∈ ms, m.IsSet) ∧
    List.Forall₂ (fun m d => ∀ R family,
      HevSocks5UDPMsg.forward R family m = Datagram.forward R family d) ms ds

theorem Unmixed.always_recvmmsg {bufs : List Mem} {nonblock : Bool} (h : Unmixed L fdB [] [] w) :
    Always (tunnel L A) (Unmixed L fdB [] []) (recvmmsg (bufs.map fwdSlot) nonblock) w fun r w' =>
      if 0 < r.1 then Batch L fdB r w' else Unmixed L fdB [] [] w' := by
  simp only [recvmmsg, always_bind, always_op]
  rintro self w₀ ⟨htype, R, hR, hw₀⟩
  have h₀ : Unmixed L fdB [] [] w₀ := h.aside (A := A) (o := .base) trivial ⟨htype, R, hR, hw₀⟩
  refine ⟨h₀, ?_⟩
  rw [htype, h.type]
  simp only [recvmmsgUdp, always_bind, always_op]
  rintro fd w₁ ⟨hfd, hw₁⟩
  have h₁ : Unmixed L fdB [] [] w₁ := h₀.aside (A := A) (o := .getFd) trivial ⟨hfd, hw₁⟩
  obtain rfl : fd = w₁.fdA := by rw [hfd, hw₁]
  refine ⟨h₁, ?_⟩
  rintro ⟨res, _⟩ w₂ ⟨ds, e, -, hlen, hres, rfl, rfl⟩
  have h₂ : Unmixed L fdB ds [] _ := h₁.receive_forward (e := e)
  rw [List.length_map, List.length_map] at hlen
  dsimp only at hres ⊢
  rw [zipWith_truncate hlen]
  refine ⟨h₂.drop, ?_⟩
  rw [always_ite]
  split
  · rename_i hle
    simp only [always_pure]
    rw [if_neg (by omega)]
    exact h₂.drop
  rename_i hpos
  have hres' : res = ds.length := by
    rcases hres with hres | hres
    · exact hres
    · omega
  refine h₂.always_associate.bind fun ok w₃ h₃ => ?_
  rw [always_ite]
  split
  · exact h₃.drop
  have htake : (ds.map (·.truncate)).take res.toNat = ds.map (·.truncate) :=
    List.take_of_length_le (by simp [hres'])
  rw [htake]
  cases hp : parseUdp (fill (bufs.map fwdSlot) (ds.map (·.truncate))) (ds.map (·.truncate)) with
  | none => exact h₃.drop
  | some svec =>
    have hdata : ∀ d ∈ ds.map (·.truncate), d.data.length ≤ udpBufSize := by
      intro d hd
      obtain ⟨d', -, rfl⟩ := List.mem_map.1 hd
      exact List.length_take_le _ _
    obtain ⟨ms, hent, hset, hall⟩ := parseUdp_entries (by simpa using hlen) hdata hp
    simp only [always_pure]
    rw [if_pos (by omega)]
    refine ⟨ds, ms, h₃, ?_, hset, ?_⟩
    · rw [List.length_map] at hent
      simpa [hres'] using hent
    · rw [List.forall₂_map_right_iff] at hall
      exact hall

theorem Batch.always_forward {fd : Int} {res : Int} {svec : List Slot} {bind : Bool}
    (h : Batch L fd (res, svec) w) :
    Always (tunnel L A) (Unmixed L fd [] []) (forward fd res.toNat svec bind) w fun _ w' =>
      Unmixed L fd [] [] w' := by
  obtain ⟨ds, ms, hw, hent, hset, hall⟩ := h
  unfold forward
  rw [hent]
  refine ((hw.always ((only_resolveAll _).mono Op.Prepares.aside)).and
    (post_resolveAll_tunnel hset w)).bind ?_
  rintro (_ | dvec) w₁ ⟨h₁, hdvec⟩
  · exact h₁.drop
  refine (h₁.always ((only_bindFirst _ _ dvec).mono Op.Prepares.aside)).bind fun ok w₂ h₂ => ?_
  rw [always_ite]
  split
  · exact h₂.drop
  simp only [always_bind, always_op, always_pure]
  rintro res' w₃ ⟨k, e, -, -, rfl⟩
  have hforward : List.Forall₂ (fun m d => Datagram.Forwards L d m) dvec ds := by
    refine forall₂_comp ?_ (hdvec dvec rfl) hall
    rintro d m ds ⟨R, family, hR, hm⟩ hd
    exact ⟨R, family, hR, (hd R family).symm.trans hm⟩
  have h₃ := h₂.handOver_forward (e := e) k hforward
  exact ⟨h₃, h₃.always_fwdResult res'⟩

theorem Unmixed.always_fwdF {bufs : List Mem} {bind : Bool} (h : Unmixed L fdB [] [] w) :
    Always (tunnel L A) (Unmixed L fdB [] []) (fwdF fdB bufs bind) w fun _ w' =>
      Unmixed L fdB [] [] w' := by
  unfold fwdF
  refine h.always_recvmmsg.bind ?_
  rintro ⟨res, svec⟩ w₁ h₁
  simp only [always_bind, always_pure, fwdRest]
  dsimp only at h₁
  split
  · rename_i hpos
    rw [if_pos hpos] at h₁
    exact h₁.always_forward
  · rename_i hle
    rw [if_neg hle] at h₁
    simp only [always_bind, always_pure]
    exact h₁.always_fwdResult res

/-- What `fwd_b` sends for the datagrams that it received. -/
theorem Unmixed.always_sendmmsg {bufs : List Mem} (h : Unmixed L fdB [] pb w)
    (hlen : pb.length ≤ bufs.length) :
    Always (tunnel L A) (Unmixed L fdB [] [])
      (sendmmsg (List.zipWith outMsg bufs (pb.map (·.truncate)))) w fun _ w' =>
        Unmixed L fdB [] [] w' := by
  have hlen' : (pb.map (·.truncate)).length ≤ bufs.length := by simpa using hlen
  have hpackets : ((List.zipWith outMsg bufs (pb.map (·.truncate))).map
      fun m => m.packet m.addrlen).map (fun d => ((none : Option SockAddrIn6), d)) =
        pb.map fun d => (none, d.truncate.toPacket) := by
    have hpacket : ∀ mem, ∀ d ∈ pb.map (·.truncate),
        (outMsg mem d).packet (outMsg mem d).addrlen = d.toPacket := by
      intro mem d hd
      obtain ⟨d, -, rfl⟩ := List.mem_map.1 hd
      exact packet_outMsg mem (List.length_take_le _ _)
    rw [map_outMsg hlen' hpacket, List.map_map, List.map_map]
    rfl
  simp only [always_bind, sendmmsg, always_op]
  rintro self w₁ ⟨htype, R, hR, hw₁⟩
  have h₁ : Unmixed L fdB [] pb w₁ := h.aside (A := A) (o := .base) trivial ⟨htype, R, hR, hw₁⟩
  refine ⟨h₁.drop, ?_⟩
  rw [htype, h.type]
  dsimp only
  rw [sendmmsgUdp, gather_eq _ addr_outMsg]
  simp only [always_bind, always_op]
  rintro fdA w₂ ⟨hfd, hw₂⟩
  have h₂ : Unmixed L fdB [] pb w₂ := h₁.aside (A := A) (o := .getFd) trivial ⟨hfd, hw₂⟩
  obtain rfl : fdA = w₂.fdA := by rw [hfd, hw₂]
  refine ⟨h₂.drop, ?_⟩
  rintro res w₃ ⟨k, e, -, -, rfl⟩
  rw [hpackets]
  have h₃ := h₂.handOver_back (e := e) k
  exact ⟨h₃, h₃⟩

theorem Unmixed.always_fwdB {bufs : List Mem} (h : Unmixed L fdB [] [] w) :
    Always (tunnel L A) (Unmixed L fdB [] []) (fwdB fdB bufs) w
      fun _ w' => Unmixed L fdB [] [] w' := by
  simp only [fwdB, always_bind, always_op]
  rintro ⟨res, _⟩ w₁ ⟨ds, e, -, hlen, hres, rfl, rfl⟩
  have h₁ : Unmixed L fdB [] ds _ := h.receive_back (e := e)
  rw [List.length_map] at hlen
  dsimp only at hres ⊢
  refine ⟨h₁.drop, ?_⟩
  rw [always_ite]
  split
  swap
  · simp only [always_bind, always_pure]
    exact h₁.always_fwdResult res
  rename_i hpos
  have htrunc : List.zipWith (fun d n => { d with data := d.data.take n : Datagram }) ds
      (bufs.map fun _ => udpBufSize) = ds.map (·.truncate) := by
    rw [← zipWith_truncate hlen, List.map_map]
    rfl
  have htake : (ds.map (·.truncate)).take res.toNat = ds.map (·.truncate) := by
    refine List.take_of_length_le ?_
    rcases hres with hres | hres
    · simp [hres]
    · omega
  rw [htrunc, htake]
  simp only [always_bind]
  refine (h₁.always_sendmmsg hlen).mono fun res' w₂ h₂ => ?_
  exact (h₂.always_fwdResult res').mono fun _ _ h => h

/-! ## The splicer -/

theorem Unmixed.always_stepF {resF : Int} {bind : Bool} {bufs : List Mem}
    (h : Unmixed L fdB [] [] w) :
    Always (tunnel L A) (Unmixed L fdB [] []) (stepF fdB resF bind bufs) w fun _ w' =>
      Unmixed L fdB [] [] w' := by
  rw [stepF, always_ite]
  split
  · exact h.always_fwdF
  · exact h

theorem Unmixed.always_stepB {resB : Int} {bufs : List Mem} (h : Unmixed L fdB [] [] w) :
    Always (tunnel L A) (Unmixed L fdB [] []) (stepB fdB resB bufs) w fun _ w' =>
      Unmixed L fdB [] [] w' := by
  rw [stepB, always_ite]
  split
  · exact h.always_fwdB
  · exact h

theorem Unmixed.always_splicerLoop {rounds : Nat} {resF resB : Int} {bind : Bool}
    {bufsF bufsB : List Mem} (h : Unmixed L fdB [] [] w) :
    Always (tunnel L A) (Unmixed L fdB [] []) (splicerLoop fdB rounds resF resB bind bufsF bufsB) w
      fun _ w' => Unmixed L fdB [] [] w' := by
  induction rounds generalizing resF resB bind bufsF bufsB w with
  | zero => exact h
  | succ rounds ih =>
    unfold splicerLoop
    refine h.always_stepF.bind ?_
    rintro ⟨resF, bind, bufsF⟩ w₁ h₁
    refine h₁.always_stepB.bind ?_
    rintro ⟨resB, bufsB⟩ w₂ h₂
    dsimp only
    cases yieldType resF resB with
    | none => exact h₂
    | some type =>
      refine (h₂.always ((only_taskIoYielder type).mono Op.Yields.aside)).bind fun res w₃ h₃ => ?_
      rw [always_ite]
      split
      · exact h₃
      · exact ih h₃

theorem Unmixed.always_splicer {rounds : Nat} (h : Unmixed L fdB [] [] w) :
    Always (tunnel L A) (Unmixed L fdB [] []) (splicer fdB rounds) w fun _ w' =>
      Unmixed L fdB [] [] w' := by
  refine always_splicer_of_loop (I := Unmixed L fdB [] []) ?_ id (fun _ _ h => ?_) h
  · intro w w' β o b ho h he
    have h' := h.aside ho.aside he
    exact ⟨h', h'⟩
  · exact h.always_splicerLoop

/-! ## In order, and of its own octets -/

/-- What arrives is in `A`. -/
theorem always_received {α : Type} (x : SysM α) {w : Tunnel}
    (hw : ∀ fd, ∀ d ∈ w.received fd, A fd d) :
    Always (tunnel L A) (fun w' => ∀ fd, ∀ d ∈ w'.received fd, A fd d) x w fun _ w' =>
      ∀ fd, ∀ d ∈ w'.received fd, A fd d := by
  refine always_of_step ?_ x hw
  intro w w' β o b hw he
  suffices ∀ fd, ∀ d ∈ w'.received fd, A fd d from ⟨this, this⟩
  intro fd d hd
  obtain ⟨ds, hds, hreceived⟩ := (tunnel_changes he).received fd
  rw [hreceived, List.mem_append] at hd
  exact hd.elim (hw fd d) (hds d)

/-- **In order**: what was handed to `fdB` was made of some of the datagrams received from the
    relay socket, in their order, each of its own octets; what was handed to the relay socket was
    made of some of those received from `fdB`, in their order, each behind the address it came
    from. -/
structure Tunnel.InOrder (L : Resolver → Prop) (fdB : Int) (w : Tunnel) : Prop where
  forward : List.SublistForall₂
    (fun m d => m.1 = fdB ∧ ∃ R family, L R ∧ forwardOctets R family d.data = some m.2)
    w.forwarded (w.received w.fdA)
  back : List.SublistForall₂ (fun m d => m = (w.fdA, d.toPacket)) w.returned (w.received fdB)

/-- Nothing has arrived and nothing was handed over. -/
def Tunnel.Fresh (w : Tunnel) : Prop :=
  (∀ fd, w.received fd = []) ∧ w.forwarded = [] ∧ w.returned = [] ∧ w.written = []

theorem Tunnel.Fresh.unmixed (h : w.Fresh) (htype : w.type = .udpInUdp) :
    Unmixed L fdB [] [] w where
  type := htype
  forward := ⟨[], h.1 _, by rw [h.2.1]; exact .nil⟩
  back := ⟨[], h.1 _, by rw [h.2.2.1]; exact .nil⟩
  written := h.2.2.2

theorem sublistForall₂_mono {α β : Type} {R S : α → β → Prop} {l₁ : List α} {l₂ : List β}
    (h : List.SublistForall₂ R l₁ l₂) (hRS : ∀ a, ∀ b ∈ l₂, R a b → S a b) :
    List.SublistForall₂ S l₁ l₂ := by
  induction h with
  | nil => exact .nil
  | cons hr _ ih =>
    exact .cons (hRS _ _ List.mem_cons_self hr)
      (ih fun a b hb => hRS a b (List.mem_cons_of_mem _ hb))
  | cons_right _ ih => exact .cons_right (ih fun a b hb => hRS a b (List.mem_cons_of_mem _ hb))

theorem Unmixed.inOrder (h : Unmixed L fdB [] [] w)
    (hfit : ∀ fd, ∀ d ∈ w.received fd, d.data.length ≤ udpBufSize) : w.InOrder L fdB where
  forward := by
    obtain ⟨ds, hrec, hall⟩ := h.forward
    rw [List.append_nil] at hrec
    rw [hrec]
    refine sublistForall₂_mono hall ?_
    rintro m d hd ⟨hfd, R, family, hR, hforward⟩
    rw [Datagram.forward, List.take_of_length_le (hfit _ d (hrec ▸ hd))] at hforward
    exact ⟨hfd, R, family, hR, hforward⟩
  back := by
    obtain ⟨ds, hrec, hall⟩ := h.back
    rw [List.append_nil] at hrec
    rw [hrec]
    refine sublistForall₂_mono hall ?_
    rintro m d hd rfl
    rw [Datagram.truncate, List.take_of_length_le (hfit _ d (hrec ▸ hd))]

theorem Tunnel.Fresh.always_inOrder (h : w.Fresh) (htype : w.type = .udpInUdp) (rounds : Nat) :
    Always (tunnel L fun _ d => d.data.length ≤ udpBufSize) (Tunnel.InOrder L fdB)
      (splicer fdB rounds) w fun _ _ => True := by
  have hfit := always_received (L := L) (A := fun _ d => d.data.length ≤ udpBufSize)
    (splicer fdB rounds) (w := w) fun fd d hd => by simp [h.1 fd] at hd
  refine (((h.unmixed htype).always_splicer.both hfit).imp ?_).mono fun _ _ _ => trivial
  exact fun w' h' => h'.1.inOrder h'.2

/-- **The relay of UDP-in-UDP is in order and unmixed**, when every datagram that arrives fits
    into a slot. -/
theorem relay_unmixed {rounds : Nat} (htype : w.type = .udpInUdp) (hw : w.Fresh)
    (h : Reaches (tunnel L fun _ d => d.data.length ≤ udpBufSize) (splicer fdB rounds) w w') :
    w'.InOrder L fdB :=
  (always_iff.1 (hw.always_inOrder htype rounds)).1 w' h

end

/-! ## A run -/

/-- The association is established, and a client and a peer have sent a datagram. -/
def freshTunnel : Tunnel :=
  ⟨.udpInUdp, 5, ⟨fun _ => none, fun _ => none, fun _ _ => none⟩, ⟨[], [], .other, 0⟩,
    fun _ => [], [], [], []⟩

/-- The client sends an octet to 192.0.2.7, port 53, and an octet comes back. -/
def query : Datagram := ⟨.zero, [0, 0, 0, 1, 192, 0, 2, 7, 0, 53, 104]⟩

def answer : Datagram := ⟨⟨(0, 53), Vector.replicate 16 1⟩, [105]⟩

/-- A datagram of the client and an answer arrive, and then the control connection ends. -/
def exchange (q : Datagram) : Tunnel → {β : Type} → Op β → Option (β × Tunnel) := fun w _ o =>
  match o with
  | .base => some (⟨3, -1, w.type, true, .unspec⟩, w)
  | .setBase _ => some ((), w)
  | .getFd => some (w.fdA, { w with conn := { w.conn with start := w.conn.read.length } })
  | .udpCopyBufferNums => some (1, w.withErrno .other)
  | .malloc => some (some fun _ => .undef, w.withErrno .other)
  | .modFd _ => some (0, w.withErrno .other)
  | .addFd _ => some (0, w.withErrno .other)
  | .binder _ _ => some (0, w.withErrno .other)
  | .recvRaw _ => some (0, w.withErrno .other)
  | .recvmmsg fd lens _ =>
    let d := if fd = 5 then q else answer
    if lens = [udpBufSize] then
      some ((1, [d.truncate]), { w.withErrno .other with
        received := Function.update w.received fd (w.received fd ++ [d]) })
    else none
  | .sendmmsg fd msgs => some (msgs.length, (w.withErrno .other).handOver fd msgs)
  | _ => none

theorem tunnel_of_exchange {q : Datagram} {A : Int → Datagram → Prop}
    (hA : ∀ fd, A fd (if fd = 5 then q else answer)) (w : Tunnel) {β : Type} (o : Op β) (b : β)
    (w' : Tunnel) (h : exchange q w o = some (b, w')) : tunnel (fun _ => True) A w o b w' := by
  cases o <;> simp only [exchange, Option.some.injEq, Prod.mk.injEq, reduceCtorEq] at h
  case base =>
    obtain ⟨rfl, rfl⟩ := h
    exact ⟨rfl, w.resolver, trivial, rfl⟩
  case setBase =>
    obtain ⟨-, rfl⟩ := h
    rfl
  case getFd =>
    obtain ⟨rfl, rfl⟩ := h
    exact ⟨rfl, rfl⟩
  case recvmmsg fd lens flags =>
    rw [Option.ite_none_right_eq_some, Option.some.injEq, Prod.mk.injEq] at h
    obtain ⟨rfl, rfl, rfl⟩ := h
    refine ⟨[if fd = 5 then q else answer], .other, ?_, ?_, .inl rfl, ?_, rfl⟩
    · intro d hd
      obtain rfl := List.mem_singleton.1 hd
      exact hA fd
    · simp
    · rfl
  case sendmmsg fd msgs =>
    obtain ⟨rfl, rfl⟩ := h
    exact ⟨msgs.length, .other, Nat.le_refl _, fun _ => rfl, by rw [List.take_length]⟩
  all_goals
    obtain ⟨-, rfl⟩ := h
    exact ⟨_, rfl⟩

theorem relay_unmixed_exchange : ∃ w',
    Reaches (tunnel (fun _ => True) fun _ d => d.data.length ≤ udpBufSize) (splicer 4 1) freshTunnel
      w' ∧ w'.forwarded ≠ [] ∧ w'.returned ≠ [] ∧ w'.InOrder (fun _ => True) 4 := by
  have hfit : ∀ fd : Int, (if fd = 5 then query else answer).data.length ≤ udpBufSize := by
    intro fd
    split <;> simp [query, answer, udpBufSize]
  obtain ⟨r, w, hrun, hw⟩ := exists_returns_of_exec
    (tunnel_of_exchange (A := fun _ d => d.data.length ≤ udpBufSize) hfit) (x := splicer 4 1)
    (w := freshTunnel) (fun _ w => w.forwarded ≠ [] ∧ w.returned ≠ []) (by decide +kernel)
  have hne : w.forwarded ≠ [] ∧ w.returned ≠ [] := of_decide_eq_true hw
  have hreach := hrun.eq_or_reaches.resolve_left fun h => by
    rw [h] at hne
    exact hne.1 rfl
  exact ⟨w, hreach, hne.1, hne.2, relay_unmixed rfl ⟨fun _ => rfl, rfl, rfl, rfl⟩ hreach⟩

end HevSocks5
