/-
  An association of UDP-in-UDP, from end to end.

  Both ends run the splicer, and a network is between their relay sockets: it
  may lose packets, deliver them in another order or more than once, but makes
  up none.  Whatever each end then hands on is a datagram that the other has
  received, for the address from which it came; its octets are cut to what a
  slot holds behind the header.  If the packets arrive in order, so do the
  datagrams (`relayed_unforged`).
-/
import HevSocks5.Base.Joint
import HevSocks5.UdpWhole

namespace HevSocks5

open Interact Sys HevSocks5UDP Relation

/-- What becomes of a datagram at the other end, which hands it to `fd`. -/
def Datagram.relayed (fd : Int) (d : Datagram) : Int × SockAddrIn6 × List Octet :=
  (fd, d.src, d.data.take (udpBufSize - (3 + d.src.octets.length)))

/-- What the relay makes of a packet is the datagram in it. -/
theorem relayed_of_forwards {L : Resolver → Prop} {d p : Datagram} {fd : Int}
    {out : SockAddrIn6 × List Octet} (hp : p.data = d.truncate.toPacket)
    (h : Datagram.Forwards L p out) : (fd, out) = d.relayed fd := by
  obtain ⟨R, family, -, h⟩ := h
  have hlen := d.src.length_octets_le
  have hhead : ([0, 0, 0] ++ d.src.octets).length = 3 + d.src.octets.length := by
    rw [List.length_append]
    rfl
  have hcut : p.data.take udpBufSize = [0, 0, 0] ++
      (d.src.octets ++ d.data.take (udpBufSize - (3 + d.src.octets.length))) := by
    rw [hp, Datagram.toPacket, show d.truncate.src = d.src from rfl, ← List.append_assoc,
      List.take_append, hhead, List.take_of_length_le (by rw [hhead, udpBufSize]; omega),
      Datagram.truncate, List.take_take, Nat.min_eq_left (Nat.sub_le _ _)]
  rw [Datagram.forward, hcut, forwardOctets_packet, Option.ite_none_left_eq_some] at h
  rw [← Option.some.inj h.2]
  rfl

/-! ## The two ends -/

namespace Tunnel

/-- The packets that it has sent. -/
def packets (w : Tunnel) : List (List Octet) := w.returned.map Prod.snd

/-- The packets that it has received. -/
def heard (w : Tunnel) : List (List Octet) := (w.received w.fdA).map (·.data)

/-- **The network**: each packet that was received was sent by the other end. -/
def Linked (w v : Tunnel) : Prop := w.heard ⊆ v.packets ∧ v.heard ⊆ w.packets

/-- The calls of the splicer at an end; any datagrams may arrive. -/
abbrev calls (L : Resolver → Prop) : Env Op Tunnel := tunnel L fun _ _ => True

/-- What `w` has handed to `fd` is of datagrams that `v` has received from `fd'`, and in their
    order if its packets have arrived in order. -/
structure Unforged (fd fd' : Int) (w v : Tunnel) : Prop where
  unforged : ∀ m ∈ w.forwarded, ∃ d ∈ v.received fd', m = d.relayed fd
  ordered : w.heard.Sublist v.packets →
    w.forwarded.Sublist ((v.received fd').map (·.relayed fd))

end Tunnel

section
variable {L L' : Resolver → Prop} {fd fd' : Int} {w v : Tunnel}

/-- The packets that were sent are those of datagrams received, in order. -/
theorem Unmixed.packets_eq (h : Unmixed L fd [] [] w) :
    ∃ ds : List Datagram, ds.Sublist (w.received fd) ∧
      w.packets = ds.map fun d => d.truncate.toPacket := by
  obtain ⟨ds, hrec, hall⟩ := h.back
  rw [List.append_nil] at hrec
  obtain ⟨l, hl, hsub⟩ := List.sublistForall₂_iff.1 hall
  refine ⟨l, hrec ▸ hsub, ?_⟩
  have heq : w.returned = l.map fun d => (w.fdA, d.truncate.toPacket) :=
    List.forall₂_eq_eq_eq ▸ List.forall₂_map_right_iff.2 hl
  rw [Tunnel.packets, heq, List.map_map]
  rfl

/-- What was handed on, and the packets it was in. -/
theorem Unmixed.forwarded_eq (h : Unmixed L fd [] [] w) :
    ∃ ps : List (List Octet), ps.Sublist w.heard ∧ List.Forall₂ (fun m p => ∀ d : Datagram,
      p = d.truncate.toPacket → m = d.relayed fd) w.forwarded ps := by
  obtain ⟨ds, hrec, hall⟩ := h.forward
  rw [List.append_nil] at hrec
  obtain ⟨l, hl, hsub⟩ := List.sublistForall₂_iff.1 hall
  refine ⟨l.map (·.data), ?_, ?_⟩
  · rw [Tunnel.heard, hrec]
    exact hsub.map _
  · rw [List.forall₂_map_right_iff]
    refine hl.imp ?_
    rintro ⟨fd', out⟩ p ⟨rfl, hforwards⟩ d hp
    exact relayed_of_forwards hp hforwards

theorem unforged_of_linked (hw : Unmixed L fd [] [] w) (hv : Unmixed L' fd' [] [] v)
    (hl : w.heard ⊆ v.packets) : w.Unforged fd fd' v := by
  obtain ⟨ps, hps, hall⟩ := hw.forwarded_eq
  obtain ⟨ds, hds, hpackets⟩ := hv.packets_eq
  constructor
  · intro m hm
    obtain ⟨p, hp, hmp⟩ := exists_of_sublistForall₂ (List.sublistForall₂_iff.2 ⟨ps, hall, hps⟩) hm
    have hsent := hl hp
    rw [hpackets] at hsent
    obtain ⟨d, hd, rfl⟩ := List.mem_map.1 hsent
    exact ⟨d, hds.subset hd, hmp d rfl⟩
  · intro hordered
    rw [hpackets] at hordered
    obtain ⟨l, hsub, rfl⟩ := List.sublist_map_iff.1 (hps.trans hordered)
    have heq : w.forwarded = l.map (·.relayed fd) := by
      rw [List.forall₂_map_right_iff] at hall
      exact List.forall₂_eq_eq_eq ▸
        List.forall₂_map_right_iff.2 (hall.imp fun m d h => h d rfl)
    rw [heq]
    exact (hsub.trans hds).map _

/-- **Unforged, from end to end.**  The splicers of an association of UDP-in-UDP run in any order,
    over a network that may lose, reorder and repeat packets.  Each hands to its socket only
    datagrams that the other has received, cut to what a slot holds behind the header, for the
    address from which they came; in their order and none twice if the network keeps the order
    and repeats none. -/
theorem relayed_unforged {rounds rounds' : Nat} (htype : w.type = .udpInUdp)
    (htype' : v.type = .udpInUdp) (hw : w.Fresh) (hv : v.Fresh)
    {n : Joint Op Tunnel Int Op Tunnel Int}
    (hr : ReflTransGen (Joint.Step (Tunnel.calls L) (Tunnel.calls L') Tunnel.Linked)
      ⟨splicer fd rounds, w, splicer fd' rounds', v⟩ n) :
    n.leftWorld.Unforged fd fd' n.rightWorld ∧ n.rightWorld.Unforged fd' fd n.leftWorld := by
  have hkept : Joint.Kept (Tunnel.calls L) (Tunnel.calls L') Tunnel.Linked
      (Unmixed L fd [] []) (Unmixed L' fd' [] []) (fun _ _ => True) (fun _ _ => True)
      ⟨splicer fd rounds, w, splicer fd' rounds', v⟩ := by
    refine ⟨(hw.unmixed htype).always_splicer.mono fun _ _ _ => trivial,
      (hv.unmixed htype').always_splicer.mono fun _ _ _ => trivial,
      hw.unmixed htype, hv.unmixed htype', ?_, ?_⟩
    · show w.heard ⊆ _
      simp [Tunnel.heard, hw.1]
    · show v.heard ⊆ _
      simp [Tunnel.heard, hv.1]
  have h := hkept.run hr
  exact ⟨unforged_of_linked h.leftWorld h.rightWorld h.link.1,
    unforged_of_linked h.rightWorld h.leftWorld h.link.2⟩

end

/-! ## A run -/

/-- An end that hears the packet of a datagram, or nothing, and that receives one from the other
    socket. -/
def hears (q : Option Datagram) : Tunnel → {β : Type} → Op β → Option (β × Tunnel) := fun w _ o =>
  match o with
  | .errno => some (w.conn.errno, w)
  | .recvmmsg fd lens flags =>
    match q with
    | some q => exchange q w (.recvmmsg fd lens flags)
    | none =>
      if fd = 5 then some ((-1, []), { w.withErrno .eagain with
        received := Function.update w.received fd (w.received fd ++ []) })
      else exchange answer w (.recvmmsg fd lens flags)
  | o => exchange answer w o

theorem calls_of_hears (q : Option Datagram) (w : Tunnel) {β : Type} (o : Op β) (b : β)
    (w' : Tunnel) (h : hears q w o = some (b, w')) : Tunnel.calls (fun _ => True) w o b w' := by
  have hexchange (q : Datagram) {β : Type} (o : Op β) (b : β) (h : exchange q w o = some (b, w')) :
      Tunnel.calls (fun _ => True) w o b w' := tunnel_of_exchange (fun _ => trivial) w o b w' h
  cases o
  case errno =>
    obtain ⟨rfl, rfl⟩ := Prod.mk.inj (Option.some.inj h)
    exact ⟨rfl, rfl⟩
  case recvmmsg fd lens flags =>
    cases q with
    | some q => exact hexchange q _ b h
    | none =>
      simp only [hears] at h
      split at h
      · obtain ⟨rfl, rfl⟩ := Prod.mk.inj (Option.some.inj h)
        exact ⟨[], .eagain, nofun, Nat.zero_le _, .inr ⟨by decide, rfl⟩, rfl, rfl⟩
      · exact hexchange answer _ b h
  all_goals exact hexchange answer _ b h

def linkedNow (w v : Tunnel) : Bool :=
  w.heard.all (v.packets.contains ·) && v.heard.all (w.packets.contains ·)

theorem linked_of_now (w v : Tunnel) (h : linkedNow w v = true) : w.Linked v := by
  obtain ⟨hw, hv⟩ := Bool.and_eq_true_iff.1 h
  exact ⟨fun p hp => List.contains_iff_mem.1 (List.all_eq_true.1 hw p hp),
    fun p hp => List.contains_iff_mem.1 (List.all_eq_true.1 hv p hp)⟩

/-- The right end receives a datagram, and the left one hears its packet. -/
def onePacket : Joint Op Tunnel Int Op Tunnel Int :=
  (⟨splicer 4 1, freshTunnel, splicer 4 1, freshTunnel⟩ : Joint Op Tunnel Int Op Tunnel Int).drive
    (hears (some ⟨.zero, answer.toPacket⟩)) (hears none) linkedNow 60

theorem relayed_unforged_one : onePacket.leftWorld.forwarded ≠ [] ∧
    onePacket.leftWorld.Unforged 4 4 onePacket.rightWorld := by
  have hne : onePacket.leftWorld.forwarded ≠ [] := by decide +kernel
  have hfresh : freshTunnel.Fresh := ⟨fun _ => rfl, rfl, rfl, rfl⟩
  exact ⟨hne, (relayed_unforged rfl rfl hfresh hfresh
    (Joint.reaches_drive (calls_of_hears _) (calls_of_hears _) linked_of_now 60 _)).1⟩

end HevSocks5
