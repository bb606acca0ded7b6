/-
  The datagrams of UDP-in-UDP.

  `Message.LaidOut m udp`: the octets `udp` of a datagram are a header, the
  address of `m` and its payload.  A datagram is laid out in at most one way,
  which its own octets say (`laidOut_iff`), so what its buffer held behind it
  does not matter.

  **`datagram_codec`**: what is received are the messages that the datagrams
  are laid out as, and the messages that were sent are the ones received.
-/
import HevSocks5.UdpErrno
import HevSocks5.UdpRoundTrip

namespace HevSocks5

open Interact Sys HevSocks5UDP

/-! ## The layout -/

/-- The datagram is three octets of header, an address of a known type, and the payload. -/
structure Message.LaidOut (m : Message) (udp : List Octet) : Prop where
  known : 0 < hevSocks5AddrLen (.ofList m.addr)
  addrlen : hevSocks5AddrLen (.ofList m.addr) = m.addr.length
  octets : ∃ hdr : List Octet, hdr.length = 3 ∧ udp = hdr ++ m.addr ++ m.data

variable {m m' : Message} {udp : List Octet}

theorem ofList_append_left {l r : List Octet} {i : Nat} (h : i < l.length) :
    Mem.ofList (l ++ r) i = Mem.ofList l i := by
  simp [Mem.ofList, List.getElem?_append_left h]

/-- **The layout is in the octets.** -/
theorem laidOut_iff : m.LaidOut udp ↔
    0 < hevSocks5AddrLen (.ofList (udp.drop 3)) ∧
      3 + (hevSocks5AddrLen (.ofList (udp.drop 3))).toNat ≤ udp.length ∧
      m.addr = (udp.drop 3).take (hevSocks5AddrLen (.ofList (udp.drop 3))).toNat ∧
      m.data = udp.drop (3 + (hevSocks5AddrLen (.ofList (udp.drop 3))).toNat) := by
  constructor
  · rintro ⟨hknown, haddr, hdr, hlen, rfl⟩
    have h4 := four_le_hevSocks5AddrLen hknown
    have hdrop : (hdr ++ m.addr ++ m.data).drop 3 = m.addr ++ m.data := by
      rw [List.append_assoc, List.drop_left' hlen]
    have hL : hevSocks5AddrLen (.ofList (m.addr ++ m.data)) = m.addr.length := by
      rw [← haddr]
      exact hevSocks5AddrLen_congr (ofList_append_left (by omega)) (ofList_append_left (by omega))
    rw [hdrop, hL, Int.toNat_natCast]
    refine ⟨by omega, by simp only [List.length_append]; omega, ?_, ?_⟩
    · exact (List.take_left' rfl).symm
    · exact (List.drop_left' (by rw [List.length_append, hlen])).symm
  · rintro ⟨hknown, hfit, haddr, hdata⟩
    have h4 := four_le_hevSocks5AddrLen hknown
    have hlen : m.addr.length = (hevSocks5AddrLen (.ofList (udp.drop 3))).toNat := by
      rw [haddr, List.length_take, List.length_drop]
      omega
    have hL : hevSocks5AddrLen (.ofList m.addr) = hevSocks5AddrLen (.ofList (udp.drop 3)) := by
      rw [← List.take_append_drop (hevSocks5AddrLen (.ofList (udp.drop 3))).toNat (udp.drop 3),
        ← haddr]
      exact (hevSocks5AddrLen_congr (ofList_append_left (by omega))
        (ofList_append_left (by omega))).symm
    refine ⟨by rw [hL]; exact hknown, by rw [hL, hlen]; omega, udp.take 3, ?_, ?_⟩
    · rw [List.length_take]
      omega
    · rw [haddr, hdata, List.append_assoc, ← List.drop_drop, List.take_append_drop,
        List.take_append_drop]

/-- A datagram is laid out in one way. -/
theorem Message.LaidOut.unique (h : m.LaidOut udp) (h' : m'.LaidOut udp) : m = m' := by
  obtain ⟨-, -, haddr, hdata⟩ := laidOut_iff.1 h
  obtain ⟨-, -, haddr', hdata'⟩ := laidOut_iff.1 h'
  exact Message.ext (haddr.trans haddr'.symm) (hdata.trans hdata'.symm)

theorem refusesDatagram_iff :
    refusesDatagram udp = true ↔ 4 ≤ udp.length ∧ ¬ ∃ m : Message, m.LaidOut udp := by
  have hex : (∃ m : Message, m.LaidOut udp) ↔ 0 < hevSocks5AddrLen (.ofList (udp.drop 3)) ∧
      3 + (hevSocks5AddrLen (.ofList (udp.drop 3))).toNat ≤ udp.length := by
    constructor
    · rintro ⟨m, hm⟩
      exact ⟨(laidOut_iff.1 hm).1, (laidOut_iff.1 hm).2.1⟩
    · rintro ⟨h, hfit⟩
      exact ⟨⟨_, _⟩, laidOut_iff.2 ⟨h, hfit, rfl, rfl⟩⟩
  rw [hex]
  simp only [refusesDatagram, Bool.and_eq_true, Bool.or_eq_true, decide_eq_true_eq]
  omega

/-! ## Decoding -/

/-- **What a slot has become**: empty when the datagram is too short for an address, and else the
    message that it is laid out as. -/
def Decoded (udp : List Octet) (s : Slot) : Prop :=
  (udp.length < 4 ∧ s.msg.addr = .null ∧ s.msg.len = 0) ∨
    ∃ m : Message, m.LaidOut udp ∧ s.msg.message = some m ∧ s.msg.len.toNat = m.data.length

/-- What was written is read, from anywhere on. -/
theorem Mem.read_drop_write {mem : Mem} {l : List Octet} {k n : Nat} (h : k + n ≤ l.length) :
    ((mem.write 0 l).drop k).read n = (l.drop k).take n := by
  refine List.ext_getElem ?_ fun i hi hi' => ?_
  · rw [Mem.length_read, List.length_take, List.length_drop]
    omega
  · rw [Mem.length_read] at hi
    simp only [Mem.read, List.getElem_map, List.getElem_range, Mem.drop_apply, List.getElem_take,
      List.getElem_drop]
    exact Mem.write_zero_apply _ (by omega)

theorem parseDatagram_decoded {buf : Mem} {msg : HevSocks5UDPMsg} {s : Slot}
    (hlen : udp.length < 2 ^ 64)
    (h : parseDatagram { msg, mem := buf.write 0 udp } udp.length = some s) : Decoded udp s := by
  have hnot : ¬ refusesDatagram udp = true := fun hr => by
    rw [(parseDatagram_eq_none buf msg udp).2 hr] at h
    cases h
  by_cases h4 : udp.length < 4
  · rw [parseDatagram, if_pos h4] at h
    cases h
    exact .inl ⟨h4, rfl, rfl⟩
  rw [refusesDatagram_iff, not_and, not_not] at hnot
  obtain ⟨m, hm⟩ := hnot (by omega)
  obtain ⟨hknown, hfit, haddr, hdata⟩ := laidOut_iff.1 hm
  have hL4 := four_le_hevSocks5AddrLen hknown
  have hoct : ∀ i, 3 + i < udp.length →
      ((buf.write 0 udp).drop 3) i = Mem.ofList (udp.drop 3) i := by
    intro i hi
    rw [Mem.drop_apply, Mem.write_zero_eq_ofList hi]
    simp [Mem.ofList]
  have hL : hevSocks5AddrLen ((buf.write 0 udp).drop 3) =
      hevSocks5AddrLen (.ofList (udp.drop 3)) :=
    hevSocks5AddrLen_congr (hoct 0 (by omega)) (hoct 1 (by omega))
  have hdoff : (3 + hevSocks5AddrLen (.ofList (udp.drop 3))).toNat =
      3 + (hevSocks5AddrLen (.ofList (udp.drop 3))).toNat := by omega
  rw [parseDatagram, if_neg h4, hL, if_neg (by omega), if_neg (by omega), hdoff] at h
  obtain rfl := Option.some.inj h
  have hrest : (udp.drop (3 + (hevSocks5AddrLen (.ofList (udp.drop 3))).toNat)).length =
      m.data.length := by rw [hdata]
  have hn : (UInt64.ofNat (udp.length -
      (3 + (hevSocks5AddrLen (.ofList (udp.drop 3))).toNat))).toNat = m.data.length := by
    rw [UInt64.toNat_ofNat_of_lt' (show _ < 2 ^ 64 by omega), hdata, List.length_drop]
  refine .inr ⟨m, hm, ?_, hn⟩
  rw [List.length_drop] at hrest
  simp only [HevSocks5UDPMsg.message, hL, hn, Option.some.injEq]
  have htake : (udp.drop (3 + (hevSocks5AddrLen (.ofList (udp.drop 3))).toNat)).take
      m.data.length = m.data := by
    rw [← hdata, List.take_length]
  rw [Mem.read_drop_write (by omega), Mem.read_drop_write (by omega), htake]
  rw [← haddr]

/-- The slots of a batch. -/
theorem parseUdp_decoded {slots svec : List Slot} {ds : List Datagram}
    (hlen : ds.length ≤ slots.length) (hdata : ∀ d ∈ ds, d.data.length < 2 ^ 64)
    (h : parseUdp (fill slots ds) ds = some svec) :
    List.Forall₂ Decoded (ds.map (·.data)) (svec.take ds.length) := by
  induction ds generalizing slots svec with
  | nil => exact .nil
  | cons d ds ih =>
    cases slots with
    | nil => simp at hlen
    | cons s slots =>
      obtain ⟨hd, hds⟩ := List.forall_mem_cons.1 hdata
      simp only [fill, parseUdp, Option.bind_eq_bind, Option.bind_eq_some_iff] at h
      obtain ⟨s', hs', svec', hsvec, h⟩ := h
      obtain rfl := Option.some.inj h
      exact .cons (parseDatagram_decoded hd hs') (ih (by simpa using hlen) hds hsvec)

/-! ## The socket -/

/-- The datagrams under way to the receiver, those that its last call has received, and whether
    the socket could not be connected to their sender. -/
structure Net where
  self : HevSocks5Obj
  wire : List (List Octet)
  got : List (List Octet)
  refused : Bool

/-- Before the call. -/
def Net.start (self : HevSocks5Obj) (wire : List (List Octet)) : Net := ⟨self, wire, [], false⟩

/-- A call receives some of the datagrams, cut off at the end of the buffers. -/
def Net.Recvmmsg (w : Net) (lens : List Nat) (r : Int × List Datagram) (w' : Net) : Prop :=
  (r.1 ≤ 0 ∧ w' = w) ∨ ∃ n, 0 < n ∧ n ≤ lens.length ∧ n ≤ w.wire.length ∧ r.1 = n ∧
    r.2.map (·.data) = List.zipWith (fun d len => d.take len) (w.wire.take n) lens ∧
    w' = { w with wire := w.wire.drop n, got := r.2.map (·.data) }

/-- The system calls on datagram sockets. -/
def net : Env Op Net := fun w _ o b w' =>
  match o with
  | .base => b = w.self ∧ w' = w
  | .setBase self => w' = { w with self }
  | .sendmmsg _ msgs =>
    ∃ k ≤ msgs.length, (b = (k : Int) ∨ b ≤ 0 ∧ k = 0) ∧
      w' = { w with wire := w.wire ++ (msgs.take k).map (·.2) }
  | .recvmmsg _ lens _ => w.Recvmmsg lens b w'
  | .connect _ _ => w' = { w with refused := decide (b < 0) }
  | _ => w' = w

/-- **What a call returns** for the datagrams that it has received. -/
structure Delivered (r : Int × List Slot) (w : Net) : Prop where
  decoded : 0 < r.1 → r.1 = w.got.length ∧ List.Forall₂ Decoded w.got (r.2.take r.1.toNat)
  malformed : (∃ udp ∈ w.got, 4 ≤ udp.length ∧ ¬ ∃ m : Message, m.LaidOut udp) → r.1 = -1
  accepted : w.got ≠ [] → w.refused = false →
    (∀ udp ∈ w.got, 4 ≤ udp.length → ∃ m : Message, m.LaidOut udp) → r.1 = w.got.length
  refused : w.got ≠ [] → w.refused = true → r.1 = -1

theorem post_associate_net {fd : Int} {ds : List Datagram} {w : Net} (hw : w.refused = false) :
    Post net (associate fd ds) w fun ok w' => w'.got = w.got ∧ w'.refused = !ok := by
  simp only [associate, always_bind, always_op, always_ite, always_pure]
  rintro self w₁ ⟨rfl, rfl⟩
  refine ⟨trivial, ?_⟩
  split
  · exact ⟨rfl, hw⟩
  rintro res w₂ rfl
  refine ⟨trivial, ?_⟩
  split
  case isTrue h => exact ⟨rfl, by simp [h]⟩
  case isFalse h =>
    rintro _ w₃ ⟨rfl, rfl⟩
    refine ⟨trivial, ?_⟩
    rintro _ w₄ rfl
    exact ⟨trivial, rfl, by simp [h]⟩

theorem length_lt_of_mem_zipWith {slots : List Slot} {wire : List (List Octet)} {udp : List Octet}
    (h : udp ∈ List.zipWith (fun d len => d.take len) wire (slots.map (·.msg.len.toNat))) :
    udp.length < 2 ^ 64 := by
  induction wire generalizing slots with
  | nil => simp at h
  | cons d wire ih =>
    cases slots with
    | nil => simp at h
    | cons s slots =>
      simp only [List.map_cons, List.zipWith_cons_cons, List.mem_cons] at h
      rcases h with rfl | h
      · have := s.msg.len.toNat_lt
        rw [List.length_take]
        omega
      · exact ih h

/-- A call in any buffers. -/
theorem post_recvmmsgUdp_net {slots : List Slot} {nonblock : Bool} {w : Net} (hgot : w.got = [])
    (hrefused : w.refused = false) : Post net (recvmmsgUdp slots nonblock) w Delivered := by
  simp only [recvmmsgUdp, hevSocks5UdpGetFd, hevTaskIoSocketRecvmmsg, always_bind, always_op]
  rintro fd w₁ rfl
  refine ⟨trivial, ?_⟩
  rintro ⟨res, ds⟩ w₂ hr
  refine ⟨trivial, ?_⟩
  dsimp only
  rw [always_ite]
  rcases hr with ⟨hres, rfl⟩ | ⟨n, hn, hnum, hwire, hres, hdata, rfl⟩
  · rw [if_pos hres]
    exact ⟨fun h => absurd h (by dsimp only; omega), by simp [hgot], fun h => absurd hgot h,
      fun h => absurd hgot h⟩
  · have hlen : ds.length = n := by
      have h := congrArg List.length hdata
      rw [List.length_map, List.length_zipWith, List.length_take] at h
      rw [h]
      omega
    have hshort : ∀ d ∈ ds, d.data.length < 2 ^ 64 := by
      intro d hd
      have hmem : d.data ∈ ds.map (·.data) := List.mem_map_of_mem hd
      rw [hdata] at hmem
      exact length_lt_of_mem_zipWith hmem
    have hslots : ds.length ≤ slots.length := by
      rw [List.length_map] at hnum
      omega
    have hnone := parseUdp_eq_none hslots
    have hpos : ¬ res ≤ 0 := by omega
    have htake : ds.take res.toNat = ds := List.take_of_length_le (by omega)
    rw [if_neg hpos, htake]
    refine (post_associate_net (w := { w₁ with wire := w₁.wire.drop n, got := ds.map (·.data) })
      hrefused).bind ?_
    rintro ok w₃ ⟨hgot₃, hrefused₃⟩
    have hall : (∃ d ∈ ds, refusesDatagram d.data = true) ↔
        ∃ udp ∈ w₃.got, 4 ≤ udp.length ∧ ¬ ∃ m : Message, m.LaidOut udp := by
      simp only [hgot₃, refusesDatagram_iff, List.mem_map, exists_exists_and_eq_and]
    have hcount : w₃.got.length = n := by rw [hgot₃, List.length_map, hlen]
    cases ok with
    | false =>
      have href : w₃.refused = true := hrefused₃
      exact ⟨fun h => by dsimp only at h; omega, fun _ => rfl, fun _ h => by simp [href] at h,
        fun _ _ => rfl⟩
    | true =>
      have href : w₃.refused = false := hrefused₃
      simp only [Bool.not_true, Bool.false_eq_true, if_false]
      cases hp : parseUdp (fill slots ds) ds with
      | none =>
        refine ⟨fun h => by dsimp only at h; omega, fun _ => rfl, fun _ _ hok => ?_, fun _ _ => rfl⟩
        obtain ⟨udp, hudp, h4, hbad⟩ := hall.1 (hnone.1 hp)
        exact absurd (hok udp hudp h4) hbad
      | some svec =>
        refine ⟨fun _ => ⟨by dsimp only; omega, ?_⟩, fun hbad => ?_, fun _ _ _ => ?_, fun _ h => ?_⟩
        · have hdecoded := parseUdp_decoded hslots hshort hp
          rwa [hgot₃, show res.toNat = ds.length by omega]
        · rw [hnone.2 (hall.2 hbad)] at hp
          cases hp
        · dsimp only
          omega
        · simp [href] at h

/-! ## The codec -/

theorem Decoded.message {s : Slot} (h : Decoded udp s) (hm : m.LaidOut udp) :
    s.msg.message = some m := by
  rcases h with ⟨hshort, -, -⟩ | ⟨m', hm', hs, -⟩
  · have h4 := four_le_hevSocks5AddrLen (laidOut_iff.1 hm).1
    have := (laidOut_iff.1 hm).2.1
    omega
  · rw [hs, hm'.unique hm]

/-- Two slots for the same octets. -/
theorem Decoded.congr {s s' : Slot} (h : Decoded udp s) (h' : Decoded udp s') :
    s.msg.message = s'.msg.message ∧ s.msg.len = s'.msg.len := by
  rcases h with ⟨hshort, ha, hl⟩ | ⟨m, hm, hs, hl⟩
  · rcases h' with ⟨-, ha', hl'⟩ | ⟨m', hm', -, -⟩
    · simp [HevSocks5UDPMsg.message, ha, ha', hl, hl']
    · have := four_le_hevSocks5AddrLen (laidOut_iff.1 hm').1
      have := (laidOut_iff.1 hm').2.1
      omega
  · have hs' := h'.message hm
    rcases h' with ⟨hshort, -, -⟩ | ⟨m', hm', -, hl'⟩
    · have := four_le_hevSocks5AddrLen (laidOut_iff.1 hm).1
      have := (laidOut_iff.1 hm).2.1
      omega
    · rw [hm'.unique hm] at hl'
      exact ⟨hs.trans hs'.symm, UInt64.toNat_inj.1 (hl.trans hl'.symm)⟩

theorem Decoded.map_congr {udps : List (List Octet)} {svec svec' : List Slot}
    (h : List.Forall₂ Decoded udps svec) (h' : List.Forall₂ Decoded udps svec') :
    svec.map (fun s => (s.msg.message, s.msg.len)) =
      svec'.map fun s => (s.msg.message, s.msg.len) := by
  induction h generalizing svec' with
  | nil =>
    cases h'
    rfl
  | cons hs _ ih =>
    obtain ⟨⟩ | ⟨hs', hsvec'⟩ := h'
    rw [List.map_cons, List.map_cons, ih hsvec', (hs.congr hs').1, (hs.congr hs').2]

/-- The messages that a call has received, and their lengths. -/
def outcome (r : Int × List Slot) : Int × List (Option Message × UInt64) :=
  (r.1, (r.2.take r.1.toNat).map fun s => (s.msg.message, s.msg.len))

/-- What was received, and whether the socket could be connected, decide the outcome. -/
theorem Delivered.outcome_eq {r r' : Int × List Slot} {w w' : Net} (h : Delivered r w)
    (h' : Delivered r' w') (hgot : w.got = w'.got) (hrefused : w.refused = w'.refused)
    (hne : w.got ≠ []) : outcome r = outcome r' := by
  have hne' : w'.got ≠ [] := hgot ▸ hne
  have hfail {r r' : Int × List Slot} (h : r.1 = -1) (h' : r'.1 = -1) : outcome r = outcome r' := by
    simp [outcome, h, h']
  by_cases href : w.refused = true
  · exact hfail (h.refused hne href) (h'.refused hne' (hrefused ▸ href))
  by_cases hbad : ∃ udp ∈ w.got, 4 ≤ udp.length ∧ ¬ ∃ m : Message, m.LaidOut udp
  · exact hfail (h.malformed hbad) (h'.malformed (hgot ▸ hbad))
  have hok : ∀ udp ∈ w.got, 4 ≤ udp.length → ∃ m : Message, m.LaidOut udp := by
    simpa using hbad
  have hr := h.accepted hne (by simpa using href) hok
  have hr' := h'.accepted hne' (by simpa [← hrefused] using href) (hgot ▸ hok)
  have hpos : 0 < w.got.length := List.length_pos_iff.2 hne
  have hres : r.1 = r'.1 := by rw [hr, hr', hgot]
  have hdec := (h.decoded (by omega)).2
  have hdec' := (h'.decoded (by omega)).2
  rw [← hgot] at hdec'
  exact Prod.ext hres (Decoded.map_congr hdec hdec')

/-- The packet of a message is laid out as the message. -/
theorem laidOut_packet {o : OutMsg} (h : 0 < hevSocks5AddrLen o.addr) :
    o.message.LaidOut (o.packet o.addrlen) := by
  have h4 := four_le_hevSocks5AddrLen h
  have hn : o.addrlen = (hevSocks5AddrLen o.addr).toNat := rfl
  have hlen : hevSocks5AddrLen (.ofList o.message.addr) = hevSocks5AddrLen o.addr := by
    have hoct : ∀ i < o.addrlen, Mem.ofList o.message.addr i = o.addr i := by
      intro i hi
      simp [OutMsg.message, Mem.ofList, Mem.read, hi]
    exact hevSocks5AddrLen_congr (hoct 0 (by omega)) (hoct 1 (by omega))
  refine ⟨by rw [hlen]; exact h, ?_, [0, 0, 0], rfl, rfl⟩
  rw [hlen]
  show hevSocks5AddrLen o.addr = ((o.addr.read o.addrlen).length : Int)
  rw [Mem.length_read]
  omega

/-! ## Sending -/

/-- What the packets of the messages are. -/
def packets (msgv : List OutMsg) : List (List Octet) := msgv.map fun o => o.packet o.addrlen

/-- Some of the messages are sent, in order. -/
theorem post_sendmmsgUdp_net {msgv : List OutMsg} {w : Net}
    (h : ∀ o ∈ msgv, 0 < hevSocks5AddrLen o.addr) :
    Post net (sendmmsgUdp msgv) w fun _ w' =>
      w'.got = w.got ∧ w'.refused = w.refused ∧ ∃ k, w'.wire = w.wire ++ (packets msgv).take k := by
  simp only [sendmmsgUdp, gather_eq _ h, hevSocks5UdpGetFd, hevTaskIoSocketSendmmsg, always_bind,
    always_op]
  rintro fd w₁ rfl
  refine ⟨trivial, ?_⟩
  rintro res w₂ ⟨k, -, -, rfl⟩
  refine ⟨trivial, rfl, rfl, k, ?_⟩
  simp [packets, List.map_take, Function.comp_def]

/-- The slots have room for the packets of the messages. -/
def Roomy (slots : List Slot) (msgv : List OutMsg) : Prop :=
  ∀ s ∈ slots, ∀ udp ∈ packets msgv, udp.length ≤ s.msg.len.toNat

instance (slots : List Slot) (msgv : List OutMsg) : Decidable (Roomy slots msgv) :=
  inferInstanceAs (Decidable (∀ s ∈ slots, ∀ udp ∈ packets msgv, _))

theorem zipWith_take_eq {wire : List (List Octet)} {slots : List Slot}
    (hlen : wire.length ≤ slots.length)
    (h : ∀ s ∈ slots, ∀ udp ∈ wire, udp.length ≤ s.msg.len.toNat) :
    List.zipWith (fun d len => d.take len) wire (slots.map (·.msg.len.toNat)) = wire := by
  induction wire generalizing slots with
  | nil => rfl
  | cons udp wire ih =>
    cases slots with
    | nil => simp at hlen
    | cons s slots =>
      have hs := h s List.mem_cons_self udp List.mem_cons_self
      rw [List.map_cons, List.zipWith_cons_cons, List.take_of_length_le hs,
        ih (by simpa using hlen) fun s' hs' udp' hudp' =>
          h s' (List.mem_cons_of_mem _ hs') udp' (List.mem_cons_of_mem _ hudp')]

/-- What a call of slots with room receives is the beginning of what is under way. -/
theorem post_recvmmsgUdp_got {slots : List Slot} {nonblock : Bool} {w : Net} (hgot : w.got = [])
    (hrefused : w.refused = false)
    (hroom : ∀ s ∈ slots, ∀ udp ∈ w.wire, udp.length ≤ s.msg.len.toNat) :
    Post net (recvmmsgUdp slots nonblock) w fun _ w' => w'.got <+: w.wire := by
  simp only [recvmmsgUdp, hevSocks5UdpGetFd, hevTaskIoSocketRecvmmsg, always_bind, always_op]
  rintro fd w₁ rfl
  refine ⟨trivial, ?_⟩
  rintro ⟨res, ds⟩ w₂ hr
  refine ⟨trivial, ?_⟩
  have hgot₂ : w₂.got <+: w₁.wire ∧ w₂.refused = w₁.refused := by
    rcases hr with ⟨-, rfl⟩ | ⟨n, -, hnum, hwire, -, hdata, rfl⟩
    · exact ⟨by rw [hgot]; exact List.nil_prefix, rfl⟩
    · refine ⟨?_, rfl⟩
      rw [List.length_map] at hnum
      dsimp only
      rw [hdata, zipWith_take_eq (by rw [List.length_take]; omega) fun s hs udp hudp =>
        hroom s hs udp (List.mem_of_mem_take hudp)]
      exact List.take_prefix ..
  dsimp only
  rw [always_ite]
  split
  · exact hgot₂.1
  · refine (post_associate_net (hgot₂.2.trans hrefused)).bind ?_
    rintro ok w₃ ⟨hgot₃, -⟩
    have hfront : w₃.got <+: w₁.wire := hgot₃ ▸ hgot₂.1
    rw [always_ite]
    split
    · exact hfront
    · split <;> exact hfront

/-- The first messages come back. -/
theorem Delivered.messages {r : Int × List Slot} {w : Net} {msgv : List OutMsg}
    (h : Delivered r w) (hgot : w.got <+: packets msgv) (hne : w.got ≠ [])
    (hv : ∀ o ∈ msgv, 0 < hevSocks5AddrLen o.addr) (hrefused : w.refused = false) :
    r.1 = w.got.length ∧
      received r.1 r.2 = (msgv.take r.1.toNat).map fun o => some o.message := by
  have hok : ∀ udp ∈ w.got, ∃ m : Message, m.LaidOut udp := by
    intro udp hudp
    obtain ⟨o, ho, rfl⟩ := List.mem_map.1 (hgot.subset hudp)
    exact ⟨_, laidOut_packet (hv o ho)⟩
  have hr := h.accepted hne hrefused fun udp hudp _ => hok udp hudp
  have hpos : 0 < w.got.length := List.length_pos_iff.2 hne
  have hdec := (h.decoded (by omega)).2
  refine ⟨hr, ?_⟩
  have htake : w.got = packets (msgv.take r.1.toNat) := by
    rw [List.prefix_iff_eq_take.1 hgot, hr, Int.toNat_natCast, packets, packets, List.map_take]
  have hv' : ∀ o ∈ msgv.take r.1.toNat, 0 < hevSocks5AddrLen o.addr :=
    fun o ho => hv o (List.mem_of_mem_take ho)
  unfold received
  rw [htake] at hdec
  generalize msgv.take r.1.toNat = msgv' at hdec hv'
  generalize r.2.take r.1.toNat = svec at hdec
  induction msgv' generalizing svec with
  | nil =>
    cases hdec
    rfl
  | cons o msgv' ih =>
    obtain ⟨⟩ | ⟨ho, hdec⟩ := hdec
    obtain ⟨hvo, hv'⟩ := List.forall_mem_cons.1 hv'
    rw [List.map_cons, List.map_cons, ho.message (laidOut_packet hvo), ih hv' _ hdec]

/-- **The datagram codec.**  What a call returns are the messages that the datagrams it received
    are laid out as, or -1 when one is laid out as none; it depends on these datagrams only; and
    messages that were sent are received as they were. -/
theorem datagram_codec :
    (∀ self wire slots nonblock r w,
      Returns net (recvmmsgUdp slots nonblock) (.start self wire) r w → Delivered r w) ∧
    (∀ self self' wire wire' slots slots' nonblock nonblock' r r' w w',
      Returns net (recvmmsgUdp slots nonblock) (.start self wire) r w →
      Returns net (recvmmsgUdp slots' nonblock') (.start self' wire') r' w' →
      w.got = w'.got → w.refused = w'.refused → w.got ≠ [] → outcome r = outcome r') ∧
    ∀ self msgv slots nonblock r w,
      (∀ o ∈ msgv, 0 < hevSocks5AddrLen o.addr) → Roomy slots msgv →
      Returns net (do let _ ← sendmmsgUdp msgv; recvmmsgUdp slots nonblock) (.start self []) r w →
      w.got ≠ [] → w.refused = false →
      r.1 = w.got.length ∧
        received r.1 r.2 = (msgv.take r.1.toNat).map fun o => some o.message := by
  refine ⟨?_, ?_, ?_⟩
  · intro self wire slots nonblock r w h
    exact Always.returns (post_recvmmsgUdp_net rfl rfl) h
  · intro self self' wire wire' slots slots' nonblock nonblock' r r' w w' h h' hgot hrefused hne
    exact (Always.returns (post_recvmmsgUdp_net rfl rfl) h).outcome_eq
      (Always.returns (post_recvmmsgUdp_net rfl rfl) h') hgot hrefused hne
  · intro self msgv slots nonblock r w hv hroom h hne hrefused
    obtain ⟨res, w₁, hsend, hrecv⟩ := returns_bind.1 h
    obtain ⟨hgot₁, hrefused₁, k, hwire⟩ := Always.returns (post_sendmmsgUdp_net hv) hsend
    have hfront : w₁.wire <+: packets msgv := by
      rw [hwire]
      exact List.take_prefix ..
    have hgot := Always.returns (post_recvmmsgUdp_got hgot₁ hrefused₁ fun s hs udp hudp =>
      hroom s hs udp (hfront.subset hudp)) hrecv
    exact (Always.returns (post_recvmmsgUdp_net hgot₁ hrefused₁) hrecv).messages
      (hgot.trans hfront) hne hv hrefused

/-- All that was sent is received at once. -/
def carry : Net → {β : Type} → Op β → Option (β × Net) := fun w _ o =>
  match o with
  | .base => some (w.self, w)
  | .setBase self => some ((), { w with self })
  | .getFd => some (4, w)
  | .sendmmsg _ msgs => some (msgs.length, { w with wire := w.wire ++ msgs.map (·.2) })
  | .recvmmsg _ lens _ =>
    if w.wire ≠ [] ∧ w.wire.length ≤ lens.length then
      let ds := List.zipWith (fun d len => ⟨.zero, d.take len⟩) w.wire lens
      some ((w.wire.length, ds), { w with wire := [], got := ds.map (·.data) })
    else none
  | .connect _ _ => some (0, { w with refused := false })
  | _ => none

theorem net_of_carry (w : Net) {β : Type} (o : Op β) (b : β) (w' : Net)
    (h : carry w o = some (b, w')) : net w o b w' := by
  cases o with
  | sendmmsg fd msgs =>
    simp only [carry, Option.some.injEq, Prod.mk.injEq] at h
    obtain ⟨rfl, rfl⟩ := h
    exact ⟨msgs.length, Nat.le_refl _, .inl rfl, by rw [List.take_length]⟩
  | recvmmsg fd lens flags =>
    simp only [carry, Option.ite_none_right_eq_some, Option.some.injEq, Prod.mk.injEq] at h
    obtain ⟨⟨hne, hlen⟩, rfl, rfl⟩ := h
    refine .inr ⟨w.wire.length, List.length_pos_iff.2 hne, hlen, Nat.le_refl _, rfl, ?_, ?_⟩
    · rw [List.take_length, List.map_zipWith]
    · rw [List.drop_length]
  | connect fd addr =>
    simp only [carry, Option.some.injEq, Prod.mk.injEq] at h
    obtain ⟨rfl, rfl⟩ := h
    rfl
  | base =>
    simp only [carry, Option.some.injEq, Prod.mk.injEq] at h
    exact ⟨h.1.symm, h.2.symm⟩
  | setBase self =>
    simp only [carry, Option.some.injEq, Prod.mk.injEq] at h
    exact h.2.symm
  | getFd =>
    simp only [carry, Option.some.injEq, Prod.mk.injEq] at h
    exact h.2.symm
  | _ => cases h

/-- A datagram socket that is not connected. -/
def freshUdp : HevSocks5Obj := ⟨3, -1, .udpInUdp, false, .unspec⟩

/-- A slot of 32 octets. -/
def wideSlot : Slot := { msg := { addr := .unset, buf := .undef, len := 32 }, mem := fun _ => 3 }

theorem datagram_codec_two : ∃ r w,
    Returns net (do let _ ← sendmmsgUdp [shortMsg.1, emptyMsg.1]
                    recvmmsgUdp [wideSlot, wideSlot] true) (.start freshUdp []) r w ∧
      received r.1 r.2 = [some shortMsg.1.message, some emptyMsg.1.message] := by
  obtain ⟨r, w, h, hw⟩ := exists_returns_of_exec net_of_carry (w := .start freshUdp [])
    (x := do let _ ← sendmmsgUdp [shortMsg.1, emptyMsg.1]
             recvmmsgUdp [wideSlot, wideSlot] true)
    (fun _ w => w.got.length = 2 && !w.refused) (by decide)
  simp only [Bool.and_eq_true, decide_eq_true_eq, Bool.not_eq_true'] at hw
  have hne : w.got ≠ [] := by
    rintro hnil
    rw [hnil] at hw
    exact absurd hw.1 (by decide)
  obtain ⟨hr, hm⟩ := datagram_codec.2.2 freshUdp _ _ true r w (by decide) (by decide) h hne hw.2
  refine ⟨r, w, h, ?_⟩
  rw [hm, hr, hw.1]
  rfl

end HevSocks5
