/-
  What one splicer sends and the other accepts.

  `fwd_b` of one end reads datagrams and sends a message for each; the messages
  arrive at the other end, whose `fwd_f` is to relay every payload to the
  source of its datagram.  The slots of `fwd_f` have the size of the datagrams
  that `fwd_b` reads, but they have to hold the header as well, and `fwd_f`
  refuses an empty payload.  So the datagrams for which this works are those
  that `Fits` describes (`accepts_iff_fits`).
-/
import HevSocks5.UdpBatch

namespace HevSocks5

open Interact Sys HevSocks5UDP

/-! ## The address of a source -/

namespace SockAddrIn6

variable (saddr : SockAddrIn6)

theorem length_octets : saddr.octets.length = if saddr.isV4Mapped then 7 else 19 := by
  unfold octets
  split <;> simp

theorem four_le_length_octets : 4 ≤ saddr.octets.length := by
  rw [length_octets]
  split <;> decide

theorem length_octets_le : saddr.octets.length ≤ 19 := by
  rw [length_octets]
  split <;> decide

/-- The octets of an address are as many as its type says. -/
theorem hevSocks5AddrLen_octets (l : List Octet) :
    hevSocks5AddrLen (.ofList (saddr.octets ++ l)) = saddr.octets.length := by
  rw [length_octets]
  unfold octets hevSocks5AddrLen
  by_cases h : saddr.isV4Mapped
  · simp [h, Mem.ofList]
  · simp [h, Mem.ofList, show addrTypeIpv6 ≠ addrTypeIpv4 by decide]

theorem toList_vectorAt (l : List Octet) (k n : Nat) (h : k + n ≤ l.length) :
    (vectorAt (.ofList l) k n).toList = (l.drop k).take n := by
  apply List.ext_getElem
  · simp
    omega
  · intro i h₁ h₂
    have hi : k + i < l.length := by
      simp at h₁
      omega
    simp [vectorAt, Mem.ofList, hi]

theorem v4Mapped_of_isV4Mapped (h : saddr.isV4Mapped) {v : Vector Octet 4}
    (hv : v.toList = saddr.addr.toList.drop 12) : v4Mapped v = saddr.addr := by
  have htake : saddr.addr.toList.take 12 = List.replicate 10 0 ++ [0xff, 0xff] := by
    simpa [isV4Mapped] using h
  rw [← Vector.toList_inj, ← List.take_append_drop 12 saddr.addr.toList, htake, ← hv]
  exact (Vector.toList_append)

/-- The port stands behind the address. -/
theorem ofList_port (t p q : Octet) (xs l : List Octet) :
    Mem.ofList (t :: (xs ++ [p, q]) ++ l) (xs.length + 1) = p ∧
      Mem.ofList (t :: (xs ++ [p, q]) ++ l) (xs.length + 2) = q := by
  constructor <;> simp [Mem.ofList]

/-- The octets of an address stand for the address. -/
theorem destination_octets (R : Resolver) (family : HevSocks5AddrFamily) (l : List Octet) :
    R.destination family (.ofList (saddr.octets ++ l)) = some saddr := by
  obtain ⟨port, addr⟩ := saddr
  by_cases h : isV4Mapped ⟨port, addr⟩
  · have hv := v4Mapped_of_isV4Mapped _ h (v := vectorAt (.ofList (octets ⟨port, addr⟩ ++ l)) 1 4)
      (by
        rw [toList_vectorAt _ _ _ (by simp [octets, h])]
        simp [octets, h])
    have hport := ofList_port addrTypeIpv4 port.1 port.2 (addr.toList.drop 12) l
    simp only [octets, h, if_true, List.length_drop, Vector.length_toList] at hv hport ⊢
    rw [Resolver.destination, if_pos (by simp [Mem.ofList]), hevSocks5Ipv4IntoSockaddr6, hv,
      hport.1, hport.2]
  · have hv : vectorAt (.ofList (octets ⟨port, addr⟩ ++ l)) 1 16 = addr := by
      rw [← Vector.toList_inj, toList_vectorAt _ _ _ (by simp [octets, h])]
      simp [octets, h]
    have hport := ofList_port addrTypeIpv6 port.1 port.2 addr.toList l
    simp only [octets, h, Bool.false_eq_true, if_false, Vector.length_toList] at hv hport ⊢
    rw [Resolver.destination, if_neg (by simp [Mem.ofList, addrTypeIpv4, addrTypeIpv6]),
      if_pos (by simp [Mem.ofList]), hevSocks5Ipv6IntoSockaddr6, hv, hport.1, hport.2]

end SockAddrIn6

/-! ## The messages of `fwd_b` -/

theorem hevSocks5AddrLen_outMsg (mem : Mem) (d : Datagram) :
    hevSocks5AddrLen (outMsg mem d).addr = d.src.octets.length := by
  have h4 := d.src.four_le_length_octets
  rw [← SockAddrIn6.hevSocks5AddrLen_octets d.src [], List.append_nil]
  exact hevSocks5AddrLen_congr (Mem.write_zero_eq_ofList (by omega))
    (Mem.write_zero_eq_ofList (by omega))

theorem addrlen_outMsg (mem : Mem) (d : Datagram) :
    (outMsg mem d).addrlen = d.src.octets.length := by
  rw [OutMsg.addrlen, hevSocks5AddrLen_outMsg, Int.toNat_natCast]

theorem message_outMsg (mem : Mem) {d : Datagram} (h : d.data.length ≤ udpBufSize) :
    (outMsg mem d).message = ⟨d.src.octets, d.data⟩ := by
  have hlen : (outMsg mem d).len.toNat = d.data.length := by
    simp [outMsg, udpBufSize] at h ⊢
    omega
  rw [OutMsg.message, addrlen_outMsg, hlen]
  exact Message.ext (Mem.read_write_zero ..) (Mem.read_write_zero ..)

theorem valid_outMsg (mem : Mem) {d : Datagram} (h : d.data.length ≤ udpBufSize) :
    (outMsg mem d).Valid := by
  have h4 := d.src.four_le_length_octets
  have h19 := d.src.length_octets_le
  have hlen : (outMsg mem d).len.toNat = d.data.length := by
    simp [outMsg, udpBufSize] at h ⊢
    omega
  simp only [udpBufSize] at h
  refine ⟨?_, ?_, ?_⟩
  · rw [hevSocks5AddrLen_outMsg]
    omega
  · rw [hevSocks5AddrLen_outMsg]
    omega
  · omega

theorem Datagram.length_octets_src (d : Datagram) :
    d.src.octets.length = (UInt8.ofNat (3 + d.src.octets.length)).toNat - 3 := by
  have := d.src.length_octets_le
  simp
  omega

theorem Datagram.length_truncated (d : Datagram) : (d.data.take udpBufSize).length < 65536 := by
  rw [List.length_take, udpBufSize]
  omega

/-- The frame that is sent for a datagram. -/
def Datagram.toFrame (d : Datagram) : Frame where
  hdrlen := UInt8.ofNat (3 + d.src.octets.length)
  addr := d.src.octets
  data := d.data.take udpBufSize
  length_addr := d.length_octets_src
  length_data := d.length_truncated

/-- The packet that is sent for a datagram. -/
def Datagram.toPacket (d : Datagram) : List Octet := [0, 0, 0] ++ d.src.octets ++ d.data

theorem frame_outMsg (mem : Mem) {d : Datagram} (h : d.data.length ≤ udpBufSize) :
    (outMsg mem d).frame (outMsg mem d).addrlen = d.toFrame.octets := by
  rw [ValidMsg.frame_eq_octets ⟨outMsg mem d, valid_outMsg mem h⟩]
  congr 1
  ext1
  · simp [ValidMsg.toFrame, Datagram.toFrame, addrlen_outMsg]
  · simp [ValidMsg.toFrame, Datagram.toFrame, message_outMsg mem h]
  · simp [ValidMsg.toFrame, Datagram.toFrame, message_outMsg mem h, List.take_of_length_le h]

theorem packet_outMsg (mem : Mem) {d : Datagram} (h : d.data.length ≤ udpBufSize) :
    (outMsg mem d).packet (outMsg mem d).addrlen = d.toPacket := by
  have hm := message_outMsg mem h
  rw [OutMsg.message, Message.mk.injEq] at hm
  rw [OutMsg.packet, hm.1, hm.2]
  rfl

/-! ## What the other end makes of them -/

/-- The octets that the header takes of a slot, apart from the address. -/
def headRoom : HevSocks5Type → Nat
  | .udpInUdp => 3
  | _ => 0

/-- The payload is not empty, and it fits into the slot together with its header. -/
def Datagram.Fits (type : HevSocks5Type) (d : Datagram) : Prop :=
  d.data ≠ [] ∧ headRoom type + d.src.octets.length + d.data.length ≤ udpBufSize

instance (type : HevSocks5Type) (d : Datagram) : Decidable (d.Fits type) :=
  inferInstanceAs (Decidable (_ ∧ _))

theorem taken_toFrame_iff {d : Datagram} (h : d.data.length ≤ udpBufSize) :
    d.toFrame.Taken ↔ d.src.octets.length + d.data.length ≤ udpBufSize := by
  have h4 := d.src.four_le_length_octets
  have h19 := d.src.length_octets_le
  have hh : d.toFrame.hdrlen.toNat = 3 + d.src.octets.length := by
    simp [Datagram.toFrame]
    omega
  have hlen : d.toFrame.data.length = d.data.length := by simp [Datagram.toFrame, h]
  have hsub : ((fwdSlot .undef).msg.len - UInt64.ofNat (d.toFrame.hdrlen.toNat - 3)).toNat =
      udpBufSize - d.src.octets.length := by
    rw [hh, UInt64.toNat_sub_of_le]
    · simp [fwdSlot, udpBufSize]
      omega
    · rw [UInt64.le_iff_toNat_le]
      simp [fwdSlot, udpBufSize]
      omega
  unfold Frame.Taken Slot.Takes
  rw [gt_iff_lt, UInt64.lt_iff_toNat_lt, hsub, UInt8.lt_iff_toNat_lt, hh]
  simp [udpBufSize, hlen] at h ⊢
  omega

theorem Datagram.whole_toFrame (d : Datagram) : d.toFrame.Whole := by
  have := d.src.hevSocks5AddrLen_octets d.toFrame.data
  rw [Frame.Whole, List.length_append]
  simp only [Datagram.toFrame] at this ⊢
  omega

theorem forward_toFrame {R : Resolver} {family : HevSocks5AddrFamily} {d : Datagram}
    (h : d.data.length ≤ udpBufSize) :
    d.toFrame.forward R family = some (d.src, d.data) ↔ d.Fits .udpInTcp := by
  have hdata : d.toFrame.data = d.data := List.take_of_length_le h
  have hdest : R.destination family (.ofList (d.toFrame.addr ++ d.toFrame.data)) = some d.src :=
    d.src.destination_octets R family _
  rw [Frame.forward, hdest, hdata, Option.map_some, Option.ite_none_right_eq_some,
    taken_toFrame_iff h]
  simp only [Datagram.Fits, headRoom]
  constructor
  · rintro ⟨⟨hfit, hne⟩, -⟩
    exact ⟨hne, by omega⟩
  · rintro ⟨hne, hfit⟩
    exact ⟨⟨by omega, hne⟩, trivial⟩

/-- A packet is accepted unless its payload is empty. -/
theorem forwardOctets_packet {R : Resolver} {family : HevSocks5AddrFamily} (saddr : SockAddrIn6)
    (data : List Octet) :
    forwardOctets R family ([0, 0, 0] ++ (saddr.octets ++ data)) =
      if data = [] then none else some (saddr, data) := by
  have h4 := saddr.four_le_length_octets
  have hdrop : ([0, 0, 0] ++ (saddr.octets ++ data)).drop 3 = saddr.octets ++ data := rfl
  have hlen : ([0, 0, 0] ++ (saddr.octets ++ data) : List Octet).length =
      3 + saddr.octets.length + data.length := by
    simp
    omega
  simp only [forwardOctets, hdrop, hlen, saddr.hevSocks5AddrLen_octets, saddr.destination_octets,
    Option.map_some, Int.toNat_natCast, ← List.drop_drop, List.drop_left' rfl]
  by_cases hdata : data = []
  · simp [hdata]
  · have := List.length_pos_iff.2 hdata
    rw [if_neg (by omega), if_neg hdata]

theorem forward_toPacket {R : Resolver} {family : HevSocks5AddrFamily} (d : Datagram) :
    forwardOctets R family (d.toPacket.take udpBufSize) = some (d.src, d.data) ↔
      d.Fits .udpInUdp := by
  have h19 := d.src.length_octets_le
  -- the buffer ends somewhere in the payload
  have htake : d.toPacket.take udpBufSize =
      [0, 0, 0] ++ (d.src.octets ++ d.data.take (udpBufSize - (3 + d.src.octets.length))) := by
    have hhead : ([0, 0, 0] ++ d.src.octets : List Octet).length = 3 + d.src.octets.length := by
      simp
      omega
    rw [Datagram.toPacket, List.take_append,
      List.take_of_length_le (by rw [hhead, udpBufSize]; omega), hhead, List.append_assoc]
  rw [htake, forwardOctets_packet]
  simp only [Option.ite_none_left_eq_some, Option.some.injEq, Prod.mk.injEq, true_and,
    Datagram.Fits, headRoom]
  constructor
  · rintro ⟨hne, hfit⟩
    refine ⟨hfit ▸ hne, ?_⟩
    have := congrArg List.length hfit
    rw [List.length_take, udpBufSize] at this
    rw [udpBufSize]
    omega
  · rintro ⟨hne, hfit⟩
    rw [List.take_of_length_le (by omega)]
    exact ⟨hne, rfl⟩

/-! ## The two ends -/

/-- What `fwd_b` puts on its connection for the datagrams. -/
def Emits (w : Relay) (ds : List Datagram) (w' : Relay) : Prop :=
  match w.self.type with
  | .udpInTcp => w'.sent = w.sent ++ frames.words (ds.map (·.toFrame)) ∧ w'.handed = w.handed
  | _ => w'.sent = w.sent ∧ w'.handed = w.handed ++ ds.map fun d => (none, d.toPacket)

theorem zipWith_whole {bufs : List Mem} {ds : List Datagram} (hlen : ds.length ≤ bufs.length)
    (h : ∀ d ∈ ds, d.data.length ≤ udpBufSize) :
    List.zipWith (fun d n => { d with data := d.data.take n : Datagram }) ds
      (bufs.map fun _ => udpBufSize) = ds := by
  induction ds generalizing bufs with
  | nil => simp
  | cons d ds ih =>
    obtain ⟨hd, hds⟩ := List.forall_mem_cons.1 h
    cases bufs with
    | nil => simp at hlen
    | cons buf bufs =>
      rw [List.map_cons, List.zipWith_cons_cons, ih (by simpa using hlen) hds,
        List.take_of_length_le hd]

theorem map_outMsg {α : Type} {bufs : List Mem} {ds : List Datagram} {f : OutMsg → α}
    {g : Datagram → α} (hlen : ds.length ≤ bufs.length)
    (h : ∀ mem, ∀ d ∈ ds, f (outMsg mem d) = g d) :
    (List.zipWith outMsg bufs ds).map f = ds.map g := by
  induction ds generalizing bufs with
  | nil => simp
  | cons d ds ih =>
    cases bufs with
    | nil => simp at hlen
    | cons buf bufs =>
      rw [List.zipWith_cons_cons, List.map_cons, List.map_cons, h buf d List.mem_cons_self,
        ih (by simpa using hlen) fun mem d hd => h mem d (List.mem_cons_of_mem _ hd)]

theorem addr_outMsg {bufs : List Mem} {ds : List Datagram} :
    ∀ m ∈ List.zipWith outMsg bufs ds, 0 < hevSocks5AddrLen m.addr := by
  intro m hm
  obtain ⟨i, hi, rfl⟩ := List.getElem_of_mem hm
  have hi' : i < ds.length := by
    rw [List.length_zipWith] at hi
    omega
  rw [List.getElem_zipWith, hevSocks5AddrLen_outMsg]
  have := ds[i].src.four_le_length_octets
  omega

/-- The frames of a batch are sent with one call. -/
theorem sendmmsgTcp_outMsg {bufs : List Mem} {ds : List Datagram} (hlen : ds.length ≤ bufs.length)
    (h : ∀ d ∈ ds, d.data.length ≤ udpBufSize) :
    sendmmsgTcp (List.zipWith outMsg bufs ds) = do
      let res ← hevTaskIoSocketSendmsg (← hevSocks5UdpGetFd) (frames.words (ds.map (·.toFrame)))
      if res ≤ 0 then return -1 else return ds.length := by
  have hwords : (ds.map fun d => d.toFrame.octets).flatten = frames.words (ds.map (·.toFrame)) := by
    rw [PrefixCode.words, List.flatMap, List.map_map]
    rfl
  have hcount : (List.zipWith outMsg bufs ds).length = ds.length := by
    rw [List.length_zipWith]
    omega
  have hframes := map_outMsg (f := fun m => m.frame m.addrlen) hlen fun mem d hd =>
    frame_outMsg mem (h d hd)
  rw [sendmmsgTcp, gather_eq _ addr_outMsg, hframes, ← hwords, hcount]

/-- The datagrams of a batch are sent on, each in a frame or in a packet. -/
theorem post_fwdB {R : Resolver} {fd : Int} {bufs : List Mem} {ds : List Datagram} {w : Relay}
    (htype : w.self.type = .udpInTcp ∨ w.self.type = .udpInUdp) (hq : w.queue = ds) (hne : ds ≠ [])
    (hlen : ds.length ≤ bufs.length) (h : ∀ d ∈ ds, d.data.length ≤ udpBufSize) :
    Post (relay R) (fwdB fd bufs) w fun _ w' => Emits w ds w' := by
  have hpos := List.length_pos_iff.2 hne
  have hpackets := map_outMsg (f := fun m => m.packet m.addrlen) hlen fun mem d hd =>
    packet_outMsg mem (h d hd)
  simp only [fwdB, always_bind, always_op]
  rintro ⟨res, ds'⟩ w₁ hrecv
  refine ⟨trivial, ?_⟩
  simp only [relay, hq, if_neg hne, zipWith_whole hlen h] at hrecv
  obtain ⟨rfl, rfl, e, rfl⟩ := hrecv
  simp only [always_ite]
  rw [if_pos (by omega)]
  simp only [Int.toNat_natCast, List.take_length, sendmmsg, always_bind, always_op, always_pure]
  rintro _ w₂ ⟨rfl, rfl⟩
  refine ⟨trivial, ?_⟩
  dsimp only
  have hres : ∀ w res, Post (relay R) (fwdResult res) w fun _ w' => w' = w := fun w res =>
    (post_fwdResult res w).mono fun _ _ h => h.1
  rcases htype with htype | htype
  · simp only [htype, sendmmsgTcp_outMsg hlen h, always_bind, always_op, always_ite, always_pure]
    rintro fd' w₃ rfl
    refine ⟨trivial, ?_⟩
    rintro res w₄ ⟨-, e', rfl⟩
    refine ⟨trivial, ?_⟩
    split <;> refine (hres _ _).mono ?_ <;> rintro _ _ rfl <;> simp [Emits, htype]
  · simp only [htype, sendmmsgUdp, gather_eq _ addr_outMsg, hpackets, always_bind, always_op]
    rintro fd' w₃ rfl
    refine ⟨trivial, ?_⟩
    rintro res w₄ ⟨-, e', rfl⟩
    refine ⟨trivial, (hres _ _).mono ?_⟩
    rintro _ _ rfl
    simp [Emits, htype]

/-- The messages are those that were sent. -/
structure Arrived (type : HevSocks5Type) (w : Relay) (ms : List Msg) : Prop where
  type_eq : ∀ m ∈ ms, m.type = type
  frames_eq : frames.words (ms.filterMap (·.frame?)) = w.sent
  packets_eq : (ms.filterMap (·.datagram?)).map (·.data) = w.handed.map (·.2)

/-- What the other end makes of the messages, one for each datagram. -/
theorem Arrived.forward_eq {R : Resolver} {family : HevSocks5AddrFamily} {w w' : Relay}
    {ds : List Datagram} {ms : List Msg} (h : Arrived w.self.type w' ms)
    (htype : w.self.type = .udpInTcp ∨ w.self.type = .udpInUdp)
    (hempty : w.sent = [] ∧ w.handed = []) (hread : ∀ d ∈ ds, d.data.length ≤ udpBufSize)
    (hemit : Emits w ds w') :
    (∀ m ∈ ms, m.Whole) ∧ ∃ f : Datagram → Option (SockAddrIn6 × List Octet),
      ms.map (Msg.forward R family) = ds.map f ∧
      ∀ d ∈ ds, f d = some (d.src, d.data) ↔ d.Fits w.self.type := by
  rcases htype with htype | htype
  · simp only [Emits, htype, hempty.1, List.nil_append] at hemit
    obtain ⟨fs, rfl⟩ := Msg.exists_frames (htype ▸ h.type_eq)
    have hwords : frames.words fs = frames.words (ds.map (·.toFrame)) := by
      rw [← hemit.1, ← h.frames_eq]
      simp [List.filterMap_map, Msg.frame?]
    obtain rfl := PrefixCode.words_injective hwords
    refine ⟨?_, fun d => d.toFrame.forward R family, ?_, fun d hd => ?_⟩
    · intro m hm
      obtain ⟨f, hf, rfl⟩ := List.mem_map.1 hm
      obtain ⟨d, -, rfl⟩ := List.mem_map.1 hf
      exact fun _ _ => d.whole_toFrame
    · rw [List.map_map, List.map_map]
      rfl
    · rw [htype]
      exact forward_toFrame (hread d hd)
  · simp only [Emits, htype, hempty.2, List.nil_append] at hemit
    obtain ⟨qs, rfl⟩ := Msg.exists_datagrams (htype ▸ h.type_eq)
    have hdata : qs.map (·.data) = ds.map (·.toPacket) := by
      have hq := h.packets_eq
      rw [hemit.2, List.map_map] at hq
      rw [List.filterMap_map] at hq
      simpa [Function.comp_def, Msg.datagram?] using hq
    refine ⟨?_, fun d => forwardOctets R family (d.toPacket.take udpBufSize), ?_, fun d _ => ?_⟩
    · intro m hm
      obtain ⟨q, -, rfl⟩ := List.mem_map.1 hm
      trivial
    · calc (qs.map Msg.datagram).map (Msg.forward R family)
          = (qs.map (·.data)).map fun p => forwardOctets R family (p.take udpBufSize) := by
            rw [List.map_map, List.map_map]
            rfl
        _ = _ := by
            rw [hdata, List.map_map]
            rfl
    · rw [htype]
      exact forward_toPacket d

theorem map_eq_map_some_iff {α β : Type} {f : α → Option β} {l : List α} {l' : List β} :
    l.map f = l'.map some ↔ (∀ a ∈ l, (f a).isSome) ∧ l.filterMap f = l' := by
  induction l generalizing l' with
  | nil => cases l' <;> simp
  | cons a l ih =>
    cases hf : f a with
    | none => cases l' <;> simp [hf]
    | some b =>
      cases l' with
      | nil => simp [hf]
      | cons b' l' =>
        simp only [List.map_cons, hf, List.cons.injEq, Option.some.injEq, ih, List.forall_mem_cons,
          Option.isSome_some, true_and, List.filterMap_cons_some hf]
        tauto

/-- **One end accepts what the other emits**, however the messages are grouped, exactly when
    every payload is not empty and fits into a slot together with its header. -/
theorem accepts_iff_fits {R R' : Resolver} {fd fd' : Int} {bufs bufs' : List Mem} {bind : Bool}
    {ds : List Datagram} {wA wA' wB wB' : Relay} {rA : Int × List Mem} {batches : List (List Msg)}
    {rets : List Int}
    (htype : wA.self.type = .udpInTcp ∨ wA.self.type = .udpInUdp) (hq : wA.queue = ds)
    (hne : ds ≠ []) (hlen : ds.length ≤ bufs.length) (hread : ∀ d ∈ ds, d.data.length ≤ udpBufSize)
    (hempty : wA.sent = [] ∧ wA.handed = []) (hA : Returns (relay R) (fwdB fd bufs) wA rA wA')
    (htype' : wB.self.type = wA.self.type) (harr : Arrived wA.self.type wA' batches.flatten)
    (hsize : ∀ b ∈ batches, b ≠ [] ∧ b.length ≤ bufs'.length)
    (hB : Relays R' fd' bufs' bind wB batches rets wB') :
    ((∀ ret ∈ rets, 0 ≤ ret) ∧ wB'.handed = wB.handed ++ ds.map fun d => (some d.src, d.data)) ↔
      ∀ d ∈ ds, d.Fits wA.self.type := by
  obtain ⟨hall, f, hf, hfits⟩ := harr.forward_eq (R := R') htype
    hempty hread ((post_fwdB htype hq hne hlen hread).returns hA)
  have hwhole : WholeUpToRefused R' wB.self.addrFamily batches.flatten := fun m hm =>
    hall m (mem_of_mem_examined hm)
  have hty : ∀ m ∈ batches.flatten, m.type = wB.self.type := fun m hm =>
    (harr.type_eq m hm).trans htype'.symm
  have hlenms : batches.flatten.length = ds.length := by
    have := congrArg List.length hf
    rwa [List.length_map, List.length_map] at this
  have hsome : (∀ d ∈ ds, f d = some (d.src, d.data)) ↔
      batches.flatten.map (Msg.forward R' wB.self.addrFamily) =
        (ds.map fun d => (d.src, d.data)).map some := by
    rw [hf, List.map_map, List.map_inj_left]
    rfl
  rw [← forall₂_congr hfits, hsome]
  constructor
  · rintro ⟨-, hhanded⟩
    by_cases href : ∃ m ∈ batches.flatten, ¬ Accepts R' wB.self.addrFamily m
    · have := hB.length_lt hsize hty hwhole href
      rw [hhanded, List.length_append, List.length_map] at this
      omega
    · push Not at href
      have hacc := (hB.all_accepted hsize hty hwhole href).2
      rw [hhanded, List.append_right_inj] at hacc
      refine map_eq_map_some_iff.2 ⟨href, ?_⟩
      have hinj : Function.Injective fun d : SockAddrIn6 × List Octet => (some d.1, d.2) := by
        rintro ⟨a, b⟩ ⟨c, d⟩ h
        simpa using h
      apply List.map_injective_iff.2 hinj
      rw [← hacc, List.map_map]
      rfl
  · intro hall
    obtain ⟨hacc, hout⟩ := map_eq_map_some_iff.1 hall
    obtain ⟨hrets, hhanded⟩ := hB.all_accepted hsize hty hwhole hacc
    refine ⟨fun ret hret => by simp [hrets ret hret], ?_⟩
    rw [hhanded, hout, List.map_map]
    rfl

/-! ## Two runs -/

/-- One octet from an IPv4 address. -/
def octetDatagram : Datagram := ⟨⟨(0, 53), v4Mapped #v[192, 0, 2, 7]⟩, [104]⟩

/-- An empty datagram. -/
def emptyDatagram : Datagram := ⟨⟨(0, 53), v4Mapped #v[192, 0, 2, 7]⟩, []⟩

/-- A single frame has arrived. -/
theorem arrived_frame {w : Relay} {d : Datagram} (hsent : w.sent = frames.words [d.toFrame])
    (hhanded : w.handed = []) : Arrived .udpInTcp w [[Msg.frame d.toFrame]].flatten where
  type_eq := by simp [Msg.type]
  frames_eq := hsent.symm
  packets_eq := by simp [hhanded, Msg.datagram?]

theorem accepts_octet : ∃ rA wA' rets wB',
    Returns (relay noNames) (fwdB 4 [.undef]) { tcpRelay with queue := [octetDatagram] } rA wA' ∧
    Relays noNames 4 [.undef] false tcpRelay [[.frame octetDatagram.toFrame]] rets wB' ∧
    wB'.handed = [(some octetDatagram.src, [104])] := by
  obtain ⟨rA, wA', hA, hsent⟩ := exists_returns_of_exec (relay_of_prompt (R := noNames))
    (x := fwdB 4 [.undef]) (w := { tcpRelay with queue := [octetDatagram] })
    (fun _ w' => w'.sent = frames.words [octetDatagram.toFrame] ∧ w'.handed = []) (by decide)
  obtain ⟨rB, wB', hB, -⟩ := exists_returns_of_exec (relay_of_prompt (R := noNames))
    (x := fwdF 4 [.undef] false) (w := tcpRelay.arrive [.frame octetDatagram.toFrame] [])
    (fun _ _ => true) (by decide)
  obtain ⟨hsent, hhanded⟩ := of_decide_eq_true hsent
  have hsize : ∀ b ∈ [[Msg.frame octetDatagram.toFrame]],
      b ≠ [] ∧ b.length ≤ [Mem.undef].length := by
    simp
  have hrun :
      Relays noNames 4 [.undef] false tcpRelay [[.frame octetDatagram.toFrame]] [rB.1] wB' :=
    .next (by decide) hB .nil
  refine ⟨rA, wA', _, wB', hA, hrun, ?_⟩
  exact ((accepts_iff_fits (.inl rfl) rfl (by simp) (by simp) (by decide)
    ⟨rfl, rfl⟩ hA (show tcpRelay.self.type = _ from rfl) (arrived_frame hsent hhanded) hsize
    hrun).2 (by decide)).2

/-- An empty datagram is sent, but not accepted. -/
theorem not_accepts : ¬ ∀ (R R' : Resolver) (fd fd' : Int) (bufs bufs' : List Mem) (bind : Bool)
    (ds : List Datagram) (wA wA' wB wB' : Relay) (rA : Int × List Mem) (batches : List (List Msg))
    (rets : List Int), wA.self.type = .udpInTcp ∨ wA.self.type = .udpInUdp → wA.queue = ds →
    ds ≠ [] → ds.length ≤ bufs.length → (∀ d ∈ ds, d.data.length ≤ udpBufSize) →
    wA.sent = [] ∧ wA.handed = [] → Returns (relay R) (fwdB fd bufs) wA rA wA' →
    wB.self.type = wA.self.type → Arrived wA.self.type wA' batches.flatten →
    (∀ b ∈ batches, b ≠ [] ∧ b.length ≤ bufs'.length) →
    Relays R' fd' bufs' bind wB batches rets wB' →
    (∀ ret ∈ rets, 0 ≤ ret) ∧ wB'.handed = wB.handed ++ ds.map fun d => (some d.src, d.data) := by
  intro h
  obtain ⟨rA, wA', hA, hsent⟩ := exists_returns_of_exec (relay_of_prompt (R := noNames))
    (x := fwdB 4 [.undef]) (w := { tcpRelay with queue := [emptyDatagram] })
    (fun _ w' => w'.sent = frames.words [emptyDatagram.toFrame] ∧ w'.handed = []) (by decide)
  obtain ⟨rB, wB', hB, hnil⟩ := exists_returns_of_exec (relay_of_prompt (R := noNames))
    (x := fwdF 4 [.undef] false) (w := tcpRelay.arrive [.frame emptyDatagram.toFrame] [])
    (fun _ w' => w'.handed = []) (by decide)
  obtain ⟨hsent, hhanded⟩ := of_decide_eq_true hsent
  have hsize : ∀ b ∈ [[Msg.frame emptyDatagram.toFrame]],
      b ≠ [] ∧ b.length ≤ [Mem.undef].length := by
    simp
  have hrun :
      Relays noNames 4 [.undef] false tcpRelay [[.frame emptyDatagram.toFrame]] [rB.1] wB' :=
    .stop ⟨_, List.mem_cons_self, by decide⟩ hB
  have := (h _ _ _ _ _ _ _ [emptyDatagram] _ _ _ _ _ _ _ (.inl rfl) rfl (by simp) (by simp)
    (by decide) ⟨rfl, rfl⟩ hA (show tcpRelay.self.type = _ from rfl)
    (arrived_frame hsent hhanded) hsize hrun).2
  rw [of_decide_eq_true hnil] at this
  exact absurd this (by decide)

end HevSocks5
