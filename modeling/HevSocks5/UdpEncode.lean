/-
  The lengths in the frames of UDP-in-TCP.

  `sendmmsg_tcp` computes lengths as machine words and stores them in a field of
  16 and one of 8 bits, while the gather list keeps the words.  The fields are
  right for the batches all of whose messages fit, and for no others: a longer
  message is not refused (`encodes_iff_fits`).
-/
import HevSocks5.UdpIntact

namespace HevSocks5

open Interact Sys

namespace HevSocks5UDP

namespace OutMsg

variable (m : OutMsg)

/-- The lengths fit into the fields of the header. -/
def Fits : Prop := 3 + m.addrlen ≤ 255 ∧ m.len.toNat ≤ 65535

instance : Decidable m.Fits := inferInstanceAs (Decidable (_ ∧ _))

/-- The octets that are emitted for a message. -/
def emitted : List Octet := m.frame m.addrlen

/-- **The length fields are exact**: one is the number of payload octets that are emitted, the
    other one that of header and address. -/
structure Exact : Prop where
  datlen : (ntohs (m.emitted.getD 0 0, m.emitted.getD 1 0)).toNat =
    (m.emitted.drop (3 + m.addrlen)).length
  hdrlen : (m.emitted.getD 2 0).toNat = 3 + m.addrlen

theorem datlen_emitted :
    (ntohs (m.emitted.getD 0 0, m.emitted.getD 1 0)).toNat = m.len.toNat % 65536 := by
  have h : (m.emitted.getD 0 0, m.emitted.getD 1 0) = htons m.len.toUInt16 := rfl
  rw [h, ntohs_htons]
  simp

theorem hdrlen_emitted : (m.emitted.getD 2 0).toNat = (3 + m.addrlen) % 256 := by
  have h : m.emitted.getD 2 0 = UInt8.ofNat (3 + m.addrlen) := rfl
  rw [h]
  simp

theorem length_payload : (m.emitted.drop (3 + m.addrlen)).length = m.len.toNat := by
  have hlen : (datlenOctets m.len).length = 2 := rfl
  simp only [emitted, frame, List.length_drop, List.length_append, List.length_singleton,
    Mem.length_read, hlen]
  omega

theorem exact_iff_fits : m.Exact ↔ m.Fits := by
  constructor
  · rintro ⟨hdat, hhdr⟩
    rw [datlen_emitted, length_payload] at hdat
    rw [hdrlen_emitted] at hhdr
    exact ⟨by omega, by omega⟩
  · rintro ⟨hhdr, hdat⟩
    constructor
    · rw [datlen_emitted, length_payload]
      omega
    · rw [hdrlen_emitted]
      omega

end OutMsg

/-- **The encoder truncates no length**: in every run that returns the number of messages, what
    is emitted are frames with exact lengths; and of a batch with a message that does not fit
    nothing is written. -/
def Encodes (msgv : List OutMsg) : Prop :=
  ∀ w res w', Returns line (sendmmsgTcp msgv) w res w' →
    (res = msgv.length →
      (∃ k, w'.writes = w.writes ++ [(msgv.map OutMsg.emitted).flatten.take k]) ∧
        ∀ m ∈ msgv, m.Exact) ∧
    ((∃ m ∈ msgv, ¬ m.Fits) → w'.writes.flatten = w.writes.flatten)

variable {msgv : List OutMsg}

/-- A batch of valid addresses is handed to one call. -/
theorem sendmmsgTcp_eq (h : ∀ m ∈ msgv, 0 < hevSocks5AddrLen m.addr) :
    sendmmsgTcp msgv = (do
      let res ← hevTaskIoSocketSendmsg (← hevSocks5UdpGetFd) (msgv.map OutMsg.emitted).flatten
      if res ≤ 0 then return -1 else return msgv.length) := by
  simp only [sendmmsgTcp, gather_eq OutMsg.frame h]
  rfl

theorem length_emitted_pos {m : OutMsg} (hm : m ∈ msgv) :
    1 ≤ (msgv.map OutMsg.emitted).flatten.length := by
  obtain ⟨l, rest, rfl⟩ := List.append_of_mem hm
  simp [OutMsg.emitted, OutMsg.frame, datlenOctets]
  omega

/-- A run in which some of the octets are written. -/
theorem returns_sendmmsgTcp (h : ∀ m ∈ msgv, 0 < hevSocks5AddrLen m.addr) {k : Nat} (hk : 0 < k)
    (hle : k ≤ (msgv.map OutMsg.emitted).flatten.length) (w : Line) :
    Returns line (sendmmsgTcp msgv) w msgv.length
      { w with writes := w.writes ++ [(msgv.map OutMsg.emitted).flatten.take k] } := by
  simp only [sendmmsgTcp_eq h, returns_bind, returns_op]
  refine ⟨0, w, ⟨w.errno, rfl⟩, k, _, ⟨k, w.errno, hle, rfl, .inr rfl⟩, ?_⟩
  rw [if_neg (by omega)]
  exact .ret _ _

theorem encodes_of_fits (h : ∀ m ∈ msgv, 0 < hevSocks5AddrLen m.addr)
    (hfits : ∀ m ∈ msgv, m.Fits) : Encodes msgv := by
  intro w res w' hrun
  refine ⟨fun hres => ⟨?_, fun m hm => m.exact_iff_fits.2 (hfits m hm)⟩, ?_⟩
  · simp only [sendmmsgTcp_eq h, returns_bind, returns_op] at hrun
    obtain ⟨fd, _, ⟨e, rfl⟩, b, _, ⟨k, e', -, rfl, -⟩, hend⟩ := hrun
    split at hend
    · obtain ⟨rfl, -⟩ := returns_pure.1 hend
      omega
    · obtain ⟨-, rfl⟩ := returns_pure.1 hend
      exact ⟨k, rfl⟩
  · rintro ⟨m, hm, hnot⟩
    exact absurd (hfits m hm) hnot

/-- **The lengths are exact for the batches that fit, and for no others.** -/
theorem encodes_iff_fits (h : ∀ m ∈ msgv, 0 < hevSocks5AddrLen m.addr) :
    Encodes msgv ↔ ∀ m ∈ msgv, m.Fits := by
  refine ⟨fun henc => ?_, encodes_of_fits h⟩
  by_contra hnot
  obtain ⟨m, hm, hfits⟩ := not_forall₂.1 hnot
  -- one octet is written of a batch that should have been refused
  have hrun := returns_sendmmsgTcp h Nat.one_pos (length_emitted_pos hm) ⟨[], [], .other⟩
  have hnone := congrArg List.length ((henc _ _ _ hrun).2 ⟨m, hm, hfits⟩)
  have hpos := length_emitted_pos hm
  simp only [List.nil_append, List.flatten_cons, List.flatten_nil, List.append_nil,
    List.length_take, List.length_nil] at hnone
  omega

/-- An octet for a name of `n` octets. -/
def toName (n : Octet) : OutMsg := { addr := .ofList [addrTypeName, n], buf := .undef, len := 1 }

theorem encodes_toName : Encodes [toName 5, toName 9] ∧ ∀ m ∈ [toName 5, toName 9], m.Fits := by
  have henc := (@encodes_iff_fits [toName 5, toName 9] (by decide)).2 (by decide)
  exact ⟨henc, by decide⟩

/-- With a name of 253 octets the header would be of 260. -/
theorem not_encodes : ¬ ∀ msgv : List OutMsg,
    (∀ m ∈ msgv, 0 < hevSocks5AddrLen m.addr) → Encodes msgv := by
  intro hall
  have hv : ∀ m ∈ [toName 253], 0 < hevSocks5AddrLen m.addr := by decide
  have hfits := (OutMsg.exact_iff_fits (toName 253)).1
  have hrun := returns_sendmmsgTcp hv Nat.one_pos (length_emitted_pos (List.mem_singleton_self _))
    ⟨[], [], .other⟩
  have hexact := ((hall _ hv _ _ _ hrun).1 rfl).2 _ (List.mem_singleton_self _)
  exact absurd (hfits hexact).1 (by decide)

end HevSocks5UDP

end HevSocks5
