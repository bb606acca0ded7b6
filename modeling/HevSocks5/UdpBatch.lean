/-
  Batches and what is relayed.

  Messages arrive in batches, and each call of `fwd_f` meets one batch.  What
  the calls hand to the destination socket should be what all messages before
  the first refused one make, however they are grouped.  A call that meets a
  refused message relays nothing of its batch, so this is so exactly when the
  refused message heads its batch (`batching`).
-/
import HevSocks5.UdpRelay

namespace HevSocks5

open Interact Sys HevSocks5UDP

/-- A message, as it arrives in either mode. -/
inductive Msg where
  | frame (f : Frame)
  | datagram (d : Datagram)

namespace Msg

def type : Msg → HevSocks5Type
  | frame _ => .udpInTcp
  | datagram _ => .udpInUdp

def frame? : Msg → Option Frame
  | frame f => some f
  | datagram _ => none

def datagram? : Msg → Option Datagram
  | frame _ => none
  | datagram d => some d

/-- What the relay makes of a message, or nothing when it refuses it. -/
def forward (R : Resolver) (family : HevSocks5AddrFamily) : Msg → Option (SockAddrIn6 × List Octet)
  | frame f => f.forward R family
  | datagram d => d.forward R family

/-- What is relayed of the message is in its octets: a payload that the slots take does not come
    with an address that goes on behind them. -/
def Whole : Msg → Prop
  | frame f => f.Taken → f.data ≠ [] → f.Whole
  | datagram _ => True

instance : (m : Msg) → Decidable m.Whole
  | frame f => inferInstanceAs (Decidable (f.Taken → f.data ≠ [] → f.Whole))
  | datagram _ => .isTrue trivial

theorem exists_frames {batch : List Msg} (h : ∀ m ∈ batch, m.type = .udpInTcp) :
    ∃ fs : List Frame, batch = fs.map .frame := by
  induction batch with
  | nil => exact ⟨[], rfl⟩
  | cons m batch ih =>
    obtain ⟨hm, hb⟩ := List.forall_mem_cons.1 h
    obtain ⟨fs, rfl⟩ := ih hb
    cases m with
    | frame f => exact ⟨f :: fs, rfl⟩
    | datagram d => cases hm

theorem exists_datagrams {batch : List Msg} (h : ∀ m ∈ batch, m.type = .udpInUdp) :
    ∃ ds : List Datagram, batch = ds.map .datagram := by
  induction batch with
  | nil => exact ⟨[], rfl⟩
  | cons m batch ih =>
    obtain ⟨hm, hb⟩ := List.forall_mem_cons.1 h
    obtain ⟨ds, rfl⟩ := ih hb
    cases m with
    | frame f => cases hm
    | datagram d => exact ⟨d :: ds, rfl⟩

end Msg

/-- A batch has arrived, and more is to come. -/
def Relay.arrive (w : Relay) (batch more : List Msg) : Relay :=
  { w with
    ready := frames.words (batch.filterMap (·.frame?))
    later := frames.words (more.filterMap (·.frame?))
    queue := batch.filterMap (·.datagram?) }

variable {R : Resolver} {fd : Int}

/-- **A batch** is relayed as a whole or not at all. -/
theorem post_fwdF {bufs : List Mem} {bind : Bool} {batch more : List Msg} {w : Relay}
    (htype : ∀ m ∈ batch, m.type = w.self.type) (hne : batch ≠ [])
    (hlen : batch.length ≤ bufs.length)
    (hwhole : ∀ m ∈ examined (Msg.forward R w.self.addrFamily) batch, m.Whole) :
    Post (relay R) (fwdF fd bufs bind) (w.arrive batch more) fun r w' =>
      FwdEnds (batch.mapM (Msg.forward R w.self.addrFamily)) bufs w r w' := by
  obtain ⟨m, hm⟩ := List.exists_mem_of_ne_nil batch hne
  have hself := htype m hm
  cases m with
  | frame f =>
    obtain ⟨fs, rfl⟩ := Msg.exists_frames fun m hm => (htype m hm).trans hself.symm
    have h := post_fwdF_tcp fd bufs bind fs
      (R := R) (w := w.arrive (fs.map .frame) more) hself.symm ?_ ?_ ?_ ?_
    · simp only [List.mapM_map]
      exact h
    · simp [Relay.arrive, List.filterMap_map, Msg.frame?]
    · simpa using hne
    · simpa using hlen
    · intro f hf
      refine hwhole (.frame f) ?_
      rw [examined_map]
      exact List.mem_map_of_mem hf
  | datagram d =>
    obtain ⟨ds, rfl⟩ := Msg.exists_datagrams fun m hm => (htype m hm).trans hself.symm
    have h := post_fwdF_udp fd bufs bind ds
      (R := R) (w := w.arrive (ds.map .datagram) more) hself.symm ?_ ?_ ?_
    · simp only [List.mapM_map]
      exact h
    · simp [Relay.arrive, List.filterMap_map, Msg.datagram?]
    · simpa using hne
    · simpa using hlen

/-! ## Calls on successive batches -/

/-- The relay does not refuse the message. -/
def Accepts (R : Resolver) (family : HevSocks5AddrFamily) (m : Msg) : Prop :=
  (m.forward R family).isSome

instance (family : HevSocks5AddrFamily) (m : Msg) : Decidable (Accepts R family m) :=
  inferInstanceAs (Decidable (_ = true))

/-- One call for each batch, up to the call that meets the first refused message.  The calls
    return `rets`. -/
inductive Relays (R : Resolver) (fd : Int) :
    List Mem → Bool → Relay → List (List Msg) → List Int → Relay → Prop
  | nil {bufs bind w} : Relays R fd bufs bind w [] [] w
  | stop {bufs bind w batch batches r w'} : (∃ m ∈ batch, ¬ Accepts R w.self.addrFamily m) →
      Returns (relay R) (fwdF fd bufs bind) (w.arrive batch batches.flatten) r w' →
      Relays R fd bufs bind w (batch :: batches) [r.1] w'
  | next {bufs bind w batch batches r rets w' w''} :
      (∀ m ∈ batch, Accepts R w.self.addrFamily m) →
      Returns (relay R) (fwdF fd bufs bind) (w.arrive batch batches.flatten) r w' →
      Relays R fd r.2.2 r.2.1 w' batches rets w'' →
      Relays R fd bufs bind w (batch :: batches) (r.1 :: rets) w''

/-- What all messages before the first refused one make. -/
def acceptable (R : Resolver) (family : HevSocks5AddrFamily) (ms : List Msg) :
    List (Option SockAddrIn6 × List Octet) :=
  ((ms.takeWhile (Accepts R family ·)).filterMap (Msg.forward R family)).map
    fun d => (some d.1, d.2)

/-- What the relay makes of the messages up to the first refused one is in their octets. -/
def WholeUpToRefused (R : Resolver) (family : HevSocks5AddrFamily) (ms : List Msg) : Prop :=
  ∀ m ∈ examined (Msg.forward R family) ms, m.Whole

instance (family : HevSocks5AddrFamily) (ms : List Msg) :
    Decidable (WholeUpToRefused R family ms) :=
  inferInstanceAs (Decidable (∀ m ∈ examined (Msg.forward R family) ms, m.Whole))

/-- The first refused message, when there is one, is the first of its batch. -/
def HeadsBatch (R : Resolver) (family : HevSocks5AddrFamily) : List (List Msg) → Prop
  | [] => True
  | batch :: batches =>
    if ∀ m ∈ batch, Accepts R family m then HeadsBatch R family batches
    else ∀ m ∈ batch.head?, ¬ Accepts R family m

variable {family : HevSocks5AddrFamily}

theorem acceptable_append {batch ms : List Msg} (h : ∀ m ∈ batch, Accepts R family m) :
    acceptable R family (batch ++ ms) =
      (batch.filterMap (Msg.forward R family)).map (fun d => (some d.1, d.2)) ++
        acceptable R family ms := by
  rw [acceptable, List.takeWhile_append_of_pos (by simpa using h)]
  simp [acceptable]

theorem headsBatch_singletons (ms : List Msg) : HeadsBatch R family (ms.map fun m => [m]) := by
  induction ms with
  | nil => trivial
  | cons m ms ih =>
    by_cases hm : Accepts R family m
    · simpa [HeadsBatch, hm] using ih
    · simp [HeadsBatch, hm]

/-- A batch of accepted messages is relayed. -/
theorem FwdEnds.accepted {batch : List Msg} {bufs : List Mem} {w w' : Relay}
    {r : Int × Bool × List Mem} (h : FwdEnds (batch.mapM (Msg.forward R family)) bufs w r w')
    (hacc : ∀ m ∈ batch, Accepts R family m) :
    w'.self.type = w.self.type ∧ w'.self.addrFamily = w.self.addrFamily ∧
      r.2.2.length = bufs.length ∧ r.1 = 1 ∧
      w'.handed = w.handed ++
        (batch.filterMap (Msg.forward R family)).map fun d => (some d.1, d.2) := by
  have hsome : ∀ m ∈ batch, (Msg.forward R family m).isSome = true := hacc
  rw [mapM_eq_ite, if_pos hsome] at h
  obtain ⟨htype, hfamily, hlen, hret, hhanded⟩ := h
  exact ⟨htype, hfamily, hlen rfl, hret, hhanded⟩

/-- Nothing of a batch with a refused message is relayed. -/
theorem FwdEnds.refused {batch : List Msg} {bufs : List Mem} {w w' : Relay}
    {r : Int × Bool × List Mem} (h : FwdEnds (batch.mapM (Msg.forward R family)) bufs w r w')
    (href : ∃ m ∈ batch, ¬ Accepts R family m) : r.1 ≤ 0 ∧ w'.handed = w.handed := by
  rw [mapM_eq_ite, if_neg (by simpa [Accepts] using href)] at h
  exact h.2.2.2

theorem WholeUpToRefused.of_append {batch ms : List Msg}
    (h : WholeUpToRefused R family (batch ++ ms)) : WholeUpToRefused R family batch :=
  fun m hm => h m (mem_examined_append hm)

theorem WholeUpToRefused.of_append_right {batch ms : List Msg}
    (h : WholeUpToRefused R family (batch ++ ms)) (hacc : ∀ m ∈ batch, Accepts R family m) :
    WholeUpToRefused R family ms := fun m hm =>
  h m (by rw [examined_append_of_some hacc]; exact List.mem_append_right _ hm)

/-- Nothing is acceptable exactly when the first message is refused. -/
theorem acceptable_eq_nil_iff {m : Msg} {ms : List Msg} :
    acceptable R family (m :: ms) = [] ↔ ¬ Accepts R family m := by
  by_cases hm : Accepts R family m
  · obtain ⟨out, hout⟩ := Option.isSome_iff_exists.1 hm
    simp [acceptable, hm, hout]
  · simp [acceptable, hm]

/-- A batch has arrived for a call that can take it. -/
theorem post_fwdF_cons {bufs : List Mem} {bind : Bool} {w : Relay} {batch : List Msg}
    {batches : List (List Msg)}
    (hsize : ∀ b ∈ batch :: batches, b ≠ [] ∧ b.length ≤ bufs.length)
    (htype : ∀ m ∈ (batch :: batches).flatten, m.type = w.self.type)
    (hwhole : WholeUpToRefused R w.self.addrFamily (batch :: batches).flatten) :
    Post (relay R) (fwdF fd bufs bind) (w.arrive batch batches.flatten) fun r w' =>
      FwdEnds (batch.mapM (Msg.forward R w.self.addrFamily)) bufs w r w' := by
  rw [List.flatten_cons] at htype hwhole
  have hb := (List.forall_mem_cons.1 hsize).1
  exact post_fwdF (List.forall_mem_append.1 htype).1 hb.1 hb.2 hwhole.of_append

theorem Relays.handed_iff {bufs : List Mem} {bind : Bool} {w w' : Relay} {batches : List (List Msg)}
    {rets : List Int} (h : Relays R fd bufs bind w batches rets w')
    (hsize : ∀ b ∈ batches, b ≠ [] ∧ b.length ≤ bufs.length)
    (htype : ∀ m ∈ batches.flatten, m.type = w.self.type)
    (hwhole : WholeUpToRefused R w.self.addrFamily batches.flatten) :
    w'.handed = w.handed ++ acceptable R w.self.addrFamily batches.flatten ↔
      HeadsBatch R w.self.addrFamily batches := by
  induction h with
  | nil => simp [acceptable, HeadsBatch]
  | @stop bufs bind w batch batches r w' href hr =>
    have hend := (post_fwdF_cons hsize htype hwhole).returns hr
    rw [(hend.refused href).2]
    have hnot : ¬ ∀ m ∈ batch, Accepts R w.self.addrFamily m := by
      simpa using href
    cases batch with
    | nil => exact absurd rfl (hsize [] List.mem_cons_self).1
    | cons m batch =>
      rw [HeadsBatch, if_neg hnot]
      simp [acceptable_eq_nil_iff]
  | @next bufs bind w batch batches r rets w' w'' hacc hr _ ih =>
    have hend := (post_fwdF_cons hsize htype hwhole).returns hr
    obtain ⟨hty, hfam, hbufs, -, hhanded⟩ := hend.accepted hacc
    rw [List.flatten_cons] at htype hwhole
    have ih := ih (by simpa [hbufs] using (List.forall_mem_cons.1 hsize).2)
      (by simpa [hty] using (List.forall_mem_append.1 htype).2)
      (by simpa [hfam] using hwhole.of_append_right hacc)
    rw [hfam, hhanded] at ih
    rw [List.flatten_cons, acceptable_append hacc, HeadsBatch, if_pos hacc, ← ih]
    simp

/-- When no message is refused, every call succeeds, and all messages are relayed. -/
theorem Relays.all_accepted {bufs : List Mem} {bind : Bool} {w w' : Relay}
    {batches : List (List Msg)} {rets : List Int} (h : Relays R fd bufs bind w batches rets w')
    (hsize : ∀ b ∈ batches, b ≠ [] ∧ b.length ≤ bufs.length)
    (htype : ∀ m ∈ batches.flatten, m.type = w.self.type)
    (hwhole : WholeUpToRefused R w.self.addrFamily batches.flatten)
    (hacc : ∀ m ∈ batches.flatten, Accepts R w.self.addrFamily m) :
    (∀ ret ∈ rets, ret = 1) ∧ w'.handed = w.handed ++
      (batches.flatten.filterMap (Msg.forward R w.self.addrFamily)).map
        fun d => (some d.1, d.2) := by
  induction h with
  | nil => simp
  | @stop bufs bind w batch batches r w' href hr =>
    obtain ⟨m, hm, hnot⟩ := href
    exact absurd (hacc m (by simp [hm])) hnot
  | @next bufs bind w batch batches r rets w' w'' hb hr _ ih =>
    have hend := (post_fwdF_cons hsize htype hwhole).returns hr
    obtain ⟨hty, hfam, hbufs, hret, hhanded⟩ := hend.accepted hb
    rw [List.flatten_cons] at htype hwhole hacc
    have ih := ih (by simpa [hbufs] using (List.forall_mem_cons.1 hsize).2)
      (by simpa [hty] using (List.forall_mem_append.1 htype).2)
      (by simpa [hfam] using hwhole.of_append_right hb)
      (by simpa [hfam] using (List.forall_mem_append.1 hacc).2)
    rw [hfam, hhanded] at ih
    exact ⟨List.forall_mem_cons.2 ⟨hret, ih.1⟩, by simp [ih.2]⟩

/-- When a message is refused, not all messages are relayed. -/
theorem Relays.length_lt {bufs : List Mem} {bind : Bool} {w w' : Relay}
    {batches : List (List Msg)} {rets : List Int} (h : Relays R fd bufs bind w batches rets w')
    (hsize : ∀ b ∈ batches, b ≠ [] ∧ b.length ≤ bufs.length)
    (htype : ∀ m ∈ batches.flatten, m.type = w.self.type)
    (hwhole : WholeUpToRefused R w.self.addrFamily batches.flatten)
    (href : ∃ m ∈ batches.flatten, ¬ Accepts R w.self.addrFamily m) :
    w'.handed.length < w.handed.length + batches.flatten.length := by
  induction h with
  | nil => simp at href
  | @stop bufs bind w batch batches r w' hb hr =>
    have hend := (post_fwdF_cons hsize htype hwhole).returns hr
    have hpos := List.length_pos_iff.2 (hsize batch List.mem_cons_self).1
    rw [(hend.refused hb).2, List.flatten_cons, List.length_append]
    omega
  | @next bufs bind w batch batches r rets w' w'' hb hr _ ih =>
    have hend := (post_fwdF_cons hsize htype hwhole).returns hr
    obtain ⟨hty, hfam, hbufs, -, hhanded⟩ := hend.accepted hb
    rw [List.flatten_cons] at htype hwhole
    obtain ⟨m, hm, hnot⟩ := href
    rw [List.flatten_cons, List.mem_append] at hm
    have hm' := hm.resolve_left fun hm => hnot (hb m hm)
    have ih := ih (by simpa [hbufs] using (List.forall_mem_cons.1 hsize).2)
      (by simpa [hty] using (List.forall_mem_append.1 htype).2)
      (by simpa [hfam] using hwhole.of_append_right hb) ⟨m, hm', by simpa [hfam] using hnot⟩
    have hle := List.length_filterMap_le (Msg.forward R w.self.addrFamily) batch
    rw [hhanded] at ih
    simp only [List.length_append, List.length_map, List.flatten_cons] at ih ⊢
    omega

/-- **Batches.**  The calls relay what all messages before the first refused one make exactly
    when the first refused message heads its batch; with one message a call they always do. -/
theorem batching {bufs : List Mem} {bind : Bool} {w w' : Relay} {batches : List (List Msg)}
    {rets : List Int} (h : Relays R fd bufs bind w batches rets w')
    (hsize : ∀ b ∈ batches, b ≠ [] ∧ b.length ≤ bufs.length)
    (htype : ∀ m ∈ batches.flatten, m.type = w.self.type)
    (hwhole : WholeUpToRefused R w.self.addrFamily batches.flatten) :
    (w'.handed = w.handed ++ acceptable R w.self.addrFamily batches.flatten ↔
      HeadsBatch R w.self.addrFamily batches) ∧
    ∀ buf bind₁ rets₁ w₁,
      Relays R fd [buf] bind₁ w (batches.flatten.map fun m => [m]) rets₁ w₁ →
      w₁.handed = w.handed ++ acceptable R w.self.addrFamily batches.flatten := by
  refine ⟨h.handed_iff hsize htype hwhole, fun buf bind₁ rets₁ w₁ h₁ => ?_⟩
  have hflat : (batches.flatten.map fun m => [m]).flatten = batches.flatten := by
    induction batches.flatten with
    | nil => rfl
    | cons m ms ih => simp [ih]
  have hsize₁ : ∀ b ∈ batches.flatten.map (fun m => [m]), b ≠ [] ∧ b.length ≤ [buf].length := by
    intro b hb
    obtain ⟨m, -, rfl⟩ := List.mem_map.1 hb
    simp
  have hiff := h₁.handed_iff hsize₁ (by rwa [hflat]) (by rwa [hflat])
  rw [hflat] at hiff
  exact hiff.2 (headsBatch_singletons _)

/-! ## A batch with a refused message -/

/-- A resolver that knows no name. -/
def noNames : Resolver := ⟨fun _ => none, fun _ => none, fun _ _ => none⟩

/-- A client that has sent one octet to an IPv4 address. -/
def goodDatagram : Msg :=
  .datagram ⟨.zero, [0, 0, 0, 1, 192, 0, 2, 7, 0, 53, 104]⟩

/-- A datagram with an unknown type of address. -/
def badDatagram : Msg := .datagram ⟨.zero, [0, 0, 0, 9]⟩

/-- A relay before its first call. -/
def freshRelay : Relay where
  self :=
    { fd := 0, timeout := -1, type := .udpInUdp, udpAssociated := false, addrFamily := .unspec }
  errno := .other
  ready := []
  later := []
  queue := []
  sent := []
  handed := []

/-- Both datagrams in one batch: nothing is relayed. -/
theorem relays_bad_batch : ∃ rets w', Relays noNames 4 [.undef, .undef] false freshRelay
    [[goodDatagram, badDatagram]] rets w' ∧ w'.handed = [] := by
  obtain ⟨r, w', hr, hh⟩ := exists_returns_of_exec (relay_of_prompt (R := noNames))
    (x := fwdF 4 [.undef, .undef] false) (w := freshRelay.arrive [goodDatagram, badDatagram] [])
    (fun _ w' => w'.handed = []) (by decide)
  exact ⟨_, w', .stop ⟨badDatagram, by simp, by decide⟩ hr, of_decide_eq_true hh⟩

/-- Grouping does change what is relayed. -/
theorem not_batching : ¬ ∀ (R : Resolver) (fd : Int) (bufs : List Mem) (bind : Bool) (w w' : Relay)
    (batches : List (List Msg)) (rets : List Int), Relays R fd bufs bind w batches rets w' →
    (∀ b ∈ batches, b ≠ [] ∧ b.length ≤ bufs.length) →
    (∀ m ∈ batches.flatten, m.type = w.self.type) →
    WholeUpToRefused R w.self.addrFamily batches.flatten →
    w'.handed = w.handed ++ acceptable R w.self.addrFamily batches.flatten := by
  intro h
  obtain ⟨rets, w', hr, hnil⟩ := relays_bad_batch
  have := h _ _ _ _ _ _ _ _ hr (by simp) (by decide)
    (by decide)
  rw [hnil] at this
  exact absurd this (by decide)

/-- A relay on a stream before its first call. -/
def tcpRelay : Relay := { freshRelay with self := { freshRelay.self with type := .udpInTcp } }

/-- A frame with one octet for an IPv4 address. -/
def goodFrame : Frame := ⟨10, [1, 192, 0, 2, 1, 0, 53], [103], rfl, by decide⟩

/-- A frame with an unknown type of address. -/
def badFrame : Frame := ⟨5, [9, 0], [98], rfl, by decide⟩

/-- A frame with a name that goes on behind it. -/
def shortFrame : Frame := ⟨5, [3, 255], [115], rfl, by decide⟩

/-- The name goes on in what the slot held before. -/
example (mem : Mem) : ((fwdSlot mem).receive shortFrame).mem 3 = mem 3 := rfl

theorem batching_good : ∃ rets w',
    Relays noNames 4 [.undef, .undef] false tcpRelay
      [[.frame goodFrame], [.frame badFrame, .frame shortFrame]] rets w' ∧
    w'.handed = [(some ⟨(0, 53), v4Mapped #v[192, 0, 2, 1]⟩, [103])] := by
  obtain ⟨r, w, hr, hw⟩ := exists_returns_of_exec (relay_of_prompt (R := noNames))
    (x := fwdF 4 [.undef, .undef] false)
    (w := tcpRelay.arrive [.frame goodFrame] [.frame badFrame, .frame shortFrame])
    (fun r w => decide (w.self.addrFamily = .unspec) &&
      (exec (prompt noNames) (fwdF 4 r.2.2 r.2.1)
        (w.arrive [.frame badFrame, .frame shortFrame] [])).any fun _ => true) (by decide)
  rw [Bool.and_eq_true] at hw
  have hfamily : w.self.addrFamily = .unspec := of_decide_eq_true hw.1
  obtain ⟨r', w', hr', -⟩ := exists_returns_of_exec (relay_of_prompt (R := noNames))
    (fun _ _ => true) hw.2
  have hrun : Relays noNames 4 [.undef, .undef] false tcpRelay
      [[.frame goodFrame], [.frame badFrame, .frame shortFrame]] [r.1, r'.1] w' :=
    .next (by decide) hr
      (.stop ⟨.frame badFrame, List.mem_cons_self, by rw [hfamily]; decide⟩ hr')
  have h := (batching hrun (by decide) (by decide) (by decide)).1.2 (by
    simp only [HeadsBatch]
    rw [if_pos (by decide), if_neg (by decide)]
    decide)
  exact ⟨_, w', hrun, h.trans (by decide)⟩

end HevSocks5
