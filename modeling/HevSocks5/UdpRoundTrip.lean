/-
  UDP-in-TCP round trip.

  Two ends talk over a connection: one sends batches of messages, whose writes
  complete, the other reads with calls of any number of slots.  A read takes
  octets in pieces of any size; in non-blocking mode it may also find that it
  would block before it has taken any.

  **`round_trip`**: what was received is a prefix of what was sent, and exactly
  the frames of the rest are still under way.
-/
import HevSocks5.UdpStream

namespace HevSocks5

open Interact Sys HevSocks5UDP

/-- A connection: the octets under way to the reader, and `errno` of the reader. -/
structure Pipe where
  rest : List Octet
  errno : Errno
deriving DecidableEq

namespace Pipe

/-- `k` octets are received. -/
def Take (w : Pipe) (k : Nat) (r : Received) (w' : Pipe) : Prop :=
  r.res = k ∧ r.data.length = k ∧ w.rest = r.data ++ w'.rest

/-- A plain call takes some octets, or none when it would block or nothing comes any more. -/
def Recv (w : Pipe) (n : Nat) (nonblock : Prop) (r : Received) (w' : Pipe) : Prop :=
  (∃ k, 0 < k ∧ k ≤ n ∧ w.Take k r w') ∨
  (nonblock ∧ r.res = -1 ∧ w'.rest = w.rest ∧ w'.errno = .eagain) ∨
  (w.rest = [] ∧ r.res ≤ 0 ∧ w'.rest = [])

end Pipe

/-- The system calls on the connection. -/
def pipe : Env Op Pipe := fun w _ o b w' =>
  match o with
  | .getFd => w' = w
  | .sendmsg _ data => b = (data.length : Int) ∧ w'.rest = w.rest ++ data
  | .recv _ n flags => if flags = .waitall then w.Take n b w' else w.Recv n (flags = .dontwait) b w'
  | .recvmsg _ n => w.Take n b w'
  | _ => w'.rest = w.rest

/-- When a plain call takes none. -/
def Pipe.Stop (nonblock : Bool) (w : Pipe) (res : Int) (w' : Pipe) : Prop :=
  (nonblock = true ∧ res = -1 ∧ w'.errno = .eagain) ∨ w.rest = []

theorem delivers_pipe : Delivers pipe Pipe.rest (fun _ _ => True) Pipe.Stop where
  refl := trivial
  trans _ _ := trivial
  recv := by
    intro w fd nonblock w' r h
    have hf : dontwaitIf nonblock ≠ .waitall := by cases nonblock <;> decide
    simp only [pipe, if_neg hf] at h
    rcases h with ⟨k, h₀, h₅, hres, hlen, hrest⟩ | ⟨hn, hres, hrest, he⟩ | ⟨hnil, hres, hrest⟩
    · exact .inl ⟨by omega, by omega, by omega, hrest, trivial⟩
    · refine .inr ⟨by omega, hrest, .inl ⟨?_, hres, he⟩⟩
      cases nonblock
      · exact absurd hn (by decide)
      · rfl
    · exact .inr ⟨hres, by rw [hrest, hnil], .inr hnil⟩
  waitall := by
    intro w fd n w' r h
    simp only [pipe, if_true] at h
    exact ⟨h.1, h.2.1, trivial, .inl h.2.2⟩
  recvmsg := by
    intro w fd n w' r h
    exact ⟨h.1, h.2.1, trivial, fun _ => h.2.2⟩

/-! ## Sending -/

/-- A batch goes onto the connection as its frames. -/
theorem post_sendmmsgTcp (msgv : List ValidMsg) (w : Pipe) :
    Post pipe (sendmmsgTcp (msgv.map (·.1))) w fun _ w' =>
      w'.rest = w.rest ++ frames.words (msgv.map (·.toFrame)) := by
  have hwords : (msgv.map fun m => m.toFrame.octets).flatten =
      frames.words (msgv.map (·.toFrame)) := by
    simp only [PrefixCode.words, List.flatMap, List.map_map]
    rfl
  simp only [sendmmsgTcp, gather_valid, always_bind, always_op, hwords]
  rintro fd w₁ rfl
  refine ⟨trivial, fun res w₂ h => ⟨trivial, ?_⟩⟩
  rw [always_ite]
  split <;> exact h.2

/-! ## Receiving -/

/-- The slots have room for the messages they are to receive. -/
def Room (slots : List Slot) (ms : List ValidMsg) : Prop :=
  ∀ p ∈ slots.zip ms, p.2.1.addrlen + p.2.1.len.toNat ≤ p.1.msg.len.toNat

instance (slots : List Slot) (ms : List ValidMsg) : Decidable (Room slots ms) :=
  inferInstanceAs (Decidable (∀ p ∈ slots.zip ms, _))

/-- The messages that a call has received. -/
def received (res : Int) (svec : List Slot) : List (Option Message) :=
  (svec.take res.toNat).map (·.msg.message)

theorem takes_toFrame {s : Slot} {m : ValidMsg}
    (h : m.1.addrlen + m.1.len.toNat ≤ s.msg.len.toNat) : s.Takes m.toFrame := by
  refine Slot.takes_of_length_le ?_ (by simpa [ValidMsg.toFrame, OutMsg.message] using h)
  have := m.four_le_addrlen
  rw [m.toNat_hdrlen]
  omega

theorem map_message_zipWith (slots : List Slot) (ms : List ValidMsg)
    (h : ms.length ≤ slots.length) :
    (List.zipWith Slot.receive slots (ms.map (·.toFrame))).map (·.msg.message) =
      ms.map fun m => some m.1.message := by
  induction ms generalizing slots with
  | nil => simp
  | cons m ms ih =>
    cases slots with
    | nil => simp at h
    | cons s slots =>
      simp only [List.map_cons, List.zipWith_cons_cons, receive_message]
      rw [ih slots (by simpa using h)]

/-- A call on the frames of the messages `ms` receives the first ones. -/
theorem post_recvmmsgTcp {slots : List Slot} {nonblock : Bool} {ms : List ValidMsg} {w : Pipe}
    (hw : w.rest = frames.words (ms.map (·.toFrame))) (hroom : Room slots ms) :
    Post pipe (recvmmsgTcp slots nonblock) w fun r w' =>
      ∃ n, n ≤ ms.length ∧ received r.1 r.2 = (ms.take n).map (fun m => some m.1.message) ∧
        w'.rest = frames.words ((ms.drop n).map (·.toFrame)) ∧
        (slots ≠ [] → 0 < r.1 ∨ (nonblock = true ∧ r.1 = -1 ∧ w'.errno = .eagain) ∨ ms = []) := by
  simp only [recvmmsgTcp, always_bind, always_op]
  rintro fd w₁ rfl
  refine ⟨trivial, (always_recvmmsgTcpLoop delivers_pipe hw).mono ?_⟩
  rintro ⟨res, svec⟩ w' ⟨n, hn, hnm, -, hsvec, hend⟩
  dsimp only at hsvec hend ⊢
  simp only [List.length_map, List.nil_append, List.length_nil, Nat.zero_add,
    ← List.map_take] at hnm hsvec hend
  have hgot : (svec.take n).map (·.msg.message) = (ms.take n).map fun m => some m.1.message := by
    rw [hsvec, List.take_left' (by simp; omega), map_message_zipWith _ _ (by simp; omega)]
  rcases hend with ⟨hall, rfl, hrest, -⟩ | ⟨w₂, r, hr, -, hrest₂, hrest, hstop, rfl⟩ |
    ⟨s, hs, f, hf, ht, -, -⟩
  · refine ⟨n, hnm, by simpa [received] using hgot, by simpa using hrest, fun hne => .inl ?_⟩
    have := List.length_pos_iff.2 hne
    omega
  · refine ⟨n, hnm, ?_, by simpa using hrest, fun _ => ?_⟩
    · have : (if 0 < n then (n : Int) else r).toNat = n := by split <;> omega
      simp only [received, this, hgot]
    · by_cases hn0 : 0 < n
      · simp [hn0]
      · rw [if_neg hn0]
        obtain rfl : n = 0 := by omega
        rcases hstop with h | h
        · exact .inr (.inl h)
        · rw [h] at hrest₂
          have hnil := PrefixCode.eq_nil_of_words_eq_nil hrest₂.symm
          exact .inr (.inr (by simpa using hnil))
  · -- the next message has room in its slot
    simp only [Option.mem_def, List.getElem?_map, Option.map_eq_some_iff] at hs hf
    obtain ⟨m, hm, rfl⟩ := hf
    refine absurd (takes_toFrame (hroom (s, m) ?_)) ht
    exact List.mem_of_getElem? (i := n) (by simp [List.getElem?_zip_eq_some, hs, hm])

/-! ## Sessions -/

/-- Batches are sent and calls are made to receive, in any order.  `sent` are the messages
    of the batches, `got` those that the calls have received. -/
inductive Session : List ValidMsg → List (Option Message) → Pipe → Prop
  | start {w : Pipe} : w.rest = [] → Session [] [] w
  | send {sent got w res w'} (msgv : List ValidMsg) : Session sent got w → msgv ≠ [] →
      Returns pipe (sendmmsgTcp (msgv.map (·.1))) w res w' → Session (sent ++ msgv) got w'
  | recv {sent got w res svec w'} (slots : List Slot) (nonblock : Bool) : Session sent got w →
      slots ≠ [] → Room slots (sent.drop got.length) →
      Returns pipe (recvmmsgTcp slots nonblock) w (res, svec) w' →
      Session sent (got ++ received res svec) w'

/-- **Round trip.**  The messages received are the first ones sent, octet for octet, and the
    frames of all the others are under way.  A call receives at least one message, unless it
    would block or all messages have been received. -/
theorem round_trip {sent : List ValidMsg} {got : List (Option Message)} {w : Pipe}
    (h : Session sent got w) :
    got = (sent.take got.length).map (fun m => some m.1.message) ∧
    w.rest = frames.words ((sent.drop got.length).map (·.toFrame)) ∧
    ∀ slots nonblock res svec w', slots ≠ [] → Room slots (sent.drop got.length) →
      Returns pipe (recvmmsgTcp slots nonblock) w (res, svec) w' →
      0 < res ∨ (nonblock = true ∧ res = -1 ∧ w'.errno = .eagain) ∨
        got = sent.map fun m => some m.1.message := by
  suffices hinv : got = (sent.take got.length).map (fun m => some m.1.message) ∧
      w.rest = frames.words ((sent.drop got.length).map (·.toFrame)) by
    refine ⟨hinv.1, hinv.2, fun slots nonblock res svec w' hne hroom hr => ?_⟩
    obtain ⟨n, -, -, -, hprog⟩ := (post_recvmmsgTcp hinv.2 hroom).returns hr
    rcases hprog hne with h | h | h
    · exact .inl h
    · exact .inr (.inl h)
    · rw [List.drop_eq_nil_iff] at h
      rw [List.take_of_length_le h] at hinv
      exact .inr (.inr hinv.1)
  induction h with
  | start hw => simpa using hw
  | @send sent got w res w' msgv _ _ hr ih =>
    obtain ⟨hgot, hrest⟩ := ih
    have hle : got.length ≤ sent.length := by
      have := congrArg List.length hgot
      simp at this
      omega
    have hsend := (post_sendmmsgTcp msgv w).returns hr
    rw [List.take_append_of_le_length hle, List.drop_append_of_le_length hle, hsend, hrest]
    exact ⟨hgot, by simp⟩
  | @recv sent got w res svec w' slots nonblock _ _ hroom hr ih =>
    obtain ⟨hgot, hrest⟩ := ih
    obtain ⟨n, hn, hmsgs, hrest', -⟩ := (post_recvmmsgTcp hrest hroom).returns hr
    dsimp only at hmsgs
    have hlen : (received res svec).length = n := by
      simp only [hmsgs, List.length_map, List.length_take]
      exact Nat.min_eq_left hn
    rw [List.length_append, hlen, List.take_add, List.map_append, ← hgot, ← hmsgs, ← List.drop_drop]
    exact ⟨rfl, hrest'⟩

/-- A connection that hands out one octet at a time. -/
def dripping : Pipe → {β : Type} → Op β → Option (β × Pipe) := fun w _ o =>
  match o with
  | .getFd => some (3, w)
  | .sendmsg _ data => some (data.length, { w with rest := w.rest ++ data })
  | .recv _ n flags =>
    let k := if flags = .waitall then n else 1
    if 0 < n ∧ k ≤ w.rest.length then some (⟨k, w.rest.take k⟩, { w with rest := w.rest.drop k })
    else if flags = .dontwait then some (⟨-1, []⟩, { w with errno := .eagain })
    else none
  | .recvmsg _ n =>
    if n ≤ w.rest.length then some (⟨n, w.rest.take n⟩, { w with rest := w.rest.drop n }) else none
  | _ => none

theorem pipe_of_dripping (w : Pipe) {β : Type} (o : Op β) (b : β) (w' : Pipe)
    (h : dripping w o = some (b, w')) : pipe w o b w' := by
  cases o with
  | getFd =>
    simp only [dripping, Option.some.injEq, Prod.mk.injEq] at h
    exact h.2.symm
  | sendmsg fd data =>
    simp only [dripping, Option.some.injEq, Prod.mk.injEq] at h
    obtain ⟨rfl, rfl⟩ := h
    exact ⟨rfl, rfl⟩
  | recv fd n flags =>
    simp only [dripping] at h
    by_cases hk : 0 < n ∧ (if flags = .waitall then n else 1) ≤ w.rest.length
    · rw [if_pos hk, Option.some.injEq, Prod.mk.injEq] at h
      obtain ⟨rfl, rfl⟩ := h
      by_cases hf : flags = .waitall
      · simp only [hf, if_true] at hk ⊢
        simp [pipe, Pipe.Take, hk]
      · simp only [hf, if_false] at hk ⊢
        simp only [pipe, hf, if_false]
        refine .inl ⟨1, by decide, hk.1, by simp, by simp [hk], ?_⟩
        exact (List.take_append_drop 1 _).symm
    · rw [if_neg hk, Option.ite_none_right_eq_some, Option.some.injEq, Prod.mk.injEq] at h
      obtain ⟨rfl, rfl, rfl⟩ := h
      exact .inr (.inl ⟨rfl, rfl, rfl, rfl⟩)
  | recvmsg fd n =>
    simp only [dripping, Option.ite_none_right_eq_some, Option.some.injEq, Prod.mk.injEq] at h
    obtain ⟨hn, rfl, rfl⟩ := h
    simp [pipe, Pipe.Take, hn]
  | _ => simp [dripping] at h

/-- A message of two octets to an IPv4 address. -/
def shortMsg : ValidMsg :=
  ⟨{ addr := .ofList [1, 192, 0, 2, 7, 0, 53], buf := .ofList [104, 105], len := 2 }, by decide⟩

/-- A message without payload to a name. -/
def emptyMsg : ValidMsg :=
  ⟨{ addr := .ofList [3, 1, 97, 0, 53], buf := .undef, len := 0 }, by decide⟩

/-- A slot of 16 octets. -/
def smallSlot : Slot := { msg := { addr := .unset, buf := .undef, len := 16 }, mem := .undef }

/-- The two messages under way. -/
def twoFrames : Pipe :=
  ⟨[0, 2, 10, 1, 192, 0, 2, 7, 0, 53, 104, 105, 0, 0, 8, 3, 1, 97, 0, 53], .other⟩

theorem round_trip_dripping :
    ∃ got w, Session [shortMsg, emptyMsg] got w ∧ got.length = 2 ∧
      got = ([shortMsg, emptyMsg].take got.length).map fun m => some m.1.message := by
  obtain ⟨_, w, hsend, hw⟩ := exists_returns_of_exec pipe_of_dripping (w := ⟨[], .other⟩)
    (x := sendmmsgTcp ([shortMsg, emptyMsg].map (·.1))) (fun _ w => w = twoFrames) (by decide)
  obtain rfl := of_decide_eq_true hw
  obtain ⟨⟨res, svec⟩, w', hrecv, hlen⟩ := exists_returns_of_exec pipe_of_dripping
    (x := recvmmsgTcp [smallSlot, smallSlot, smallSlot] true) (w := twoFrames)
    (fun r _ => (received r.1 r.2).length = 2) (by decide)
  have hs : Session [shortMsg, emptyMsg] (received res svec) w' :=
    .recv [smallSlot, smallSlot, smallSlot] true
      (.send [shortMsg, emptyMsg] (.start rfl) (by simp) hsend) (by simp) (by decide) hrecv
  exact ⟨_, _, hs, of_decide_eq_true hlen, (round_trip hs).1⟩

end HevSocks5
