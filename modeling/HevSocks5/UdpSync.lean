/-
  Frame synchronisation of the receiving side of UDP-in-TCP.

  The peer sends any octets.  A plain receive call gets some of them or none; a
  call that waits for all it asks for may also be cut: the yielder aborts it,
  or the connection ends, after a part of them was taken.

  A cut in the middle of a frame is harmless only when `fwd_f` then returns -1,
  and so is a refused head.  `Clean` says when that is so.  In runs of clean
  calls the read position between calls is the end of a frame (`synchronised`).
-/
import HevSocks5.UdpFrame
import HevSocks5.UdpCalls

namespace HevSocks5

open Interact Sys HevSocks5UDP

/-- The connection as the reader sees it. -/
structure Conn where
  /-- octets that were read -/
  read : List Octet
  /-- octets still to come -/
  rest : List Octet
  errno : Errno
  /-- how many octets had been read when the call of `fwd_f` began -/
  start : Nat
deriving DecidableEq

namespace Conn

/-- `k` octets are taken. -/
def take (w : Conn) (k : Nat) (e : Errno) : Conn :=
  { w with read := w.read ++ w.rest.take k, rest := w.rest.drop k, errno := e }

/-- A call for `n` octets that waits for all of them, and may be cut. -/
def Waitall (w : Conn) (n : Nat) (r : Received) (w' : Conn) : Prop :=
  ∃ k e, k ≤ n ∧ k ≤ w.rest.length ∧ r.data = w.rest.take k ∧ w' = w.take k e ∧
    (r.res = n ∧ k = n ∨ r.res < 0 ∨ r.res = k)

/-- A plain call for `n` octets. -/
def Recv (w : Conn) (n : Nat) (r : Received) (w' : Conn) : Prop :=
  ∃ k e, k ≤ n ∧ k ≤ w.rest.length ∧ r.data = w.rest.take k ∧ w' = w.take k e ∧
    (r.res = k ∨ k = 0 ∧ r.res ≤ 0)

end Conn

/-- The system calls of the receiving side.  All that is not about the connection may answer
    anything, and leave anything in `errno`. -/
def conn : Env Op Conn := fun w _ o b w' =>
  match o with
  | .base => b.type = .udpInTcp ∧ w' = w
  | .getFd => w' = w
  | .errno => b = w.errno ∧ w' = w
  | .recv _ n flags => if flags = .waitall then w.Waitall n b w' else w.Recv n b w'
  | .recvmsg _ n => w.Waitall n b w'
  | _ => ∃ e, w' = { w with errno := e }

/-- `fwd_f` fails when its receive call returns `res`. -/
def Fails (res : Int) (w : Conn) : Prop := res ≤ 0 ∧ ¬ (res = -1 ∧ w.errno = .eagain)

/-- The head that was read last is refused by the slots of `fwd_f`. -/
def Conn.headRefused (w : Conn) : Bool :=
  match w.read.drop (w.read.length - 5) with
  | [a, b, c, _, _] =>
    c < 5 || (ntohs (a, b)).toUInt64 > UInt64.ofNat udpBufSize - UInt64.ofNat (c.toNat - 3)
  | _ => false

/-- **The answers that do no harm**: a head that was begun is completed, except in the first
    frame of a call when `fwd_f` fails of it; the rest of a frame comes, or `fwd_f` fails; and
    `EAGAIN` is not left behind with a head that is refused. -/
def Clean (w : Conn) {β : Type} (o : Op β) (b : β) (w' : Conn) : Prop :=
  match o with
  | .recv _ n flags =>
    if flags = .waitall ∧ b.res ≠ n then
      w.read.length + n = w.start + 5 ∧ Fails (5 - n + b.res) w'
    else b.res = n → w'.headRefused → w'.errno ≠ .eagain
  | .recvmsg _ n => b.res = n ∨ Fails b.res w'
  | _ => True

def cleanConn : Env Op Conn := fun w _ o b w' => conn w o b w' ∧ Clean w o b w'

/-- The slot holds the frame. -/
def Slot.Holds (s : Slot) (f : Frame) : Prop :=
  ∃ m, s.msg.addr = .addr m ∧ m.read f.addr.length = f.addr ∧
    s.msg.buf.read s.msg.len.toNat = f.data

theorem Slot.holds_receive (s : Slot) (f : Frame) : (s.receive f).Holds f := by
  refine ⟨_, rfl, ?_, Slot.receive_data⟩
  have h := Mem.read_write_zero s.mem (f.addr ++ f.data)
  rw [List.length_append, Mem.read_add] at h
  exact (List.append_inj h (by simp)).1

/-! ## Calls that take octets -/

/-- The octets `l` were taken. -/
structure Reads (w : Conn) (l : List Octet) (w' : Conn) : Prop where
  read : w'.read = w.read ++ l
  rest : w.rest = l ++ w'.rest
  start : w'.start = w.start

namespace Reads

variable {w w₁ w₂ : Conn} {l l' : List Octet}

theorem refl : Reads w [] w := ⟨by simp, by simp, rfl⟩

theorem trans (h : Reads w l w₁) (h' : Reads w₁ l' w₂) : Reads w (l ++ l') w₂ where
  read := by rw [h'.read, h.read, List.append_assoc]
  rest := by rw [h.rest, h'.rest, List.append_assoc]
  start := h'.start.trans h.start

theorem take (k : Nat) (e : Errno) : Reads w (w.rest.take k) (w.take k e) :=
  ⟨rfl, (List.take_append_drop k w.rest).symm, rfl⟩

theorem length (h : Reads w l w₁) : w₁.read.length = w.read.length + l.length := by
  rw [h.read, List.length_append]

/-- The octets read last. -/
theorem drop (h : Reads w l w₁) : w₁.read.drop (w₁.read.length - l.length) = l := by
  rw [h.length, Nat.add_sub_cancel, h.read, List.drop_left]

end Reads

namespace Conn

variable {w w' : Conn} {n : Nat} {r : Received}

theorem Waitall.reads (h : w.Waitall n r w') :
    Reads w r.data w' ∧ (r.res = n → r.data.length = n) := by
  obtain ⟨k, e, hk, hlen, hdata, rfl, hres⟩ := h
  refine ⟨hdata ▸ Reads.take k e, fun hn => ?_⟩
  rw [hdata, List.length_take]
  omega

theorem Recv.reads (h : w.Recv n r w') :
    Reads w r.data w' ∧
      (0 < r.res ∧ r.res ≤ n ∧ r.data.length = r.res ∨ r.res ≤ 0 ∧ r.data = []) := by
  obtain ⟨k, e, hk, hlen, hdata, rfl, hres⟩ := h
  refine ⟨hdata ▸ Reads.take k e, ?_⟩
  have hl : r.data.length = k := by
    rw [hdata, List.length_take]
    omega
  by_cases h0 : 0 < r.res
  · exact .inl ⟨h0, by omega, by omega⟩
  · exact .inr ⟨by omega, List.eq_nil_of_length_eq_zero (by omega)⟩

end Conn

/-- What a head that was not received has done: nothing was read, or `fwd_f` fails if the head
    is the first one of its call. -/
def HeadFails (w : Conn) (res : Int) (w' : Conn) : Prop :=
  res ≤ 0 ∧ Reads w [] w' ∨ w.read.length = w.start ∧ Fails res w'

theorem always_recvHead_clean {fd : Int} {nonblock : Bool} (w : Conn) :
    Post cleanConn (recvHead fd nonblock) w fun r w' =>
      if r.1 = 5 then
        r.2.length = 5 ∧ Reads w r.2 w' ∧ (w'.headRefused → w'.errno ≠ .eagain)
      else HeadFails w r.1 w' := by
  have hflags : dontwaitIf nonblock ≠ .waitall := by cases nonblock <;> decide
  simp only [recvHead, always_bind, always_op, always_ite, always_pure]
  rintro r w₁ ⟨hr, hclean⟩
  simp only [conn, if_neg hflags] at hr
  simp only [Clean, hflags, false_and, if_false] at hclean
  obtain ⟨hreads, ⟨h0, h5, hlen⟩ | ⟨h0, hnil⟩⟩ := hr.reads
  · refine ⟨trivial, ?_⟩
    by_cases hlt : r.res < 5
    · rw [if_pos ⟨h0, hlt⟩]
      rintro r' w₂ ⟨hr', hclean'⟩
      simp only [conn, if_true] at hr'
      simp only [Clean, true_and] at hclean'
      obtain ⟨hreads', hlen'⟩ := hr'.reads
      refine ⟨trivial, ?_⟩
      have hn : ((5 - r.res).toNat : Int) = 5 - r.res := by omega
      by_cases hall : r'.res = ((5 - r.res).toNat : Int)
      · rw [if_neg (fun h => h hall)] at hclean'
        rw [if_pos (by omega)]
        refine ⟨?_, hreads.trans hreads', hclean' hall⟩
        rw [List.length_append, hlen' hall]
        omega
      · rw [if_pos hall] at hclean'
        obtain ⟨hstart, hfails⟩ := hclean'
        rw [if_neg (by omega)]
        have hl := hreads.length
        have hs := hreads.start
        rw [show (5 : Int) - (5 - r.res).toNat + r'.res = r.res + r'.res by omega] at hfails
        exact .inr ⟨by omega, hfails⟩
    · rw [if_neg (fun h => hlt h.2), if_pos (by omega)]
      exact ⟨by omega, hreads, hclean (by omega)⟩
  · refine ⟨trivial, ?_⟩
    rw [if_neg (by omega), if_neg (by omega)]
    exact .inl ⟨h0, hnil ▸ hreads⟩

/-- The frame that a head and the octets behind it make up. -/
theorem exists_frame {a b c d e : Octet} {data : List Octet} (hc : ¬ c < 5)
    (hlen : data.length = c.toNat - 3 - 2 + (ntohs (a, b)).toNat) :
    ∃ f : Frame, f.octets = [a, b, c, d, e] ++ data ∧ f.hdrlen = c ∧ f.datlen = ntohs (a, b) ∧
      f.addr ++ f.data = d :: e :: data := by
  have hc' : 5 ≤ c.toNat := by simpa [UInt8.lt_iff_toNat_lt] using hc
  have hlt := (ntohs (a, b)).toNat_lt
  let f : Frame :=
    { hdrlen := c, addr := d :: e :: data.take (c.toNat - 3 - 2)
      data := data.drop (c.toNat - 3 - 2)
      length_addr := by
        simp
        omega
      length_data := by
        simp
        omega }
  have hdat : f.datlen = ntohs (a, b) := by
    rw [← UInt16.toNat_inj, Frame.toNat_datlen]
    simp [f]
    omega
  have hadd : f.addr ++ f.data = d :: e :: data := by simp [f]
  exact ⟨f, by simp [Frame.octets, hdat, hadd, f], rfl, hdat, hadd⟩

/-- **One slot** receives a whole frame, or nothing is read, or `fwd_f` is going to fail. -/
theorem always_recvSlot_clean {fd : Int} {nonblock : Bool} {s : Slot}
    (hs : s.msg.len = UInt64.ofNat udpBufSize) (w : Conn) :
    Post cleanConn (recvSlot fd nonblock s) w fun t w' =>
      match t with
      | .head res => HeadFails w res w'
      | .refused => Fails (-1) w'
      | .body res _ => Fails res w'
      | .message s' => ∃ f : Frame, s'.Holds f ∧ Reads w f.octets w' := by
  unfold recvSlot
  refine (always_recvHead_clean w).bind ?_
  rintro ⟨res, udp⟩ w₁ hhead
  dsimp only at hhead ⊢
  by_cases h5 : res = 5
  swap
  · rw [if_neg h5] at hhead
    rw [if_pos h5]
    exact hhead
  rw [if_pos h5] at hhead
  rw [if_neg (fun h => h h5)]
  obtain ⟨hlen, hreads, hrefused⟩ := hhead
  obtain ⟨a, b, c, d, e, rfl⟩ := exists_five hlen
  have hlast : w₁.read.drop (w₁.read.length - 5) = [a, b, c, d, e] := hreads.drop
  simp only [Conn.headRefused, hlast, Bool.or_eq_true, decide_eq_true_eq] at hrefused
  simp only [List.getD_cons_zero, List.getD_cons_succ, hs]
  have hfails (h : c < 5 ∨ (ntohs (a, b)).toUInt64 >
      UInt64.ofNat udpBufSize - UInt64.ofNat (c.toNat - 3)) : Fails (-1) w₁ :=
    ⟨by omega, fun he => hrefused h he.2⟩
  by_cases hc : c < 5
  · rw [if_pos hc]
    exact hfails (.inl hc)
  rw [if_neg hc]
  by_cases hd : (ntohs (a, b)).toUInt64 > UInt64.ofNat udpBufSize - UInt64.ofNat (c.toNat - 3)
  · rw [if_pos hd]
    exact hfails (.inr hd)
  rw [if_neg hd]
  simp only [always_bind, always_op]
  rintro r w₂ ⟨hr, hclean⟩
  refine ⟨trivial, ?_⟩
  simp only [conn] at hr
  simp only [Clean] at hclean
  obtain ⟨hreads', hlen'⟩ := hr.reads
  have hc' : 5 ≤ c.toNat := by simpa [UInt8.lt_iff_toNat_lt] using hc
  by_cases hall : r.res = (c.toNat - 3 - 2 + (ntohs (a, b)).toNat : Nat)
  · rw [if_neg (by omega)]
    obtain ⟨f, hoct, hhdr, hdat, hadd⟩ := exists_frame (d := d) (e := e) hc (hlen' hall)
    refine ⟨f, ?_, hoct ▸ hreads.trans hreads'⟩
    rw [Slot.write_head, ← hadd, ← hhdr, ← hdat, ← f.length_addr]
    exact s.holds_receive f
  · rw [if_pos (by omega)]
    exact hclean.resolve_left hall

/-! ## One call -/

/-- What a receive call of `fwd_f` has done: it is going to fail, or whole frames were read. -/
def Whole (w : Conn) (done : List Slot) (res : Int) (svec : List Slot) (w' : Conn) : Prop :=
  Fails res w' ∨ ∃ fs got tail, Reads w (frames.words fs) w' ∧ List.Forall₂ Slot.Holds got fs ∧
    svec = done ++ got ++ tail ∧ res.toNat = done.length + got.length

theorem always_recvmmsgTcpLoop_clean (fd : Int) (nonblock : Bool) {slots done : List Slot}
    (hs : ∀ s ∈ slots, s.msg.len = UInt64.ofNat udpBufSize) {w : Conn}
    (hstart : w.start ≤ w.read.length) (hw : w.read.length = w.start → done = []) :
    Post cleanConn (recvmmsgTcpLoop fd nonblock slots done) w fun r w' =>
      Whole w done r.1 r.2 w' := by
  induction slots generalizing done w with
  | nil => exact .inr ⟨[], [], [], .refl, .nil, by simp, by simp⟩
  | cons s slots ih =>
    obtain ⟨hs, hslots⟩ := List.forall_mem_cons.1 hs
    unfold recvmmsgTcpLoop
    refine (always_recvSlot_clean hs w).bind ?_
    rintro (res | _ | ⟨res, s'⟩ | s') w₁ ht
    · rcases ht with ⟨h0, hreads⟩ | ⟨heq, hfails⟩
      · refine .inr ⟨[], [], s :: slots, hreads, .nil, by simp, ?_⟩
        dsimp only
        split <;> simp
        omega
      · refine .inl ?_
        rw [hw heq]
        exact hfails
    · exact .inl ht
    · exact .inl ht
    · obtain ⟨f, hholds, hreads⟩ := ht
      have hlen := hreads.length
      rw [f.length_octets] at hlen
      rw [← hreads.start] at hstart
      refine (ih hslots (by omega) fun h => absurd h (by omega)).mono ?_
      · rintro ⟨res, svec⟩ w₂ (hfails | ⟨fs, got, tail, hreads', hall, hsvec, hres⟩)
        · exact .inl hfails
        · refine .inr ⟨f :: fs, s' :: got, tail, ?_, .cons hholds hall, ?_, ?_⟩
          · rw [PrefixCode.words_cons]
            exact hreads.trans hreads'
          · simpa using hsvec
          · simp at hres ⊢
            omega

theorem always_recvmmsg_clean {bufs : List Mem} {w : Conn} (hw : w.start = w.read.length) :
    Post cleanConn (recvmmsg (bufs.map fwdSlot) true) w fun r w' => Whole w [] r.1 r.2 w' := by
  simp only [recvmmsg, always_bind, always_op]
  rintro self w₁ ⟨⟨htype, rfl⟩, -⟩
  refine ⟨trivial, ?_⟩
  simp only [htype, recvmmsgTcp, always_bind, always_op]
  rintro fd w₂ ⟨rfl, -⟩
  refine ⟨trivial, always_recvmmsgTcpLoop_clean _ _ ?_ (Nat.le_of_eq hw) fun _ => rfl⟩
  intro s hs
  obtain ⟨mem, -, rfl⟩ := List.mem_map.1 hs
  rfl

/-- The sending half of `fwd_f` reads nothing. -/
theorem always_fwdRest_clean {fd res : Int} {svec : List Slot} {bind : Bool} (w : Conn) :
    Post cleanConn (fwdRest fd res svec bind) w fun _ w' => Reads w [] w' := by
  refine (only_fwdRest _ _ _ res).always ?_ .refl
  rintro w₁ w₂ β o b ho hw ⟨he, -⟩
  refine ⟨trivial, hw.trans ?_⟩
  cases o <;> first | exact ho.elim | skip
  case base | errno =>
    obtain ⟨-, rfl⟩ := he
    exact .refl
  all_goals
    obtain ⟨e, rfl⟩ := he
    exact ⟨by simp, by simp, rfl⟩

theorem Fails.always_fwdRest {fd res : Int} {svec : List Slot} {bind : Bool} {w : Conn}
    (h : Fails res w) : Post cleanConn (fwdRest fd res svec bind) w fun r _ => r.1 = -1 := by
  unfold fwdRest fwdResult
  rw [if_neg (show ¬ res > 0 from Int.not_lt.2 h.1), if_pos h.1]
  by_cases hres : res = -1
  · simp only [if_pos hres, always_bind, always_op, always_ite, always_pure]
    rintro e w' ⟨⟨rfl, rfl⟩, -⟩
    rw [if_neg fun he => h.2 ⟨hres, he⟩]
    simp
  · rw [if_neg hres]
    rfl

/-! ## Runs -/

/-- **Calls of `fwd_f` from the start of a connection**, none of which has returned -1, and
    the entries that they have received.  Between two calls anything may be left in `errno`. -/
inductive Calls (E : Env Op Conn) : Conn → List Slot → Prop
  | start {w : Conn} (h : w.read = []) : Calls E w []
  | call {w w₁ w₂ : Conn} {got svec : List Slot} {bufs : List Mem} {e : Errno} {fd res ret : Int}
      {bind bind' : Bool} : Calls E w got →
      Returns E (recvmmsg (bufs.map fwdSlot) true) { w with errno := e, start := w.read.length }
        (res, svec) w₁ →
      Returns E (fwdRest fd res svec bind) w₁ (ret, bind') w₂ → ret ≠ -1 →
      Calls E w₂ (got ++ svec.take res.toNat)

/-- Every call of `fwd_f` is such a call. -/
theorem Calls.fwdF {E : Env Op Conn} {w w₂ : Conn} {got : List Slot} {bufs bufs' : List Mem}
    {e : Errno} {fd ret : Int} {bind bind' : Bool} (h : Calls E w got)
    (hrun : Returns E (fwdF fd bufs bind) { w with errno := e, start := w.read.length }
      (ret, bind', bufs') w₂) (hret : ret ≠ -1) : ∃ got', Calls E w₂ (got ++ got') := by
  simp only [HevSocks5UDP.fwdF, returns_bind, returns_pure, Prod.mk.injEq] at hrun
  obtain ⟨⟨res, svec⟩, w₁, hrecv, ⟨ret, bind'⟩, w₂, hrest, ⟨rfl, rfl, rfl⟩, rfl⟩ := hrun
  exact ⟨_, h.call hrecv hrest hret⟩

/-- The octets read are whole frames, the entries hold them, and they are the first ones of
    the stream. -/
def Synchronised (w : Conn) (got : List Slot) : Prop :=
  ∃ fs, w.read = frames.words fs ∧ List.Forall₂ Slot.Holds got fs ∧
    ∀ gs, frames.Decomposes (w.read ++ w.rest) gs → fs <+: gs

theorem Calls.exists_frames {w : Conn} {got : List Slot} (h : Calls cleanConn w got) :
    ∃ fs, w.read = frames.words fs ∧ List.Forall₂ Slot.Holds got fs := by
  induction h with
  | start h => exact ⟨[], h, .nil⟩
  | call h hrecv hrest hret ih =>
    obtain ⟨fs, hread, hall⟩ := ih
    have hkeep := (always_fwdRest_clean _).returns hrest
    rcases (always_recvmmsg_clean (by rfl)).returns hrecv with
      hfails | ⟨gs, got', tail, hreads, hall', rfl, hres⟩
    · exact absurd (hfails.always_fwdRest.returns hrest) hret
    · refine ⟨fs ++ gs, ?_, ?_⟩
      · rw [(hreads.trans hkeep).read, hread, List.append_nil, PrefixCode.words_append]
      · rw [hres]
        simpa using List.rel_append hall hall'

/-- **Calls without harm stay synchronised.** -/
theorem synchronised {w : Conn} {got : List Slot} (h : Calls cleanConn w got) :
    Synchronised w got := by
  obtain ⟨fs, hread, hall⟩ := h.exists_frames
  exact ⟨fs, hread, hall, fun gs hgs => hgs.prefix_of_words (hread ▸ List.prefix_append _ _)⟩

/-! ## Two runs -/

/-- One octet for 192.0.2.7, port 53. -/
def octetFrame : Frame := ⟨10, [1, 192, 0, 2, 7, 0, 53], [104], rfl, by decide⟩

/-- The stream of two frames, of which nothing was read. -/
def freshConn : Conn := ⟨[], frames.words [octetFrame, octetFrame], .other, 0⟩

/-- A run in which the first `arrived` octets have arrived, and the yielder aborts a call that
    waits for more, or such a call does not happen. -/
def feed (arrived : Nat) (aborts : Bool) : Conn → {β : Type} → Op β → Option (β × Conn) :=
  fun w _ o =>
  match o with
  | .base => some (⟨3, -1, .udpInTcp, false, .unspec⟩, w)
  | .getFd => some (3, w)
  | .errno => some (w.errno, w)
  | .recv _ n flags =>
    if flags = .waitall then
      if aborts then some (⟨-2, []⟩, w.take 0 .eagain) else none
    else
      let k := min n (min w.rest.length (arrived - w.read.length))
      if 0 < k then some (⟨k, w.rest.take k⟩, w.take k .other)
      else some (⟨-1, []⟩, w.take 0 .eagain)
  | .recvmsg _ n =>
    if n ≤ w.rest.length then some (⟨n, w.rest.take n⟩, w.take n .other) else none
  | .binder _ _ => some (0, w)
  | .sendmmsg _ msgs => some (msgs.length, w)
  | _ => none

theorem conn_of_feed {arrived : Nat} {aborts : Bool} (w : Conn) {β : Type} (o : Op β) (b : β)
    (w' : Conn) (h : feed arrived aborts w o = some (b, w')) :
    conn w o b w' ∧ (aborts = false → Clean w o b w') := by
  cases o <;> simp only [feed, Option.some.injEq, Prod.mk.injEq, reduceCtorEq] at h
  case base | getFd | errno =>
    obtain ⟨rfl, rfl⟩ := h
    simp [conn, Clean]
  case binder | sendmmsg =>
    obtain ⟨rfl, rfl⟩ := h
    exact ⟨⟨w.errno, rfl⟩, fun _ => trivial⟩
  case recvmsg fd n =>
    rw [Option.ite_none_right_eq_some, Option.some.injEq, Prod.mk.injEq] at h
    obtain ⟨hn, rfl, rfl⟩ := h
    exact ⟨⟨n, .other, Nat.le_refl n, hn, rfl, rfl, .inl ⟨rfl, rfl⟩⟩, fun _ => .inl rfl⟩
  case recv fd n flags =>
    by_cases hflags : flags = .waitall
    · rw [if_pos hflags, Option.ite_none_right_eq_some, Option.some.injEq, Prod.mk.injEq] at h
      obtain ⟨ha, rfl, rfl⟩ := h
      simp only [conn, if_pos hflags]
      refine ⟨⟨0, .eagain, Nat.zero_le _, Nat.zero_le _, rfl, rfl, .inr (.inl (by decide))⟩, ?_⟩
      exact fun hn => absurd ha (by simp [hn])
    rw [if_neg hflags] at h
    simp only [conn, Clean, hflags, if_false, false_and]
    split at h
    · obtain ⟨rfl, rfl⟩ := Prod.mk.inj (Option.some.inj h)
      refine ⟨⟨_, .other, Nat.min_le_left _ _, ?_, rfl, rfl, .inl rfl⟩, fun _ _ _ => nofun⟩
      exact Nat.le_trans (Nat.min_le_right _ _) (Nat.min_le_left _ _)
    · obtain ⟨rfl, rfl⟩ := Prod.mk.inj (Option.some.inj h)
      refine ⟨⟨0, .eagain, Nat.zero_le _, Nat.zero_le _, rfl, rfl, .inr ⟨rfl, by decide⟩⟩, ?_⟩
      exact fun _ hn => absurd hn (by simp)

/-- One call with two slots: what the receive call returns, the number of entries, and what
    `fwd_f` returns. -/
def oneCall : SysM (Int × Nat × Int) := do
  let (res, svec) ← recvmmsg ([.undef, .undef].map fwdSlot) true
  let (ret, _) ← fwdRest 4 res svec false
  return (res, svec.length, ret)

theorem Calls.one {E : Env Op Conn} {n : Nat} {w : Conn}
    (h : Returns E oneCall freshConn (n, 2, 1) w) (hn : n ≤ 2) :
    ∃ got, Calls E w got ∧ got.length = n := by
  simp only [oneCall, returns_bind, returns_pure, Prod.mk.injEq] at h
  obtain ⟨⟨res, svec⟩, w₁, hrecv, ⟨ret, bind⟩, w₂, hrest, ⟨hres, hlen, hret⟩, rfl⟩ := h
  subst hres hret
  have hcall := Calls.call (e := .other) (.start (w := freshConn) rfl) hrecv hrest (by decide)
  exact ⟨_, hcall, by simp [← hlen, hn]⟩

theorem synchronised_two :
    ∃ w got, Calls cleanConn w got ∧ Synchronised w got ∧ got.length = 2 := by
  have hfeed : ∀ w {β : Type} (o : Op β) b w', feed 22 false w o = some (b, w') →
      cleanConn w o b w' := fun w _ o b w' h =>
    ⟨(conn_of_feed w o b w' h).1, (conn_of_feed w o b w' h).2 rfl⟩
  obtain ⟨r, w, hrun, hr⟩ := exists_returns_of_exec hfeed (x := oneCall) (w := freshConn)
    (fun r _ => r = (((2 : Nat) : Int), 2, 1)) (by decide)
  obtain rfl := of_decide_eq_true hr
  obtain ⟨got, h, hgot⟩ := Calls.one hrun (Nat.le_refl 2)
  exact ⟨w, got, h, synchronised h, hgot⟩

/-- The second frame was begun when the time was up, and the call has returned 1. -/
theorem not_synchronised : ¬ ∀ w got, Calls conn w got → Synchronised w got := by
  intro hall
  obtain ⟨r, w, hrun, hr⟩ := exists_returns_of_exec (f := feed 12 true)
    (fun w _ o b w' h => (conn_of_feed w o b w' h).1) (x := oneCall) (w := freshConn)
    (fun r w => r = (((1 : Nat) : Int), 2, 1) ∧ w.read = octetFrame.octets ++ [0]) (by decide)
  obtain ⟨rfl, hread⟩ := of_decide_eq_true hr
  obtain ⟨got, h, -⟩ := Calls.one hrun (by decide)
  obtain ⟨fs, hfs, -⟩ := hall w got h
  rw [hread] at hfs
  cases fs with
  | nil => simp [Frame.octets] at hfs
  | cons f fs =>
    rw [PrefixCode.words_cons] at hfs
    obtain rfl : octetFrame = f :=
      PrefixCode.eq_of_prefix_of_prefix (C := frames) (s := octetFrame.octets ++ [0])
        (List.prefix_append _ _) (hfs ▸ List.prefix_append _ _)
    have hfs : [0] = frames.words fs := List.append_cancel_left hfs
    cases fs with
    | nil => simp at hfs
    | cons g fs =>
      have hlen := congrArg List.length hfs
      have hg : (frames.word g).length = _ := g.length_octets
      rw [PrefixCode.words_cons, List.length_append, hg, List.length_singleton] at hlen
      omega

end HevSocks5
