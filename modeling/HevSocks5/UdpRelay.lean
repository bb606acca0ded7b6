/-
  What one call of `fwd_f` relays.

  In the environment `relay R` a batch of messages has arrived, a resolver is a
  fixed function, and no local call fails.  Octets of the stream arrive in
  pieces of any size, and octets that have not arrived yet are only seen by a
  call that waits for them.

  `Frame.forward` and `Datagram.forward` say what the relay makes of a message:
  a destination and a payload, or nothing when it refuses it.  A call relays
  the whole batch when it refuses none of the messages, and nothing otherwise
  (`post_fwdF`).
-/
import HevSocks5.UdpStream
import HevSocks5.Resolver

namespace HevSocks5

open Interact Sys HevSocks5UDP

structure Relay where
  self : HevSocks5Obj
  errno : Errno
  /-- octets of the stream that have arrived -/
  ready : List Octet
  /-- octets of the stream that are still to come -/
  later : List Octet
  /-- datagrams that have arrived -/
  queue : List Datagram
  /-- octets sent on the stream -/
  sent : List Octet
  /-- datagrams sent -/
  handed : List (Option SockAddrIn6 × List Octet)

namespace Relay

/-- `n` octets of the stream are received. -/
def Take (w : Relay) (n : Nat) (r : Received) (w' : Relay) : Prop :=
  n ≤ (w.ready ++ w.later).length ∧ r.res = n ∧ r.data = (w.ready ++ w.later).take n ∧
    ∃ e, w' = { w with
      errno := e, ready := w.ready.drop n, later := w.later.drop (n - w.ready.length) }

end Relay

/-- The system calls while a batch is relayed. -/
def relay (R : Resolver) : Env Op Relay := fun w _ o b w' =>
  match o with
  | .base => b = w.self ∧ w' = w
  | .setBase self => w' = { w with self }
  | .errno => b = w.errno ∧ w' = w
  | .recv _ n flags =>
    if flags = .waitall then w.Take n b w'
    else (w.ready = [] ∧ b.res = -1 ∧ w' = { w with errno := .eagain }) ∨
      ∃ k, 0 < k ∧ k ≤ n ∧ k ≤ w.ready.length ∧ w.Take k b w'
  | .recvmsg _ n => w.Take n b w'
  | .sendmsg _ data =>
    b = (data.length : Int) ∧ ∃ e, w' = { w with errno := e, sent := w.sent ++ data }
  | .recvmmsg _ lens _ =>
    if w.queue = [] then b.1 = -1 ∧ w' = { w with errno := .eagain }
    else b.2 = List.zipWith (fun d n => { d with data := d.data.take n }) w.queue lens ∧
      b.1 = b.2.length ∧ ∃ e, w' = { w with errno := e, queue := w.queue.drop lens.length }
  | .sendmmsg _ msgs =>
    b = (msgs.length : Int) ∧ ∃ e, w' = { w with errno := e, handed := w.handed ++ msgs }
  | .connect _ _ => 0 ≤ b ∧ ∃ e, w' = { w with errno := e }
  | .binder _ _ => 0 ≤ b ∧ ∃ e, w' = { w with errno := e }
  | .inetPton4 name => b = R.pton4 name ∧ ∃ e, w' = { w with errno := e }
  | .inetPton6 name => b = R.pton6 name ∧ ∃ e, w' = { w with errno := e }
  | .getaddrinfo name family => b = R.lookup name family ∧ ∃ e, w' = { w with errno := e }
  | _ => w' = w

variable {R : Resolver}

/-- What calls leave as it is. -/
structure Relay.Same (w w' : Relay) : Prop where
  self : w'.self = w.self
  queue : w'.queue = w.queue
  sent : w'.sent = w.sent
  handed : w'.handed = w.handed

theorem delivers_relay : Delivers (relay R) Relay.ready Relay.Same
    (fun _ w res w' => w.ready = [] ∧ res = -1 ∧ w'.Same w) where
  refl := ⟨rfl, rfl, rfl, rfl⟩
  trans h₁ h₂ := ⟨h₂.self.trans h₁.self, h₂.queue.trans h₁.queue, h₂.sent.trans h₁.sent,
    h₂.handed.trans h₁.handed⟩
  recv := by
    intro w fd nonblock w' r h
    have hf : dontwaitIf nonblock ≠ .waitall := by cases nonblock <;> decide
    simp only [relay, if_neg hf] at h
    rcases h with ⟨hnil, hres, rfl⟩ | ⟨k, h₀, h₅, hk, -, hres, hdata, e, rfl⟩
    · exact .inr ⟨by omega, rfl, hnil, hres, rfl, rfl, rfl, rfl⟩
    · rw [List.take_append_of_le_length hk] at hdata
      refine .inl ⟨by omega, by omega, ?_, ?_, ⟨rfl, rfl, rfl, rfl⟩⟩
      · simp [hdata, hres, hk]
      · simp [hdata]
  waitall := by
    intro w fd n w' r h
    simp only [relay, if_true] at h
    obtain ⟨hn, hres, hdata, e, rfl⟩ := h
    refine ⟨hres, by rw [hdata, List.length_take, Nat.min_eq_left hn], ⟨rfl, rfl, rfl, rfl⟩, ?_⟩
    rcases Nat.lt_or_ge w.ready.length n with hlt | hge
    · refine .inr ⟨hlt, ?_⟩
      rw [hdata, List.take_append, List.take_of_length_le (Nat.le_of_lt hlt)]
      exact List.prefix_append _ _
    · left
      simp [hdata, List.take_append_of_le_length hge]
  recvmsg := by
    intro w fd n w' r h
    obtain ⟨hn, hres, hdata, e, rfl⟩ := h
    refine ⟨hres, ?_, ⟨rfl, rfl, rfl, rfl⟩, fun hge => ?_⟩
    · rw [hdata, List.length_take, Nat.min_eq_left hn]
    simp [hdata, List.take_append_of_le_length hge]

/-! ## Destinations -/

theorem post_hevSocks5AddrIntoSockaddr6 (addr : Mem) (saddr : SockAddrIn6)
    (family : HevSocks5AddrFamily) (w : Relay) :
    Post (relay R) (hevSocks5AddrIntoSockaddr6 addr saddr family) w fun r w' =>
      w.Same w' ∧ (if r.1 < 0 then none else some r.2.1) = R.destination family addr := by
  have hserves : R.Serves (relay R) w.Same := by
    intro w₁ w₂ β o b ho hw he
    cases o
    case inetPton4 | inetPton6 | getaddrinfo =>
      obtain ⟨rfl, e, rfl⟩ := he
      exact ⟨rfl, hw.self, hw.queue, hw.sent, hw.handed⟩
    all_goals exact ho.elim
  exact hserves.post_addrIntoSockaddr6 addr saddr family ⟨rfl, rfl, rfl, rfl⟩

/-! ## Forwarding -/

/-- All results of a partial function, or nothing. -/
theorem mapM_eq_ite {α β : Type} (f : α → Option β) (l : List α) :
    l.mapM f = if ∀ a ∈ l, (f a).isSome then some (l.filterMap f) else none := by
  induction l with
  | nil => rfl
  | cons a l ih =>
    rw [List.mapM_cons, ih]
    cases ha : f a with
    | none => simp [ha]
    | some b =>
      by_cases hl : ∀ a ∈ l, (f a).isSome
      · simp [ha, if_pos hl]
      · rw [if_neg hl, if_neg fun h => hl fun a h' => h a (List.mem_cons_of_mem _ h')]
        rfl

/-- The elements up to the first one without a result. -/
def examined {α β : Type} (f : α → Option β) : List α → List α
  | [] => []
  | a :: l => a :: if (f a).isSome then examined f l else []

section
variable {α β γ : Type} {f : α → Option β} {l l' : List α}

theorem mem_of_mem_examined {a : α} (h : a ∈ examined f l) : a ∈ l := by
  induction l with
  | nil => exact h
  | cons b l ih =>
    rw [examined, List.mem_cons] at h
    rcases h with rfl | h
    · exact List.mem_cons_self
    · split at h
      · exact List.mem_cons_of_mem _ (ih h)
      · cases h

theorem examined_map (g : γ → α) (l : List γ) :
    examined f (l.map g) = (examined (fun c => f (g c)) l).map g := by
  induction l with
  | nil => rfl
  | cons c l ih =>
    simp only [List.map_cons, examined, ih]
    split <;> rfl

theorem examined_append_of_some (h : ∀ a ∈ l, (f a).isSome) :
    examined f (l ++ l') = l ++ examined f l' := by
  induction l with
  | nil => rfl
  | cons a l ih =>
    obtain ⟨ha, hl⟩ := List.forall_mem_cons.1 h
    rw [List.cons_append, examined, if_pos ha, ih hl, List.cons_append]

theorem mem_examined_append {a : α} (h : a ∈ examined f l) : a ∈ examined f (l ++ l') := by
  induction l with
  | nil => cases h
  | cons b l ih =>
    rw [examined, List.mem_cons] at h
    rw [List.cons_append, examined, List.mem_cons]
    rcases h with rfl | h
    · exact .inl rfl
    · split at h
      · rename_i hb
        rw [if_pos hb]
        exact .inr (ih h)
      · cases h

end

theorem length_of_mapM_eq_some {α β : Type} {f : α → Option β} {l : List α} {l' : List β}
    (h : l.mapM f = some l') : l'.length = l.length := by
  induction l generalizing l' with
  | nil => simp_all
  | cons a l ih =>
    rw [List.mapM_cons] at h
    obtain ⟨b, -, h⟩ := Option.bind_eq_some_iff.1 h
    obtain ⟨bs, hbs, h⟩ := Option.bind_eq_some_iff.1 h
    obtain rfl := Option.some.inj h
    simp [ih hbs]

/-- What `fwd_f` makes of an entry: destination and payload, or nothing. -/
def HevSocks5UDPMsg.forward (R : Resolver) (family : HevSocks5AddrFamily) (m : HevSocks5UDPMsg) :
    Option (SockAddrIn6 × List Octet) :=
  match m.addr with
  | .addr a => if m.len = 0 then none else (R.destination family a).map (·, m.buf.read m.len.toNat)
  | _ => none

def HevSocks5UDPMsg.IsSet (m : HevSocks5UDPMsg) : Prop := m.addr ≠ .unset

theorem post_resolveAll {ms : List HevSocks5UDPMsg} (h : ∀ m ∈ ms, m.IsSet) (w : Relay) :
    Post (relay R) (resolveAll (ms.map some)) w fun r w' =>
      w.Same w' ∧ r = ms.mapM (·.forward R w.self.addrFamily) := by
  induction ms generalizing w with
  | nil => exact ⟨⟨rfl, rfl, rfl, rfl⟩, rfl⟩
  | cons m ms ih =>
    have ih := ih fun m hm => h m (List.mem_cons_of_mem _ hm)
    have hrefl : w.Same w := ⟨rfl, rfl, rfl, rfl⟩
    obtain ⟨addr, buf, len⟩ := m
    cases addr with
    | unset => exact absurd rfl (h _ List.mem_cons_self)
    | null => simp [resolveAll, fields, HevSocks5UDPMsg.forward, hrefl]
    | addr a =>
      have hfwd : HevSocks5UDPMsg.forward R w.self.addrFamily ⟨.addr a, buf, len⟩ =
          if len = 0 then none
          else (R.destination w.self.addrFamily a).map (·, buf.read len.toNat) := rfl
      simp only [List.map_cons, resolveAll, fields, List.mapM_cons, hfwd]
      by_cases hlen : len = 0
      · simp [hlen, hrefl]
      simp only [pure_bind, if_neg hlen, always_bind, always_op]
      rintro _ w₁ ⟨rfl, rfl⟩
      refine ⟨trivial, (post_hevSocks5AddrIntoSockaddr6 a .zero _ w₁).mono ?_⟩
      rintro ⟨ret, saddr, fam⟩ w₂ ⟨hsame, hdest⟩
      dsimp only at hdest ⊢
      rw [← hdest]
      by_cases hret : ret < 0
      · simp [hret, hsame]
      simp only [if_neg hret, always_bind]
      refine (ih w₂).mono ?_
      rintro r w₃ ⟨hsame', rfl⟩
      have hs := delivers_relay (R := R) |>.trans hsame hsame'
      rw [hsame.self]
      cases ms.mapM (·.forward R w₁.self.addrFamily) with
      | none => simpa using hs
      | some dvec => simpa using hs

/-- What a call has done that was to relay `out`: all of it, or nothing. -/
def Relayed (out : Option (List (SockAddrIn6 × List Octet))) (w : Relay) (ret : Int) (w' : Relay) :
    Prop :=
  match out with
  | some out => ret = 1 ∧ w'.handed = w.handed ++ out.map fun d => (some d.1, d.2)
  | none => ret ≤ 0 ∧ w'.handed = w.handed

theorem post_fwdResult (res : Int) (w : Relay) :
    Post (relay R) (fwdResult res) w fun ret w' =>
      w' = w ∧ (if 0 < res then ret = 1 else ret ≤ 0) := by
  unfold fwdResult
  by_cases hres : res ≤ 0
  · have hpos : ¬ 0 < res := by omega
    simp only [if_pos hres, if_neg hpos]
    by_cases hm : res = -1
    · simp only [if_pos hm, always_bind, always_op, always_ite, always_pure]
      rintro e w' ⟨rfl, rfl⟩
      refine ⟨trivial, ?_⟩
      split <;> simp
    · simp [if_neg hm]
  · have hpos : 0 < res := by omega
    simp [if_neg hres, hpos]

theorem post_bindFirst (fd : Int) (dvec : List (SockAddrIn6 × List Octet)) (bind : Bool)
    (w : Relay) :
    Post (relay R) (bindFirst fd dvec bind) w fun bound w' => bound = true ∧ w.Same w' := by
  unfold bindFirst
  by_cases hb : bind
  · simp only [if_pos hb, always_pure]
    exact ⟨trivial, delivers_relay (R := R).refl⟩
  · simp only [if_neg hb, always_bind, always_op, always_pure]
    rintro ret w' ⟨hret, e, rfl⟩
    exact ⟨trivial, by simpa using hret, rfl, rfl, rfl, rfl⟩

theorem post_forward {fd : Int} {res : Nat} {svec : List Slot} {bind : Bool}
    {ms : List HevSocks5UDPMsg} (hent : entries svec res = ms.map some) (hset : ∀ m ∈ ms, m.IsSet)
    (hne : ms ≠ []) (w : Relay) :
    Post (relay R) (HevSocks5UDP.forward fd res svec bind) w fun r w' =>
      w'.self = w.self ∧ Relayed (ms.mapM (·.forward R w.self.addrFamily)) w r.1 w' := by
  unfold HevSocks5UDP.forward
  rw [hent]
  refine (post_resolveAll hset w).bind ?_
  rintro out w₁ ⟨hsame, hout⟩
  rw [← hout]
  cases out with
  | none => exact ⟨hsame.self, by simp, hsame.handed⟩
  | some dvec =>
    have hlen : 0 < dvec.length := by
      have hms := List.length_pos_iff.2 hne
      rw [← length_of_mapM_eq_some hout.symm] at hms
      exact hms
    refine (post_bindFirst fd dvec bind w₁).bind ?_
    rintro _ w₂ ⟨rfl, hsame'⟩
    simp only [Bool.not_true, Bool.false_eq_true, if_false, always_bind, always_op, always_pure]
    rintro _ w₃ ⟨rfl, e, rfl⟩
    refine ⟨trivial, (post_fwdResult _ _).mono ?_⟩
    rintro ret w₄ ⟨rfl, hret⟩
    rw [if_pos (by simpa using hlen)] at hret
    refine ⟨hsame'.self.trans hsame.self, hret, ?_⟩
    simp [hsame'.handed, hsame.handed]

/-! ## Frames -/

namespace Frame

/-- The relay's slots take the frame. -/
def Taken (f : Frame) : Prop := (fwdSlot .undef).Takes f

instance (f : Frame) : Decidable f.Taken := inferInstanceAs (Decidable (Slot.Takes _ _))

/-- The address does not go on behind the octets of the frame. -/
def Whole (f : Frame) : Prop :=
  hevSocks5AddrLen (.ofList (f.addr ++ f.data)) ≤ (f.addr ++ f.data).length

instance (f : Frame) : Decidable f.Whole := inferInstanceAs (Decidable (_ ≤ _))

/-- What the relay makes of a frame. -/
def forward (R : Resolver) (family : HevSocks5AddrFamily) (f : Frame) :
    Option (SockAddrIn6 × List Octet) :=
  if f.Taken ∧ f.data ≠ [] then
    (R.destination family (.ofList (f.addr ++ f.data))).map (·, f.data)
  else none

end Frame

/-- Memory into which octets were written starts with them. -/
theorem Mem.write_zero_eq_ofList {m : Mem} {l : List Octet} {i : Nat} (h : i < l.length) :
    m.write 0 l i = Mem.ofList l i := by
  rw [Mem.write_zero_apply i h]
  simp [Mem.ofList, h]

/-- What is relayed of a frame does not depend on what the slot held before. -/
theorem forward_receive {mem : Mem} {f : Frame} {family : HevSocks5AddrFamily} (ht : f.Taken)
    (hw : f.data ≠ [] → f.Whole) :
    ((fwdSlot mem).receive f).msg.forward R family = f.forward R family := by
  have hlen : f.datlen.toUInt64 = 0 ↔ f.data = [] := by
    rw [← UInt64.toNat_inj, ← List.length_eq_zero_iff]
    simp
  have hdata := Slot.receive_data (s := fwdSlot mem) (f := f)
  simp only [Slot.receive, fwdSlot] at hdata
  simp only [HevSocks5UDPMsg.forward, Slot.receive, fwdSlot, Frame.forward, hlen, ht, true_and,
    hdata]
  by_cases hd : f.data = []
  · simp [hd]
  rw [if_neg hd, if_pos hd]
  have hw := hw hd
  have h2 : 2 ≤ (f.addr ++ f.data).length := by
    have := Slot.Takes.length_addr ht
    rw [List.length_append]
    omega
  have hdest : R.destination family (.ofList (f.addr ++ f.data)) =
      R.destination family (mem.write 0 (f.addr ++ f.data)) := by
    refine Resolver.destination_congr ?_ ?_ fun i hi => ?_
    · exact (Mem.write_zero_eq_ofList (by omega)).symm
    · exact (Mem.write_zero_eq_ofList (by omega)).symm
    · refine (Mem.write_zero_eq_ofList ?_).symm
      unfold Frame.Whole at hw
      omega
  rw [hdest]

/-- A call of `fwd_f` on a stream of which the frames `fs` have arrived. -/
theorem post_recvmmsgTcp_relay {bufs : List Mem} {fs : List Frame} {w : Relay}
    (hw : w.ready = frames.words fs) (hne : fs ≠ []) (hlen : fs.length ≤ bufs.length) :
    Post (relay R) (recvmmsgTcp (bufs.map fwdSlot) true) w fun r w' => w.Same w' ∧
      ((∀ f ∈ fs, f.Taken) ∧ r.1 = fs.length ∧ r.2 =
          List.zipWith Slot.receive (bufs.map fwdSlot) fs ++ (bufs.map fwdSlot).drop fs.length ∨
        (∃ f ∈ fs, ¬ f.Taken) ∧ r.1 = -1) := by
  simp only [recvmmsgTcp, always_bind, always_op]
  rintro fd w₁ rfl
  refine ⟨trivial, (always_recvmmsgTcpLoop delivers_relay hw).mono ?_⟩
  rintro ⟨res, svec⟩ w' ⟨n, hn, hnf, htakes, hsvec, hend⟩
  dsimp only at hsvec hend ⊢
  simp only [List.nil_append, List.length_nil, Nat.zero_add] at hsvec hend
  have hpos := List.length_pos_iff.2 hne
  have hall : n = fs.length → ∀ f ∈ fs, f.Taken := by
    rintro rfl f hf
    rw [List.take_length] at htakes
    obtain ⟨i, hi, rfl⟩ := List.getElem_of_mem hf
    have hib : i < bufs.length := by omega
    have hmem : (fwdSlot bufs[i], fs[i]) ∈ (bufs.map fwdSlot).zip fs := by
      refine List.mem_of_getElem? (i := i) (List.getElem?_zip_eq_some.2 ⟨?_, ?_⟩)
      · rw [List.getElem?_map, List.getElem?_eq_getElem hib, Option.map_some]
      · exact List.getElem?_eq_getElem hi
    exact htakes _ hmem
  rcases hend with ⟨rfl, rfl, hrest, hsame⟩ | ⟨w₂, r, hr, hsame, hrest, -, ⟨hnil, -, hsame'⟩, rfl⟩ |
    ⟨s, hs, f, hf, ht, rfl, hsame⟩
  · rw [List.length_map] at hnf hsvec
    have hnf : bufs.length = fs.length := by omega
    refine ⟨hsame, .inl ⟨hall (by simpa using hnf), by simp [hnf], ?_⟩⟩
    rw [hsvec, hnf, List.take_length]
  · have hnf : n = fs.length := by
      rw [hnil] at hrest
      have := PrefixCode.eq_nil_of_words_eq_nil hrest.symm
      rw [List.drop_eq_nil_iff] at this
      omega
    subst hnf
    refine ⟨⟨?_, ?_, ?_, ?_⟩, .inl ⟨hall rfl, by rw [if_pos hpos], ?_⟩⟩
    · rw [← hsame'.self, hsame.self]
    · rw [← hsame'.queue, hsame.queue]
    · rw [← hsame'.sent, hsame.sent]
    · rw [← hsame'.handed, hsame.handed]
    · rw [hsvec, List.take_length]
  · refine ⟨hsame, .inr ⟨⟨f, List.mem_of_getElem? hf, ?_⟩, rfl⟩⟩
    simp only [Option.mem_def, List.getElem?_map, Option.map_eq_some_iff] at hs
    obtain ⟨mem, -, rfl⟩ := hs
    exact ht

/-! ## Datagrams -/

/-- What the relay makes of a datagram of these octets. -/
def forwardOctets (R : Resolver) (family : HevSocks5AddrFamily) (udp : List Octet) :
    Option (SockAddrIn6 × List Octet) :=
  let addrlen := hevSocks5AddrLen (.ofList (udp.drop 3))
  if udp.length < 4 ∨ addrlen ≤ 0 ∨ (udp.length : Int) ≤ 3 + addrlen then none
  else
    (R.destination family (.ofList (udp.drop 3))).map (·, udp.drop (3 + addrlen.toNat))

/-- It sees at most `udpBufSize` octets. -/
def Datagram.forward (R : Resolver) (family : HevSocks5AddrFamily) (d : Datagram) :
    Option (SockAddrIn6 × List Octet) :=
  forwardOctets R family (d.data.take udpBufSize)

/-- An entry into whose buffer a datagram was received. -/
def filled (buf : Mem) (udp : List Octet) : Slot :=
  { msg := { (fwdSlot buf).msg with buf := buf.write 0 udp }, mem := buf.write 0 udp }

theorem parseDatagram_isSet {s s' : Slot} {len : Nat} (h : parseDatagram s len = some s') :
    s'.msg.IsSet := by
  unfold parseDatagram at h
  dsimp only at h
  split_ifs at h <;> cases h <;> simp [HevSocks5UDPMsg.IsSet]

/-- **One datagram**: the relay sees its own octets only. -/
theorem parseDatagram_forward (buf : Mem) {udp : List Octet} (hlen : udp.length ≤ udpBufSize)
    (family : HevSocks5AddrFamily) :
    (parseDatagram (filled buf udp) udp.length).bind (fun s => s.msg.forward R family) =
      forwardOctets R family udp := by
  have hmem : ∀ i, i < udp.length → buf.write 0 udp i = Mem.ofList udp i :=
    fun i hi => Mem.write_zero_eq_ofList hi
  have hdrop : ∀ i, Mem.ofList (udp.drop 3) i = Mem.ofList udp (3 + i) := by
    intro i
    simp [Mem.ofList, List.getElem?_drop]
  unfold parseDatagram forwardOctets
  dsimp only [filled]
  by_cases h4 : udp.length < 4
  · simp [h4, HevSocks5UDPMsg.forward]
  have hlow : ∀ m, ¬ hevSocks5AddrLen m ≤ 0 → 4 ≤ hevSocks5AddrLen m := fun m h =>
    four_le_hevSocks5AddrLen (by omega)
  by_cases h5 : udp.length = 4
  · -- too short for any address, whatever the octets behind it
    have hshort : ∀ m, hevSocks5AddrLen m ≤ 0 ∨ (udp.length : Int) < 3 + hevSocks5AddrLen m := by
      intro m
      by_cases h : hevSocks5AddrLen m ≤ 0
      · exact .inl h
      · have := hlow m h
        omega
    have hnone : udp.length < 4 ∨ hevSocks5AddrLen (.ofList (udp.drop 3)) ≤ 0 ∨
        (udp.length : Int) ≤ 3 + hevSocks5AddrLen (.ofList (udp.drop 3)) :=
      .inr ((hshort _).imp_right Int.le_of_lt)
    rw [if_neg h4, if_pos hnone]
    rcases hshort ((buf.write 0 udp).drop 3) with h | h
    · rw [if_pos h]
      rfl
    · split_ifs <;> rfl
  have hL : hevSocks5AddrLen ((buf.write 0 udp).drop 3) = hevSocks5AddrLen (.ofList (udp.drop 3)) :=
    hevSocks5AddrLen_congr (by rw [hdrop]; exact hmem 3 (by omega))
      (by rw [hdrop]; exact hmem 4 (by omega))
  rw [hL]
  by_cases hneg : hevSocks5AddrLen (.ofList (udp.drop 3)) ≤ 0
  · simp [h4, hneg]
  have hpos : 0 ≤ hevSocks5AddrLen (.ofList (udp.drop 3)) := by omega
  obtain ⟨L, hLn⟩ := Int.eq_ofNat_of_zero_le hpos
  rw [hLn] at hneg ⊢
  rw [if_neg h4, if_neg hneg]
  by_cases hfit : 3 + (L : Int) > udp.length
  · rw [if_pos hfit, if_pos (by omega)]
    rfl
  rw [if_neg hfit]
  have htoNat : (3 + (L : Int)).toNat = 3 + L := by omega
  have hn : (UInt64.ofNat (udp.length - (3 + L))).toNat = udp.length - (3 + L) := by
    simp [udpBufSize] at hlen ⊢
    omega
  simp only [Option.bind_some, HevSocks5UDPMsg.forward, htoNat, hn]
  by_cases hempty : (udp.length : Int) ≤ 3 + L
  · have hnone : udp.length < 4 ∨ (L : Int) ≤ 0 ∨ (udp.length : Int) ≤ 3 + L :=
      .inr (.inr hempty)
    rw [if_pos hnone, show udp.length - (3 + L) = 0 by omega]
    rfl
  have hnz : UInt64.ofNat (udp.length - (3 + L)) ≠ 0 := by
    intro h
    rw [h] at hn
    have : (0 : UInt64).toNat = 0 := rfl
    omega
  rw [if_neg hnz, if_neg (by omega)]
  have hdest : R.destination family ((buf.write 0 udp).drop 3) =
      R.destination family (.ofList (udp.drop 3)) := by
    refine Resolver.destination_congr ?_ ?_ fun i hi => ?_
    · rw [hdrop]
      exact hmem 3 (by omega)
    · rw [hdrop]
      exact hmem 4 (by omega)
    · rw [hL, hLn] at hi
      rw [hdrop]
      exact hmem _ (by omega)
  have hread : ((buf.write 0 udp).drop (3 + L)).read (udp.length - (3 + L)) =
      udp.drop (3 + L) := by
    have h := Mem.read_write_zero buf udp
    have hsplit : udp.length = (3 + L) + (udp.length - (3 + L)) := by omega
    rw [hsplit, Mem.read_add] at h
    conv_rhs => rw [← h]
    rw [List.drop_left' (by simp)]
  rw [hdest, hread]
  rfl

/-- The datagrams of a batch, as the slots hold them. -/
theorem fill_fwdSlot (bufs : List Mem) (ds : List Datagram) (h : ds.length ≤ bufs.length) :
    fill (bufs.map fwdSlot) ds =
      List.zipWith (fun buf d => filled buf d.data) bufs ds ++
        (bufs.drop ds.length).map fwdSlot := by
  induction ds generalizing bufs with
  | nil => cases bufs <;> simp [fill]
  | cons d ds ih =>
    cases bufs with
    | nil => simp at h
    | cons buf bufs =>
      simp only [List.map_cons, fill, ih bufs (by simpa using h)]
      rfl

/-- Parsing a batch and then forwarding it is forwarding its datagrams. -/
theorem parseUdp_forward (family : HevSocks5AddrFamily) {bufs : List Mem} {ds : List Datagram}
    (h : ds.length ≤ bufs.length) (hdata : ∀ d ∈ ds, d.data.length ≤ udpBufSize) :
    match parseUdp (fill (bufs.map fwdSlot) ds) ds with
    | none => ds.mapM (fun d => forwardOctets R family d.data) = none
    | some svec => svec.length = bufs.length ∧ ∃ ms : List HevSocks5UDPMsg,
        entries svec ds.length = ms.map some ∧ ms.length = ds.length ∧ (∀ m ∈ ms, m.IsSet) ∧
        ms.mapM (·.forward R family) = ds.mapM fun d => forwardOctets R family d.data := by
  rw [fill_fwdSlot bufs ds h]
  induction ds generalizing bufs with
  | nil =>
    cases bufs with
    | nil => exact ⟨rfl, [], by simp [entries]⟩
    | cons buf bufs => exact ⟨by simp, [], by simp [entries]⟩
  | cons d ds ih =>
    cases bufs with
    | nil => simp at h
    | cons buf bufs =>
      have ih := ih (by simpa using h) fun d hd => hdata d (List.mem_cons_of_mem _ hd)
      have hd := parseDatagram_forward (R := R) buf (hdata d List.mem_cons_self) family
      simp only [List.zipWith_cons_cons, List.cons_append, parseUdp, List.length_cons,
        List.drop_succ_cons, List.mapM_cons, ← hd]
      cases hs : parseDatagram (filled buf d.data) d.data.length with
      | none => rfl
      | some s =>
        simp only [Option.bind_eq_bind, Option.bind_some]
        cases hp : parseUdp (List.zipWith (fun buf d => filled buf d.data) bufs ds ++
            (bufs.drop ds.length).map fwdSlot) ds with
        | none =>
          rw [hp] at ih
          simp [ih]
        | some svec =>
          rw [hp] at ih
          obtain ⟨hlen, ms, hent, hms, hset, hfwd⟩ := ih
          refine ⟨by simp [hlen], s.msg :: ms, ?_, by simp [hms], ?_, ?_⟩
          · simpa [entries] using hent
          · exact List.forall_mem_cons.2 ⟨parseDatagram_isSet hs, hset⟩
          · simp [hfwd]

/-! ## One call -/

/-- A call of `fwd_f` has relayed `out`, and the next one can follow. -/
def FwdEnds (out : Option (List (SockAddrIn6 × List Octet))) (bufs : List Mem) (w : Relay)
    (r : Int × Bool × List Mem) (w' : Relay) : Prop :=
  w'.self.type = w.self.type ∧ w'.self.addrFamily = w.self.addrFamily ∧
    (out.isSome → r.2.2.length = bufs.length) ∧ Relayed out w r.1 w'

theorem map_msg_receive (slots : List Slot) (fs : List Frame) :
    (List.zipWith Slot.receive slots fs).map (·.msg) =
      (slots.zip fs).map fun p => (p.1.receive p.2).msg := by
  simp [List.zip, List.map_zipWith]

theorem mapM_forward_receive {family : HevSocks5AddrFamily} {bufs : List Mem} {fs : List Frame}
    (hlen : fs.length ≤ bufs.length) (htaken : ∀ f ∈ fs, f.Taken)
    (hwhole : ∀ f ∈ examined (Frame.forward R family) fs, f.data ≠ [] → f.Whole) :
    ((List.zipWith Slot.receive (bufs.map fwdSlot) fs).map (·.msg)).mapM (·.forward R family) =
      fs.mapM (·.forward R family) := by
  induction fs generalizing bufs with
  | nil => simp
  | cons f fs ih =>
    cases bufs with
    | nil => simp at hlen
    | cons buf bufs =>
      obtain ⟨ht, hfs⟩ := List.forall_mem_cons.1 htaken
      obtain ⟨hw, hwhole⟩ := List.forall_mem_cons.1 hwhole
      simp only [List.map_cons, List.zipWith_cons_cons, List.mapM_cons, forward_receive ht hw]
      cases hf : f.forward R family with
      | none => rfl
      | some d =>
        -- the frames behind this one are examined
        rw [hf, Option.isSome_some, if_pos rfl] at hwhole
        rw [ih (by simpa using hlen) hfs hwhole]

/-- A batch of frames is relayed as a whole or not at all. -/
theorem post_fwdF_tcp (fd : Int) (bufs : List Mem) (bind : Bool) (fs : List Frame) {w : Relay}
    (htype : w.self.type = .udpInTcp) (hw : w.ready = frames.words fs) (hne : fs ≠ [])
    (hlen : fs.length ≤ bufs.length)
    (hwhole : ∀ f ∈ examined (Frame.forward R w.self.addrFamily) fs,
      f.Taken → f.data ≠ [] → f.Whole) :
    Post (relay R) (fwdF fd bufs bind) w fun r w' =>
      FwdEnds (fs.mapM (Frame.forward R w.self.addrFamily)) bufs w r w' := by
  simp only [fwdF, recvmmsg, always_bind, always_op]
  rintro _ w₁ ⟨rfl, rfl⟩
  refine ⟨trivial, ?_⟩
  rw [htype]
  refine (post_recvmmsgTcp_relay hw hne hlen).mono ?_
  rintro ⟨res, svec⟩ w₂ ⟨hsame, ⟨htaken, hres, hsvec⟩ | ⟨⟨f, hf, hnot⟩, hres⟩⟩ <;>
    dsimp only at hres ⊢
  · dsimp only at hsvec
    have hlen' : (List.zipWith Slot.receive (bufs.map fwdSlot) fs).length = fs.length := by
      simp [hlen]
    have hent : entries svec fs.length =
        ((List.zipWith Slot.receive (bufs.map fwdSlot) fs).map (·.msg)).map some := by
      have hsub : fs.length - svec.length = 0 := by
        rw [hsvec, List.length_append, hlen']
        omega
      rw [entries, hsub, hsvec, List.take_left' hlen']
      simp
    have hpos := List.length_pos_iff.2 hne
    simp only [fwdRest, always_bind, always_ite]
    rw [if_pos (by omega), hres, Int.toNat_natCast]
    refine (post_forward hent ?_ ?_ w₂).mono ?_
    · rw [map_msg_receive]
      intro m hm
      obtain ⟨p, -, rfl⟩ := List.mem_map.1 hm
      simp [HevSocks5UDPMsg.IsSet, Slot.receive]
    · intro h
      have := congrArg List.length h
      rw [List.length_map, hlen', List.length_nil] at this
      omega
    · rintro ⟨ret, bind'⟩ w₃ ⟨hself, hrel⟩
      rw [hsame.self] at hself hrel
      rw [mapM_forward_receive hlen htaken fun f hf =>
        hwhole f hf (htaken f (mem_of_mem_examined hf))] at hrel
      refine ⟨by rw [hself], by rw [hself], fun _ => ?_, ?_⟩
      · rw [List.length_map, hsvec, List.length_append, hlen', List.length_drop, List.length_map]
        exact Nat.add_sub_of_le hlen
      · simpa [Relayed, hsame.handed] using hrel
  · simp only [fwdRest, always_bind, always_ite]
    rw [if_neg (by omega)]
    refine (post_fwdResult _ _).mono ?_
    rintro ret w₃ ⟨rfl, hret⟩
    rw [if_neg (by omega)] at hret
    have hnone : fs.mapM (Frame.forward R w₁.self.addrFamily) = none := by
      rw [mapM_eq_ite, if_neg]
      intro h
      simpa [Frame.forward, hnot] using h f hf
    rw [hnone]
    exact ⟨by rw [hsame.self], by rw [hsame.self], by simp, hret, hsame.handed⟩

theorem post_associate {fd : Int} {ds : List Datagram} (w : Relay) :
    Post (relay R) (associate fd ds) w fun ok w' => ok = true ∧ w'.self.type = w.self.type ∧
      w'.self.addrFamily = w.self.addrFamily ∧ w'.handed = w.handed := by
  simp only [associate, always_bind, always_op, always_ite, always_pure]
  rintro _ w₁ ⟨rfl, rfl⟩
  refine ⟨trivial, ?_⟩
  split
  · exact ⟨trivial, rfl, rfl, rfl⟩
  · rintro res w₂ ⟨hres, e, rfl⟩
    refine ⟨trivial, ?_⟩
    rw [if_neg (by omega)]
    rintro _ w₃ ⟨rfl, rfl⟩
    refine ⟨trivial, ?_⟩
    rintro _ w₄ rfl
    exact ⟨trivial, trivial, rfl, rfl, rfl⟩

/-- The relay sees the first `udpBufSize` octets of each datagram. -/
def Datagram.truncate (d : Datagram) : Datagram := { d with data := d.data.take udpBufSize }

theorem zipWith_truncate {bufs : List Mem} {ds : List Datagram} (h : ds.length ≤ bufs.length) :
    List.zipWith (fun d n => { d with data := d.data.take n : Datagram }) ds
      ((bufs.map fwdSlot).map (·.msg.len.toNat)) = ds.map (·.truncate) := by
  induction ds generalizing bufs with
  | nil => simp
  | cons d ds ih =>
    cases bufs with
    | nil => simp at h
    | cons buf bufs =>
      rw [List.map_cons, List.map_cons, List.zipWith_cons_cons, ih (by simpa using h)]
      rfl

/-- A batch of datagrams is relayed as a whole or not at all. -/
theorem post_fwdF_udp (fd : Int) (bufs : List Mem) (bind : Bool) (ds : List Datagram) {w : Relay}
    (htype : w.self.type = .udpInUdp) (hw : w.queue = ds) (hne : ds ≠ [])
    (hlen : ds.length ≤ bufs.length) :
    Post (relay R) (fwdF fd bufs bind) w fun r w' =>
      FwdEnds (ds.mapM (Datagram.forward R w.self.addrFamily)) bufs w r w' := by
  simp only [fwdF, recvmmsg, always_bind, always_op]
  rintro _ w₁ ⟨rfl, rfl⟩
  refine ⟨trivial, ?_⟩
  rw [htype]
  simp only [recvmmsgUdp, always_bind, always_op]
  rintro fd' w₂ rfl
  refine ⟨trivial, ?_⟩
  rintro ⟨res, ds'⟩ w₃ hrecv
  refine ⟨trivial, ?_⟩
  simp only [relay, hw, if_neg hne, zipWith_truncate hlen] at hrecv
  obtain ⟨rfl, rfl, e, rfl⟩ := hrecv
  have hpos := List.length_pos_iff.2 hne
  have hlen' : (ds.map (·.truncate)).length ≤ bufs.length := by simpa using hlen
  simp only [always_ite, List.length_map, always_bind]
  rw [if_neg (by omega)]
  refine (post_associate _).mono ?_
  rintro _ w₃ ⟨rfl, htype', hfamily, hhanded⟩
  have hparse := parseUdp_forward (R := R) w₂.self.addrFamily hlen' (by
    intro d hd
    obtain ⟨d, -, rfl⟩ := List.mem_map.1 hd
    simp [Datagram.truncate])
  have hfwd : (ds.map (·.truncate)).mapM (fun d => forwardOctets R w₂.self.addrFamily d.data) =
      ds.mapM (Datagram.forward R w₂.self.addrFamily) := by
    rw [List.mapM_map]
    rfl
  rw [hfwd] at hparse
  simp only [Bool.not_true, Bool.false_eq_true, if_false, Int.toNat_natCast]
  rw [List.take_of_length_le (by simp)]
  cases hp : parseUdp (fill (bufs.map fwdSlot) (ds.map (·.truncate))) (ds.map (·.truncate)) with
  | none =>
    rw [hp] at hparse
    simp only [fwdRest, always_pure, always_bind, always_ite]
    rw [if_neg (by decide)]
    refine (post_fwdResult _ _).mono ?_
    rintro ret w₄ ⟨rfl, hret⟩
    rw [if_neg (by decide)] at hret
    rw [hparse]
    exact ⟨htype', hfamily, by simp, hret, hhanded⟩
  | some svec =>
    rw [hp] at hparse
    obtain ⟨hsvec, ms, hent, hms, hset, hms'⟩ := hparse
    rw [List.length_map] at hent hms
    simp only [fwdRest, always_pure, always_bind, always_ite]
    rw [if_pos (by omega), Int.toNat_natCast]
    refine (post_forward hent hset (List.length_pos_iff.1 (by omega)) w₃).mono ?_
    rintro ⟨ret, bind'⟩ w₄ ⟨hself, hrel⟩
    rw [hfamily, hms'] at hrel
    refine ⟨by rw [hself, htype'], by rw [hself, hfamily], fun _ => ?_, ?_⟩
    · rw [List.length_map, hsvec]
    · simpa [Relayed, hhanded] using hrel

/-! ## A run -/

/-- Answers without delay: a call gets all that has arrived. -/
def prompt (R : Resolver) : Relay → {β : Type} → Op β → Option (β × Relay) := fun w _ o =>
  match o with
  | .base => some (w.self, w)
  | .setBase self => some ((), { w with self })
  | .getFd => some (3, w)
  | .errno => some (w.errno, w)
  | .recv _ n flags =>
    if flags ≠ .waitall ∧ w.ready = [] then some (⟨-1, []⟩, { w with errno := .eagain })
    else
      let k := if flags = .waitall then n else min n w.ready.length
      if 0 < k ∧ k ≤ (w.ready ++ w.later).length then
        some (⟨k, (w.ready ++ w.later).take k⟩,
          { w with ready := w.ready.drop k, later := w.later.drop (k - w.ready.length) })
      else none
  | .recvmsg _ n =>
    if n ≤ (w.ready ++ w.later).length then
      some (⟨n, (w.ready ++ w.later).take n⟩,
        { w with ready := w.ready.drop n, later := w.later.drop (n - w.ready.length) })
    else none
  | .sendmsg _ data => some (data.length, { w with sent := w.sent ++ data })
  | .recvmmsg _ lens _ =>
    if w.queue = [] then none
    else
      let ds := List.zipWith (fun d n => { d with data := d.data.take n }) w.queue lens
      some ((ds.length, ds), { w with queue := w.queue.drop lens.length })
  | .sendmmsg _ msgs => some (msgs.length, { w with handed := w.handed ++ msgs })
  | .connect _ _ => some (0, w)
  | .binder _ _ => some (0, w)
  | .inetPton4 name => some (R.pton4 name, w)
  | .inetPton6 name => some (R.pton6 name, w)
  | .getaddrinfo name family => some (R.lookup name family, w)
  | _ => none

theorem relay_of_prompt (w : Relay) {β : Type} (o : Op β) (b : β) (w' : Relay)
    (h : prompt R w o = some (b, w')) : relay R w o b w' := by
  cases o with
  | recv fd n flags =>
    simp only [prompt] at h
    by_cases hblock : flags ≠ .waitall ∧ w.ready = []
    · rw [if_pos hblock, Option.some.injEq, Prod.mk.injEq] at h
      obtain ⟨rfl, rfl⟩ := h
      simp only [relay, if_neg hblock.1]
      exact .inl ⟨hblock.2, trivial, trivial⟩
    · rw [if_neg hblock, Option.ite_none_right_eq_some, Option.some.injEq, Prod.mk.injEq] at h
      obtain ⟨⟨hk₀, hk⟩, rfl, rfl⟩ := h
      by_cases hf : flags = .waitall
      · simp only [hf, if_true] at hk ⊢
        simp only [relay, if_true]
        exact ⟨hk, rfl, rfl, w.errno, rfl⟩
      · simp only [hf, if_false] at hk hk₀ ⊢
        simp only [relay, hf, if_false]
        exact .inr ⟨_, hk₀, Nat.min_le_left _ _, Nat.min_le_right _ _, hk, rfl, rfl, w.errno, rfl⟩
  | recvmsg fd n =>
    simp only [prompt, Option.ite_none_right_eq_some, Option.some.injEq, Prod.mk.injEq] at h
    obtain ⟨hn, rfl, rfl⟩ := h
    exact ⟨hn, rfl, rfl, w.errno, rfl⟩
  | recvmmsg fd lens flags =>
    simp only [prompt, Option.ite_none_left_eq_some, Option.some.injEq, Prod.mk.injEq] at h
    obtain ⟨hne, rfl, rfl⟩ := h
    simp only [relay, if_neg hne]
    exact ⟨trivial, trivial, w.errno, rfl⟩
  | base | errno =>
    obtain ⟨rfl, rfl⟩ := Prod.mk.inj (Option.some.inj h)
    exact ⟨rfl, rfl⟩
  | setBase | getFd =>
    exact (Prod.mk.inj (Option.some.inj h)).2.symm
  | connect | binder =>
    obtain ⟨rfl, rfl⟩ := Prod.mk.inj (Option.some.inj h)
    exact ⟨Int.le_refl 0, w.errno, rfl⟩
  | sendmsg | sendmmsg | inetPton4 | inetPton6 | getaddrinfo =>
    obtain ⟨rfl, rfl⟩ := Prod.mk.inj (Option.some.inj h)
    exact ⟨rfl, w.errno, rfl⟩
  | _ => simp [prompt] at h

end HevSocks5
