/-
  Whole datagrams.

  What the splicer hands on should be the payload of a whole datagram: of a
  frame of the stream, or of a datagram that fits into its slot and whose FRAG
  field is 0.  The code looks neither at the length that a datagram had before
  it was cut to the slot, nor at FRAG.

  `Fits` says which datagrams do no harm, and `Clean` which answers do none on
  the stream.  In runs of these nothing is cut (`relay_uncut`).
-/
import HevSocks5.UdpTunnel

namespace HevSocks5

open Interact Sys HevSocks5UDP

/-- The FRAG field of a datagram of a client. -/
def Datagram.frag (d : Datagram) : Octet := d.data.getD 2 0

/-- What is behind the header of a datagram of a client. -/
def Datagram.payload (d : Datagram) : List Octet :=
  d.data.drop (3 + (hevSocks5AddrLen (.ofList (d.data.drop 3))).toNat)

/-- All of the payload of a frame of the client, or of a datagram that is not a fragment. -/
def Tunnel.FromClient (w : Tunnel) (payload : List Octet) : Prop :=
  match w.type with
  | .udpInTcp => ∃ fs, frames.words fs <+: w.conn.read ∧ ∃ f ∈ fs, payload = f.data
  | .udpInUdp => ∃ d ∈ w.received w.fdA, d.frag = 0 ∧ payload = d.payload
  | _ => False

/-- **Nothing is cut**: all that was handed on is the payload of a whole datagram. -/
structure Tunnel.Uncut (fdB : Int) (w : Tunnel) : Prop where
  forward : ∀ m ∈ w.forwarded, w.FromClient m.2.2
  back : ∀ m ∈ w.returned, ∃ d ∈ w.received fdB, m.2 = d.toPacket
  written : ∀ l ∈ w.written, ∃ fs, l = frames.words fs ∧
    ∀ f ∈ fs, ∃ d ∈ w.received fdB, f.addr = d.src.octets ∧ f.data = d.data

/-- **The datagrams that do no harm**: those of the peer fit into a slot; those of the client do
    too and are no fragments, or are refused. -/
def Fits (L : Resolver → Prop) (fdA fdB : Int) (fd : Int) (d : Datagram) : Prop :=
  (fd = fdB → d.data.length ≤ udpBufSize) ∧
    (fd = fdA → (d.data.length ≤ udpBufSize ∧ d.frag = 0) ∨ ∀ out, ¬ d.Forwards L out)

/-- The system calls of the splicer, when only such datagrams arrive and the stream is `Clean`. -/
def cleanTunnel (L : Resolver → Prop) (fdA fdB : Int) : Env Op Tunnel := fun w _ o b w' =>
  tunnel L (Fits L fdA fdB) w o b w' ∧ Clean w.conn o b w'.conn

/-! ## Datagrams -/

theorem exists_of_sublistForall₂ {α β : Type} {R : α → β → Prop} {l₁ : List α} {l₂ : List β}
    (h : List.SublistForall₂ R l₁ l₂) {a : α} (ha : a ∈ l₁) : ∃ b ∈ l₂, R a b := by
  induction h with
  | nil => simp at ha
  | cons hr _ ih =>
    rcases List.mem_cons.1 ha with rfl | ha
    · exact ⟨_, List.mem_cons_self, hr⟩
    · obtain ⟨b, hb, h⟩ := ih ha
      exact ⟨b, List.mem_cons_of_mem _ hb, h⟩
  | cons_right _ ih =>
    obtain ⟨b, hb, h⟩ := ih ha
    exact ⟨b, List.mem_cons_of_mem _ hb, h⟩

theorem payload_of_forwardOctets {R : Resolver} {family : HevSocks5AddrFamily} {d : Datagram}
    {out : SockAddrIn6 × List Octet} (h : forwardOctets R family d.data = some out) :
    out.2 = d.payload := by
  rw [forwardOctets, Option.ite_none_left_eq_some] at h
  obtain ⟨-, h⟩ := h
  obtain ⟨saddr, -, rfl⟩ := Option.map_eq_some_iff.1 h
  rfl

/-- The datagrams of UDP-in-UDP are whole when those that arrive do no harm. -/
theorem Unmixed.uncut {L : Resolver → Prop} {fdB : Int} {w : Tunnel} (h : Unmixed L fdB [] [] w)
    (hfit : ∀ fd, ∀ d ∈ w.received fd, Fits L w.fdA fdB fd d) :
    w.Uncut fdB where
  forward := by
    intro m hm
    obtain ⟨ds, hrec, hall⟩ := h.forward
    rw [List.append_nil] at hrec
    obtain ⟨d, hd, -, hforwards⟩ := exists_of_sublistForall₂ hall hm
    rw [← hrec] at hd
    simp only [Tunnel.FromClient, h.type]
    rcases (hfit _ d hd).2 rfl with ⟨hlen, hfrag⟩ | hrefused
    · obtain ⟨R, family, hR, hforward⟩ := hforwards
      rw [Datagram.forward, List.take_of_length_le hlen] at hforward
      exact ⟨d, hd, hfrag, payload_of_forwardOctets hforward⟩
    · exact absurd hforwards (hrefused _)
  back := by
    intro m hm
    obtain ⟨ds, hrec, hall⟩ := h.back
    rw [List.append_nil] at hrec
    obtain ⟨d, hd, rfl⟩ := exists_of_sublistForall₂ hall hm
    rw [← hrec] at hd
    refine ⟨d, hd, ?_⟩
    rw [Datagram.truncate, List.take_of_length_le ((hfit _ d hd).1 rfl)]
  written := by simp [h.written]

/-! ## The stream -/

/-- Everything that was received and read still is. -/
structure Tunnel.Grows (w w' : Tunnel) : Prop where
  type : w'.type = w.type
  fdA : w'.fdA = w.fdA
  received : ∀ fd, w.received fd ⊆ w'.received fd
  read : w.conn.read <+: w'.conn.read

namespace Tunnel

variable {L : Resolver → Prop} {A : Int → Datagram → Prop} {fdB : Int} {w w' : Tunnel}

theorem Changes.grows {β : Type} {o : Op β} (h : w.Changes A o w') : w.Grows w' where
  type := h.type
  fdA := h.fdA
  received fd := by
    obtain ⟨ds, -, hreceived⟩ := h.received fd
    rw [hreceived]
    exact List.subset_append_left ..
  read := h.read

theorem FromClient.grows {payload : List Octet} (h : w.FromClient payload) (hg : w.Grows w') :
    w'.FromClient payload := by
  unfold FromClient at h ⊢
  rw [hg.type]
  cases htype : w.type <;> rw [htype] at h
  case udpInTcp =>
    obtain ⟨fs, hread, hf⟩ := h
    exact ⟨fs, hread.trans hg.read, hf⟩
  case udpInUdp =>
    obtain ⟨d, hd, hdata⟩ := h
    rw [hg.fdA]
    exact ⟨d, hg.received _ hd, hdata⟩
  all_goals exact h

/-- What is handed on now may be more, if that is whole. -/
theorem Uncut.grows (h : w.Uncut fdB) (hg : w.Grows w')
    (hforward : ∀ m ∈ w'.forwarded, m ∈ w.forwarded ∨ w'.FromClient m.2.2)
    (hback : w'.returned ⊆ w.returned)
    (hwritten : ∀ l ∈ w'.written, l ∈ w.written ∨ ∃ fs, l = frames.words fs ∧
      ∀ f ∈ fs, ∃ d ∈ w'.received fdB, f.addr = d.src.octets ∧ f.data = d.data) :
    w'.Uncut fdB where
  forward := fun m hm => (hforward m hm).elim (fun hm => (h.forward m hm).grows hg) id
  back := by
    intro m hm
    obtain ⟨d, hd, hpacket⟩ := h.back m (hback hm)
    exact ⟨d, hg.received _ hd, hpacket⟩
  written := by
    intro l hl
    rcases hwritten l hl with hl | hl
    · obtain ⟨fs, hwords, hall⟩ := h.written l hl
      refine ⟨fs, hwords, fun f hf => ?_⟩
      obtain ⟨d, hd, hdata⟩ := hall f hf
      exact ⟨d, hg.received _ hd, hdata⟩
    · exact hl

end Tunnel

/-- Nothing was cut, in UDP-in-TCP. -/
structure Framed (fdB : Int) (w : Tunnel) : Prop where
  type : w.type = .udpInTcp
  uncut : w.Uncut fdB

section
variable {L : Resolver → Prop} {fdA fdB : Int} {w w' : Tunnel}

theorem Framed.step {A : Int → Datagram → Prop} {β : Type} {o : Op β} {b : β}
    (h : Framed fdB w) (ho : o.Holds) (he : tunnel L A w o b w') : Framed fdB w' := by
  have hc := tunnel_changes he
  obtain ⟨hforward, hback⟩ := hc.keeps ho.keeps
  have hwritten := hc.holds ho
  refine ⟨hc.type.trans h.type, ?_⟩
  refine h.uncut.grows hc.grows (fun m hm => .inl (hforward ▸ hm)) ?_ fun l hl =>
    .inl (hwritten ▸ hl)
  rw [hback]
  exact List.Subset.refl _

theorem Framed.always {α : Type} {x : SysM α} (h : Framed fdB w) (hx : x.Only Op.Holds) :
    Always (cleanTunnel L fdA fdB) (Framed fdB) x w fun _ w' => Framed fdB w' :=
  hx.always (fun ho h he => ⟨h.step ho he.1, h.step ho he.1⟩) h

/-- Only the receiving half of `fwd_f` reads. -/
theorem post_read (L : Resolver → Prop) (fdA fdB : Int) (w : Tunnel) {α : Type} {x : SysM α}
    (hx : x.Only fun o => ¬ o.Takes) :
    Post (cleanTunnel L fdA fdB) x w fun _ w' => w'.conn.read = w.conn.read := by
  refine hx.always (I := fun w' : Tunnel => w'.conn.read = w.conn.read) ?_ rfl
  rintro w₁ w₂ β o b ho hw ⟨he, -⟩
  exact ⟨trivial, ((tunnel_changes he).unread ho).trans hw⟩

theorem Sys.Op.Receives.holds {β : Type} {o : Op β} (h : o.Receives) : o.Holds := by
  cases o <;> first | exact h.elim | trivial

theorem Sys.Op.Prepares.holds {β : Type} {o : Op β} (h : o.Prepares) : o.Holds := by
  cases o <;> first | exact h.elim | trivial

theorem Sys.Op.Sets.holds {β : Type} {o : Op β} (h : o.Sets) : o.Holds := by
  cases o <;> first | exact h.elim | trivial

theorem Sys.Op.Sets.not_takes {β : Type} {o : Op β} (h : o.Sets) : ¬ o.Takes := by
  cases o <;> first | exact h.elim | exact id

theorem Sys.Op.Yields.holds {β : Type} {o : Op β} (h : o.Yields) : o.Holds := by
  cases o <;> first | exact h.elim | trivial

theorem Sys.Op.Forwards.not_takes {β : Type} {o : Op β} (h : o.Forwards) : ¬ o.Takes := by
  cases o <;> first | exact h.elim | exact id

theorem Sys.Op.Yields.not_takes {β : Type} {o : Op β} (h : o.Yields) : ¬ o.Takes := by
  cases o <;> first | exact h.elim | exact id

/-! ## The receiving half of `fwd_f` -/

/-- The stream is read as in `cleanConn`. -/
theorem post_takes {α : Type} {x : SysM α} (hx : x.Only Op.Takes) {Q : α → Conn → Prop}
    (h : Post cleanConn x w.conn Q) :
    Post (cleanTunnel L fdA fdB) x w fun a w' => Q a w'.conn := by
  refine hx.always_proj Tunnel.conn ?_ h
  intro w₁ w₂ β o b ho ⟨he, hclean⟩
  refine ⟨?_, hclean⟩
  cases o
  case recv | recvmsg =>
    obtain ⟨conn', hconn, rfl⟩ := he
    exact hconn
  all_goals exact ho.elim

/-- What a receive call of `fwd_f` has done: it is going to fail, or its entries hold frames of the
    stream, which was read to the end of a frame. -/
def Fetched (r : Int × List Slot) (w : Tunnel) : Prop :=
  Fails r.1 w.conn ∨ ∃ fs gs got tail, w.conn.read = frames.words (fs ++ gs) ∧
    List.Forall₂ Slot.Holds got gs ∧ r.2 = got ++ tail ∧ r.1.toNat = got.length

theorem Framed.always_recvmmsg {bufs : List Mem} {fs : List Frame} (h : Framed fdB w)
    (hread : w.conn.read = frames.words fs) :
    Always (cleanTunnel L fdA fdB) (Framed fdB) (recvmmsg (bufs.map fwdSlot) true) w fun r w' =>
      Framed fdB w' ∧ Fetched r w' := by
  refine (h.always (only_recvmmsg.mono Op.Receives.holds)).and ?_
  simp only [recvmmsg, always_bind, always_op]
  rintro self w₁ ⟨⟨htype, R, -, rfl⟩, -⟩
  refine ⟨trivial, ?_⟩
  simp only [htype, h.type, recvmmsgTcp, always_bind, always_op]
  rintro fd w₂ ⟨⟨-, rfl⟩, -⟩
  refine ⟨trivial, ?_⟩
  have hloop := always_recvmmsgTcpLoop_clean fd true
    (show ∀ s ∈ bufs.map fwdSlot, _ from ?_)
    (w := { w.conn with start := w.conn.read.length }) (Nat.le_refl _) fun _ => rfl
  · refine (post_takes (only_recvmmsgTcpLoop []) hloop).mono ?_
    rintro ⟨res, svec⟩ w' (hfails | ⟨gs, got, tail, hreads, hall, rfl, hres⟩)
    · exact .inl hfails
    · refine .inr ⟨fs, gs, got, tail, ?_, hall, rfl, by simpa using hres⟩
      rw [PrefixCode.words_append, ← hread]
      exact hreads.read
  · intro s hs
    obtain ⟨mem, -, rfl⟩ := List.mem_map.1 hs
    rfl

/-! ## The sending half of `fwd_f` -/

theorem entries_append (got tail : List Slot) :
    entries (got ++ tail) got.length = (got.map (·.msg)).map some := by
  simp [entries]

theorem isSet_of_holds {got : List Slot} {gs : List Frame} (h : List.Forall₂ Slot.Holds got gs) :
    ∀ m ∈ got.map (·.msg), m.IsSet := by
  induction h with
  | nil => simp
  | cons hs _ ih =>
    obtain ⟨mem, haddr, -⟩ := hs
    rw [List.map_cons]
    exact List.forall_mem_cons.2 ⟨by simp [HevSocks5UDPMsg.IsSet, haddr], ih⟩

/-- What is forwarded of entries that hold frames is the data of these. -/
theorem data_of_holds {got : List Slot} {gs : List Frame} {dvec : List (SockAddrIn6 × List Octet)}
    (hdvec : List.Forall₂ (fun d m => ∃ R family, L R ∧ HevSocks5UDPMsg.forward R family m = some d)
      dvec (got.map (·.msg))) (h : List.Forall₂ Slot.Holds got gs) :
    ∀ d ∈ dvec, ∃ f ∈ gs, d.2 = f.data := by
  induction h generalizing dvec with
  | nil =>
    cases hdvec
    simp
  | @cons s f got gs hs _ ih =>
    cases hdvec with
    | cons hd hdvec =>
      refine List.forall_mem_cons.2 ⟨⟨f, List.mem_cons_self, ?_⟩, fun d hd => ?_⟩
      · obtain ⟨R, family, -, hforward⟩ := hd
        obtain ⟨mem, haddr, -, hdata⟩ := hs
        simp only [HevSocks5UDPMsg.forward, haddr] at hforward
        rw [Option.ite_none_left_eq_some] at hforward
        obtain ⟨saddr, -, rfl⟩ := Option.map_eq_some_iff.1 hforward.2
        exact hdata
      · obtain ⟨f', hf', hdata⟩ := ih hdvec d hd
        exact ⟨f', List.mem_cons_of_mem _ hf', hdata⟩

/-- The first of these messages are handed on. -/
theorem Framed.handOver (fd : Int) {dvec : List (SockAddrIn6 × List Octet)} {e : Errno} (k : Nat)
    (h : Framed fdB w) (hd : ∀ d ∈ dvec, w.FromClient d.2) :
    Framed fdB ((w.withErrno e).handOver fd ((dvec.map fun d => (some d.1, d.2)).take k)) where
  type := h.type
  uncut := by
    have hg : w.Grows ((w.withErrno e).handOver fd ((dvec.map fun d => (some d.1, d.2)).take k)) :=
      ⟨rfl, rfl, fun _ => List.Subset.refl _, List.prefix_refl _⟩
    refine h.uncut.grows hg (fun m hm => ?_) ?_ fun l hl => .inl hl
    · rcases List.mem_append.1 hm with hm | hm
      · exact .inl hm
      · obtain ⟨m', hm', hsome⟩ := List.mem_filterMap.1 hm
        obtain ⟨d, hd', rfl⟩ := List.mem_map.1 (List.mem_of_mem_take hm')
        obtain rfl := Option.some.inj hsome
        exact .inr ((hd d hd').grows hg)
    · have hnone : ((dvec.map fun d => ((some d.1, d.2) : Option SockAddrIn6 × List Octet)).take
          k).filterMap (fun m => if m.1.isNone then some (fd, m.2) else none) = [] := by
        simp [← List.map_take]
      simp only [Tunnel.handOver, hnone, List.append_nil]
      exact List.Subset.refl _

theorem Framed.always_forward {fd : Int} {fs gs : List Frame} {got tail : List Slot} {bind : Bool}
    (h : Framed fdB w) (hread : w.conn.read = frames.words (fs ++ gs))
    (hall : List.Forall₂ Slot.Holds got gs) :
    Always (cleanTunnel L fdA fdB) (Framed fdB) (forward fd got.length (got ++ tail) bind) w
      fun _ w' => Framed fdB w' := by
  unfold forward
  rw [entries_append]
  have hresolve : Post (cleanTunnel L fdA fdB) (resolveAll ((got.map (·.msg)).map some)) w _ :=
    (only_resolveAll ((got.map (·.msg)).map some)).always_env (fun _ he => he.1)
      (post_resolveAll_tunnel (isSet_of_holds hall) w)
  have hkeep := post_read L fdA fdB w
    ((only_resolveAll ((got.map (·.msg)).map some)).mono fun ho => ho.forwards.not_takes)
  refine (((h.always ((only_resolveAll _).mono Op.Prepares.holds)).and hresolve).and hkeep).bind ?_
  rintro (_ | dvec) w₁ ⟨⟨h₁, hdvec⟩, hread₁⟩
  · exact h₁
  have hdata := data_of_holds (hdvec dvec rfl) hall
  have hkeep := post_read L fdA fdB w₁
    ((only_bindFirst fd bind dvec).mono fun ho => ho.forwards.not_takes)
  refine ((h₁.always ((only_bindFirst _ _ dvec).mono Op.Prepares.holds)).and hkeep).bind ?_
  rintro ok w₂ ⟨h₂, hread₂⟩
  rw [always_ite]
  split
  · exact h₂
  simp only [always_bind, always_op, always_pure]
  rintro res' w₃ ⟨⟨k, e, -, -, rfl⟩, -⟩
  have h₃ := h₂.handOver fd (e := e) k fun d hd => by
    obtain ⟨f, hf, hdata⟩ := hdata d hd
    simp only [Tunnel.FromClient, h₂.type]
    refine ⟨fs ++ gs, ⟨[], ?_⟩, f, List.mem_append_right fs hf, hdata⟩
    rw [List.append_nil, hread₂, hread₁, hread]
  exact ⟨h₃, h₃.always ((only_fwdResult res').mono Op.Prepares.holds)⟩

theorem Framed.always_fwdRest {fd res : Int} {svec : List Slot} {bind : Bool}
    (h : Framed fdB w) (hf : Fetched (res, svec) w) :
    Always (cleanTunnel L fdA fdB) (Framed fdB) (fwdRest fd res svec bind) w fun r w' =>
      Framed fdB w' ∧ (r.1 = -1 ∨ ∃ fs, w'.conn.read = frames.words fs) := by
  rcases hf with ⟨hle, hfails⟩ | ⟨fs, gs, got, tail, hread, hall, rfl, hres⟩
  · dsimp only at hle hfails
    rw [fwdRest, if_neg (Int.not_lt.2 hle), always_bind]
    have hret : Post (cleanTunnel L fdA fdB) (fwdResult res) w fun ret _ => ret = -1 := by
      rw [fwdResult, if_pos hle]
      by_cases hm : res = -1
      · simp only [if_pos hm, always_bind, always_op, always_ite, always_pure]
        rintro e w' ⟨⟨rfl, rfl⟩, -⟩
        rw [if_neg fun he => hfails ⟨hm, he⟩]
        simp
      · rw [if_neg hm]
        rfl
    refine ((h.always ((only_fwdResult res).mono Op.Prepares.holds)).and hret).mono ?_
    rintro ret w' ⟨h', rfl⟩
    exact ⟨h', .inl rfl⟩
  · have hkeep := post_read L fdA fdB w
      ((only_fwdRest fd bind (got ++ tail) res).mono
        Op.Forwards.not_takes)
    refine (Always.and (Q := fun _ => Framed fdB) ?_ hkeep).mono fun r w' h' =>
      ⟨h'.1, .inr ⟨_, h'.2.trans hread⟩⟩
    rw [fwdRest, always_ite]
    split
    · dsimp only at hres
      rw [hres]
      exact h.always_forward hread hall
    · rw [always_bind]
      exact h.always ((only_fwdResult res).mono Op.Prepares.holds)

/-! ## One round -/

theorem Framed.always_fwdF {bufs : List Mem} {bind : Bool} {fs : List Frame} (h : Framed fdB w)
    (hread : w.conn.read = frames.words fs) :
    Always (cleanTunnel L fdA fdB) (Framed fdB) (fwdF fdB bufs bind) w fun r w' =>
      Framed fdB w' ∧ (r.1 = -1 ∨ ∃ fs, w'.conn.read = frames.words fs) := by
  unfold fwdF
  refine (h.always_recvmmsg hread).bind ?_
  rintro ⟨res, svec⟩ w₁ ⟨h₁, hf⟩
  simp only [always_bind, always_pure]
  exact h₁.always_fwdRest hf

theorem Framed.always_fwdB {bufs : List Mem} (h : Framed fdB w) :
    Always (cleanTunnel L fdA fdB) (Framed fdB) (fwdB fdB bufs) w fun _ w' =>
      Framed fdB w' ∧ w'.conn.read = w.conn.read := by
  simp only [fwdB, always_bind, always_op]
  rintro ⟨res, _⟩ w₁ ⟨he, -⟩
  have h₁ : Framed fdB w₁ := h.step (by trivial) he
  obtain ⟨ds, e, hfits, hlen, hres, rfl, hw₁⟩ := he
  have hread₁ : w₁.conn.read = w.conn.read := by rw [hw₁]; rfl
  have hrec : ∀ d ∈ ds, d ∈ w₁.received fdB := by
    intro d hd
    rw [hw₁]
    simp [hd]
  rw [List.length_map] at hlen
  have hwhole : ∀ d ∈ ds, d.data.length ≤ udpBufSize := fun d hd => (hfits d hd).1 rfl
  dsimp only at hres ⊢
  refine ⟨h₁, ?_⟩
  have hresult : ∀ {w₂ : Tunnel} (res : Int), Framed fdB w₂ → w₂.conn.read = w₁.conn.read →
      Always (cleanTunnel L fdA fdB) (Framed fdB) (fwdResult res) w₂ fun _ w' =>
        Framed fdB w' ∧ w'.conn.read = w.conn.read := by
    intro w₂ res h₂ hread₂
    have hkeep := post_read L fdA fdB w₂
      ((only_fwdResult res).mono fun ho => ho.forwards.not_takes)
    refine ((h₂.always ((only_fwdResult res).mono Op.Prepares.holds)).and hkeep).mono ?_
    exact fun _ _ h' => ⟨h'.1, h'.2.trans (hread₂.trans hread₁)⟩
  rw [always_ite]
  split
  swap
  · simp only [always_bind, always_pure]
    exact hresult res h₁ rfl
  have htake : (List.zipWith (fun d n => { d with data := d.data.take n : Datagram }) ds
      (bufs.map fun _ => udpBufSize)).take res.toNat = ds := by
    rw [zipWith_whole hlen hwhole]
    refine List.take_of_length_le ?_
    rcases hres with hres | hres
    · simp [hres]
    · omega
  rw [htake]
  simp only [always_bind, sendmmsg, always_op]
  rintro self w₂ ⟨he, -⟩
  have h₂ : Framed fdB w₂ := h₁.step (by trivial) he
  obtain ⟨htype, R, -, hw₂⟩ := he
  refine ⟨h₂, ?_⟩
  rw [htype, h₁.type]
  dsimp only
  rw [sendmmsgTcp_outMsg hlen hwhole]
  simp only [always_bind, always_op]
  rintro fd w₃ ⟨he, -⟩
  have h₃ : Framed fdB w₃ := h₂.step (by trivial) he
  obtain ⟨-, hw₃⟩ := he
  refine ⟨h₃, ?_⟩
  rintro res' w₄ ⟨⟨e', hw₄⟩, -⟩
  have hg : w₃.Grows w₄ := by
    rw [hw₄]
    exact ⟨rfl, rfl, fun _ => List.Subset.refl _, List.prefix_refl _⟩
  have h₄ : Framed fdB w₄ := by
    refine ⟨hg.type.trans h₃.type, h₃.uncut.grows hg (fun m hm => .inl ?_) ?_ fun l hl => ?_⟩
    · rwa [hw₄] at hm
    · rw [hw₄]
      exact List.Subset.refl _
    · rw [hw₄] at hl
      rcases List.mem_append.1 hl with hl | hl
      · exact .inl hl
      · refine .inr ⟨ds.map (·.toFrame), List.mem_singleton.1 hl, fun f hf => ?_⟩
        obtain ⟨d, hd, rfl⟩ := List.mem_map.1 hf
        refine ⟨d, ?_, rfl, List.take_of_length_le (hwhole d hd)⟩
        rw [hw₄]
        show d ∈ w₃.received fdB
        rw [hw₃, hw₂]
        exact hrec d hd
  have hread₄ : w₄.conn.read = w₁.conn.read := by
    rw [hw₄, hw₃, hw₂]
    rfl
  refine ⟨h₄, ?_⟩
  simp only [always_ite, always_pure]
  split
  · exact hresult _ h₄ hread₄
  · exact hresult _ h₄ hread₄

/-! ## The splicer -/

/-- As long as `fwd_f` has not failed, the stream was read to the end of a frame. -/
structure Steady (fdB resF : Int) (w : Tunnel) : Prop where
  framed : Framed fdB w
  sync : 0 ≤ resF → ∃ fs, w.conn.read = frames.words fs

theorem Steady.always_stepF {resF : Int} {bind : Bool} {bufs : List Mem}
    (h : Steady fdB resF w) :
    Always (cleanTunnel L fdA fdB) (Framed fdB) (stepF fdB resF bind bufs) w fun r w' =>
      Steady fdB r.1 w' := by
  rw [stepF, always_ite]
  split
  · rename_i hres
    obtain ⟨fs, hread⟩ := h.sync hres
    refine (h.framed.always_fwdF hread).mono ?_
    rintro ⟨ret, _⟩ w' ⟨h', hsync⟩
    exact ⟨h', fun hret => hsync.resolve_left fun hm => by dsimp only at hm hret; omega⟩
  · exact h

theorem Steady.always_stepB {resF resB : Int} {bufs : List Mem} (h : Steady fdB resF w) :
    Always (cleanTunnel L fdA fdB) (Framed fdB) (stepB fdB resB bufs) w fun _ w' =>
      Steady fdB resF w' := by
  rw [stepB, always_ite]
  split
  · refine h.framed.always_fwdB.mono fun _ w' h' => ⟨h'.1, fun hres => ?_⟩
    rw [h'.2]
    exact h.sync hres
  · exact h

theorem Steady.always {α : Type} {x : SysM α} {resF : Int} (h : Steady fdB resF w)
    (hx : x.Only Op.Yields) :
    Always (cleanTunnel L fdA fdB) (Framed fdB) x w fun _ w' => Steady fdB resF w' := by
  have hread := post_read L fdA fdB w (hx.mono Op.Yields.not_takes)
  refine ((h.framed.always (hx.mono Op.Yields.holds)).and hread).mono fun _ w' h' => ⟨h'.1, ?_⟩
  rw [h'.2]
  exact h.sync

theorem Steady.always_splicerLoop {rounds : Nat} {resF resB : Int} {bind : Bool}
    {bufsF bufsB : List Mem} (h : Steady fdB resF w) :
    Always (cleanTunnel L fdA fdB) (Framed fdB)
      (splicerLoop fdB rounds resF resB bind bufsF bufsB) w fun _ w' => Framed fdB w' := by
  induction rounds generalizing resF resB bind bufsF bufsB w with
  | zero => exact h.framed
  | succ rounds ih =>
    unfold splicerLoop
    refine h.always_stepF.bind ?_
    rintro ⟨resF, bind, bufsF⟩ w₁ h₁
    refine h₁.always_stepB.bind ?_
    rintro ⟨resB, bufsB⟩ w₂ h₂
    dsimp only at h₂ ⊢
    cases yieldType resF resB with
    | none => exact h₂.framed
    | some type =>
      refine (h₂.always (only_taskIoYielder type)).bind fun res w₃ h₃ => ?_
      rw [always_ite]
      split
      · exact h₃.framed
      · exact ih h₃

/-- Before the loop begins nothing is read and nothing is handed on. -/
theorem Framed.always_splicer {rounds : Nat} (h : Framed fdB w) (hread : w.conn.read = []) :
    Always (cleanTunnel L fdA fdB) (Framed fdB) (splicer fdB rounds) w fun _ _ => True := by
  refine always_splicer_of_loop (I := fun w => Framed fdB w ∧ w.conn.read = []) (Q := fun _ => True)
    ?_ (fun _ => trivial) (fun _ _ h => ?_) ⟨h, hread⟩
  · rintro w w' β o b ho ⟨h, hread⟩ he
    have h' : Framed fdB w' := h.step ho.holds he.1
    have hkeep := (post_read _ _ _ _ ((only_op o).2 ho.not_takes) b w' he).2
    exact ⟨h', h', hkeep.trans hread⟩
  · have hsteady : Steady fdB 1 _ := ⟨h.1, fun _ => ⟨[], h.2⟩⟩
    exact hsteady.always_splicerLoop.mono fun _ _ _ => trivial

/-- **Nothing is relayed in part**, when the datagrams that arrive do no harm and the stream is
    read cleanly. -/
theorem relay_uncut {rounds : Nat} (htype : w.type = .udpInTcp ∨ w.type = .udpInUdp)
    (hw : w.Fresh) (hread : w.conn.read = [])
    (h : Reaches (cleanTunnel L w.fdA fdB) (splicer fdB rounds) w w') : w'.Uncut fdB := by
  rcases htype with htype | htype
  · have hframed : Framed fdB w :=
      ⟨htype, by simp [hw.2.1], by simp [hw.2.2.1], by simp [hw.2.2.2]⟩
    exact ((always_iff.1 (hframed.always_splicer hread)).1 w' h).uncut
  · have hfit := (always_iff.1 (always_received _ fun fd d hd => by simp [hw.1 fd] at hd)).1 w'
      (h.mono fun he => he.1)
    have hunmixed := (always_iff.1 (hw.unmixed htype).always_splicer).1 w' (h.mono fun he => he.1)
    have hfdA : w'.fdA = w.fdA := by
      have hkeep := always_of_step (E := cleanTunnel L w.fdA fdB) (w := w)
        (J := fun w' : Tunnel => w'.fdA = w.fdA) (I := fun w' => w'.fdA = w.fdA)
        (fun hfdA he => and_self_iff.2 ((tunnel_changes he.1).fdA.trans hfdA))
        (splicer fdB rounds) rfl
      exact (always_iff.1 hkeep).1 w' h
    rw [← hfdA] at hfit
    exact hunmixed.uncut hfit

end

/-! ## Two runs -/

/-- One octet for 192.0.2.7, port 53, in the first fragment of a datagram. -/
def fragment : Datagram := ⟨.zero, [0, 0, 1, 1, 192, 0, 2, 7, 0, 53, 104]⟩

theorem relay_uncut_exchange : ∃ w',
    Reaches (cleanTunnel (fun _ => True) 5 4) (splicer 4 1) freshTunnel w' ∧ w'.forwarded ≠ [] ∧
      w'.returned ≠ [] ∧ w'.Uncut 4 := by
  have hfits : ∀ fd, Fits (fun _ => True) 5 4 fd (if fd = 5 then query else answer) := by
    intro fd
    by_cases hfd : fd = 5
    · rw [if_pos hfd]
      exact ⟨fun _ => by simp [query, udpBufSize], fun _ => .inl ⟨by simp [query, udpBufSize], rfl⟩⟩
    · rw [if_neg hfd]
      exact ⟨fun _ => by simp [answer, udpBufSize], fun h => absurd h hfd⟩
  have hclean : ∀ w {β : Type} (o : Op β) b w', exchange query w o = some (b, w') →
      cleanTunnel (fun _ => True) 5 4 w o b w' := by
    refine fun w _ o b w' h => ⟨tunnel_of_exchange hfits w o b w' h, ?_⟩
    cases o <;> trivial
  obtain ⟨r, w, hrun, hw⟩ := exists_returns_of_exec hclean (x := splicer 4 1)
    (w := freshTunnel) (fun _ w => w.forwarded ≠ [] ∧ w.returned ≠ []) (by decide +kernel)
  have hne : w.forwarded ≠ [] ∧ w.returned ≠ [] := of_decide_eq_true hw
  have hreach := hrun.eq_or_reaches.resolve_left fun h => by
    rw [h] at hne
    exact hne.1 rfl
  exact ⟨w, hreach, hne.1, hne.2,
    relay_uncut (w := freshTunnel) (.inr rfl) ⟨fun _ => rfl, rfl, rfl, rfl⟩ rfl hreach⟩

/-- A fragment is relayed. -/
theorem not_relay_uncut : ¬ ∀ L fdB rounds w w', w.type = .udpInTcp ∨ w.type = .udpInUdp →
    w.Fresh → w.conn.read = [] →
    Reaches (tunnel L fun _ _ => True) (splicer fdB rounds) w w' → w'.Uncut fdB := by
  intro hall
  obtain ⟨r, w, hrun, hw⟩ := exists_returns_of_exec
    (tunnel_of_exchange (q := fragment) (A := fun _ _ => True) fun _ => trivial)
    (x := splicer 4 1) (w := freshTunnel)
    (fun _ w => w.type = .udpInUdp ∧ w.forwarded ≠ [] ∧ ∀ d ∈ w.received w.fdA, d.frag ≠ 0)
    (by decide +kernel)
  obtain ⟨htype, hne, hfrag⟩ := of_decide_eq_true hw
  have hreach := hrun.eq_or_reaches.resolve_left fun h => by
    rw [h] at hne
    exact hne rfl
  have huncut := hall _ 4 1 freshTunnel w (.inr rfl) ⟨fun _ => rfl, rfl, rfl, rfl⟩ rfl hreach
  obtain ⟨m, hm⟩ := List.exists_mem_of_ne_nil _ hne
  have hclient := huncut.forward m hm
  simp only [Tunnel.FromClient, htype] at hclient
  obtain ⟨d, hd, hzero, -⟩ := hclient
  exact hfrag d hd hzero

end HevSocks5
