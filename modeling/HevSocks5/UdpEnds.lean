/-
  An association of UDP-in-TCP, from end to end.

  Both ends of the connection run the splicer.  What the one writes to it, the
  other reads, in pieces of any size, at any time.  Datagrams arrive at both
  ends in any batches.  Any call may fail, but the calls on the connection do no
  harm: what is read is `Clean`, so a frame that was begun is completed or
  `fwd_f` fails, and what is written is `CleanSend`, so a batch is written as a
  whole or `fwd_b` fails.

  Then an end hands on some of the datagrams that the other end has received,
  in their order, each once, with its own octets and to the address it came
  from (`relayed_in_order`).
-/
import HevSocks5.Base.Joint
import HevSocks5.UdpIntact
import HevSocks5.UdpWhole

namespace HevSocks5

open Interact Sys HevSocks5UDP Relation

/-! ## One end -/

/-- The calls of a splicer, when the stream is `Clean`. -/
def clearTunnel (L : Resolver → Prop) : Env Op Tunnel := fun w _ o b w' =>
  tunnel L (fun _ _ => True) w o b w' ∧ Clean w.conn o b w'.conn

/-- What a splicer hands on of a frame: its data, to its address. -/
def Frame.Carries (f : Frame) (out : SockAddrIn6 × List Octet) : Prop :=
  out.2 = f.data ∧ ∀ saddr : SockAddrIn6, f.addr = saddr.octets → out.1 = saddr

/-- What was handed to `fdB` is of the frames, in their order. -/
structure Carried (fdB : Int) (fs : List Frame) (w : Tunnel) : Prop where
  type : w.type = .udpInTcp
  forwarded : List.SublistForall₂ (fun m f => m.1 = fdB ∧ Frame.Carries f m.2) w.forwarded fs

/-- What was handed on is of the first frames of the stream. -/
def Relaying (fdB : Int) (w : Tunnel) : Prop :=
  ∃ fs, Carried fdB fs w ∧ frames.words fs <+: w.conn.read

/-- And the stream was read to the end of a frame. -/
def Level (fdB : Int) (w : Tunnel) : Prop :=
  ∃ fs, Carried fdB fs w ∧ w.conn.read = frames.words fs

section
variable {L : Resolver → Prop} {fdB : Int} {fs gs : List Frame} {w w' : Tunnel} {α : Type}

theorem Level.relaying (h : Level fdB w) : Relaying fdB w := by
  obtain ⟨fs, hfs, hread⟩ := h
  exact ⟨fs, hfs, hread ▸ List.prefix_rfl⟩

theorem Carried.more (h : Carried fdB fs w) (gs : List Frame) : Carried fdB (fs ++ gs) w :=
  ⟨h.type, sublistForall₂_append_left h.forwarded gs⟩

theorem Carried.step {A : Int → Datagram → Prop} {β : Type} {o : Op β} {b : β}
    (h : Carried fdB fs w) (ho : o.Keeps) (he : tunnel L A w o b w') : Carried fdB fs w' := by
  have hc := tunnel_changes he
  refine ⟨hc.type.trans h.type, ?_⟩
  rw [(hc.keeps ho).1]
  exact h.forwarded

/-- Calls that hand nothing on. -/
theorem Carried.always {x : SysM α} (h : Carried fdB fs w) (hread : frames.words fs <+: w.conn.read)
    (hx : x.Only Op.Keeps) : Always (clearTunnel L) (Relaying fdB) x w fun _ w' =>
      Carried fdB fs w' ∧ frames.words fs <+: w'.conn.read := by
  refine hx.always (I := fun w' => Carried fdB fs w' ∧ frames.words fs <+: w'.conn.read) ?_
    ⟨h, hread⟩
  rintro w₁ w₂ β o b ho ⟨h₁, hread₁⟩ ⟨he, -⟩
  have h₂ := h₁.step ho he
  have hread₂ := hread₁.trans (tunnel_changes he).read
  exact ⟨⟨fs, h₂, hread₂⟩, h₂, hread₂⟩

/-- Calls that do not read, too. -/
theorem Carried.always_same {x : SysM α} (h : Carried fdB fs w)
    (hread : frames.words fs <+: w.conn.read) (hx : x.Only fun o => o.Keeps ∧ ¬ o.Takes) :
    Always (clearTunnel L) (Relaying fdB) x w fun _ w' =>
      Carried fdB fs w' ∧ w'.conn.read = w.conn.read := by
  refine ((h.always hread (hx.mono And.left)).mono fun _ _ h' => h'.1).and ?_
  refine hx.always (I := fun w' : Tunnel => w'.conn.read = w.conn.read) ?_ rfl
  rintro w₁ w₂ β o b ⟨-, ho⟩ hw ⟨he, -⟩
  exact ⟨trivial, ((tunnel_changes he).unread ho).trans hw⟩

theorem Sys.Op.Prepares.same {β : Type} {o : Op β} (h : o.Prepares) : o.Keeps ∧ ¬ o.Takes := by
  cases o <;> first | exact h.elim | exact ⟨trivial, id⟩

theorem Sys.Op.Yields.same {β : Type} {o : Op β} (h : o.Yields) : o.Keeps ∧ ¬ o.Takes := by
  cases o <;> first | exact h.elim | exact ⟨trivial, id⟩

theorem Sys.Op.Sets.same {β : Type} {o : Op β} (h : o.Sets) : o.Keeps ∧ ¬ o.Takes := by
  cases o <;> first | exact h.elim | exact ⟨trivial, id⟩

theorem Sys.Op.Receives.keeps {β : Type} {o : Op β} (h : o.Receives) : o.Keeps := by
  cases o <;> first | exact h.elim | trivial

/-! ## The receiving half of `fwd_f` -/

/-- The stream is read as in `cleanConn`. -/
theorem post_takes_clear {x : SysM α} (hx : x.Only Op.Takes) {Q : α → Conn → Prop}
    (h : Post cleanConn x w.conn Q) : Post (clearTunnel L) x w fun a w' => Q a w'.conn := by
  refine hx.always_proj Tunnel.conn ?_ h
  rintro w₁ w₂ β o b ho ⟨he, hclean⟩
  refine ⟨?_, hclean⟩
  cases o
  case recv | recvmsg =>
    obtain ⟨conn', hconn, rfl⟩ := he
    exact hconn
  all_goals exact ho.elim

/-- What a receive call of `fwd_f` has done: it is going to fail, or its entries hold the frames
    behind `fs`. -/
def Fetches (fs : List Frame) (r : Int × List Slot) (w : Tunnel) : Prop :=
  Fails r.1 w.conn ∨ ∃ gs got tail, w.conn.read = frames.words (fs ++ gs) ∧
    List.Forall₂ Slot.Holds got gs ∧ r.2 = got ++ tail ∧ r.1.toNat = got.length

theorem Carried.always_recvmmsg {bufs : List Mem} (h : Carried fdB fs w)
    (hread : w.conn.read = frames.words fs) :
    Always (clearTunnel L) (Relaying fdB) (recvmmsg (bufs.map fwdSlot) true) w fun r w' =>
      (Carried fdB fs w' ∧ frames.words fs <+: w'.conn.read) ∧ Fetches fs r w' := by
  refine (h.always (hread ▸ List.prefix_rfl) (only_recvmmsg.mono Op.Receives.keeps)).and ?_
  simp only [recvmmsg, always_bind, always_op]
  rintro self w₁ ⟨⟨htype, R, -, rfl⟩, -⟩
  refine ⟨trivial, ?_⟩
  simp only [htype, h.type, recvmmsgTcp, always_bind, always_op]
  rintro fd w₂ ⟨⟨-, rfl⟩, -⟩
  refine ⟨trivial, ?_⟩
  have hlen : ∀ s ∈ bufs.map fwdSlot, s.msg.len = UInt64.ofNat udpBufSize := by
    intro s hs
    obtain ⟨mem, -, rfl⟩ := List.mem_map.1 hs
    rfl
  have hloop := always_recvmmsgTcpLoop_clean fd true hlen
    (w := { w.conn with start := w.conn.read.length }) (Nat.le_refl _)
    fun _ => (rfl : ([] : List Slot) = [])
  refine (post_takes_clear (only_recvmmsgTcpLoop []) hloop).mono ?_
  rintro ⟨res, svec⟩ w' (hfails | ⟨gs, got, tail, hreads, hall, rfl, hres⟩)
  · exact .inl hfails
  · refine .inr ⟨gs, got, tail, ?_, hall, rfl, by simpa using hres⟩
    rw [PrefixCode.words_append, ← hread]
    exact hreads.read

/-! ## The sending half of `fwd_f` -/

theorem Mem.apply_of_read {m : Mem} {l : List Octet} {i : Nat} (h : m.read l.length = l)
    (hi : i < l.length) : Mem.ofList l i = m i := by
  have hget : (m.read l.length)[i]? = l[i]? := congrArg (·[i]?) h
  simp only [Mem.read, List.getElem?_map, List.getElem?_range hi, Option.map_some,
    List.getElem?_eq_getElem hi, Option.some.injEq] at hget
  rw [hget, Mem.ofList, List.getD_eq_getElem _ _ hi]

/-- What is made of an entry that holds a frame. -/
theorem Slot.Holds.carries {s : Slot} {f : Frame} {R : Resolver} {family : HevSocks5AddrFamily}
    {out : SockAddrIn6 × List Octet} (hs : s.Holds f)
    (h : HevSocks5UDPMsg.forward R family s.msg = some out) : f.Carries out := by
  obtain ⟨m, haddr, hread, hdata⟩ := hs
  simp only [HevSocks5UDPMsg.forward, haddr] at h
  rw [Option.ite_none_left_eq_some] at h
  obtain ⟨saddr', hdest, rfl⟩ := Option.map_eq_some_iff.1 h.2
  refine ⟨hdata, fun saddr hsaddr => ?_⟩
  have hoctets : m.read saddr.octets.length = saddr.octets := hsaddr ▸ hread
  have heq : ∀ i, i < saddr.octets.length → m i = Mem.ofList (saddr.octets ++ []) i := by
    intro i hi
    rw [List.append_nil, ← Mem.apply_of_read hoctets hi]
  have h4 := saddr.four_le_length_octets
  have hlen : hevSocks5AddrLen m = saddr.octets.length := by
    rw [← saddr.hevSocks5AddrLen_octets []]
    exact hevSocks5AddrLen_congr (heq 0 (by omega)) (heq 1 (by omega))
  have hcongr : R.destination family m = R.destination family (.ofList (saddr.octets ++ [])) :=
    Resolver.destination_congr (heq 0 (by omega)) (heq 1 (by omega)) fun i hi => heq i (by omega)
  rw [saddr.destination_octets] at hcongr
  exact Option.some.inj (hdest.symm.trans hcongr)

theorem carries_of_holds {got : List Slot} {dvec : List (SockAddrIn6 × List Octet)}
    (hdvec : List.Forall₂ (fun d m => ∃ R family, L R ∧ HevSocks5UDPMsg.forward R family m = some d)
      dvec (got.map (·.msg))) (h : List.Forall₂ Slot.Holds got gs) :
    List.Forall₂ (fun d f => Frame.Carries f d) dvec gs := by
  induction h generalizing dvec with
  | nil =>
    cases hdvec
    exact .nil
  | cons hs _ ih =>
    cases hdvec with
    | cons hd hdvec =>
      obtain ⟨R, family, -, hforward⟩ := hd
      exact .cons (hs.carries hforward) (ih hdvec)

/-- The first of these messages are handed on. -/
theorem Carried.handOver {dvec : List (SockAddrIn6 × List Octet)} {e : Errno} (k : Nat)
    (h : Carried fdB fs w) (hd : List.Forall₂ (fun d f => Frame.Carries f d) dvec gs) :
    Carried fdB (fs ++ gs)
      ((w.withErrno e).handOver fdB ((dvec.map fun d => (some d.1, d.2)).take k)) where
  type := h.type
  forwarded := by
    refine sublistForall₂_append h.forwarded ?_
    have hmap : ((dvec.map fun d => ((some d.1, d.2) : Option SockAddrIn6 × List Octet)).take
        k).filterMap (fun m => m.1.map fun a => (fdB, a, m.2)) =
          (dvec.take k).map fun d => (fdB, d) := by
      simp [← List.map_take, List.filterMap_map]
    rw [hmap, List.sublistForall₂_map_left_iff]
    refine List.sublistForall₂_iff.2 ⟨gs.take k, ?_, List.take_sublist k gs⟩
    exact (List.forall₂_take k hd).imp fun m f h => ⟨rfl, h⟩

theorem Carried.always_forward {got tail : List Slot} {bind : Bool} (h : Carried fdB fs w)
    (hread : w.conn.read = frames.words (fs ++ gs)) (hall : List.Forall₂ Slot.Holds got gs) :
    Always (clearTunnel L) (Relaying fdB) (forward fdB got.length (got ++ tail) bind) w
      fun _ w' => Level fdB w' := by
  have hpre : frames.words fs <+: w.conn.read := by
    rw [hread, PrefixCode.words_append]
    exact List.prefix_append _ _
  unfold forward
  rw [entries_append]
  have hresolve : Post (clearTunnel L) (resolveAll ((got.map (·.msg)).map some)) w _ :=
    (post_resolveAll_tunnel (isSet_of_holds hall) w).env fun he => he.1
  have hsame : (resolveAll ((got.map (·.msg)).map some)).Only fun o => o.Keeps ∧ ¬ o.Takes :=
    (only_resolveAll _).mono Op.Prepares.same
  refine ((h.always_same hpre hsame).and hresolve).bind ?_
  rintro (_ | dvec) w₁ ⟨⟨h₁, hread₁⟩, hdvec⟩
  · exact ⟨_, h₁.more gs, hread₁.trans hread⟩
  refine (h₁.always_same (hread₁ ▸ hpre)
    ((only_bindFirst _ _ dvec).mono Op.Prepares.same)).bind ?_
  rintro ok w₂ ⟨h₂, hread₂⟩
  replace hread₂ : w₂.conn.read = frames.words (fs ++ gs) := hread₂.trans (hread₁.trans hread)
  rw [always_ite]
  split
  · exact ⟨_, h₂.more gs, hread₂⟩
  simp only [always_bind, always_op, always_pure]
  rintro res' w₃ ⟨⟨k, e, -, -, rfl⟩, -⟩
  have h₃ := h₂.handOver (e := e) k (carries_of_holds (hdvec dvec rfl) hall)
  refine ⟨⟨_, h₃, hread₂ ▸ List.prefix_rfl⟩, ?_⟩
  refine (h₃.always_same (hread₂ ▸ List.prefix_rfl)
    ((only_fwdResult res').mono Op.Prepares.same)).mono ?_
  rintro _ w₄ ⟨h₄, hread₄⟩
  exact ⟨_, h₄, hread₄.trans hread₂⟩

/-- `fwd_f` fails when its receive call does. -/
theorem Fails.always_fwdRest_clear {fd res : Int} {svec : List Slot} {bind : Bool}
    (h : Fails res w.conn) :
    Post (clearTunnel L) (fwdRest fd res svec bind) w fun r _ => r.1 = -1 := by
  rw [fwdRest, if_neg (Int.not_lt.2 h.1)]
  refine Always.bind (R := fun ret _ => ret = -1) ?_ fun _ _ hret => hret
  rw [fwdResult, if_pos h.1]
  by_cases hres : res = -1
  · simp only [if_pos hres, always_bind, always_op, always_ite, always_pure]
    rintro e w' ⟨⟨rfl, rfl⟩, -⟩
    rw [if_neg fun he => h.2 ⟨hres, he⟩]
    exact ⟨trivial, trivial⟩
  · rw [if_neg hres]
    rfl

theorem Carried.always_fwdRest {res : Int} {svec : List Slot} {bind : Bool} (h : Carried fdB fs w)
    (hread : frames.words fs <+: w.conn.read) (hf : Fetches fs (res, svec) w) :
    Always (clearTunnel L) (Relaying fdB) (fwdRest fdB res svec bind) w fun r w' =>
      Relaying fdB w' ∧ (r.1 = -1 ∨ Level fdB w') := by
  rcases hf with hfails | ⟨gs, got, tail, hread', hall, rfl, hres⟩
  · have hle : ¬ res > 0 := Int.not_lt.2 hfails.1
    have hkeep : Always (clearTunnel L) (Relaying fdB) (fwdRest fdB res svec bind) w fun _ w' =>
        Carried fdB fs w' ∧ frames.words fs <+: w'.conn.read := by
      rw [fwdRest, if_neg hle]
      exact (h.always hread ((only_fwdResult res).mono fun ho => ho.same.1)).bind fun _ _ h' => h'
    refine (hkeep.and hfails.always_fwdRest_clear).mono ?_
    rintro r w' ⟨⟨h', hread'⟩, hr⟩
    exact ⟨⟨fs, h', hread'⟩, .inl hr⟩
  · refine Always.mono (Q := fun _ => Level fdB) ?_ fun _ _ h' => ⟨h'.relaying, .inr h'⟩
    rw [fwdRest, always_ite]
    split
    · dsimp only at hres
      rw [hres]
      exact h.always_forward hread' hall
    · have hsame := (only_fwdResult res).mono Op.Prepares.same
      refine ((h.more gs).always_same (hread' ▸ List.prefix_rfl) hsame).bind ?_
      rintro _ w' ⟨h', hkeep⟩
      exact ⟨_, h', hkeep.trans hread'⟩

/-! ## One round -/

theorem Level.always_fwdF {bufs : List Mem} {bind : Bool} (h : Level fdB w) :
    Always (clearTunnel L) (Relaying fdB) (fwdF fdB bufs bind) w fun r w' =>
      Relaying fdB w' ∧ (r.1 = -1 ∨ Level fdB w') := by
  obtain ⟨fs, h, hread⟩ := h
  unfold fwdF
  refine (h.always_recvmmsg hread).bind ?_
  rintro ⟨res, svec⟩ w₁ ⟨⟨h₁, hread₁⟩, hf⟩
  exact (h₁.always_fwdRest hread₁ hf).bind fun _ _ h' => h'

/-- `fwd_b` neither reads the stream nor hands a datagram on. -/
theorem Carried.always_fwdB {bufs : List Mem} (h : Carried fdB fs w)
    (hread : frames.words fs <+: w.conn.read) :
    Always (clearTunnel L) (Relaying fdB) (fwdB fdB bufs) w fun _ w' =>
      Carried fdB fs w' ∧ w'.conn.read = w.conn.read := by
  have hresult (res : Int) : (fwdResult res).Only fun o => o.Keeps ∧ ¬ o.Takes :=
    (only_fwdResult res).mono Op.Prepares.same
  unfold fwdB
  have hrecv : (hevTaskIoSocketRecvmmsg fdB (bufs.map fun _ => udpBufSize) .dontwait).Only
      fun o => o.Keeps ∧ ¬ o.Takes := (only_op _).2 ⟨trivial, id⟩
  refine (h.always_same hread hrecv).bind ?_
  rintro ⟨res, ds⟩ w₁ ⟨h₁, hread₁⟩
  have hrest (ret : Int) : Always (clearTunnel L) (Relaying fdB) (do
      return (← fwdResult ret, store bufs ds) : SysM (Int × List Mem)) w₁ fun _ w' =>
        Carried fdB fs w' ∧ w'.conn.read = w₁.conn.read :=
    h₁.always_same (hread₁ ▸ hread) (.bind (hresult ret) fun _ => only_pure _)
  rw [← hread₁] at hread ⊢
  dsimp only
  rw [always_ite]
  split
  swap
  · exact hrest res
  simp only [sendmmsg, always_bind, always_op]
  rintro self w₂ ⟨⟨htype, R, -, rfl⟩, -⟩
  have h₂ : Carried fdB fs { w₁ with resolver := R } := ⟨h₁.type, h₁.forwarded⟩
  refine ⟨⟨fs, h₂, hread⟩, ?_⟩
  rw [htype.trans h₁.type]
  dsimp only
  have hsend (msgv : List OutMsg) : (sendmmsgTcp msgv).Only fun o => o.Keeps ∧ ¬ o.Takes := by
    unfold sendmmsgTcp
    cases gather OutMsg.frame msgv with
    | none => exact only_pure _
    | some iov =>
      exact .bind ((only_op _).2 ⟨trivial, id⟩) fun fd =>
        .bind ((only_op _).2 ⟨trivial, id⟩) fun res => .ite (only_pure _) (only_pure _)
  refine (h₂.always_same hread (hsend _)).mono ?_
  rintro res' w₃ ⟨h₃, hread₃⟩
  rw [← hread₃] at hread ⊢
  exact (h₃.always_same hread (hresult res')).mono fun _ _ h' => h'

/-! ## The splicer -/

/-- As long as `fwd_f` has not failed, the stream was read to the end of a frame. -/
structure Running (fdB resF : Int) (w : Tunnel) : Prop where
  relaying : Relaying fdB w
  level : 0 ≤ resF → Level fdB w

theorem Running.always_same {x : SysM α} {resF : Int} (h : Running fdB resF w)
    (hx : ∀ {fs w}, Carried fdB fs w → frames.words fs <+: w.conn.read →
      Always (clearTunnel L) (Relaying fdB) x w fun _ w' =>
        Carried fdB fs w' ∧ w'.conn.read = w.conn.read) :
    Always (clearTunnel L) (Relaying fdB) x w fun _ w' => Running fdB resF w' := by
  by_cases hres : 0 ≤ resF
  · obtain ⟨fs, hfs, hread⟩ := h.level hres
    refine (hx hfs (hread ▸ List.prefix_rfl)).mono ?_
    rintro _ w' ⟨hfs', hread'⟩
    have hlevel : Level fdB w' := ⟨fs, hfs', hread'.trans hread⟩
    exact ⟨hlevel.relaying, fun _ => hlevel⟩
  · obtain ⟨fs, hfs, hread⟩ := h.relaying
    refine (hx hfs hread).mono ?_
    rintro _ w' ⟨hfs', hread'⟩
    exact ⟨⟨fs, hfs', hread'.symm ▸ hread⟩, fun h => absurd h hres⟩

theorem Running.always_stepF {resF : Int} {bind : Bool} {bufs : List Mem}
    (h : Running fdB resF w) :
    Always (clearTunnel L) (Relaying fdB) (stepF fdB resF bind bufs) w fun r w' =>
      Running fdB r.1 w' := by
  rw [stepF, always_ite]
  split
  · rename_i hres
    refine (h.level hres).always_fwdF.mono ?_
    rintro ⟨ret, _⟩ w' ⟨h', hlevel⟩
    exact ⟨h', fun hret => hlevel.resolve_left fun hm => by dsimp only at hm hret; omega⟩
  · exact h

theorem Running.always_stepB {resF resB : Int} {bufs : List Mem} (h : Running fdB resF w) :
    Always (clearTunnel L) (Relaying fdB) (stepB fdB resB bufs) w fun _ w' =>
      Running fdB resF w' := by
  rw [stepB, always_ite]
  split
  · exact h.always_same fun hfs hread => hfs.always_fwdB hread
  · exact h

theorem Running.always_splicerLoop {rounds : Nat} {resF resB : Int} {bind : Bool}
    {bufsF bufsB : List Mem} (h : Running fdB resF w) :
    Always (clearTunnel L) (Relaying fdB) (splicerLoop fdB rounds resF resB bind bufsF bufsB) w
      fun _ w' => Relaying fdB w' := by
  induction rounds generalizing resF resB bind bufsF bufsB w with
  | zero => exact h.relaying
  | succ rounds ih =>
    unfold splicerLoop
    refine h.always_stepF.bind ?_
    rintro ⟨resF, bind, bufsF⟩ w₁ h₁
    refine h₁.always_stepB.bind ?_
    rintro ⟨resB, bufsB⟩ w₂ h₂
    dsimp only at h₂ ⊢
    cases yieldType resF resB with
    | none => exact h₂.relaying
    | some type =>
      have hyield := (only_taskIoYielder type).mono Op.Yields.same
      refine (h₂.always_same fun hfs hread => hfs.always_same hread hyield).bind ?_
      rintro res w₃ h₃
      rw [always_ite]
      split
      · exact h₃.relaying
      · exact ih h₃

theorem Level.always_splicer {rounds : Nat} (h : Level fdB w) :
    Always (clearTunnel L) (Relaying fdB) (splicer fdB rounds) w fun _ w' => Relaying fdB w' := by
  refine always_splicer_of_loop (I := Level fdB) ?_ Level.relaying (fun _ _ h => ?_) h
  · rintro w₁ w₂ β o b ho ⟨fs, hfs, hread⟩ ⟨he, -⟩
    have hlevel : Level fdB w₂ :=
      ⟨fs, hfs.step ho.same.1 he, ((tunnel_changes he).unread ho.same.2).trans hread⟩
    exact ⟨hlevel.relaying, hlevel⟩
  · exact Running.always_splicerLoop ⟨h.relaying, fun _ => h⟩

end

/-! ## The frames that are written -/

theorem Line.Complete.always_splicer {fd : Int} {rounds : Nat} {w : Line} (h : w.Complete) :
    Always cleanLine Line.Intact (splicer fd rounds) w fun _ w' => w'.Intact := by
  refine always_splicer_of_loop (I := Line.Complete) ?_ Line.Complete.intact
    (fun _ _ h => always_splicerLoop_line h.intact fun _ => h) h
  rintro w₁ w₂ β o b ho h₁ ⟨he, -⟩
  have hw₂ : ∃ e, w₂ = { w₁ with errno := e } := by
    cases o <;> first | exact ho.elim | exact he
  obtain ⟨e, rfl⟩ := hw₂
  exact ⟨h₁.errno.intact, h₁.errno⟩

/-! ## From end to end -/

/-- An end of an association: its sockets, and what it writes to the connection. -/
structure Terminal where
  tunnel : Tunnel
  line : Line

namespace Terminal

/-- The calls of the splicer at an end; there is one `errno`. -/
def answers (L : Resolver → Prop) : Env Op Terminal := fun w _ o b w' =>
  clearTunnel L w.tunnel o b w'.tunnel ∧ cleanLine w.line o b w'.line ∧
    w'.tunnel.conn.errno = w'.line.errno

/-- The octets that it has written. -/
def sent (w : Terminal) : List Octet := w.line.writes.flatten

/-- Each has read a beginning of what the other has written. -/
def Wired (w v : Terminal) : Prop :=
  w.tunnel.conn.read <+: v.sent ∧ v.tunnel.conn.read <+: w.sent

/-- Before the splicer begins. -/
structure Fresh (w : Terminal) : Prop where
  type : w.tunnel.type = .udpInTcp
  read : w.tunnel.conn.read = []
  forwarded : w.tunnel.forwarded = []
  arrived : w.line.arrived = []
  writes : w.line.writes = []

variable {L : Resolver → Prop} {fd : Int} {rounds : Nat} {w v : Terminal}

theorem Fresh.level (h : w.Fresh) : Level fd w.tunnel := by
  refine ⟨[], ⟨h.type, ?_⟩, h.read⟩
  rw [h.forwarded]
  exact .nil

theorem Fresh.complete (h : w.Fresh) : w.line.Complete := by
  refine ⟨by simp [Line.frames, h.arrived, h.writes], fun l hl => ⟨[], ?_⟩⟩
  rw [h.writes, List.prefix_nil] at hl
  rw [hl]
  rfl

theorem Fresh.always_splicer (h : w.Fresh) (fd : Int) (rounds : Nat) :
    Always (answers L) (fun w' => Relaying fd w'.tunnel ∧ w'.line.Intact) (splicer fd rounds) w
      fun _ w' => Relaying fd w'.tunnel ∧ w'.line.Intact :=
  (Always.view tunnel (fun he => he.1) h.level.always_splicer).both
    (Always.view line (fun he => he.2.1) h.complete.always_splicer)

/-- What an end has handed to `fd` is of what has arrived at the other, in order. -/
def Delivers (fd : Int) (w v : Terminal) : Prop :=
  w.tunnel.forwarded.Sublist (v.line.arrived.map fun d => (fd, d.src, d.data.take udpBufSize))

theorem delivers_of_wired (hw : Relaying fd w.tunnel) (hv : v.line.Intact)
    (hread : w.tunnel.conn.read <+: v.sent) : Delivers fd w v := by
  obtain ⟨fs, hfs, hwords⟩ := hw
  -- the frames read are the first ones of those written
  have hpre : fs <+: v.line.arrived.map (·.toFrame) :=
    PrefixCode.prefix_of_words_prefix ((hwords.trans hread).trans hv.inOrder)
  obtain ⟨l, hl, hsub⟩ := List.sublistForall₂_iff.1 hfs.forwarded
  obtain ⟨ds, hds, rfl⟩ := List.sublist_map_iff.1 (hsub.trans hpre.sublist)
  have heq : w.tunnel.forwarded = ds.map fun d => (fd, d.src, d.data.take udpBufSize) := by
    rw [List.forall₂_map_right_iff] at hl
    refine List.forall₂_eq_eq_eq ▸ List.forall₂_map_right_iff.2 (hl.imp ?_)
    rintro ⟨fd', src, data⟩ d ⟨rfl, rfl, hsrc⟩
    obtain rfl := hsrc d.src rfl
    rfl
  rw [Delivers, heq]
  exact hds.map _

/-- **In order, from end to end.**  The splicers of an association of UDP-in-TCP run in any order,
    and their calls on the connection are `Clean` and `CleanSend`; the others may fail in any way.
    Each hands to its socket only datagrams that the other has received, in their order, none
    twice, each with its own octets, as far as they fit into a slot, and for the address from
    which it came. -/
theorem relayed_in_order {L' : Resolver → Prop} {fd' : Int} {rounds' : Nat} (hw : w.Fresh)
    (hv : v.Fresh) {n : Joint Op Terminal Int Op Terminal Int}
    (hr : ReflTransGen (Joint.Step (answers L) (answers L') Wired)
      ⟨splicer fd rounds, w, splicer fd' rounds', v⟩ n) :
    Delivers fd n.leftWorld n.rightWorld ∧ Delivers fd' n.rightWorld n.leftWorld := by
  have hkept : Joint.Kept (answers L) (answers L') Wired
      (fun w' => Relaying fd w'.tunnel ∧ w'.line.Intact)
      (fun v' => Relaying fd' v'.tunnel ∧ v'.line.Intact) (fun _ _ => True) (fun _ _ => True)
      ⟨splicer fd rounds, w, splicer fd' rounds', v⟩ := by
    refine ⟨(hw.always_splicer fd rounds).mono fun _ _ _ => trivial,
      (hv.always_splicer fd' rounds').mono fun _ _ _ => trivial,
      ⟨hw.level.relaying, hw.complete.intact⟩, ⟨hv.level.relaying, hv.complete.intact⟩, ?_, ?_⟩
    · show w.tunnel.conn.read <+: _
      rw [hw.read]
      exact List.nil_prefix
    · show v.tunnel.conn.read <+: _
      rw [hv.read]
      exact List.nil_prefix
  have h := hkept.run hr
  exact ⟨delivers_of_wired h.leftWorld.1 h.rightWorld.2 h.link.1,
    delivers_of_wired h.rightWorld.1 h.leftWorld.2 h.link.2⟩

/-! ## A run -/

/-- Before the splicer begins; the stream is going to be `rest`. -/
def idle (rest : List Octet) : Terminal :=
  ⟨⟨.udpInTcp, 3, noNames, ⟨[], rest, .other, 0⟩, fun _ => [], [], [], []⟩, freshLine⟩

/-- After a call that has left `e` behind. -/
def leaves (w : Terminal) (e : Errno) : Terminal :=
  ⟨w.tunnel.withErrno e, { w.line with errno := e }⟩

/-- `k` octets are taken from the stream. -/
def takes (w : Terminal) (k : Nat) (e : Errno) : Terminal :=
  ⟨{ w.tunnel with conn := w.tunnel.conn.take k e }, { w.line with errno := e }⟩

/-- Datagrams arrive at a socket. -/
def arrives (w : Terminal) (fd : Int) (ds : List Datagram) (e : Errno) : Terminal :=
  ⟨{ w.tunnel.withErrno e with
    received := Function.update w.tunnel.received fd (w.tunnel.received fd ++ ds) },
    w.line.arrive (ds.map (·.truncate)) e⟩

/-- Each call succeeds that can, and the datagram `d` arrives. -/
def succeeds (d : Option Datagram) : Terminal → {β : Type} → Op β → Option (β × Terminal) :=
  fun w _ o =>
  let rest := w.tunnel.conn.rest
  match o with
  | .base => some (⟨3, -1, .udpInTcp, false, .unspec⟩, w)
  | .getFd => some (w.tunnel.fdA, { w with tunnel.conn.start := w.tunnel.conn.read.length })
  | .errno => some (w.line.errno, w)
  | .udpCopyBufferNums => some (1, w.leaves .other)
  | .malloc => some (some fun _ => .undef, w.leaves .other)
  | .modFd _ => some (0, w.leaves .other)
  | .addFd _ => some (0, w.leaves .other)
  | .binder _ _ => some (0, w.leaves .other)
  | .taskYield _ => some ((), w.leaves .other)
  | .recv _ n flags =>
    if flags = .waitall then none
    else if n ≤ rest.length then some (⟨n, rest.take n⟩, w.takes n .other)
    else some (⟨-1, []⟩, w.takes 0 .eagain)
  | .recvmsg _ n =>
    if n ≤ rest.length then some (⟨n, rest.take n⟩, w.takes n .other) else none
  | .recvmmsg fd lens _ =>
    match d with
    | some d =>
      if w.line.arrived = [] ∧ lens = [udpBufSize] then
        some ((1, [d.truncate]), w.arrives fd [d] .other)
      else some ((-1, []), w.arrives fd [] .eagain)
    | none => some ((-1, []), w.arrives fd [] .eagain)
  | .sendmsg _ data =>
    some (data.length, ⟨{ w.tunnel.withErrno .other with written := w.tunnel.written ++ [data] },
      w.line.write data .other⟩)
  | .sendmmsg fd msgs =>
    some (msgs.length, ⟨(w.tunnel.withErrno .other).handOver fd msgs,
      { w.line with errno := .other }⟩)
  | _ => none

/-- As long as the type and `errno` are as they should be. -/
def proceeds (d : Option Datagram) : Terminal → {β : Type} → Op β → Option (β × Terminal) :=
  fun w _ o => (w.succeeds d o).filter fun r =>
    w.tunnel.type = .udpInTcp ∧ w.tunnel.conn.errno = w.line.errno ∧
      r.2.tunnel.conn.errno = r.2.line.errno

theorem answers_of_proceeds (d : Option Datagram) (w : Terminal) {β : Type} (o : Op β) (b : β)
    (w' : Terminal) (hp : w.proceeds d o = some (b, w')) : answers (fun _ => True) w o b w' := by
  obtain ⟨h, hok⟩ := Option.filter_eq_some_iff.1 hp
  clear hp
  obtain ⟨htype, herrno, herrno'⟩ := of_decide_eq_true hok
  suffices (clearTunnel (fun _ => True) w.tunnel o b w'.tunnel) ∧ cleanLine w.line o b w'.line from
    ⟨this.1, this.2, herrno'⟩
  -- the datagrams that arrive are cut to the slots
  have harrive (fd : Int) (ds : List Datagram) (e : Errno) (res : Int) (lens : List Nat)
      (flags : MsgFlags) (hlens : ds = [] ∨ lens = ds.map fun _ => udpBufSize)
      (hres : res = ds.length ∨ res ≤ 0 ∧ ds = []) :
      clearTunnel (fun _ => True) w.tunnel (.recvmmsg fd lens flags) (res, ds.map (·.truncate))
          (w.arrives fd ds e).tunnel ∧
        cleanLine w.line (.recvmmsg fd lens flags) (res, ds.map (·.truncate))
          (w.arrives fd ds e).line := by
    have hlen : ds.length ≤ lens.length := by
      rcases hlens with rfl | rfl
      · exact Nat.zero_le _
      · rw [List.length_map]
    have hcut : ds.map (·.truncate) =
        List.zipWith (fun d n => { d with data := d.data.take n : Datagram }) ds lens := by
      rcases hlens with rfl | rfl
      · rfl
      · rw [List.zipWith_map_right, List.zipWith_self]
        rfl
    refine ⟨⟨⟨ds, e, fun _ _ => trivial, hlen, hres, hcut, rfl⟩, trivial⟩, ⟨e, rfl, ?_, ?_⟩,
      trivial⟩
    · rcases hres with rfl | ⟨hle, rfl⟩
      · exact .inl ⟨by rw [List.length_map], by rwa [List.length_map]⟩
      · exact .inr ⟨hle, rfl⟩
    · intro d hd
      obtain ⟨d', -, rfl⟩ := List.mem_map.1 hd
      exact List.length_take_le _ _
  cases o <;> simp only [succeeds, Option.some.injEq, Prod.mk.injEq, reduceCtorEq] at h
  case base =>
    obtain ⟨rfl, rfl⟩ := h
    exact ⟨⟨⟨htype.symm, _, trivial, rfl⟩, trivial⟩, ⟨rfl, rfl⟩, trivial⟩
  case errno =>
    obtain ⟨rfl, rfl⟩ := h
    exact ⟨⟨⟨herrno.symm, rfl⟩, trivial⟩, ⟨rfl, rfl⟩, trivial⟩
  case getFd =>
    obtain ⟨rfl, rfl⟩ := h
    exact ⟨⟨⟨rfl, rfl⟩, trivial⟩, ⟨_, rfl⟩, trivial⟩
  case recv fd n flags =>
    rw [Option.ite_none_left_eq_some] at h
    obtain ⟨hflags, h⟩ := h
    split at h
    · rename_i hn
      obtain ⟨rfl, rfl⟩ := Prod.mk.inj (Option.some.inj h)
      refine ⟨⟨⟨_, ?_, rfl⟩, ?_⟩, ⟨_, rfl⟩, trivial⟩
      · rw [conn, if_neg hflags]
        exact ⟨n, .other, Nat.le_refl n, hn, rfl, rfl, .inl rfl⟩
      · simp only [Clean, hflags, false_and, if_false]
        exact fun _ _ h => by cases h
    · obtain ⟨rfl, rfl⟩ := Prod.mk.inj (Option.some.inj h)
      refine ⟨⟨⟨_, ?_, rfl⟩, ?_⟩, ⟨_, rfl⟩, trivial⟩
      · rw [conn, if_neg hflags]
        exact ⟨0, .eagain, Nat.zero_le _, Nat.zero_le _, rfl, rfl, .inr ⟨rfl, by decide⟩⟩
      · simp only [Clean, hflags, false_and, if_false]
        exact fun hn => absurd hn (by omega)
  case recvmsg fd n =>
    rw [Option.ite_none_right_eq_some, Option.some.injEq, Prod.mk.injEq] at h
    obtain ⟨hn, rfl, rfl⟩ := h
    refine ⟨⟨⟨_, ?_, rfl⟩, .inl rfl⟩, ⟨_, rfl⟩, trivial⟩
    exact ⟨n, .other, Nat.le_refl n, hn, rfl, rfl, .inl ⟨rfl, rfl⟩⟩
  case recvmmsg fd lens flags =>
    cases d with
    | none =>
      obtain ⟨rfl, rfl⟩ := Prod.mk.inj (Option.some.inj h)
      exact harrive fd [] .eagain (-1) lens flags (.inl rfl) (.inr ⟨by decide, rfl⟩)
    | some d =>
      dsimp only at h
      split at h
      · rename_i hlens
        obtain ⟨rfl, rfl⟩ := Prod.mk.inj (Option.some.inj h)
        exact harrive fd [d] .other 1 lens flags (.inr hlens.2) (.inl rfl)
      · obtain ⟨rfl, rfl⟩ := Prod.mk.inj (Option.some.inj h)
        exact harrive fd [] .eagain (-1) lens flags (.inl rfl) (.inr ⟨by decide, rfl⟩)
  case sendmsg fd data =>
    obtain ⟨rfl, rfl⟩ := h
    refine ⟨⟨⟨.other, rfl⟩, trivial⟩, ⟨data.length, .other, Nat.le_refl _, ?_, .inr rfl⟩, .inl rfl⟩
    rw [List.take_length]
    rfl
  case sendmmsg fd msgs =>
    obtain ⟨rfl, rfl⟩ := h
    refine ⟨⟨⟨msgs.length, .other, Nat.le_refl _, fun _ => rfl, ?_⟩, trivial⟩, ⟨_, rfl⟩, trivial⟩
    rw [List.take_length]
  all_goals
    obtain ⟨-, rfl⟩ := h
    exact ⟨⟨⟨_, rfl⟩, trivial⟩, ⟨_, rfl⟩, trivial⟩

/-- Each has read a beginning of what the other has written. -/
def wiredNow (w v : Terminal) : Bool :=
  w.tunnel.conn.read.isPrefixOf v.sent && v.tunnel.conn.read.isPrefixOf w.sent

theorem wired_of_now (w v : Terminal) (h : wiredNow w v = true) : Wired w v := by
  obtain ⟨hw, hv⟩ := Bool.and_eq_true_iff.1 h
  exact ⟨List.isPrefixOf_iff_prefix.1 hw, List.isPrefixOf_iff_prefix.1 hv⟩

/-- A datagram arrives at the right end. -/
def oneDatagram : Joint Op Terminal Int Op Terminal Int :=
  (⟨splicer 4 1, idle (frames.words [octetDatagram.toFrame]), splicer 5 1, idle []⟩ :
    Joint Op Terminal Int Op Terminal Int).drive (proceeds none) (proceeds (some octetDatagram))
      wiredNow 80

theorem relayed_in_order_one : oneDatagram.leftWorld.tunnel.forwarded ≠ [] ∧
    Delivers 4 oneDatagram.leftWorld oneDatagram.rightWorld ∧
      Delivers 5 oneDatagram.rightWorld oneDatagram.leftWorld := by
  have hne : oneDatagram.leftWorld.tunnel.forwarded ≠ [] := by decide +kernel
  have hfresh (rest : List Octet) : (idle rest).Fresh := ⟨rfl, rfl, rfl, rfl, rfl⟩
  exact ⟨hne, relayed_in_order (hfresh _) (hfresh _) (Joint.reaches_drive
    (answers_of_proceeds none) (answers_of_proceeds (some octetDatagram)) wired_of_now 80 _)⟩

end Terminal

end HevSocks5
