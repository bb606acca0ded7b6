/-
  The source of the messages of a UDP association.

  In UDP-in-UDP mode the relay socket is not connected at first.  When the
  first batch has been received, `recvmmsg_udp` connects it to the sender of
  the first datagram; only what arrives afterwards comes from that sender.
  What is in the batch, or waits behind it, may come from anyone.

  So all messages come from one source when all that arrives before the socket
  is connected does (`single_source`).
-/
import HevSocks5.UdpCalls

namespace HevSocks5

open Interact Sys HevSocks5UDP

/-- The relay socket and its association. -/
structure RelaySocket where
  fd : Int
  self : HevSocks5Obj
  /-- the endpoint that the socket is connected to -/
  peer : Option SockAddrIn6
  /-- datagrams that have arrived and wait -/
  queue : List Datagram
  /-- datagrams that were received -/
  got : List Datagram
  errno : Errno

namespace RelaySocket

def arrive (w : RelaySocket) (ds : List Datagram) : RelaySocket :=
  { w with queue := w.queue ++ ds }

/-- Datagrams are received in the order in which they have arrived, whoever sent them. -/
def Recvmmsg (w : RelaySocket) (lens : List Nat) (r : Int × List Datagram) (w' : RelaySocket) :
    Prop :=
  (r.1 ≤ 0 ∧ r.2 = [] ∧ ∃ e, w' = { w with errno := e }) ∨
    ∃ n e, 0 < n ∧ n ≤ lens.length ∧ n ≤ w.queue.length ∧ r.1 = n ∧
      r.2 = List.zipWith (fun d len => { d with data := d.data.take len }) (w.queue.take n) lens ∧
      w' = { w with queue := w.queue.drop n, got := w.got ++ w.queue.take n, errno := e }

/-- The system calls, as far as they are about the relay socket. -/
def step (w : RelaySocket) {β : Type} (o : Op β) (b : β) (w' : RelaySocket) : Prop :=
  match o with
  | .base => b = w.self ∧ w' = w
  | .setBase self => w' = { w with self }
  | .getFd => b = w.fd ∧ w' = w
  | .errno => b = w.errno ∧ w' = w
  | .recvmmsg fd lens _ =>
    if fd = w.fd then w.Recvmmsg lens b w' else ∃ e, w' = { w with errno := e }
  | .connect fd addr =>
    if fd = w.fd ∧ 0 ≤ b then w' = { w with peer := some addr } else ∃ e, w' = { w with errno := e }
  | _ => ∃ e, w' = { w with errno := e }

end RelaySocket

/-- Before every call datagrams may arrive; `A` says which, by the endpoint that the socket is
    connected to. -/
def relaySocket (A : Option SockAddrIn6 → Datagram → Prop) : Env Op RelaySocket := fun w _ o b w' =>
  ∃ ds, (∀ d ∈ ds, A w.peer d) ∧ (w.arrive ds).step o b w'

/-- Anyone may send to a socket that is not connected. -/
def AnySender (peer : Option SockAddrIn6) (d : Datagram) : Prop := ∀ p ∈ peer, d.src = p

/-- **The arrivals that do no harm**: only `p` sends to the socket as long as it is not
    connected. -/
def OneSender (p : SockAddrIn6) (peer : Option SockAddrIn6) (d : Datagram) : Prop :=
  d.src = peer.getD p

/-- The calls that are not about the relay socket. -/
def Elsewhere (fd : Int) {β : Type} : Op β → Prop
  | .recvmmsg fd' .. => fd' ≠ fd
  | .connect fd' _ => fd' ≠ fd
  | _ => True

/-- **An association**, and the sources of all messages that `recvmmsg_udp` has returned for it.
    Between its calls the splicer makes other calls. -/
inductive Association (E : Env Op RelaySocket) : RelaySocket → List SockAddrIn6 → Prop
  | start {w : RelaySocket} (h : w.peer = none ∧ w.queue = [] ∧ w.got = []) : Association E w []
  | other {w w' : RelaySocket} {srcs : List SockAddrIn6} {β : Type} {o : Op β} {b : β} :
      Association E w srcs → Elsewhere w.fd o → E w o b w' → Association E w' srcs
  | call {w w' : RelaySocket} {srcs : List SockAddrIn6} {slots svec : List Slot} {nonblock : Bool}
      {res : Int} : Association E w srcs →
      Returns E (recvmmsgUdp slots nonblock) w (res, svec) w' →
      Association E w' (srcs ++ ((w'.got.drop w.got.length).take res.toNat).map (·.src))

theorem RelaySocket.step_fd {w w' : RelaySocket} {β : Type} {o : Op β} {b : β}
    (h : w.step o b w') : w'.fd = w.fd := by
  cases o
  case recvmmsg fd lens flags =>
    rw [step] at h
    split at h
    · rcases h with ⟨-, -, e, rfl⟩ | ⟨n, e, -, -, -, -, -, rfl⟩ <;> rfl
    · obtain ⟨e, rfl⟩ := h
      rfl
  case connect fd addr =>
    rw [step] at h
    split at h
    · rw [h]
    · obtain ⟨e, rfl⟩ := h
      rfl
  case base | getFd | errno => exact congrArg _ h.2
  case setBase =>
    obtain rfl := h
    rfl
  all_goals
    obtain ⟨e, rfl⟩ := h
    rfl

section
variable {A : Option SockAddrIn6 → Datagram → Prop} {w w' : RelaySocket} {srcs : List SockAddrIn6}

/-- The parts of the splicer that make no calls about the relay socket. -/
theorem Association.only {α : Type} {x : SysM α} {a : α} {fd : Int}
    (hx : x.Only (Elsewhere fd)) (h : Association (relaySocket A) w srcs) (hfd : w.fd = fd)
    (hrun : Returns (relaySocket A) x w a w') : Association (relaySocket A) w' srcs := by
  induction hrun with
  | ret a w => exact h
  | call he hr ih =>
    have hother := hx.1
    rw [← hfd] at hother
    obtain ⟨ds, hds, hs⟩ := he
    have hfd' := RelaySocket.step_fd hs
    exact ih (hx.2 _) (.other h hother ⟨ds, hds, hs⟩) (hfd'.trans hfd)

theorem elsewhere_of_forwards {fd : Int} {β : Type} {o : Op β} (h : o.Forwards) :
    Elsewhere fd o := by
  cases o <;> trivial

/-- What `fwd_f` relays was returned by `recvmmsg_udp`. -/
theorem Association.fwdF {fd : Int} {bufs : List Mem} {bind : Bool} {r : Int × Bool × List Mem}
    (h : Association (relaySocket A) w srcs) (htype : w.self.type = .udpInUdp)
    (hrun : Returns (relaySocket A) (fwdF fd bufs bind) w r w') :
    ∃ srcs', Association (relaySocket A) w' (srcs ++ srcs') := by
  simp only [HevSocks5UDP.fwdF, recvmmsg, returns_bind, returns_op, returns_pure] at hrun
  obtain ⟨⟨res, svec⟩, w₂, ⟨self, w₁, hbase, hrecv⟩, q, w₃, hrest, -, rfl⟩ := hrun
  have h₁ : Association (relaySocket A) w₁ srcs := h.other (o := .base) trivial hbase
  obtain ⟨ds, -, rfl, rfl⟩ := hbase
  rw [show (w.arrive ds).self.type = .udpInUdp from htype] at hrecv
  exact ⟨_, (h₁.call hrecv).only ((only_fwdRest _ _ _ _).mono elsewhere_of_forwards) rfl hrest⟩

end

/-- All messages come from the sender of the first datagram that was received. -/
def SingleSource (w : RelaySocket) (srcs : List SockAddrIn6) : Prop :=
  ∀ s ∈ srcs, w.got.head?.map (·.src) = some s

/-! ## One sender -/

/-- All that has arrived comes from `p`. -/
structure RelaySocket.From (p : SockAddrIn6) (w : RelaySocket) : Prop where
  peer : ∀ q ∈ w.peer, q = p
  queue : ∀ d ∈ w.queue, d.src = p
  got : ∀ d ∈ w.got, d.src = p

section
variable {p : SockAddrIn6} {w w' : RelaySocket} {fd : Int}

theorem RelaySocket.From.arrive {ds : List Datagram} (h : w.From p)
    (hds : ∀ d ∈ ds, OneSender p w.peer d) : (w.arrive ds).From p where
  peer := h.peer
  got := h.got
  queue d hd := by
    rcases List.mem_append.1 hd with hd | hd
    · exact h.queue d hd
    · have hsrc : d.src = w.peer.getD p := hds d hd
      cases hp : w.peer with
      | none => rwa [hp] at hsrc
      | some q =>
        rw [hp] at hsrc
        exact hsrc.trans (h.peer q hp)

theorem RelaySocket.From.errno {e : Errno} (h : w.From p) :
    ({ w with errno := e } : RelaySocket).From p :=
  ⟨h.peer, h.queue, h.got⟩

/-- What is received extends what was received, and all of it comes from `p`. -/
theorem RelaySocket.From.recvmmsg {lens : List Nat} {r : Int × List Datagram} (h : w.From p)
    (hr : w.Recvmmsg lens r w') :
    w'.From p ∧ w.got <+: w'.got ∧ (∀ d ∈ r.2, d.src = p) ∧ (0 < r.1 → r.2 ≠ []) ∧
      w'.fd = w.fd := by
  rcases hr with ⟨h0, hnil, e, rfl⟩ | ⟨n, e, h0, hlen, hq, hn, hds, rfl⟩
  · refine ⟨h.errno, List.prefix_rfl, ?_, fun h => absurd h (by omega), rfl⟩
    rw [hnil]
    simp
  · refine ⟨⟨h.peer, fun d hd => h.queue d (List.mem_of_mem_drop hd), fun d hd => ?_⟩,
      List.prefix_append _ _, fun d hd => ?_, fun _ hnil => ?_, rfl⟩
    · rcases List.mem_append.1 hd with hd | hd
      · exact h.got d hd
      · exact h.queue d (List.mem_of_mem_take hd)
    · rw [hds] at hd
      obtain ⟨i, hi, rfl⟩ := List.getElem_of_mem hd
      rw [List.getElem_zipWith]
      have hi' : i < (w.queue.take n).length := by
        rw [List.length_zipWith] at hi
        omega
      have hsrc : ((w.queue.take n)[i]).src = p :=
        h.queue _ (List.mem_of_mem_take (List.getElem_mem hi'))
      exact hsrc
    · have := congrArg List.length (hds.symm.trans hnil)
      rw [List.length_zipWith, List.length_take, List.length_nil] at this
      omega

/-- Calls elsewhere keep what was received. -/
theorem RelaySocket.From.elsewhere {β : Type} {o : Op β} {b : β} (h : w.From p)
    (ho : Elsewhere w.fd o) (hs : w.step o b w') :
    w'.From p ∧ w'.got = w.got ∧ w'.fd = w.fd := by
  cases o
  case recvmmsg fd lens flags =>
    rw [RelaySocket.step, if_neg ho] at hs
    obtain ⟨e, rfl⟩ := hs
    exact ⟨h.errno, rfl, rfl⟩
  case connect fd addr =>
    rw [RelaySocket.step, if_neg fun hc => ho hc.1] at hs
    obtain ⟨e, rfl⟩ := hs
    exact ⟨h.errno, rfl, rfl⟩
  case base | getFd | errno =>
    obtain ⟨-, rfl⟩ := hs
    exact ⟨h, rfl, rfl⟩
  case setBase =>
    obtain rfl := hs
    exact ⟨⟨h.peer, h.queue, h.got⟩, rfl, rfl⟩
  all_goals
    obtain ⟨e, rfl⟩ := hs
    exact ⟨h.errno, rfl, rfl⟩

/-- The socket is connected to `p`. -/
theorem always_associate_source {ds : List Datagram} (h : w.From p) (hne : ds ≠ [])
    (hsrc : ∀ d ∈ ds, d.src = p) :
    Post (relaySocket (OneSender p)) (associate w.fd ds) w fun _ w' =>
      w'.From p ∧ w'.got = w.got ∧ w'.fd = w.fd := by
  obtain ⟨d, ds, rfl⟩ := List.exists_cons_of_ne_nil hne
  simp only [associate, List.head?_cons, Option.map_some, Option.getD_some,
    hsrc d List.mem_cons_self, always_bind, always_op, always_ite, always_pure]
  rintro self w₁ ⟨ds₁, hds₁, rfl, rfl⟩
  have h₁ := h.arrive hds₁
  refine ⟨trivial, ?_⟩
  split
  · exact ⟨h₁, rfl, rfl⟩
  rintro res w₂ ⟨ds₂, hds₂, hconn⟩
  have h₂ : w₂.From p ∧ w₂.got = w.got ∧ w₂.fd = w.fd := by
    rw [RelaySocket.step] at hconn
    split at hconn
    · subst hconn
      exact ⟨⟨by simp, (h₁.arrive hds₂).queue, h.got⟩, rfl, rfl⟩
    · obtain ⟨e, rfl⟩ := hconn
      exact ⟨(h₁.arrive hds₂).errno, rfl, rfl⟩
  refine ⟨trivial, ?_⟩
  split
  · exact h₂
  rintro self w₃ ⟨ds₃, hds₃, rfl, rfl⟩
  refine ⟨trivial, ?_⟩
  rintro _ w₄ ⟨ds₄, hds₄, rfl⟩
  have h₄ := (h₂.1.arrive hds₃).arrive hds₄
  exact ⟨trivial, ⟨h₄.peer, h₄.queue, h₄.got⟩, h₂.2.1, h₂.2.2⟩

/-- **One call** receives datagrams of `p` only. -/
theorem always_recvmmsgUdp_source {slots : List Slot} {nonblock : Bool} (h : w.From p) :
    Post (relaySocket (OneSender p)) (recvmmsgUdp slots nonblock) w fun _ w' =>
      w'.From p ∧ w.got <+: w'.got ∧ w'.fd = w.fd := by
  simp only [recvmmsgUdp, always_bind, always_op, always_ite, always_pure]
  rintro fd w₁ ⟨ds, hds, rfl, rfl⟩
  have h₁ := h.arrive hds
  refine ⟨trivial, ?_⟩
  rintro ⟨res, rs⟩ w₂ ⟨ds', hds', hr⟩
  rw [RelaySocket.step, if_pos (by rfl)] at hr
  obtain ⟨h₂, hpre, hsrc, hne, hfd⟩ := (h₁.arrive hds').recvmmsg hr
  have hdone : w₂.From p ∧ w.got <+: w₂.got ∧ w₂.fd = w.fd := ⟨h₂, hpre, hfd⟩
  refine ⟨trivial, ?_⟩
  dsimp only at hsrc hne ⊢
  split
  · exact hdone
  rename_i hres
  have hassoc := always_associate_source h₂ (hne (by omega)) hsrc
  rw [show w₂.fd = (w.arrive ds).fd from hfd] at hassoc
  refine hassoc.mono ?_
  rintro ok w₃ ⟨h₃, hgot, hfd'⟩
  have hdone : w₃.From p ∧ w.got <+: w₃.got ∧ w₃.fd = w.fd := ⟨h₃, hgot ▸ hpre, hfd'⟩
  split
  · exact hdone
  · split <;> exact hdone

end

/-! ## Runs -/

theorem Association.from {p : SockAddrIn6} {w : RelaySocket} {srcs : List SockAddrIn6}
    (h : Association (relaySocket (OneSender p)) w srcs) :
    w.From p ∧ (∀ s ∈ srcs, s = p) ∧ (srcs ≠ [] → w.got ≠ []) := by
  induction h with
  | start h => exact ⟨⟨by simp [h], by simp [h], by simp [h]⟩, by simp, fun hne => absurd rfl hne⟩
  | other h ho he ih =>
    obtain ⟨hw, hsrcs, hne⟩ := ih
    obtain ⟨ds, hds, hs⟩ := he
    obtain ⟨hw', hgot, -⟩ := (hw.arrive hds).elsewhere ho hs
    exact ⟨hw', hsrcs, fun h => hgot ▸ hne h⟩
  | call h hrun ih =>
    obtain ⟨hw, hsrcs, hne⟩ := ih
    obtain ⟨hw', ⟨ds, hds⟩, -⟩ := (always_recvmmsgUdp_source hw).returns hrun
    refine ⟨hw', fun s hs => ?_, fun h hnil => ?_⟩
    · rcases List.mem_append.1 hs with hs | hs
      · exact hsrcs s hs
      · obtain ⟨d, hd, rfl⟩ := List.mem_map.1 hs
        exact hw'.got d (List.mem_of_mem_drop (List.mem_of_mem_take hd))
    · rw [hnil, List.append_eq_nil_iff] at hds
      rw [hnil] at h
      exact hne (by simpa using h) hds.1

/-- **A single source**, when nobody else sends before the socket is connected. -/
theorem single_source {p : SockAddrIn6} {w : RelaySocket} {srcs : List SockAddrIn6}
    (h : Association (relaySocket (OneSender p)) w srcs) : SingleSource w srcs := by
  obtain ⟨hw, hsrcs, hne⟩ := h.from
  intro s hs
  cases hgot : w.got with
  | nil => exact absurd hgot (hne (List.ne_nil_of_mem hs))
  | cons d ds =>
    rw [hsrcs s hs, ← hw.got d (hgot ▸ List.mem_cons_self)]
    rfl

/-! ## Two runs -/

/-- One octet from 192.0.2.7, port 53, for the source `p`. -/
def octetFrom (p : SockAddrIn6) : Datagram := ⟨p, [0, 0, 0, 1, 192, 0, 2, 7, 0, 53, 104]⟩

/-- A relay socket before the first datagram arrives. -/
def freshSocket : RelaySocket :=
  ⟨3, ⟨4, -1, .udpInUdp, false, .unspec⟩, none, [], [], .other⟩

/-- A run in which two datagrams have arrived when the first batch is received. -/
def together (p q : SockAddrIn6) : RelaySocket → {β : Type} → Op β → Option (β × RelaySocket) :=
  fun w _ o =>
  match o with
  | .base => some (w.self, w)
  | .setBase self => some ((), { w with self })
  | .getFd => some (w.fd, w)
  | .recvmmsg fd lens _ =>
    if fd = w.fd ∧ lens = [1500, 1500] ∧ w.queue = [] ∧ w.peer = none then
      some ((2, [octetFrom p, octetFrom q]),
        { w with queue := [], got := w.got ++ [octetFrom p, octetFrom q] })
    else none
  | .connect fd addr => if fd = w.fd then some (0, { w with peer := some addr }) else none
  | _ => none

theorem relaySocket_of_together {A : Option SockAddrIn6 → Datagram → Prop} {p q : SockAddrIn6}
    (hp : A none (octetFrom p)) (hq : A none (octetFrom q)) (w : RelaySocket) {β : Type} (o : Op β)
    (b : β) (w' : RelaySocket) (h : together p q w o = some (b, w')) : relaySocket A w o b w' := by
  have hnone : w.arrive [] = w := by simp [RelaySocket.arrive]
  cases o <;> simp only [together, Option.some.injEq, Prod.mk.injEq, reduceCtorEq] at h
  case base | getFd =>
    obtain ⟨rfl, rfl⟩ := h
    exact ⟨[], by simp, rfl, hnone.symm⟩
  case setBase =>
    obtain ⟨-, rfl⟩ := h
    refine ⟨[], by simp, ?_⟩
    rw [hnone]
    rfl
  case connect fd addr =>
    rw [Option.ite_none_right_eq_some, Option.some.injEq, Prod.mk.injEq] at h
    obtain ⟨hfd, rfl, rfl⟩ := h
    refine ⟨[], by simp, ?_⟩
    rw [hnone, RelaySocket.step, if_pos ⟨hfd, Int.le_refl 0⟩]
  case recvmmsg fd lens flags =>
    rw [Option.ite_none_right_eq_some, Option.some.injEq, Prod.mk.injEq] at h
    obtain ⟨⟨hfd, rfl, hqueue, hpeer⟩, rfl, rfl⟩ := h
    refine ⟨[octetFrom p, octetFrom q], by simp [hpeer, hp, hq], ?_⟩
    rw [RelaySocket.step, if_pos (show fd = (w.arrive _).fd from hfd)]
    have hlen : 2 ≤ (w.arrive [octetFrom p, octetFrom q]).queue.length := by
      simp [RelaySocket.arrive, hqueue]
    refine .inr ⟨2, w.errno, by decide, by decide, hlen, rfl, ?_, ?_⟩
    · simp [RelaySocket.arrive, hqueue, octetFrom]
    · simp [RelaySocket.arrive, hqueue]

/-- The sources of a first batch in which two datagrams were received. -/
theorem exists_association {A : Option SockAddrIn6 → Datagram → Prop} {p q : SockAddrIn6}
    (hp : A none (octetFrom p)) (hq : A none (octetFrom q)) :
    ∃ w, Association (relaySocket A) w [p, q] ∧ w.got.map (·.src) = [p, q] := by
  have hexec : ∃ svec w, exec (together p q) (recvmmsgUdp ([.undef, .undef].map fwdSlot) true)
      freshSocket = some ((2, svec), w) ∧ w.got = [octetFrom p, octetFrom q] :=
    ⟨_, _, rfl, rfl⟩
  obtain ⟨svec, w, hrun, hgot⟩ := hexec
  have hcall := Association.call (.start (w := freshSocket) ⟨rfl, rfl, rfl⟩)
    (returns_of_exec (fun w _ o => relaySocket_of_together hp hq w o) hrun)
  rw [hgot] at hcall
  exact ⟨w, hcall, by rw [hgot]; rfl⟩

def client : SockAddrIn6 := ⟨(0x30, 0x39), v4Mapped #v[192, 0, 2, 1]⟩

def stranger : SockAddrIn6 := ⟨(0x30, 0x39), v4Mapped #v[198, 51, 100, 9]⟩

theorem single_source_client : ∃ w,
    Association (relaySocket (OneSender client)) w [client, client] ∧
      SingleSource w [client, client] := by
  obtain ⟨w, h, -⟩ := exists_association (A := OneSender client) (p := client) (q := client) rfl rfl
  exact ⟨w, h, single_source h⟩

/-- The message of a stranger is returned behind that of the client. -/
theorem not_single_source : ¬ ∀ w srcs, Association (relaySocket AnySender) w srcs →
    SingleSource w srcs := by
  intro hall
  obtain ⟨w, h, hgot⟩ := exists_association (A := AnySender) (p := client) (q := stranger)
    (by simp [AnySender]) (by simp [AnySender])
  have hhead : w.got.head?.map (·.src) = some client := by
    rw [← List.head?_map, hgot]
    rfl
  have hsrc := hall w _ h stranger (by simp)
  rw [hhead] at hsrc
  exact absurd hsrc (by decide)

end HevSocks5
