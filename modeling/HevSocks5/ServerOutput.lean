/-
  What the server says.

  A server of the handshake sends two octets with the method, two more with the
  status of a login if it asks for one, and then one reply.  In every state of a
  run the send calls so far are a beginning of this, each made only when the one
  before has succeeded (`output_spoken`).
-/
import HevSocks5.ServerReply

namespace HevSocks5

open Interact Sys HevSocks5Server

/-! ## What is to be shown -/

/-- The sends of an authentication stage that has succeeded, in a server that asks for `method`. -/
inductive Greeted (method : Octet) : List (List Octet × Int) → Prop
  | none {res : Int} (hmethod : method = authMethodNone) (hres : 0 < res) :
      Greeted method [([version5, method], res)]
  | user {res res' : Int} (hmethod : method = authMethodUser) (hres : 0 < res) (hres' : 0 < res') :
      Greeted method [([version5, method], res), ([authVersion1, 0], res')]

/-- **The sends of a run**, and their results. -/
inductive Spoken (method : Octet) : List (List Octet × Int) → Prop
  | silent : Spoken method []
  /-- the method, or 255 for none -/
  | selected {m : Octet} {res : Int} (hm : m = method ∨ m = 255) :
      Spoken method [([version5, m], res)]
  /-- the status of a login, success or not -/
  | checked {s : Octet} {res res' : Int} (hmethod : method = authMethodUser) (hres : 0 < res)
      (hs : s = 0 ∨ s = 255) :
      Spoken method [([version5, method], res), ([authVersion1, s], res')]
  | replied {sends : List (List Octet × Int)} (h : Greeted method sends) (rep : HevSocks5ResRep)
      (addr : SockAddrIn6) (res : Int) :
      Spoken method (sends ++ [(replyOctets rep addr, res)])

theorem Greeted.spoken {method : Octet} {sends : List (List Octet × Int)}
    (h : Greeted method sends) : Spoken method sends := by
  cases h with
  | none hmethod hres => exact .selected (.inl rfl)
  | user hmethod hres hres' => exact .checked hmethod hres (.inl rfl)

/-! ## Programs that send nothing, or one message -/

/-- Calls that are no sends. -/
def Unsent {β : Type} : Op β → Prop
  | .send .. => False
  | _ => True

section
variable {w w' : Host} {G : List (List Octet × Int) → Prop}

theorem sends_of_unsent {β : Type} {o : Op β} {b : β} (ho : Unsent o) (he : host w o b w') :
    w'.sends = w.sends := by
  cases o
  case send => exact ho.elim
  case logD | undefCmd =>
    obtain rfl := he
    rfl
  all_goals exact ((host_changes he).unrecorded (by trivial)).2.1

theorem always_unsent {α : Type} {x : SysM α} (hx : x.Only Unsent) (hG : G w.sends) :
    Always host (fun w' => G w'.sends) x w fun _ w' => w'.sends = w.sends := by
  refine hx.always ?_ rfl
  intro w₁ w₂ β o b ho hw he
  have hsends : w₂.sends = w.sends := (sends_of_unsent ho he).trans hw
  exact ⟨hsends ▸ hG, hsends⟩

/-- A message is sent; the result is -1 if that fails. -/
theorem always_message {msg : String} {data : List Octet} (hG : G w.sends)
    (hnext : ∀ res, G (w.sends ++ [(data, res)])) :
    Always host (fun w' => G w'.sends) (do
      logD msg
      let res ← hevTaskIoSocketSend (← base).fd data
      if res ≤ 0 then return -1 else return 0 : SysM Int) w
      fun ret w' => ∃ res, w'.sends = w.sends ++ [(data, res)] ∧
        ret = if res ≤ 0 then -1 else 0 := by
  have hlog : (logD msg).Only Unsent := (only_op _).2 trivial
  refine (always_unsent hlog hG).bind fun _ w₁ h₁ => ?_
  have hbase : base.Only Unsent := (only_op _).2 trivial
  refine (always_unsent hbase (h₁ ▸ hG)).bind fun self w₂ h₂ => ?_
  rw [always_bind, always_op]
  rintro res w₃ ⟨auth, -, rfl⟩
  have hsends : w₂.sends = w.sends := h₂.trans h₁
  refine ⟨by simpa only [hsends] using hnext res, ?_⟩
  rw [always_ite]
  split
  · exact ⟨res, by rw [hsends], (if_pos ‹_›).symm⟩
  · exact ⟨res, by rw [hsends], (if_neg ‹_›).symm⟩

/-! ## The stages -/

variable {m : Octet}

theorem unsent_of_reads {msg : String} {β : Type} {o : Op β} (h : o.Reads msg) : Unsent o := by
  cases o <;> first | exact trivial | exact h.elim

theorem unsent_readAuthUser : readAuthUser.Only Unsent := by
  refine only_readAuthUser.mono ?_
  rintro β o (h | h)
  · exact unsent_of_reads h
  · cases o <;> first | exact trivial | exact h.elim

theorem unsent_readRequest (rep : HevSocks5ResRep) (addr : SockAddrIn6) :
    (readRequest rep addr).Only Unsent := by
  refine (only_readRequest rep addr).mono ?_
  rintro β o (h | h)
  · exact unsent_of_reads h
  · cases o <;> first | exact trivial | exact h.elim

theorem unsent_executeRequest (req : Request) : (executeRequest req).Only Unsent := by
  have hexec (cmd : Octet) : (execute cmd req.addr).Only Unsent := by
    refine (local_execute cmd req.addr).mono ?_
    intro β o h
    cases o <;> first | exact trivial | exact h.elim
  refine .ite ?_ (only_pure _)
  cases req.cmd with
  | none => exact .bind ((only_op _).2 trivial) fun cmd => hexec cmd
  | some cmd => exact hexec cmd

theorem unsent_hevSocks5SetTimeout (timeout : Int) : (hevSocks5SetTimeout timeout).Only Unsent :=
  .bind ((only_op _).2 trivial) fun _ => .ite ((only_op _).2 trivial) (only_pure _)

theorem unsent_service : service.Only Unsent := by
  refine .bind ((only_op _).2 trivial) fun _ => .bind ((only_op _).2 trivial) fun self => ?_
  have hudp : (do
      hevSocks5SetTimeout (← hevSocks5GetUdpTimeout)
      hevSocks5UdpSplice (← server).fds.1
      return 0 : SysM Int).Only Unsent := by
    refine .bind ((only_op _).2 trivial) fun _ => .bind (unsent_hevSocks5SetTimeout _) fun _ => ?_
    exact .bind ((only_op _).2 trivial) fun _ => .bind ((only_op _).2 trivial) fun _ => only_pure _
  cases self.type with
  | none => exact only_pure _
  | tcp =>
    exact .bind ((only_op _).2 trivial) fun _ => .bind ((only_op _).2 trivial) fun _ => only_pure _
  | udpInTcp => exact hudp
  | udpInUdp => exact hudp

/-- **The authentication stage** fails, or it has greeted the client. -/
theorem always_auth_spoken (hmethod : w.server.method = m) (hsends : w.sends = []) :
    Always host (fun w' => Spoken m w'.sends) HevSocks5Server.auth w fun res w' =>
      Spoken m w'.sends ∧ (res = -1 ∨ Greeted m w'.sends) := by
  have hread : readAuthMethod.Only Unsent := reads_readAuthMethod.mono unsent_of_reads
  have h₀ : Spoken m w.sends := hsends ▸ .silent
  have hoctet : UInt8.ofInt (m.toNat : Int) = m := by
    rcases w.server.method_cases with h | h
    · rw [← hmethod, h]
      rfl
    · rw [← hmethod, h]
      rfl
  unfold HevSocks5Server.auth
  refine ((always_unsent hread h₀).and (post_readAuthMethod w)).bind ?_
  rintro method w₁ ⟨h₁, read, -, hm⟩
  rw [hmethod] at hm
  rw [hsends] at h₁
  have hselected : UInt8.ofInt method = m ∨ UInt8.ofInt method = 255 := by
    rcases hm with rfl | ⟨rfl, -⟩
    · exact .inr rfl
    · exact .inl hoctet
  refine (always_message (G := Spoken m) (h₁ ▸ .silent) fun res => ?_).bind ?_
  · rw [h₁]
    exact .selected hselected
  rintro _ w₂ ⟨res, h₂, rfl⟩
  rw [h₁, List.nil_append] at h₂
  have hspoken : Spoken m w₂.sends := h₂ ▸ .selected hselected
  simp only [always_ite, always_pure]
  by_cases hres : res ≤ 0
  · rw [if_pos hres, if_pos (by decide)]
    exact ⟨hspoken, .inl trivial⟩
  rw [if_neg hres, if_neg (by decide)]
  have hpos : 0 < res := Int.not_le.1 hres
  rcases hm with rfl | ⟨rfl, -⟩
  · rw [if_neg (by decide), if_neg (by decide)]
    exact ⟨hspoken, .inl trivial⟩
  rw [hoctet] at h₂
  rcases w.server.method_cases with hnone | huser
  · obtain rfl : m = authMethodNone := hmethod.symm.trans hnone
    rw [if_pos rfl]
    exact ⟨hspoken, .inr (h₂ ▸ .none rfl hpos)⟩
  · obtain rfl : m = authMethodUser := hmethod.symm.trans huser
    rw [if_neg (by decide), if_pos rfl]
    refine ((always_unsent unsent_readAuthUser hspoken).and (post_readAuthUser w₂)).bind ?_
    rintro r w₃ ⟨h₃, read', -, hr⟩
    rw [h₂] at h₃
    have hstatus : UInt8.ofInt r = 0 ∨ UInt8.ofInt r = 255 := by
      rcases hr with rfl | ⟨rfl, -⟩
      · exact .inr rfl
      · exact .inl rfl
    refine (always_message (G := Spoken authMethodUser) (h₃ ▸ h₂ ▸ hspoken) fun res' => ?_).bind ?_
    · rw [h₃]
      exact .checked rfl hpos hstatus
    rintro _ w₄ ⟨res', h₄, rfl⟩
    rw [h₃] at h₄
    have hspoken₄ : Spoken authMethodUser w₄.sends := h₄ ▸ .checked rfl hpos hstatus
    -- neither result is -1 when the stage succeeds
    rcases hr with rfl | ⟨rfl, -⟩
    · rw [or_neg_one, if_pos (by decide)]
      exact ⟨hspoken₄, .inl rfl⟩
    by_cases hres' : res' ≤ 0
    · rw [if_pos hres', if_pos (by decide)]
      exact ⟨hspoken₄, .inl rfl⟩
    · rw [if_neg hres', if_neg (by decide)]
      exact ⟨hspoken₄, .inr (h₄ ▸ .user rfl hpos (Int.not_le.1 hres'))⟩

/-- The sends of a handshake that has succeeded. -/
def Accomplished (m : Octet) (sends : List (List Octet × Int)) : Prop :=
  ∃ sends' addr res, Greeted m sends' ∧ 0 < res ∧
    sends = sends' ++ [(replyOctets .succ addr, res)]

theorem always_idle_spoken {α : Type} {x : SysM α} (hx : x.Only fun o => Idle o ∧ Unsent o)
    (hmethod : w.server.method = m) (hsends : w.sends = []) :
    Always host (fun w' => Spoken m w'.sends) x w fun _ w' =>
      w'.server.method = m ∧ w'.sends = [] := by
  refine ((always_unsent (hx.mono And.right) (hsends ▸ .silent)).and
    (post_idle (hx.mono And.left) w)).mono ?_
  rintro _ w' ⟨hs, hsame⟩
  exact ⟨by rw [hsame.server, hmethod], hs.trans hsends⟩

theorem always_handshake_spoken (hmethod : w.server.method = m) (hsends : w.sends = []) :
    Always host (fun w' => Spoken m w'.sends) handshake w fun ret w' =>
      Spoken m w'.sends ∧ (ret = -1 ∨ Accomplished m w'.sends) := by
  have hlog : (logD "socks5 server handshake").Only fun o => Idle o ∧ Unsent o :=
    (only_op _).2 ⟨trivial, trivial⟩
  have htime : hevSocks5GetTcpTimeout.Only fun o => Idle o ∧ Unsent o :=
    (only_op _).2 ⟨trivial, trivial⟩
  have hset (timeout : Int) : (hevSocks5SetTimeout timeout).Only fun o => Idle o ∧ Unsent o :=
    .bind ((only_op _).2 ⟨trivial, trivial⟩) fun _ =>
      .ite ((only_op _).2 ⟨trivial, trivial⟩) (only_pure _)
  unfold handshake
  refine (always_idle_spoken hlog hmethod hsends).bind fun _ w₁ ⟨hm₁, hs₁⟩ => ?_
  refine (always_idle_spoken htime hm₁ hs₁).bind fun timeout w₂ ⟨hm₂, hs₂⟩ => ?_
  refine (always_idle_spoken (hset timeout) hm₂ hs₂).bind fun _ w₃ ⟨hm₃, hs₃⟩ => ?_
  refine (always_auth_spoken hm₃ hs₃).bind ?_
  rintro res w₄ ⟨hspoken, hres⟩
  rw [always_ite]
  split
  · exact ⟨hspoken, .inl rfl⟩
  rename_i hneg
  have hgreeted : Greeted m w₄.sends := hres.resolve_left fun h => hneg (h ▸ by decide)
  refine (always_unsent (unsent_readRequest .succ .zero) hspoken).bind fun req w₅ h₅ => ?_
  rw [← h₅] at hspoken hgreeted
  rw [always_ite]
  split
  · exact ⟨hspoken, .inl rfl⟩
  refine (always_unsent (unsent_executeRequest req) hspoken).bind ?_
  rintro ⟨rep, addr⟩ w₆ h₆
  rw [← h₆] at hspoken hgreeted
  have hnext (res : Int) : Spoken m (w₆.sends ++ [(replyOctets rep addr, res)]) :=
    .replied hgreeted rep addr res
  refine (always_message (G := Spoken m) hspoken hnext).bind ?_
  rintro _ w₇ ⟨res', h₇, rfl⟩
  have hspoken₇ : Spoken m w₇.sends := h₇ ▸ .replied hgreeted rep addr res'
  by_cases hres' : res' ≤ 0
  · rw [if_pos hres', if_pos (.inl (by decide))]
    exact ⟨hspoken₇, .inl rfl⟩
  rw [if_neg hres']
  by_cases hrep : rep = .succ
  · rw [if_neg (by simp [hrep])]
    exact ⟨hspoken₇, .inr ⟨_, addr, res', hgreeted, Int.not_le.1 hres', hrep ▸ h₇⟩⟩
  · rw [if_pos (.inr hrep)]
    exact ⟨hspoken₇, .inl rfl⟩

theorem always_run_spoken (h : w.Fresh) :
    Always host (fun w' => Spoken w.server.method w'.sends) run w fun ret w' =>
      Spoken w.server.method w'.sends ∧ (ret = -1 ∨ Accomplished w.server.method w'.sends) := by
  have hlog : (logD "socks5 server run").Only fun o => Idle o ∧ Unsent o :=
    (only_op _).2 ⟨trivial, trivial⟩
  have hbase : base.Only fun o => Idle o ∧ Unsent o := (only_op _).2 ⟨trivial, trivial⟩
  have hadd (fd : Int) : (addOrModFd fd).Only fun o => Idle o ∧ Unsent o :=
    .bind ((only_op _).2 ⟨trivial, trivial⟩) fun _ =>
      .ite (.bind ((only_op _).2 ⟨trivial, trivial⟩) fun _ => only_pure _) (only_pure _)
  unfold run
  refine (always_idle_spoken hlog rfl h.sends).bind fun _ w₁ ⟨hm₁, hs₁⟩ => ?_
  refine (always_idle_spoken hbase hm₁ hs₁).bind fun self w₂ ⟨hm₂, hs₂⟩ => ?_
  refine (always_idle_spoken (hadd self.fd) hm₂ hs₂).bind fun _ w₃ ⟨hm₃, hs₃⟩ => ?_
  refine (always_handshake_spoken hm₃ hs₃).bind ?_
  rintro res w₄ ⟨hspoken, hres⟩
  rw [always_ite]
  split
  · exact ⟨hspoken, .inl rfl⟩
  rename_i hneg
  have hdone : Accomplished w.server.method w₄.sends :=
    hres.resolve_left fun h => hneg (h ▸ by decide)
  refine (always_unsent unsent_service hspoken).bind fun ret w₅ h₅ => ?_
  rw [← h₅] at hspoken hdone
  rw [always_ite]
  split
  · exact ⟨hspoken, .inl rfl⟩
  · exact ⟨hspoken, .inr hdone⟩

/-- **What the server says.**  Whatever the client sends, wherever a receive or a send fails and
    whatever other tasks do meanwhile: in every state of a run the sends so far are a beginning of
    method, status and reply, in this order, each behind one that has succeeded, and with a status
    just if the server asks for a login.  A run that returns no error has sent all of them, with a
    reply of success. -/
theorem output_spoken (h : w.Fresh) :
    (∀ w', Reaches host run w w' → Spoken w.server.method w'.sends) ∧
      ∀ ret w', Returns host run w ret w' → ret ≠ -1 →
        Accomplished w.server.method w'.sends := by
  obtain ⟨hreaches, hreturns⟩ := always_iff.1 (always_run_spoken h)
  exact ⟨hreaches, fun ret w' hr hne => (hreturns ret w' hr).2.resolve_left hne⟩

end

/-- The server of a client that connects. -/
theorem output_spoken_connect : ∃ ret w', Returns host run connectHost ret w' ∧
    Accomplished authMethodNone w'.sends := by
  obtain ⟨ret, w', hrun, hret⟩ := exists_returns_of_exec toldHost_of_connects (x := run)
    (w := connectHost) (fun ret _ => ret ≠ -1) (by decide +kernel)
  have hhost : Returns host run connectHost ret w' := hrun.mono And.left
  exact ⟨ret, w', hhost, (output_spoken (w := connectHost) ⟨rfl, rfl, rfl, rfl⟩).2 ret w' hhost
    (of_decide_eq_true hret)⟩

end HevSocks5
