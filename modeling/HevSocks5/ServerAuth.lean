/-
  The authentication stage of the server.

  `Talk read sends w w'` says what was received and sent between two states of
  the host.  Each function has one specification: what its result says about
  the octets that it has received and sent.  A stage that succeeds is a
  `Login` (`post_auth`).
-/
import HevSocks5.Host

namespace HevSocks5

open Interact Sys Total HevSocks5Server

/-- The octets `read` were received, `sends` were sent, and no socket was touched. -/
structure Host.Talk (read : List Octet) (sends : List (List Octet × Int)) (w w' : Host) : Prop where
  read_eq : w'.read = w.read ++ read
  sends_eq : w'.sends = w.sends ++ sends
  looked : w.looked <+: w'.looked
  valid : w.auth.Valid → w'.auth.Valid

/-- At a lookup there was a user with the name, and the password is the one of this user. -/
def Host.Matched (w : Host) (name pass : Str) : Prop :=
  ∃ s ∈ w.looked, ∃ m user, s.Represents m ∧ m.users.lookup name = some user ∧
    (s.users user).pass = pass

/-- The method that the server asks for. -/
def HevSocks5ServerObj.method (self : HevSocks5ServerObj) : Octet :=
  if self.obj ≠ .null then authMethodUser else authMethodNone

theorem HevSocks5ServerObj.method_cases (self : HevSocks5ServerObj) :
    self.method = authMethodNone ∨ self.method = authMethodUser := by
  unfold method
  split
  · exact .inr rfl
  · exact .inl rfl

/-- What a client sends that offers methods. -/
def methodOctets (methods : List Octet) : List Octet :=
  [version5, UInt8.ofNat methods.length] ++ methods

/-- What a client sends that logs in with a name and a password. -/
def userOctets (name pass : List Octet) : List Octet :=
  [authVersion1, UInt8.ofNat name.length] ++ name ++ [UInt8.ofNat pass.length] ++ pass

/-- A string that fits into a message of the sub-negotiation. -/
def Str.Fits (s : Str) : Prop := 0 < s.octets.length ∧ s.octets.length < 256

namespace Host.Talk

variable {w w₁ w₂ : Host} {read read' : List Octet} {sends sends' : List (List Octet × Int)}

theorem refl : Talk [] [] w w := ⟨by simp, by simp, List.prefix_rfl, id⟩

theorem trans (h : Talk read sends w w₁) (h' : Talk read' sends' w₁ w₂) :
    Talk (read ++ read') (sends ++ sends') w w₂ where
  read_eq := by rw [h'.read_eq, h.read_eq, List.append_assoc]
  sends_eq := by rw [h'.sends_eq, h.sends_eq, List.append_assoc]
  looked := h.looked.trans h'.looked
  valid hv := h'.valid (h.valid hv)

theorem matched {name pass : Str} (h : Talk read sends w w₁) (hm : w.Matched name pass) :
    w₁.Matched name pass := by
  obtain ⟨s, hs, hm⟩ := hm
  exact ⟨s, h.looked.subset hs, hm⟩

theorem quiet (h : Talk read sends w w₁) (h' : Talk [] [] w₁ w₂) : Talk read sends w w₂ := by
  simpa using h.trans h'

end Host.Talk

section
variable {w w₁ w' : Host} {read : List Octet} {sends : List (List Octet × Int)}

theorem talk_of_silent {β : Type} {o : Op β} {b : β} (ho : Silent o) (he : host w o b w') :
    w.Talk [] [] w' := by
  have hc := host_changes he
  obtain ⟨hread, hsends, hvalid⟩ := hc.silent ho
  exact ⟨by simpa using hread, by simpa using hsends, hc.looked, hvalid⟩

namespace Host.Talk

theorem silent {β : Type} {o : Op β} {b : β} (h : w.Talk read sends w₁)
    (he : host w₁ o b w') (ho : Silent o) : w.Talk read sends w' :=
  h.quiet (talk_of_silent ho he)

theorem recv {fd : Int} {n : Nat} {flags : MsgFlags} {r : Received} (h : w.Talk read sends w₁)
    (he : host w₁ (.recv fd n flags) r w') :
    w.Talk (read ++ r.data) sends w' ∧ (r.res = n → r.data.length = n) := by
  obtain ⟨-, hlen, auth, hv, rfl⟩ := he
  have htalk : w₁.Talk r.data [] { w₁ with read := w₁.read ++ r.data, auth } :=
    ⟨rfl, by simp, List.prefix_rfl, fun _ => hv⟩
  exact ⟨by simpa using h.trans htalk, hlen⟩

theorem send {fd res : Int} {data : List Octet} (h : w.Talk read sends w₁)
    (he : host w₁ (.send fd data) res w') : w.Talk read (sends ++ [(data, res)]) w' := by
  obtain ⟨auth, hv, rfl⟩ := he
  have htalk : w₁.Talk [] [(data, res)] { w₁ with sends := w₁.sends ++ [(data, res)], auth } :=
    ⟨by simp, rfl, List.prefix_rfl, fun _ => hv⟩
  simpa using h.trans htalk

end Host.Talk

theorem server_of_recv {fd : Int} {n : Nat} {flags : MsgFlags} {r : Received}
    (he : host w (.recv fd n flags) r w') : w'.server = w.server := by
  obtain ⟨-, -, auth, -, rfl⟩ := he
  rfl

/-! ## The method -/

theorem methodLoop_eq {method : Octet} {methods : List Octet} :
    methodLoop method methods = if method ∈ methods then (method.toNat : Int) else -1 := by
  induction methods with
  | nil => rfl
  | cons m methods ih =>
    by_cases hm : m = method
    · simp [methodLoop, hm]
    · simp [methodLoop, hm, ih, Ne.symm hm]

/-- The method is -1, or the client has offered the method that the server asks for. -/
theorem post_readAuthMethod (w : Host) :
    Post host readAuthMethod w fun method w' => ∃ read, w.Talk read [] w' ∧
      (method = -1 ∨ method = w.server.method.toNat ∧ ∃ methods : List Octet,
        methods.length < 256 ∧ w.server.method ∈ methods ∧ read = methodOctets methods) := by
  simp only [readAuthMethod, always_bind, always_op, always_ite, always_pure]
  rintro _ w₁ he
  have h₁ := Host.Talk.refl.silent he trivial
  have hs₁ : w₁.server = w.server := by
    obtain rfl := he
    rfl
  refine ⟨trivial, ?_⟩
  rintro self _ ⟨-, rfl⟩
  refine ⟨trivial, ?_⟩
  rintro r w₂ he
  have hs₂ := (server_of_recv he).trans hs₁
  obtain ⟨h₂, hlen⟩ := h₁.recv he
  refine ⟨trivial, ?_⟩
  by_cases hr : r.res = 2
  swap
  · rw [if_pos hr]
    exact ⟨_, h₂, .inl trivial⟩
  rw [if_neg (not_not.2 hr)]
  obtain ⟨ver, methodLen, hdata⟩ := List.length_eq_two.1 (hlen hr)
  rw [hdata] at h₂ ⊢
  simp only [List.getD_cons_zero, List.getD_cons_succ]
  by_cases hver : ver = version5
  swap
  · rw [if_pos hver]
    exact ⟨_, h₂, .inl trivial⟩
  rw [if_neg (not_not.2 hver)]
  rintro r' w₃ he
  have hs₃ := (server_of_recv he).trans hs₂
  obtain ⟨h₃, hlen'⟩ := h₂.recv he
  refine ⟨trivial, ?_⟩
  by_cases hr' : r'.res = methodLen.toNat
  swap
  · rw [if_pos hr']
    exact ⟨_, h₃, .inl trivial⟩
  rw [if_neg (not_not.2 hr')]
  rintro server _ ⟨rfl, rfl⟩
  refine ⟨trivial, _, h₃, ?_⟩
  rw [hs₃, show (if w.server.obj ≠ .null then authMethodUser else authMethodNone) =
    w.server.method from rfl, methodLoop_eq]
  by_cases hmem : w.server.method ∈ r'.data
  · have hlen' := hlen' hr'
    have := methodLen.toNat_lt
    rw [if_pos hmem]
    refine .inr ⟨rfl, r'.data, by omega, hmem, ?_⟩
    rw [methodOctets, hlen', UInt8.ofNat_toNat, hver]
    rfl
  · rw [if_neg hmem]
    exact .inl rfl

theorem post_writeAuthMethod (method : Int) (w : Host) :
    Post host (writeAuthMethod method) w fun ret w' => ∃ res,
      w.Talk [] [([version5, UInt8.ofInt method], res)] w' ∧ ret = if res ≤ 0 then -1 else 0 := by
  simp only [writeAuthMethod, always_bind, always_op, always_ite, always_pure]
  rintro _ w₁ he
  have h₁ := Host.Talk.refl.silent he trivial
  refine ⟨trivial, ?_⟩
  rintro self _ ⟨-, rfl⟩
  refine ⟨trivial, ?_⟩
  rintro res w₂ he
  have h₂ := h₁.send he
  refine ⟨trivial, ?_⟩
  by_cases hres : res ≤ 0
  · rw [if_pos hres]
    exact ⟨res, h₂, (if_pos hres).symm⟩
  · rw [if_neg hres]
    exact ⟨res, h₂, (if_neg hres).symm⟩

/-! ## The user -/

/-- **The user is looked up**, and the password is compared with the user's. -/
theorem post_checkUser (name pass : Str) (w : Host) :
    Post host (checkUser name pass) w fun res w' => w.Talk [] [] w' ∧
      (res = -1 ∨ res = 0 ∧ (w.auth.Valid → w'.Matched name pass)) := by
  simp only [checkUser, always_bind, always_op, always_ite, always_pure]
  rintro user _ ⟨auth, hget, rfl⟩
  refine ⟨trivial, ?_⟩
  have hkeep : w.auth.Valid → auth = w.auth := by
    rintro ⟨m, hm⟩
    exact ((HevSocks5Authenticator.ends_lookup hm name).eq_of_run hget).1
  have h₁ : w.Talk [] [] { w with auth, looked := w.looked ++ [w.auth] } :=
    ⟨by simp, by simp, List.prefix_append _ _, fun hv => (hkeep hv).symm ▸ hv⟩
  split
  · exact ⟨h₁, .inl trivial⟩
  rename_i huser
  rintro users _ ⟨rfl, rfl⟩
  refine ⟨trivial, ?_⟩
  split
  · exact ⟨h₁, .inl trivial⟩
  rename_i hcheck
  rintro _ w₂ he
  have h₂ := h₁.silent he trivial
  have hl₂ : w₂.looked = w.looked ++ [w.auth] := by
    obtain ⟨_, -, rfl⟩ := he
    rfl
  refine ⟨trivial, ?_⟩
  rintro self _ ⟨-, rfl⟩
  refine ⟨trivial, ?_⟩
  rintro _ w₃ he
  have h₃ := h₂.silent he trivial
  have hl₃ : w₃.looked = w.looked ++ [w.auth] := by
    obtain ⟨_, -, rfl⟩ := he
    exact hl₂
  refine ⟨trivial, ?_⟩
  rintro _ w₄ he
  have h₄ := h₃.silent he trivial
  have hl₄ : w₄.looked = w.looked ++ [w.auth] := by
    obtain rfl := he
    exact hl₃
  refine ⟨trivial, h₄, .inr ⟨trivial, ?_⟩⟩
  rintro ⟨m, hm⟩
  obtain ⟨rfl, hlook⟩ := (HevSocks5Authenticator.ends_lookup hm name).eq_of_run hget
  refine ⟨w.auth, by simp [hl₄], m, user, hm, ?_, ?_⟩
  · cases hm' : m.users.lookup name with
    | none => exact absurd (by rw [hlook, hm']; rfl) huser
    | some user' => rw [hlook, hm', Option.getD_some]
  · exact not_not.1 fun hne => hcheck ((HevSocks5User.checker_neg _ _).2 hne)

theorem exists_concat_of_length {l : List Octet} {n : Nat} (h : l.length = n + 1) :
    ∃ init last, l = init ++ [last] ∧ init.length = n := by
  obtain rfl | ⟨init, last, rfl⟩ := List.eq_nil_or_concat' l
  · simp at h
  · exact ⟨init, last, rfl, by simpa using h⟩

theorem octets_strOf {octets : List Octet} {len : Octet} (h : octets.length = len.toNat) :
    (strOf octets len).octets = octets :=
  List.take_of_length_le (Nat.le_of_eq h)

/-- What was received is a version, a name and a password. -/
theorem post_readAuthUser (w : Host) :
    Post host readAuthUser w fun res w' => ∃ read, w.Talk read [] w' ∧
      (res = -1 ∨ res = 0 ∧ ∃ name pass : Str, name.Fits ∧ pass.Fits ∧
        read = userOctets name.octets pass.octets ∧ (w.auth.Valid → w'.Matched name pass)) := by
  simp only [readAuthUser, always_bind, always_op, always_ite, always_pure]
  rintro _ w₁ he
  have h₁ := Host.Talk.refl.silent he trivial
  refine ⟨trivial, ?_⟩
  rintro self _ ⟨-, rfl⟩
  refine ⟨trivial, ?_⟩
  rintro r w₂ he
  obtain ⟨h₂, hlen⟩ := h₁.recv he
  refine ⟨trivial, ?_⟩
  by_cases hr : r.res = 2
  swap
  · rw [if_pos hr]
    exact ⟨_, h₂, .inl trivial⟩
  rw [if_neg (not_not.2 hr)]
  obtain ⟨ver, nlen, hdata⟩ := List.length_eq_two.1 (hlen hr)
  rw [hdata] at h₂ ⊢
  simp only [List.getD_cons_zero, List.getD_cons_succ]
  by_cases hver : ver = authVersion1
  swap
  · rw [if_pos hver]
    exact ⟨_, h₂, .inl trivial⟩
  rw [if_neg (not_not.2 hver)]
  split
  · exact ⟨_, h₂, .inl trivial⟩
  rename_i hnlen
  rintro rn w₃ he
  obtain ⟨h₃, hlen₃⟩ := h₂.recv he
  refine ⟨trivial, ?_⟩
  by_cases hrn : rn.res = nlen.toNat + 1
  swap
  · rw [if_pos hrn]
    exact ⟨_, h₃, .inl trivial⟩
  rw [if_neg (not_not.2 hrn)]
  obtain ⟨name, plen, hname, hnlen'⟩ := exists_concat_of_length (hlen₃ hrn)
  have hget : (name ++ [plen]).getD nlen.toNat 0 = plen := by simp [← hnlen']
  rw [hname] at h₃ ⊢
  rw [hget]
  split
  · exact ⟨_, h₃, .inl trivial⟩
  rename_i hplen
  rintro rp w₄ he
  obtain ⟨h₄, hlen₄⟩ := h₃.recv he
  refine ⟨trivial, ?_⟩
  by_cases hrp : rp.res = plen.toNat
  swap
  · rw [if_pos hrp]
    exact ⟨_, h₄, .inl trivial⟩
  rw [if_neg (not_not.2 hrp)]
  have hn0 : nlen.toNat ≠ 0 := fun h => hnlen (UInt8.toNat_inj.1 h)
  have hp0 : plen.toNat ≠ 0 := fun h => hplen (UInt8.toNat_inj.1 h)
  have hn := nlen.toNat_lt
  have hp := plen.toNat_lt
  have hlen₄ := hlen₄ hrp
  have hs : (strOf (name ++ [plen]) nlen).octets = name := List.take_left' hnlen'
  have hs' : (strOf rp.data plen).octets = rp.data := octets_strOf hlen₄
  refine (post_checkUser _ _ w₄).mono ?_
  rintro res w₅ ⟨h₅, hres⟩
  refine ⟨_, h₄.quiet h₅, hres.imp_right fun hm => ⟨hm.1,
    strOf (name ++ [plen]) nlen, strOf rp.data plen, ?_, ?_, ?_, ?_⟩⟩
  · unfold Str.Fits
    rw [hs]
    omega
  · unfold Str.Fits
    rw [hs']
    omega
  · rw [userOctets, hs, hs', hnlen', hlen₄, UInt8.ofNat_toNat, UInt8.ofNat_toNat, hver]
    simp
  · exact fun hv => hm.2 (h₄.valid hv)

theorem post_writeAuthUser (authRes : Int) (w : Host) :
    Post host (writeAuthUser authRes) w fun _ w' => ∃ res,
      w.Talk [] [([1, UInt8.ofInt authRes], res)] w' := by
  simp only [writeAuthUser, always_bind, always_op, always_ite, always_pure]
  rintro _ w₁ he
  have h₁ := Host.Talk.refl.silent he trivial
  refine ⟨trivial, ?_⟩
  rintro self _ ⟨-, rfl⟩
  refine ⟨trivial, ?_⟩
  rintro res w₂ he
  have h₂ := h₁.send he
  refine ⟨trivial, ?_⟩
  split
  · exact ⟨res, h₂⟩
  · exact ⟨res, h₂⟩

/-! ## The stage -/

/-- **A login**: the method that the client has offered is accepted, and in the sub-negotiation,
    if there is one, the client has sent a name and a password and success is reported. -/
inductive Login (w w' : Host) : List Octet → List (List Octet × Int) → Prop
  | none {methods : List Octet} {res : Int} (hmethod : w.server.method = authMethodNone)
      (hlen : methods.length < 256) (hmem : authMethodNone ∈ methods) (hres : 0 < res) :
      Login w w' (methodOctets methods) [([version5, authMethodNone], res)]
  | user {methods : List Octet} {name pass : Str} {res res' : Int}
      (hmethod : w.server.method = authMethodUser) (hlen : methods.length < 256)
      (hmem : authMethodUser ∈ methods) (hres : 0 < res) (hname : name.Fits) (hpass : pass.Fits)
      (hmatch : w.auth.Valid → w'.Matched name pass) :
      Login w w' (methodOctets methods ++ userOctets name.octets pass.octets)
        [([version5, authMethodUser], res), ([1, 0], res')]

/-- `res |= -1` -/
theorem or_neg_one (res' : Int) :
    (BitVec.ofInt 32 (-1) ||| BitVec.ofInt 32 res').toInt = -1 := by
  rw [show BitVec.ofInt 32 (-1) ||| BitVec.ofInt 32 res' = BitVec.allOnes 32 from BitVec.allOnes_or]
  rfl

/-- **The authentication stage** fails or is a login. -/
theorem post_auth (w : Host) :
    Post host HevSocks5Server.auth w fun res w' => res = -1 ∨
      ∃ read sends, w.Talk read sends w' ∧ Login w w' read sends := by
  unfold HevSocks5Server.auth
  refine (post_readAuthMethod w).bind ?_
  rintro method w₁ ⟨read₁, h₁, hmethod⟩
  refine (post_writeAuthMethod method w₁).bind ?_
  rintro _ w₂ ⟨res, h₂, rfl⟩
  simp only [always_ite, always_pure]
  by_cases hres : res ≤ 0
  · rw [if_pos hres, if_pos (by decide)]
    exact .inl trivial
  rw [if_neg hres, if_neg (by decide)]
  rcases hmethod with rfl | ⟨rfl, methods, hlen, hmem, rfl⟩
  · rw [if_neg (by decide), if_neg (by decide)]
    exact .inl trivial
  have h₂ : w.Talk (methodOctets methods)
      [([version5, UInt8.ofInt w.server.method.toNat], res)] w₂ := by
    simpa using h₁.trans h₂
  have hpos : 0 < res := by omega
  rcases w.server.method_cases with hmethod | hmethod
  · rw [hmethod] at hmem h₂ ⊢
    rw [if_pos (by rfl)]
    exact .inr ⟨_, _, h₂, .none hmethod hlen hmem hpos⟩
  · rw [hmethod] at hmem h₂ ⊢
    rw [if_neg (by decide), if_pos (by rfl)]
    refine (post_readAuthUser w₂).bind ?_
    rintro r w₃ ⟨read₃, h₃, hr⟩
    refine (post_writeAuthUser r w₃).bind ?_
    rintro r' w₄ ⟨res', h₄⟩
    rcases hr with rfl | ⟨rfl, name, pass, hname, hpass, rfl, hmatch⟩
    · rw [or_neg_one, if_pos (by decide)]
      exact .inl rfl
    · split
      · exact .inl rfl
      have h₅ : w.Talk (methodOctets methods ++ userOctets name.octets pass.octets)
          [([version5, UInt8.ofInt authMethodUser.toNat], res), ([1, UInt8.ofInt 0], res')] w₄ := by
        simpa using (h₂.trans h₃).trans h₄
      refine .inr ⟨_, _, h₅, .user hmethod hlen hmem hpos hname hpass fun hv => ?_⟩
      exact h₄.matched (hmatch (h₂.valid hv))

end

end HevSocks5
