/-
  What a client sends of its strings.

  A user name, a password and the name of a target go behind a length of one
  octet.  Only the low octet of a length is kept, and nothing fails when more is
  lost: a longer string is sent shortened, and the string that is copied into an
  address may even have lost its end.  So the strings that are sent as they are
  configured are those of at most 255 octets (`sent_exactly_iff`).
-/
import HevSocks5.ClientNew
import HevSocks5.Conversion

namespace HevSocks5

open Interact Sys HevSocks5Client

/-! ## The messages -/

/-- A name and a password (RFC 1929): a version, and each behind its length. -/
def decodeCreds : List Octet → Option (List Octet × List Octet)
  | ver :: ulen :: msg =>
    match msg.drop ulen.toNat with
    | plen :: pass =>
      if ver = authVersion1 ∧ pass.length = plen.toNat then some (msg.take ulen.toNat, pass)
      else none
    | [] => none
  | _ => none

/-- An address of the type of names: its length, the name and a port. -/
def decodeName : List Octet → Option (List Octet × Octet × Octet)
  | atype :: len :: msg =>
    match msg.drop len.toNat with
    | [p, q] => if atype = addrTypeName then some (msg.take len.toNat, p, q) else none
    | _ => none
  | _ => none

/-- The messages that were sent, and a client. -/
structure Outbox where
  client : HevSocks5ClientObj
  sent : List (List Octet)

/-- The calls that a client sends with; they may succeed or fail. -/
def outbox : Env (Both Op ClientOp) Outbox := fun w _ o b w' =>
  match o with
  | .inl (.sendmsg _ data) => w' = { w with sent := w.sent ++ [data] }
  | .inr .client => b = w.client ∧ w' = w
  | .inr (.setClient client) => w' = { w with client }
  | _ => w' = w

variable {w w' : Outbox} {user pass name : CString} {port : Int}

/-! ## A name and a password -/

/-- **The message that was sent is the name and the password.** -/
def CredsExact (user pass : CString) : Prop :=
  ∀ w w' : Outbox, w.client.user = some user.1 → w.client.pass = some pass.1 →
    Returns outbox writeAuthCreds w 0 w' →
    ∃ msg, w'.sent = w.sent ++ [msg] ∧ decodeCreds msg = some (user.1, pass.1)

theorem decodeCreds_cred (user pass : List Octet) :
    decodeCreds (authVersion1 :: (cred user ++ cred pass)) =
      some (user.take (UInt8.ofNat user.length).toNat,
        pass.take (UInt8.ofNat pass.length).toNat) := by
  have hlen (s : List Octet) : (s.take (UInt8.ofNat s.length).toNat).length =
      (UInt8.ofNat s.length).toNat := by
    simp
    omega
  simp only [cred, List.cons_append, decodeCreds]
  rw [List.drop_left' (hlen user), List.take_left' (hlen user)]
  dsimp only
  rw [if_pos ⟨trivial, hlen pass⟩]

/-- A string is sent as it is when its length is an octet. -/
theorem take_length_iff (s : List Octet) :
    s.take (UInt8.ofNat s.length).toNat = s ↔ s.length < 256 := by
  rw [List.take_eq_self_iff, UInt8.toNat_ofNat']
  omega

theorem post_writeAuthCreds (hu : w.client.user = some user.1) (hp : w.client.pass = some pass.1) :
    Post outbox writeAuthCreds w fun _ w' =>
      w'.sent = w.sent ++ [authVersion1 :: (cred user.1 ++ cred pass.1)] := by
  rintro self w₁ ⟨rfl, rfl⟩
  refine ⟨trivial, ?_⟩
  simp only [Prog.bind, hu, hp]
  rintro self w₂ rfl
  refine ⟨trivial, ?_⟩
  rintro res w₃ rfl
  refine ⟨trivial, (always_ite ..).2 ?_⟩
  split <;> rfl

/-- A send that succeeds. -/
theorem returns_writeAuthCreds (hu : w.client.user = some user.1)
    (hp : w.client.pass = some pass.1) : ∃ w', Returns outbox writeAuthCreds w 0 w' := by
  refine ⟨{ w with sent := w.sent ++ [authVersion1 :: (cred user.1 ++ cred pass.1)] },
    .call (b := w.client) ⟨rfl, rfl⟩ ?_⟩
  simp only [Prog.bind, hu, hp]
  refine returns_bind.2 ⟨⟨3, -1, .tcp, false, .unspec⟩, w, returns_op.2 rfl, ?_⟩
  exact returns_bind.2 ⟨1, _, returns_op.2 rfl, .ret 0 _⟩

theorem credsExact_iff : CredsExact user pass ↔ user.1.length < 256 ∧ pass.1.length < 256 := by
  constructor
  · intro h
    obtain ⟨w', hr⟩ : ∃ w', Returns outbox writeAuthCreds
        ⟨⟨some user.1, some pass.1, .udp (-1)⟩, []⟩ 0 w' := returns_writeAuthCreds rfl rfl
    obtain ⟨msg, hmsg, hdec⟩ := h _ _ rfl rfl hr
    have hsent : w'.sent = [authVersion1 :: (cred user.1 ++ cred pass.1)] :=
      (post_writeAuthCreds rfl rfl).returns hr
    rw [hmsg] at hsent
    obtain rfl : msg = _ := by simpa using hsent
    rw [decodeCreds_cred, Option.some.injEq, Prod.mk.injEq, take_length_iff,
      take_length_iff] at hdec
    exact hdec
  · rintro ⟨hul, hpl⟩ w w' hu hp hr
    refine ⟨_, (post_writeAuthCreds hu hp).returns hr, ?_⟩
    rw [decodeCreds_cred, (take_length_iff _).2 hul, (take_length_iff _).2 hpl]

/-! ## A name of a target -/

/-- What `strncpy` has copied stands at `addr->domain.addr`. -/
def withName (addr : Mem) (name : CString) : Mem :=
  (addr.write 0 [addrTypeName]).write 2 (strncpy name 256)

theorem length_strncpy (name : CString) (n : Nat) : (strncpy name n).length = n := by
  simp [strncpy]
  omega

theorem withName_apply (addr : Mem) (name : CString) {i : Nat} (hi : i < 256) :
    (withName addr name) (2 + i) = (strncpy name 256).getD i 0 := by
  rw [← length_strncpy name 256] at hi
  rw [withName, Mem.write_apply i hi]
  simp [hi]

theorem strncpy_getD (name : CString) {i n : Nat} (hi : i < n) :
    (strncpy name n).getD i 0 = name.1.getD i 0 := by
  rw [strncpy]
  rw [List.getD_eq_getElem?_getD, List.getD_eq_getElem?_getD, List.getElem?_append]
  split
  · rw [List.getElem?_take, if_pos hi]
  · have hlen : name.1.length ≤ i := by
      simp only [List.length_take] at *
      omega
    rw [List.getElem?_eq_none hlen, List.getElem?_replicate]
    split <;> rfl

/-- A name that fits ends where it ended. -/
theorem strlen_withName (addr : Mem) (h : name.1.length < 256) :
    strlen domainAddrSize ((withName addr name).drop 2) = some name.1.length := by
  have hget {i : Nat} (hi : i < 256) :
      (withName addr name).drop 2 i = name.1.getD i 0 := by
    rw [Mem.drop_apply, withName_apply addr name hi, strncpy_getD name hi]
  unfold strlen
  rw [List.find?_range_eq_some]
  refine ⟨?_, ?_, fun j hj => ?_⟩
  · rw [hget h]
    simp
  · rw [List.mem_range, domainAddrSize]
    omega
  · have hmem := List.getElem_mem hj
    have hne : name.1[j] ≠ 0 := by
      intro h0
      rw [h0] at hmem
      exact name.2 hmem
    rw [hget (by omega)]
    simp [hj, hne]

/-- The octets of the address of a name. -/
def nameOctets (name : CString) (port : Octet × Octet) : List Octet :=
  addrTypeName :: UInt8.ofNat name.1.length :: (name.1 ++ [port.1, port.2])

/-- The length and the port have been written as well. -/
def namedAddr (addr : Mem) (name : CString) (port : Octet × Octet) : Mem :=
  ((withName addr name).write 1 [UInt8.ofNat name.1.length]).write (2 + name.1.length)
    [port.1, port.2]

theorem namedAddr_zero (addr : Mem) (name : CString) (port : Octet × Octet) :
    namedAddr addr name port 0 = addrTypeName := by
  rw [namedAddr, Mem.write_apply_of_lt 0 (by omega), Mem.write_apply_of_lt 0 (by omega), withName,
    Mem.write_apply_of_lt 0 (by omega)]
  rfl

theorem namedAddr_one (addr : Mem) (name : CString) (port : Octet × Octet) :
    namedAddr addr name port 1 = UInt8.ofNat name.1.length := by
  rw [namedAddr, Mem.write_apply_of_lt 1 (by omega)]
  rfl

theorem read_namedAddr (addr : Mem) {name : CString} (port : Octet × Octet)
    (h : name.1.length < 256) :
    (namedAddr addr name port).read (name.1.length + 2 + 1 + 1) = nameOctets name port := by
  have hname : ((namedAddr addr name port).drop 2).read name.1.length = name.1 := by
    refine List.ext_getElem (by simp) fun i hi hi' => ?_
    simp only [Mem.read, List.getElem_map, List.getElem_range, Mem.drop_apply, namedAddr]
    rw [Mem.write_apply_of_lt _ (by omega), Mem.write_apply_of_ge _ (by simp),
      withName_apply addr name (by omega), strncpy_getD name (by omega)]
    simp [hi']
  have hport : ((namedAddr addr name port).drop (2 + name.1.length)).read 2 = [port.1, port.2] :=
    Mem.read_write _ (2 + name.1.length) [port.1, port.2]
  rw [Mem.read_succ, Mem.read_succ, Mem.drop_drop, Mem.read_add, hname, Mem.drop_drop, hport,
    Mem.drop_apply, namedAddr_zero, namedAddr_one, nameOctets]

/-- **A name that fits is copied as it is**, over whatever the stack held. -/
theorem fromName_of_lt (addr : Mem) {name : CString} (port : Int) (h : name.1.length < 256) :
    hevSocks5AddrFromName addr name port =
      some (((4 + name.1.length : Nat) : Int), namedAddr addr name (hostOctets (.ofInt port))) := by
  have hlen : (UInt8.ofNat name.1.length).toNat = name.1.length := by
    rw [UInt8.toNat_ofNat']
    omega
  have hstr := strlen_withName addr h
  rw [withName] at hstr
  simp only [hevSocks5AddrFromName]
  rw [hstr, Option.bind_eq_bind, Option.bind_some, hlen]
  rfl

theorem hevSocks5AddrLen_namedAddr (addr : Mem) {name : CString} (port : Octet × Octet)
    (h : name.1.length < 256) :
    hevSocks5AddrLen (namedAddr addr name port) = (4 + name.1.length : Nat) := by
  rw [hevSocks5AddrLen, namedAddr_zero, namedAddr_one, UInt8.toNat_ofNat', Nat.mod_eq_of_lt h]
  rfl

theorem octetsOf_namedAddr (addr : Mem) {name : CString} (port : Octet × Octet)
    (h : name.1.length < 256) : octetsOf (namedAddr addr name port) = nameOctets name port := by
  rw [octetsOf, hevSocks5AddrLen_namedAddr addr port h, Int.toNat_natCast,
    show 4 + name.1.length = name.1.length + 2 + 1 + 1 by omega, read_namedAddr addr port h]

theorem decodeName_nameOctets (port : Octet × Octet) (h : name.1.length < 256) :
    decodeName (nameOctets name port) = some (name.1, port) := by
  have hlen : (UInt8.ofNat name.1.length).toNat = name.1.length := by
    rw [UInt8.toNat_ofNat', Nat.mod_eq_of_lt h]
  simp only [nameOctets, decodeName, hlen]
  rw [List.drop_left' rfl, List.take_left' rfl]
  rfl

/-! ## A client for a name -/

/-- The octets of an address, copied. -/
theorem octetsOf_ofList {addr : Mem} (h : 0 < hevSocks5AddrLen addr) :
    octetsOf (.ofList (octetsOf addr)) = octetsOf addr := by
  rw [octetsOf, hevSocks5AddrLen_ofList h, octetsOf]
  exact Mem.read_congr fun i hi => ofList_octetsOf (by omega)

/-- A client that was made holds a copy of the address. -/
theorem post_tcpNew (res : Int) (addr : Mem) :
    Post outbox (tcpNew (some (res, addr))) w fun made _ => ∀ client, made = some client →
      ∃ ptr, client = ⟨none, none, .tcp (some ⟨ptr, .ofList (octetsOf addr)⟩)⟩ := by
  rintro self w₁ rfl
  refine ⟨trivial, ?_⟩
  cases self with
  | none => rintro client ⟨⟩
  | some self =>
    rintro ptr w₂ rfl
    refine ⟨trivial, ?_⟩
    cases ptr with
    | none =>
      rintro _ w₃ rfl
      exact ⟨trivial, by rintro client ⟨⟩⟩
    | some ptr =>
      rintro client ⟨⟩
      exact ⟨ptr, rfl⟩

/-- There is memory for a client. -/
theorem returns_tcpNew (res : Int) (addr : Mem) (ptr : Ptr) :
    Returns outbox (tcpNew (some (res, addr))) w
      (some ⟨none, none, .tcp (some ⟨ptr, .ofList (octetsOf addr)⟩)⟩) w :=
  .call (b := some 0) rfl (.call (b := some ptr) rfl (.ret _ _))

/-- **The address of a client that was made for a name is the name and the port**: the result of
    `hev_socks5_addr_from_name` is its length, and nothing of the stack is in it. -/
def NameExact (name : CString) (port : Int) : Prop :=
  ∀ (stack : Mem) (w w' : Outbox) (client : HevSocks5ClientObj),
    Returns outbox (tcpNewName stack name port) w (some client) w' →
    ∃ res addr block, hevSocks5AddrFromName stack name port = some (res, addr) ∧
      res = hevSocks5AddrLen addr ∧ client.klass = .tcp (some block) ∧
      decodeName (octetsOf block.mem) = some (name.1, hostOctets (.ofInt port)) ∧
      ∀ stack' res' addr', hevSocks5AddrFromName stack' name port = some (res', addr') →
        res' = res ∧ octetsOf addr' = octetsOf block.mem

theorem nameExact_of_lt (port : Int) (h : name.1.length < 256) : NameExact name port := by
  intro stack w w' client hr
  rw [tcpNewName, fromName_of_lt stack port h] at hr
  obtain ⟨ptr, rfl⟩ := (post_tcpNew _ _).returns hr client rfl
  have hlen (stack : Mem) := hevSocks5AddrLen_namedAddr stack (hostOctets (.ofInt port)) h
  have hpos : 0 < hevSocks5AddrLen (namedAddr stack name (hostOctets (.ofInt port))) := by
    rw [hlen]
    omega
  have hblock := octetsOf_ofList hpos
  rw [octetsOf_namedAddr stack _ h] at hblock
  refine ⟨_, _, _, fromName_of_lt stack port h, (hlen stack).symm, rfl, ?_, ?_⟩
  · rw [octetsOf_namedAddr stack _ h, hblock, decodeName_nameOctets _ h]
  · intro stack' res' addr' h'
    rw [fromName_of_lt stack' port h, Option.some.injEq, Prod.mk.injEq] at h'
    obtain ⟨rfl, rfl⟩ := h'
    rw [octetsOf_namedAddr stack _ h, octetsOf_namedAddr stack' _ h, hblock]
    exact ⟨rfl, rfl⟩

/-! ## Names that do not fit -/

/-- The end of a longer name is found behind what was copied, where the stack happens to hold a
    zero. -/
theorem strlen_withName_of_le (h : 256 ≤ name.1.length) :
    strlen domainAddrSize ((withName .undef name).drop 2) = some 256 := by
  unfold strlen
  rw [List.find?_range_eq_some]
  refine ⟨?_, by decide, fun j hj => ?_⟩
  · rw [Mem.drop_apply, withName, Mem.write_apply_of_ge _ (by rw [length_strncpy])]
    rfl
  · have hmem := List.getElem_mem (show j < name.1.length by omega)
    have hne : name.1[j] ≠ 0 := by
      intro h0
      rw [h0] at hmem
      exact name.2 hmem
    rw [Mem.drop_apply, withName_apply _ _ hj, strncpy_getD name hj]
    simp [show j < name.1.length by omega, hne]

/-- What is left when the length has become zero. -/
def lostAddr (name : CString) (port : Octet × Octet) : Mem :=
  ((withName .undef name).write 1 [0]).write 2 [port.1, port.2]

theorem read_lostAddr (name : CString) (port : Octet × Octet) :
    octetsOf (lostAddr name port) = [addrTypeName, 0, port.1, port.2] ∧
      hevSocks5AddrLen (lostAddr name port) = 4 := by
  have h0 : lostAddr name port 0 = addrTypeName := by
    rw [lostAddr, Mem.write_apply_of_lt 0 (by omega), Mem.write_apply_of_lt 0 (by omega), withName,
      Mem.write_apply_of_lt 0 (by omega)]
    rfl
  have h1 : lostAddr name port 1 = 0 := by
    rw [lostAddr, Mem.write_apply_of_lt 1 (by omega)]
    rfl
  have hlen : hevSocks5AddrLen (lostAddr name port) = 4 := by
    rw [hevSocks5AddrLen, h0, h1]
    rfl
  have hport : ((lostAddr name port).drop 2).read 2 = [port.1, port.2] :=
    Mem.read_write _ 2 [port.1, port.2]
  refine ⟨?_, hlen⟩
  rw [octetsOf, hlen, show (4 : Int).toNat = 2 + 1 + 1 from rfl, Mem.read_succ, Mem.read_succ,
    Mem.drop_drop, hport, Mem.drop_apply, h0, h1]

/-- Then the name is lost. -/
theorem not_nameExact_of_le (port : Int) (h : 256 ≤ name.1.length) : ¬ NameExact name port := by
  intro hall
  have hstr := strlen_withName_of_le h
  rw [withName] at hstr
  have hfrom : hevSocks5AddrFromName .undef name port =
      some (4, lostAddr name (hostOctets (.ofInt port))) := by
    simp only [hevSocks5AddrFromName]
    rw [hstr]
    rfl
  obtain ⟨hread, hlen⟩ := read_lostAddr name (hostOctets (.ofInt port))
  have hr := returns_tcpNew (w := ⟨⟨none, none, .udp (-1)⟩, []⟩) 4
    (lostAddr name (hostOctets (.ofInt port))) 16
  rw [← hfrom] at hr
  obtain ⟨res, addr, block, haddr, -, hblock, hdec, -⟩ := hall .undef _ _ _ hr
  obtain rfl : _ = block := by simpa using hblock
  dsimp only at hdec
  rw [octetsOf_ofList (by rw [hlen]; decide), hread] at hdec
  have hnil : name.1 = [] := by
    have h' : some ([], hostOctets (.ofInt port)) = some (name.1, hostOctets (.ofInt port)) := hdec
    simpa using h'.symm
  rw [hnil] at h
  exact absurd h (by decide)

/-- **What is sent of the strings is what was configured when they have at most 255 octets**, and
    only then. -/
theorem sent_exactly_iff (user pass name : CString) (port : Int) :
    (CredsExact user pass ↔ user.1.length < 256 ∧ pass.1.length < 256) ∧
    (NameExact name port ↔ name.1.length < 256) := by
  refine ⟨credsExact_iff, fun h => ?_, nameExact_of_lt port⟩
  by_contra hlen
  exact not_nameExact_of_le port (Nat.not_lt.1 hlen) h

/-- A string of 256 octets. -/
def longString : CString :=
  ⟨List.replicate 256 97, fun h => absurd (List.eq_of_mem_replicate h) (by decide)⟩

theorem not_sent_exactly :
    ¬ CredsExact longString longString ∧ ¬ NameExact longString 443 := by
  have hlen : longString.1.length = 256 := List.length_replicate
  refine ⟨fun h => ?_, not_nameExact_of_le 443 hlen.ge⟩
  have hlt := (credsExact_iff.1 h).1
  rw [hlen] at hlt
  exact absurd hlt (by decide)

end HevSocks5
