/-
  What a client sends.

  An `Endpoint` is an address of the protocol, apart from how it is laid out in
  octets.  A `Hello` is all that a client sends in the handshake: a greeting, a
  login when it has one, and a request.  No `Hello` is a prefix of another one.
-/
import HevSocks5.Resolver
import HevSocks5.ServerAuth

namespace HevSocks5

open HevSocks5Server

/-! ## Addresses -/

/-- An address, with its port in network order. -/
inductive Endpoint where
  | ipv4 (addr : Vector Octet 4) (port : Octet × Octet)
  | ipv6 (addr : Vector Octet 16) (port : Octet × Octet)
  | name (name : List Octet) (port : Octet × Octet) (h : name.length < 256)

namespace Endpoint

def octets : Endpoint → List Octet
  | ipv4 addr port => addrTypeIpv4 :: (addr.toList ++ [port.1, port.2])
  | ipv6 addr port => addrTypeIpv6 :: (addr.toList ++ [port.1, port.2])
  | name n port _ => addrTypeName :: UInt8.ofNat n.length :: (n ++ [port.1, port.2])

/-- What it stands for; a name is passed to the resolver up to its first zero. -/
def sockaddr (R : Resolver) (family : HevSocks5AddrFamily) : Endpoint → Option SockAddrIn6
  | ipv4 addr port => some ⟨port, v4Mapped addr⟩
  | ipv6 addr port => some ⟨port, addr⟩
  | name n port _ => (R.resolve family (cString n)).map fun addr => ⟨port, addr⟩

/-- Its length is the one that `hev_socks5_addr_len` computes. -/
theorem hevSocks5AddrLen_octets (e : Endpoint) :
    hevSocks5AddrLen (.ofList e.octets) = e.octets.length := by
  rcases e with ⟨addr, port⟩ | ⟨addr, port⟩ | ⟨n, port, h⟩
  · simp [octets, hevSocks5AddrLen, Mem.ofList]
  · simp [octets, hevSocks5AddrLen, Mem.ofList, addrTypeIpv6, addrTypeIpv4]
  · simp [octets, hevSocks5AddrLen, Mem.ofList, addrTypeName, addrTypeIpv6, addrTypeIpv4]
    omega

/-- A list by its first and its last two octets. -/
theorem exists_ends {l : List Octet} {n : Nat} (h : l.length = n + 3) :
    ∃ t a p q, l = t :: (a ++ [p, q]) ∧ a.length = n := by
  obtain ⟨t, l, rfl⟩ := List.exists_cons_of_length_pos (l := l) (by omega)
  obtain ⟨l, q, rfl, hl⟩ := exists_concat_of_length (l := l) (n := n + 1) (by simpa using h)
  obtain ⟨a, p, rfl, ha⟩ := exists_concat_of_length hl
  exact ⟨t, a, p, q, by simp, ha⟩

/-- Octets of that length are an address. -/
theorem exists_octets_eq {l : List Octet} (h : hevSocks5AddrLen (.ofList l) = l.length) :
    ∃ e : Endpoint, e.octets = l := by
  unfold hevSocks5AddrLen at h
  split_ifs at h with hv4 hv6 hname
  · obtain ⟨t, a, p, q, rfl, ha⟩ := exists_ends (l := l) (n := 4) (by omega)
    obtain rfl : t = addrTypeIpv4 := hv4
    exact ⟨.ipv4 ⟨a.toArray, by simpa using ha⟩ (p, q), by simp [octets]⟩
  · obtain ⟨t, a, p, q, rfl, ha⟩ := exists_ends (l := l) (n := 16) (by omega)
    obtain rfl : t = addrTypeIpv6 := hv6
    exact ⟨.ipv6 ⟨a.toArray, by simpa using ha⟩ (p, q), by simp [octets]⟩
  · obtain ⟨t, l, rfl⟩ := List.exists_cons_of_length_pos (l := l) (by omega)
    obtain rfl : t = addrTypeName := hname
    have hlen : ((Mem.ofList (addrTypeName :: l) 1).toNat : Int) + 3 = l.length := by
      simp only [List.length_cons] at h
      omega
    obtain ⟨k, a, p, q, rfl, ha⟩ := exists_ends (l := l) (n := l.length - 3) (by omega)
    have hk : Mem.ofList (addrTypeName :: k :: (a ++ [p, q])) 1 = k := rfl
    have hlt := k.toNat_lt
    rw [hk] at hlen
    simp only [List.length_cons, List.length_append, List.length_nil] at hlen ha
    refine ⟨.name a (p, q) (by omega), ?_⟩
    rw [octets, show a.length = k.toNat by omega, UInt8.ofNat_toNat]

theorem octets_injective {e e' : Endpoint} (h : e.octets = e'.octets) : e = e' := by
  have hport : ∀ {a a' : List Octet} {p p' : Octet × Octet},
      a ++ [p.1, p.2] = a' ++ [p'.1, p'.2] → a = a' ∧ p = p' := by
    intro a a' p p' h
    obtain ⟨ha, hp⟩ := List.append_inj' h rfl
    simp only [List.cons.injEq, and_true] at hp
    exact ⟨ha, Prod.ext hp.1 hp.2⟩
  rcases e with ⟨addr, port⟩ | ⟨addr, port⟩ | ⟨n, port, hn⟩ <;>
    rcases e' with ⟨addr', port'⟩ | ⟨addr', port'⟩ | ⟨n', port', hn'⟩ <;>
    simp only [octets, List.cons.injEq, addrTypeIpv4, addrTypeIpv6, addrTypeName] at h <;>
    first | exact absurd h.1 (by decide) | skip
  · obtain ⟨ha, rfl⟩ := hport h.2
    rw [Vector.toList_inj.1 ha]
  · obtain ⟨ha, rfl⟩ := hport h.2
    rw [Vector.toList_inj.1 ha]
  · obtain ⟨rfl, rfl⟩ := hport h.2.2
    rfl

theorem ofList_append_right (l r : List Octet) (i : Nat) :
    Mem.ofList (l ++ r) (l.length + i) = Mem.ofList r i := by
  simp [Mem.ofList, List.getElem?_append_right]

theorem vectorAt_ofList {n : Nat} (l r : List Octet) (addr : Vector Octet n) :
    vectorAt (Mem.ofList (l ++ (addr.toList ++ r))) l.length n = addr := by
  refine Vector.ext fun i hi => ?_
  rw [vectorAt, Vector.getElem_ofFn, ofList_append_right]
  simp [Mem.ofList, List.getElem?_append_left, hi]

theorem read_ofList (l r : List Octet) : (Mem.ofList (l ++ r)).read l.length = l := by
  refine List.ext_getElem (by simp) fun i hi hi' => ?_
  simp [Mem.read, Mem.ofList, List.getElem?_append_left, hi']

theorem destination_octets (R : Resolver) (family : HevSocks5AddrFamily) (e : Endpoint) :
    R.destination family (.ofList e.octets) = e.sockaddr R family := by
  rcases e with ⟨addr, port⟩ | ⟨addr, port⟩ | ⟨n, port, hn⟩
  · have hv := vectorAt_ofList [addrTypeIpv4] [port.1, port.2] addr
    have hp := ofList_append_right (addrTypeIpv4 :: addr.toList) [port.1, port.2]
    simp only [List.length_cons, Vector.length_toList] at hp
    rw [Resolver.destination, if_pos (by rfl), hevSocks5Ipv4IntoSockaddr6]
    exact congrArg some (congrArg₂ SockAddrIn6.mk (Prod.ext (hp 0) (hp 1)) (congrArg v4Mapped hv))
  · have hv := vectorAt_ofList [addrTypeIpv6] [port.1, port.2] addr
    have hp := ofList_append_right (addrTypeIpv6 :: addr.toList) [port.1, port.2]
    simp only [List.length_cons, Vector.length_toList] at hp
    have h4 : Mem.ofList (octets (.ipv6 addr port)) 0 ≠ addrTypeIpv4 :=
      show addrTypeIpv6 ≠ addrTypeIpv4 by decide
    rw [Resolver.destination, if_neg h4, if_pos (by rfl), hevSocks5Ipv6IntoSockaddr6]
    exact congrArg some (congrArg₂ SockAddrIn6.mk (Prod.ext (hp 0) (hp 1)) hv)
  · have hlen : (Mem.ofList (octets (.name n port hn)) 1).toNat = n.length := by
      simp [octets, Mem.ofList, Nat.mod_eq_of_lt hn]
    have hread : ((Mem.ofList (octets (.name n port hn))).drop 2).read n.length = n := by
      have hdrop : (Mem.ofList (octets (.name n port hn))).drop 2 =
          Mem.ofList (n ++ [port.1, port.2]) := by
        funext i
        exact ofList_append_right [addrTypeName, UInt8.ofNat n.length] (n ++ [port.1, port.2]) i
      rw [hdrop, read_ofList]
    have hp := ofList_append_right (addrTypeName :: UInt8.ofNat n.length :: n) [port.1, port.2]
    simp only [List.length_cons] at hp
    have hport : (Mem.ofList (octets (.name n port hn)) (2 + n.length),
        Mem.ofList (octets (.name n port hn)) (2 + n.length + 1)) = port := by
      rw [show 2 + n.length = n.length + 1 + 1 by omega]
      exact Prod.ext (hp 0) (hp 1)
    have h4 : Mem.ofList (octets (.name n port hn)) 0 ≠ addrTypeIpv4 :=
      show addrTypeName ≠ addrTypeIpv4 by decide
    have h6 : Mem.ofList (octets (.name n port hn)) 0 ≠ addrTypeIpv6 :=
      show addrTypeName ≠ addrTypeIpv6 by decide
    rw [Resolver.destination, if_neg h4, if_neg h6, if_pos (by rfl)]
    dsimp only
    rw [hlen, hread, hport]
    rfl

/-- The length of an address is known from its first two octets. -/
theorem addrRest_eq_some {atype second : Octet} {l : List Octet} {k : Nat} :
    addrRest atype second = some k ↔ hevSocks5AddrLen (.ofList (atype :: second :: l)) = k + 2 := by
  have h0 : Mem.ofList (atype :: second :: l) 0 = atype := rfl
  have h1 : Mem.ofList (atype :: second :: l) 1 = second := rfl
  unfold addrRest hevSocks5AddrLen
  rw [h0, h1]
  split_ifs <;> simp <;> omega

theorem exists_second (e : Endpoint) : ∃ atype second l, e.octets = atype :: second :: l ∧
    addrRest atype second = some l.length := by
  have hlen := e.hevSocks5AddrLen_octets
  have h2 : 2 ≤ e.octets.length := by
    cases e <;> simp [octets]
  obtain ⟨atype, l, hl⟩ := List.exists_cons_of_length_pos (l := e.octets) (by omega)
  rw [hl, List.length_cons] at h2
  obtain ⟨second, l, rfl⟩ := List.exists_cons_of_length_pos (l := l) (by omega)
  refine ⟨atype, second, l, hl, (addrRest_eq_some (l := l)).2 ?_⟩
  rw [hl] at hlen
  simpa [add_assoc] using hlen

theorem append_inj {e e' : Endpoint} {r r' : List Octet} (h : e.octets ++ r = e'.octets ++ r') :
    e = e' ∧ r = r' := by
  obtain ⟨atype, second, l, hl, hrest⟩ := e.exists_second
  obtain ⟨atype', second', l', hl', hrest'⟩ := e'.exists_second
  rw [hl, hl'] at h
  simp only [List.cons_append, List.cons.injEq] at h
  obtain ⟨rfl, rfl, h⟩ := h
  obtain ⟨rfl, rfl⟩ := List.append_inj h (Option.some.inj (hrest.symm.trans hrest'))
  exact ⟨octets_injective (hl.trans hl'.symm), rfl⟩

end Endpoint

/-! ## Messages -/

/-- What a client sends that requests a command. -/
def requestOctets (cmd rsv : Octet) (dest : Endpoint) : List Octet :=
  [version5, cmd, rsv] ++ dest.octets

/-- All that a client sends in the handshake. -/
structure Hello where
  methods : List Octet
  /-- the name and the password of a client that logs in -/
  login : Option (Str × Str)
  cmd : Octet
  rsv : Octet
  dest : Endpoint

def Hello.loginOctets (m : Hello) : List Octet :=
  match m.login with
  | none => []
  | some (name, pass) => userOctets name.octets pass.octets

def Hello.octets (m : Hello) : List Octet :=
  methodOctets m.methods ++ (m.loginOctets ++ requestOctets m.cmd m.rsv m.dest)

section
variable {methods methods' r r' : List Octet}

theorem ofNat_length_inj {l l' : List Octet} (h : l.length < 256) (h' : l'.length < 256)
    (heq : UInt8.ofNat l.length = UInt8.ofNat l'.length) : l.length = l'.length := by
  rw [← UInt8.toNat_inj, UInt8.toNat_ofNat', UInt8.toNat_ofNat'] at heq
  omega

theorem methodOctets_append_inj (hm : methods.length < 256) (hm' : methods'.length < 256)
    (h : methodOctets methods ++ r = methodOctets methods' ++ r') :
    methods = methods' ∧ r = r' := by
  simp only [methodOctets, List.cons_append, List.nil_append, List.cons.injEq, true_and] at h
  exact List.append_inj h.2 (ofNat_length_inj hm hm' h.1)

theorem userOctets_append_inj {name pass name' pass' : Str} (hn : name.Fits) (hp : pass.Fits)
    (hn' : name'.Fits) (hp' : pass'.Fits)
    (h : userOctets name.octets pass.octets ++ r = userOctets name'.octets pass'.octets ++ r') :
    name = name' ∧ pass = pass' ∧ r = r' := by
  simp only [userOctets, List.cons_append, List.nil_append, List.append_assoc, List.cons.injEq,
    true_and] at h
  obtain ⟨hname, h⟩ := List.append_inj h.2 (ofNat_length_inj hn.2 hn'.2 h.1)
  simp only [List.cons.injEq] at h
  obtain ⟨hpass, rfl⟩ := List.append_inj h.2 (ofNat_length_inj hp.2 hp'.2 h.1)
  exact ⟨Str.ext_octets hname, Str.ext_octets hpass, rfl⟩

theorem requestOctets_append_inj {cmd rsv cmd' rsv' : Octet} {e e' : Endpoint}
    (h : requestOctets cmd rsv e ++ r = requestOctets cmd' rsv' e' ++ r') :
    cmd = cmd' ∧ rsv = rsv' ∧ e = e' ∧ r = r' := by
  simp only [requestOctets, List.cons_append, List.nil_append, List.cons.injEq, true_and] at h
  obtain ⟨rfl, rfl, h⟩ := h
  obtain ⟨rfl, rfl⟩ := Endpoint.append_inj h
  exact ⟨rfl, rfl, rfl, rfl⟩

end

end HevSocks5
