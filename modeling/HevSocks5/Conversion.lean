/-
  Conversions between addresses and socket addresses.

  A socket address has one form for an IPv4 host, the mapped one, and an
  address has two: its own type, and the mapped address as one of type IPv6.
  So an address that is converted and converted back is the address of its
  host (`Endpoint.canon`), and two addresses become the same one when they are
  addresses of the same host (`conversions`).
-/
import HevSocks5.UdpAccept
import HevSocks5.Wire

namespace HevSocks5

open Interact

/-! ## Hosts -/

/-- A host, apart from how its address is written. -/
inductive HostAddr where
  | inet (addr : Vector Octet 4)
  | inet6 (addr : Vector Octet 16)
deriving DecidableEq

/-- The address is an IPv4 address that is mapped. -/
def isMapped (addr : Vector Octet 16) : Bool :=
  addr.toList.take 12 = List.replicate 10 0 ++ [0xff, 0xff]

/-- The last four octets. -/
def lastFour (addr : Vector Octet 16) : Vector Octet 4 := Vector.ofFn fun i => addr[12 + i.val]

/-- The host of an address of 16 octets. -/
def hostOf (addr : Vector Octet 16) : HostAddr :=
  if isMapped addr then .inet (lastFour addr) else .inet6 addr

theorem toList_lastFour (addr : Vector Octet 16) :
    (lastFour addr).toList = addr.toList.drop 12 := by
  apply List.ext_getElem
  · simp
  · intro i h₁ h₂
    simp [lastFour]

/-- The octets that come before a mapped address. -/
def mappedHead : List Octet := List.replicate 10 0 ++ [0xff, 0xff]

theorem toList_v4Mapped (addr : Vector Octet 4) :
    (v4Mapped addr).toList = mappedHead ++ addr.toList := by
  rw [v4Mapped, Vector.toList_append, Vector.toList_append]
  rfl

theorem isMapped_v4Mapped (addr : Vector Octet 4) : isMapped (v4Mapped addr) = true := by
  have hlen : mappedHead.length = 12 := rfl
  rw [isMapped, toList_v4Mapped, List.take_left' hlen]
  decide

theorem lastFour_v4Mapped (addr : Vector Octet 4) : lastFour (v4Mapped addr) = addr := by
  have hlen : mappedHead.length = 12 := rfl
  rw [← Vector.toList_inj, toList_lastFour, toList_v4Mapped, List.drop_left' hlen]

theorem v4Mapped_lastFour {addr : Vector Octet 16} (h : isMapped addr = true) :
    v4Mapped (lastFour addr) = addr :=
  SockAddrIn6.v4Mapped_of_isV4Mapped ⟨(0, 0), addr⟩ h (toList_lastFour addr)

theorem hostOf_v4Mapped (addr : Vector Octet 4) : hostOf (v4Mapped addr) = .inet addr := by
  rw [hostOf, isMapped_v4Mapped, if_pos rfl, lastFour_v4Mapped]

/-- An address of 16 octets is known from its host. -/
theorem hostOf_injective {a b : Vector Octet 16} (h : hostOf a = hostOf b) : a = b := by
  unfold hostOf at h
  split at h <;> split at h
  case _ ha hb =>
    rw [HostAddr.inet.injEq] at h
    rw [← v4Mapped_lastFour ha, ← v4Mapped_lastFour hb, h]
  case _ => exact absurd h (by simp)
  case _ => exact absurd h (by simp)
  case _ => exact HostAddr.inet6.inj h

/-! ## The address of a socket address -/

/-- The address that `hev_socks5_addr_from_sockaddr6` writes. -/
def SockAddrIn6.endpoint (saddr : SockAddrIn6) : Endpoint :=
  match hostOf saddr.addr with
  | .inet addr => .ipv4 addr saddr.port
  | .inet6 addr => .ipv6 addr saddr.port

theorem SockAddrIn6.octets_eq (saddr : SockAddrIn6) : saddr.octets = saddr.endpoint.octets := by
  have hm : saddr.isV4Mapped = isMapped saddr.addr := rfl
  unfold SockAddrIn6.octets SockAddrIn6.endpoint hostOf
  rw [hm]
  split
  · rw [← toList_lastFour]
    rfl
  · rfl

/-- A socket address is known from the octets of its address. -/
theorem octets_inj {saddr saddr' : SockAddrIn6} :
    saddr.octets = saddr'.octets ↔ saddr = saddr' := by
  constructor
  · intro h
    have h₁ := SockAddrIn6.destination_octets saddr noNames .unspec []
    rw [h, SockAddrIn6.destination_octets] at h₁
    exact (Option.some.inj h₁).symm
  · intro h
    rw [h]

/-! ## The addresses that are not names -/

/-- The address is of type IPv4 or IPv6. -/
def Numeric (addr : Mem) : Prop := addr 0 = addrTypeIpv4 ∨ addr 0 = addrTypeIpv6

/-- The socket address of an address that is not a name. -/
def intoSockaddr6 (addr : Mem) : SockAddrIn6 :=
  if addr 0 = addrTypeIpv4 then hevSocks5Ipv4IntoSockaddr6 addr else hevSocks5Ipv6IntoSockaddr6 addr

/-- The octets of an address. -/
def octetsOf (addr : Mem) : List Octet := addr.read (hevSocks5AddrLen addr).toNat

theorem ofList_octetsOf {addr : Mem} {i : Nat} (hi : (i : Int) < hevSocks5AddrLen addr) :
    Mem.ofList (octetsOf addr) i = addr i := by
  have hi' : i < (hevSocks5AddrLen addr).toNat := by omega
  simp [Mem.ofList, octetsOf, Mem.read, hi']

theorem hevSocks5AddrLen_ofList {addr : Mem} (h : 0 < hevSocks5AddrLen addr) :
    hevSocks5AddrLen (.ofList (octetsOf addr)) = hevSocks5AddrLen addr := by
  have h4 := four_le_hevSocks5AddrLen h
  exact hevSocks5AddrLen_congr (ofList_octetsOf (by omega)) (ofList_octetsOf (by omega))

/-- An address of a known type is an endpoint. -/
theorem exists_endpoint {addr : Mem} (h : 0 < hevSocks5AddrLen addr) :
    ∃ e : Endpoint, e.octets = octetsOf addr ∧
      ∀ (R : Resolver) family, R.destination family addr = e.sockaddr R family := by
  have h4 := four_le_hevSocks5AddrLen h
  obtain ⟨e, he⟩ := Endpoint.exists_octets_eq (l := octetsOf addr) (by
    rw [hevSocks5AddrLen_ofList h, octetsOf, Mem.length_read]
    omega)
  refine ⟨e, he, fun R family => ?_⟩
  rw [← Endpoint.destination_octets, he]
  exact Resolver.destination_congr (ofList_octetsOf (by omega)).symm
    (ofList_octetsOf (by omega)).symm fun i hi => (ofList_octetsOf hi).symm

/-- The host of an address, and its port. -/
def hostPort (addr : Mem) : HostAddr × (Octet × Octet) :=
  if addr 0 = addrTypeIpv4 then (.inet (vectorAt addr 1 4), (addr 5, addr 6))
  else (hostOf (vectorAt addr 1 16), (addr 17, addr 18))

variable {addr addr' old target : Mem} {saddr saddr' : SockAddrIn6}

theorem hevSocks5AddrIntoSockaddr6_eq (h : Numeric addr) (saddr : SockAddrIn6)
    (family : HevSocks5AddrFamily) : hevSocks5AddrIntoSockaddr6 addr saddr family =
      pure (0, intoSockaddr6 addr, if addr 0 = addrTypeIpv4 then .ipv4 else .ipv6) := by
  unfold hevSocks5AddrIntoSockaddr6 intoSockaddr6
  rcases h with h | h
  · simp only [h, if_pos]
  · rw [h, if_neg (by decide), if_pos rfl, if_neg (by decide), if_neg (by decide)]

/-- The socket address tells the host and the port, and no more. -/
theorem hostOf_intoSockaddr6 (addr : Mem) :
    (hostOf (intoSockaddr6 addr).addr, (intoSockaddr6 addr).port) = hostPort addr := by
  unfold intoSockaddr6 hostPort
  split
  · exact congrArg (·, _) (hostOf_v4Mapped _)
  · rfl

theorem intoSockaddr6_eq_iff :
    intoSockaddr6 addr = intoSockaddr6 addr' ↔ hostPort addr = hostPort addr' := by
  rw [← hostOf_intoSockaddr6, ← hostOf_intoSockaddr6]
  constructor
  · intro h
    rw [h]
  · intro h
    rw [Prod.mk.injEq] at h
    exact congrArg₂ SockAddrIn6.mk h.2 (hostOf_injective h.1)

/-! ## There and back -/

/-- An address is converted to a socket address and back. -/
def roundTrip (old addr : Mem) : Mem := (hevSocks5AddrFromSockaddr6 old (intoSockaddr6 addr)).2

theorem from_fst (old : Mem) (saddr : SockAddrIn6) :
    (hevSocks5AddrFromSockaddr6 old saddr).1 = saddr.octets.length := by
  rw [SockAddrIn6.length_octets, hevSocks5AddrFromSockaddr6]
  split <;> rfl

/-- The octets of an address, written. -/
theorem hevSocks5AddrLen_write (old : Mem) (e : Endpoint) :
    hevSocks5AddrLen (old.write 0 e.octets) = e.octets.length := by
  have h2 : 2 ≤ e.octets.length := by
    cases e <;> simp [Endpoint.octets]
  rw [← e.hevSocks5AddrLen_octets]
  exact hevSocks5AddrLen_congr (Mem.write_zero_eq_ofList (by omega))
    (Mem.write_zero_eq_ofList (by omega))

theorem octetsOf_write (old : Mem) (e : Endpoint) : octetsOf (old.write 0 e.octets) = e.octets := by
  rw [octetsOf, hevSocks5AddrLen_write, Int.toNat_natCast, Mem.read_write_zero]

theorem from_eq_write (old : Mem) (saddr : SockAddrIn6) :
    (hevSocks5AddrFromSockaddr6 old saddr).2 = old.write 0 saddr.endpoint.octets := by
  rw [← SockAddrIn6.octets_eq]
  rfl

theorem hevSocks5AddrLen_from (old : Mem) (saddr : SockAddrIn6) :
    hevSocks5AddrLen (hevSocks5AddrFromSockaddr6 old saddr).2 =
      (hevSocks5AddrFromSockaddr6 old saddr).1 := by
  rw [from_eq_write, hevSocks5AddrLen_write, from_fst, SockAddrIn6.octets_eq]

theorem octetsOf_from (old : Mem) (saddr : SockAddrIn6) :
    octetsOf (hevSocks5AddrFromSockaddr6 old saddr).2 = saddr.octets := by
  rw [from_eq_write, octetsOf_write, SockAddrIn6.octets_eq]

theorem numeric_from (old : Mem) (saddr : SockAddrIn6) :
    Numeric (hevSocks5AddrFromSockaddr6 old saddr).2 := by
  have h4 := saddr.four_le_length_octets
  have h0 : (hevSocks5AddrFromSockaddr6 old saddr).2 0 = Mem.ofList saddr.octets 0 :=
    Mem.write_zero_eq_ofList (by omega)
  rw [Numeric, h0, SockAddrIn6.octets]
  split
  · exact .inl rfl
  · exact .inr rfl

theorem destination_numeric (h : Numeric addr) :
    noNames.destination .unspec addr = some (intoSockaddr6 addr) := by
  unfold Resolver.destination intoSockaddr6
  rcases h with h | h
  · rw [if_pos h, if_pos h]
  · rw [h, if_neg (by decide), if_pos rfl, if_neg (by decide)]

/-- A socket address is what its address is converted to. -/
theorem intoSockaddr6_from (old : Mem) (saddr : SockAddrIn6) :
    intoSockaddr6 (hevSocks5AddrFromSockaddr6 old saddr).2 = saddr := by
  have h4 := saddr.four_le_length_octets
  have hoct {i : Nat} (hi : i < saddr.octets.length) :
      Mem.ofList saddr.octets i = (hevSocks5AddrFromSockaddr6 old saddr).2 i :=
    (Mem.write_zero_eq_ofList hi).symm
  have hdest := SockAddrIn6.destination_octets saddr noNames .unspec []
  rw [List.append_nil, Resolver.destination_congr (hoct (by omega)) (hoct (by omega)),
    destination_numeric (numeric_from old saddr)] at hdest
  · exact Option.some.inj hdest
  · intro i hi
    have hlen := SockAddrIn6.hevSocks5AddrLen_octets saddr []
    rw [List.append_nil] at hlen
    exact hoct (by omega)

theorem toList_vectorAt (m : Mem) (k n : Nat) : (vectorAt m k n).toList = (m.drop k).read n := by
  apply List.ext_getElem
  · simp
  · intro i h₁ h₂
    simp [vectorAt, Mem.read]

/-- A type, an address and a port. -/
theorem read_numeric (m : Mem) (n : Nat) :
    m.read (n + 3) = m 0 :: ((vectorAt m 1 n).toList ++ [m (1 + n), m (2 + n)]) := by
  rw [show n + 3 = n + 2 + 1 from rfl, Mem.read_succ, Mem.read_add, toList_vectorAt, Mem.read_succ,
    Mem.read_succ, Mem.read_zero]
  simp only [Mem.drop_apply, Nat.add_zero]
  rw [show 1 + (n + 1) = 2 + n by omega]

/-- The octets of an address, by its host. -/
theorem octets_intoSockaddr6 (h : Numeric addr) : (intoSockaddr6 addr).octets =
    if addr 0 = addrTypeIpv6 ∧ isMapped (vectorAt addr 1 16) then
      addrTypeIpv4 :: ((vectorAt addr 1 16).toList.drop 12 ++ [addr 17, addr 18])
    else octetsOf addr := by
  rw [SockAddrIn6.octets_eq, SockAddrIn6.endpoint]
  rcases h with h | h
  · have h46 : addrTypeIpv4 ≠ addrTypeIpv6 := by decide
    have hlen : hevSocks5AddrLen addr = 7 := if_pos h
    rw [intoSockaddr6, if_pos h, if_neg (fun h6 => h46 (h.symm.trans h6.1))]
    rw [hevSocks5Ipv4IntoSockaddr6, hostOf_v4Mapped, octetsOf, hlen]
    show addrTypeIpv4 :: ((vectorAt addr 1 4).toList ++ [addr 5, addr 6]) = addr.read 7
    rw [← h]
    exact (read_numeric addr 4).symm
  · have h64 : ¬ addr 0 = addrTypeIpv4 := by rw [h]; decide
    have hlen : hevSocks5AddrLen addr = 19 := by
      rw [hevSocks5AddrLen, if_neg h64, if_pos h]
    rw [intoSockaddr6, if_neg h64, hevSocks5Ipv6IntoSockaddr6, hostOf, octetsOf, hlen]
    by_cases hm : isMapped (vectorAt addr 1 16) = true
    · rw [if_pos hm, if_pos ⟨h, hm⟩, ← toList_lastFour]
      rfl
    · rw [if_neg hm, if_neg fun h' => hm h'.2]
      show addrTypeIpv6 :: ((vectorAt addr 1 16).toList ++ [addr 17, addr 18]) = addr.read 19
      rw [← h]
      exact (read_numeric addr 16).symm

/-! ## The writes -/

/-- The writes of `hev_socks5_ipv4_into_sockaddr6` and `hev_socks5_ipv6_into_sockaddr6` at
    `sin6_addr`, one after another. -/
def intoWrites (addr sin6Addr : Mem) : Mem :=
  if addr 0 = addrTypeIpv4 then
    (((sin6Addr.write 0 (List.replicate 10 0)).write 10 [0xff]).write 11 [0xff]).write 12
      ((addr.drop 1).read 4)
  else sin6Addr.write 0 ((addr.drop 1).read 16)

/-- The writes of `hev_socks5_addr_from_sockaddr6`. -/
def fromWrites (addr : Mem) (saddr : SockAddrIn6) : Mem :=
  if saddr.isV4Mapped then
    ((addr.write 0 [addrTypeIpv4]).write 5 [saddr.port.1, saddr.port.2]).write 1
      (saddr.addr.toList.drop 12)
  else
    ((addr.write 0 [addrTypeIpv6]).write 17 [saddr.port.1, saddr.port.2]).write 1 saddr.addr.toList

theorem intoWrites_ipv4 (m : Mem) (l : List Octet) :
    (((m.write 0 (List.replicate 10 0)).write 10 [0xff]).write 11 [0xff]).write 12 l =
      m.write 0 (mappedHead ++ l) := by
  have h₁ : (m.write 0 (List.replicate 10 0)).write 10 [0xff] =
      m.write 0 (List.replicate 10 0 ++ [0xff]) := (Mem.write_append _).symm
  have h₂ : (m.write 0 (List.replicate 10 0 ++ [0xff])).write 11 [0xff] =
      m.write 0 (List.replicate 10 0 ++ [0xff] ++ [0xff]) := (Mem.write_append _).symm
  rw [h₁, h₂]
  exact (Mem.write_append l).symm

/-- Whatever the target held, it holds the address. -/
theorem read_intoWrites (addr sin6Addr : Mem) :
    (intoWrites addr sin6Addr).read 16 = (intoSockaddr6 addr).addr.toList := by
  unfold intoWrites intoSockaddr6
  split
  · rw [intoWrites_ipv4, hevSocks5Ipv4IntoSockaddr6, toList_v4Mapped, toList_vectorAt]
    have h := Mem.read_write_zero sin6Addr (mappedHead ++ (addr.drop 1).read 4)
    rwa [List.length_append, Mem.length_read] at h
  · rw [hevSocks5Ipv6IntoSockaddr6, toList_vectorAt]
    have h := Mem.read_write_zero sin6Addr ((addr.drop 1).read 16)
    rwa [Mem.length_read] at h

theorem write_type_port (m : Mem) (t : Octet) (l port : List Octet) {n : Nat}
    (hn : n = 1 + l.length) :
    ((m.write 0 [t]).write n port).write 1 l = m.write 0 (t :: (l ++ port)) := by
  subst hn
  have h₁ : (m.write 0 [t]).write 1 l = m.write 0 ([t] ++ l) := (Mem.write_append l).symm
  have hlen : 1 + l.length = 0 + ([t] ++ l).length := by
    simp
    omega
  rw [Mem.write_comm (Nat.le_refl _), h₁, hlen, ← Mem.write_append port]
  rfl

theorem fromWrites_eq (addr : Mem) (saddr : SockAddrIn6) :
    fromWrites addr saddr = (hevSocks5AddrFromSockaddr6 addr saddr).2 := by
  unfold fromWrites hevSocks5AddrFromSockaddr6 SockAddrIn6.octets
  dsimp only
  split
  · exact write_type_port addr addrTypeIpv4 _ _ (by simp)
  · exact write_type_port addr addrTypeIpv6 _ _ (by simp)

/-- **Conversions.**  A socket address is given back by its address, and an address by its socket
    address, when it is written in the way of its host: a mapped address of type IPv6 becomes the
    IPv4 address.  So a second round trip changes nothing, and two addresses become the same one
    when they have the same host and port.  As many octets are written as the address is long, and
    what the targets held does not matter. -/
theorem conversions :
    (∀ (old : Mem) (saddr target : SockAddrIn6) (family : HevSocks5AddrFamily), ∃ family',
      hevSocks5AddrIntoSockaddr6 (hevSocks5AddrFromSockaddr6 old saddr).2 target family =
        pure (0, saddr, family')) ∧
    (∀ addr : Mem, Numeric addr → ∀ (old : Mem) (target : SockAddrIn6)
      (family : HevSocks5AddrFamily),
      (∃ family', hevSocks5AddrIntoSockaddr6 addr target family =
        pure (0, intoSockaddr6 addr, family')) ∧
      octetsOf (roundTrip old addr) =
        if addr 0 = addrTypeIpv6 ∧ isMapped (vectorAt addr 1 16) then
          addrTypeIpv4 :: ((vectorAt addr 1 16).toList.drop 12 ++ [addr 17, addr 18])
        else octetsOf addr) ∧
    (∀ old old' addr : Mem, octetsOf (roundTrip old' (roundTrip old addr)) =
      octetsOf (roundTrip old addr)) ∧
    (∀ old old' addr addr' : Mem, octetsOf (roundTrip old addr) = octetsOf (roundTrip old' addr') ↔
      hostPort addr = hostPort addr') ∧
    (∀ (old : Mem) (saddr : SockAddrIn6),
      hevSocks5AddrLen (hevSocks5AddrFromSockaddr6 old saddr).2 =
        (hevSocks5AddrFromSockaddr6 old saddr).1 ∧
      ∀ i : Nat, (hevSocks5AddrFromSockaddr6 old saddr).1 ≤ i →
        (hevSocks5AddrFromSockaddr6 old saddr).2 i = old i) ∧
    (∀ addr sin6Addr : Mem, (intoWrites addr sin6Addr).read 16 =
      (intoSockaddr6 addr).addr.toList) ∧
    ∀ (old : Mem) (saddr : SockAddrIn6),
      fromWrites old saddr = (hevSocks5AddrFromSockaddr6 old saddr).2 := by
  refine ⟨fun old saddr target family => ?_, fun addr h old target family => ?_,
    fun old old' addr => ?_, fun old old' addr addr' => ?_, fun old saddr => ⟨?_, fun i hi => ?_⟩,
    read_intoWrites, fromWrites_eq⟩
  · rw [hevSocks5AddrIntoSockaddr6_eq (numeric_from old saddr), intoSockaddr6_from]
    exact ⟨_, rfl⟩
  · refine ⟨⟨_, hevSocks5AddrIntoSockaddr6_eq h target family⟩, ?_⟩
    rw [roundTrip, octetsOf_from]
    exact octets_intoSockaddr6 h
  · rw [roundTrip, octetsOf_from, roundTrip, intoSockaddr6_from, octetsOf_from]
  · rw [roundTrip, roundTrip, octetsOf_from, octetsOf_from, octets_inj, intoSockaddr6_eq_iff]
  · exact hevSocks5AddrLen_from old saddr
  · refine Mem.write_apply_of_ge i ?_
    rw [from_fst] at hi
    omega

end HevSocks5
