/-
  The endpoint of a target, looked up directly and through a server.

  `hev_socks5_name_into_sockaddr6` takes a port as a number and puts it into
  network order; the functions that make an address of a target copy it as it
  lies in memory, and the server takes what it reads for network order.  So a
  port given as a number is the port of the target when its two octets are the
  same (`proxied_iff`).
-/
import HevSocks5.ClientEncode
import HevSocks5.Base.Threads

namespace HevSocks5

open Interact Sys HevSocks5Client

/-- A text that may be a name of a target. -/
abbrev Text := { s : CString // 0 < s.1.length ∧ s.1.length ≤ 255 }

/-- The resolver answers. -/
def resolving (R : Resolver) : Env Op Unit := fun _ _ o b _ => R.Answers o b

/-- The endpoint that a lookup has found. -/
def found (r : Int × SockAddrIn6 × HevSocks5AddrFamily) : Option SockAddrIn6 :=
  if r.1 < 0 then none else some r.2.1

/-- **The server finds the endpoint that is found directly**, for an address that is sent. -/
def SameEndpoint (R : Resolver) (family : HevSocks5AddrFamily) (text : Text) (port : UInt16)
    (sent : List Octet) : Prop :=
  ∀ (saddr saddr' : SockAddrIn6) (r r' : Int × SockAddrIn6 × HevSocks5AddrFamily),
    Returns (resolving R) (hevSocks5AddrIntoSockaddr6 (.ofList sent) saddr family) () r () →
    Returns (resolving R) (hevSocks5NameIntoSockaddr6 text.1.1 port saddr' family) () r' () →
    found r = found r'

/-- It is so for every client that is made. -/
def Made.SameEndpoint (R : Resolver) (family : HevSocks5AddrFamily) (text : Text) (port : UInt16)
    (make : Mem → ClientM (Option HevSocks5ClientObj)) : Prop :=
  ∀ (stack : Mem) (w w' : Outbox) (client : HevSocks5ClientObj) (block : AddrBlock),
    Returns outbox (make stack) w (some client) w' → client.klass = .tcp (some block) →
    HevSocks5.SameEndpoint R family text port (octetsOf block.mem)

/-- **A proxied target is the direct one**, by its text and, when the text is an address, by the
    octets of the address. -/
structure Proxied (R : Resolver) (family : HevSocks5AddrFamily) (text : Text) (port : UInt16) :
    Prop where
  name : Made.SameEndpoint R family text port fun stack => tcpNewName stack text.1 port.toNat
  ipv4 : ∀ ip, R.pton4 text.1.1 = some ip →
    Made.SameEndpoint R family text port fun stack => tcpNewIpv4 stack ip port.toNat
  ipv6 : ∀ ip, R.pton4 text.1.1 = none → R.pton6 text.1.1 = some ip →
    Made.SameEndpoint R family text port fun stack => tcpNewIpv6 stack ip port.toNat

variable {R : Resolver} {family : HevSocks5AddrFamily} {text : Text} {port : UInt16}

theorem serves_resolving : R.Serves (resolving R) fun _ => True :=
  fun _ _ _ _ _ _ _ he => ⟨he, trivial⟩

/-- A lookup has an outcome. -/
theorem exists_returns_resolving {α : Type} {x : SysM α} (hx : x.Only Op.Resolves) :
    ∃ a, Returns (resolving R) x () a () := by
  have hmeets : Meets (resolving R) (fun _ _ o => o.Resolves) x () fun _ _ => True :=
    hx.meets (I := fun _ => True) (fun ho _ => ⟨ho, fun _ _ _ => trivial⟩) trivial
  have hanswer : ∀ {w : Unit} {β : Type} {o : Op β}, o.Resolves →
      ∃ b w', resolving R w o b w' := by
    intro w β o ho
    cases o
    case inetPton4 name => exact ⟨R.pton4 name, (), rfl⟩
    case inetPton6 name => exact ⟨R.pton6 name, (), rfl⟩
    case getaddrinfo name family => exact ⟨R.lookup name family, (), rfl⟩
    all_goals exact ho.elim
  obtain ⟨a, w', hr⟩ := hmeets.exists_returns hanswer
  exact ⟨a, hr⟩

/-- The two endpoints. -/
theorem sameEndpoint_iff {sent : List Octet} : SameEndpoint R family text port sent ↔
    R.destination family (.ofList sent) =
      (R.resolve family text.1.1).map fun a => ⟨htons port, a⟩ := by
  constructor
  · intro h
    obtain ⟨r, hr⟩ := exists_returns_resolving (R := R)
      (only_hevSocks5AddrIntoSockaddr6 (.ofList sent) .zero family)
    obtain ⟨r', hr'⟩ := exists_returns_resolving (R := R)
      (only_hevSocks5NameIntoSockaddr6 text.1.1 port .zero family)
    have heq := h _ _ _ _ hr hr'
    have hA := (serves_resolving.post_addrIntoSockaddr6 _ _ _ trivial).returns hr
    have hB := (serves_resolving.post_nameIntoSockaddr6 _ _ _ _ trivial).returns hr'
    rw [← hA.2, ← hB.2]
    exact heq
  · intro h saddr saddr' r r' hr hr'
    have hA := (serves_resolving.post_addrIntoSockaddr6 _ _ _ trivial).returns hr
    have hB := (serves_resolving.post_nameIntoSockaddr6 _ _ _ _ trivial).returns hr'
    exact hA.2.trans (h.trans hB.2.symm)

/-! ## The octets that are sent -/

/-- A lookup by text is the lookup, whatever the port. -/
theorem map_port_eq_iff (p q : Octet × Octet) (found : Option (Vector Octet 16)) :
    (found.map fun a => (⟨p, a⟩ : SockAddrIn6)) = found.map (fun a => ⟨q, a⟩) ↔
      p = q ∨ found = none := by
  cases found <;> simp

theorem hostOctets_eq_htons_iff (port : UInt16) :
    hostOctets port = htons port ↔ (hostOctets port).1 = (hostOctets port).2 := by
  have h : htons port = ((hostOctets port).2, (hostOctets port).1) := rfl
  rw [h, Prod.ext_iff]
  constructor
  · exact fun h => h.1
  · exact fun h => ⟨h, h.symm⟩

theorem cString_text (text : CString) : cString text.1 = text.1 := by
  refine List.takeWhile_eq_self_iff.2 fun a ha => ?_
  have hne : a ≠ 0 := fun h0 => text.2 (h0 ▸ ha)
  simp [hne]

theorem destination_nameOctets (port : Octet × Octet) :
    R.destination family (.ofList (nameOctets text.1 port)) =
      (R.resolve family text.1.1).map fun a => ⟨port, a⟩ := by
  have hlt : text.1.1.length < 256 := Nat.lt_succ_of_le text.2.2
  have h := Endpoint.destination_octets R family (.name text.1.1 port hlt)
  rw [Endpoint.sockaddr, cString_text] at h
  exact h

theorem ofInt_toNat (port : UInt16) : UInt16.ofInt port.toNat = port := by
  have hlt := port.toNat_lt
  have h : ((port.toNat : Int) % 2 ^ 16).toNat = port.toNat := by omega
  rw [UInt16.ofInt, h, UInt16.ofNat_toNat]

theorem addrFromOctets_eq (atype : Octet) (addr : Mem) (ip : List Octet) (port : UInt16) :
    (addrFromOctets atype addr ip port.toNat).2 =
      addr.write 0 (atype :: (ip ++ [(hostOctets port).1, (hostOctets port).2])) := by
  rw [addrFromOctets, ofInt_toNat]
  have h₁ : (addr.write 0 [atype]).write 1 ip = addr.write 0 ([atype] ++ ip) :=
    (Mem.write_append ip).symm
  have hlen : 1 + ip.length = 0 + ([atype] ++ ip).length := by
    simp
    omega
  dsimp only
  rw [h₁, hlen, ← Mem.write_append]
  rfl

/-- A client is made from an address whose octets do not depend on the stack. -/
theorem made_iff {address : Mem → Option (Int × Mem)} {sent : List Octet}
    (haddress : ∀ stack, ∃ res addr, address stack = some (res, addr) ∧
      0 < hevSocks5AddrLen addr ∧ octetsOf addr = sent) :
    Made.SameEndpoint R family text port (fun stack => tcpNew (address stack)) ↔
      SameEndpoint R family text port sent := by
  constructor
  · intro h
    obtain ⟨res, addr, hadd, hpos, rfl⟩ := haddress .undef
    have hr := returns_tcpNew (w := ⟨⟨none, none, .udp (-1)⟩, []⟩) res addr 16
    rw [← hadd] at hr
    have h' := h .undef _ _ _ _ hr rfl
    rwa [octetsOf_ofList hpos] at h'
  · intro h stack w w' client block hr hblock
    obtain ⟨res, addr, hadd, hpos, rfl⟩ := haddress stack
    dsimp only at hr
    rw [hadd] at hr
    obtain ⟨ptr, rfl⟩ := (post_tcpNew _ _).returns hr client rfl
    obtain rfl : _ = block := by simpa using hblock
    rwa [octetsOf_ofList hpos]

/-- The octets that a client for a name sends. -/
theorem made_name_iff : (Made.SameEndpoint R family text port fun stack =>
    tcpNewName stack text.1 port.toNat) ↔
      (hostOctets port).1 = (hostOctets port).2 ∨ R.resolve family text.1.1 = none := by
  have hlt : text.1.1.length < 256 := Nat.lt_succ_of_le text.2.2
  have haddress (stack : Mem) : ∃ res addr,
      hevSocks5AddrFromName stack text.1 port.toNat = some (res, addr) ∧
        0 < hevSocks5AddrLen addr ∧ octetsOf addr = nameOctets text.1 (hostOctets port) := by
    refine ⟨_, _, fromName_of_lt stack port.toNat hlt, ?_, ?_⟩
    · rw [hevSocks5AddrLen_namedAddr _ _ hlt]
      omega
    · rw [octetsOf_namedAddr _ _ hlt, ofInt_toNat]
  refine (made_iff haddress).trans ?_
  rw [sameEndpoint_iff, destination_nameOctets, map_port_eq_iff, hostOctets_eq_htons_iff]

/-- A client for the octets of an address. -/
theorem made_of_endpoint {address : Mem → Int × Mem} {e : Endpoint}
    (haddress : ∀ stack, (address stack).2 = stack.write 0 e.octets)
    (he : e.sockaddr R family = (R.resolve family text.1.1).map fun a => ⟨htons port, a⟩) :
    Made.SameEndpoint R family text port fun stack => tcpNew (address stack) := by
  have hsent (stack : Mem) : ∃ res addr, some (address stack) = some (res, addr) ∧
      0 < hevSocks5AddrLen addr ∧ octetsOf addr = e.octets := by
    refine ⟨_, _, rfl, ?_, by rw [haddress, octetsOf_write]⟩
    rw [haddress, hevSocks5AddrLen_write]
    cases e
    all_goals simp [Endpoint.octets]
    omega
  refine (made_iff hsent).2 ?_
  rw [sameEndpoint_iff, Endpoint.destination_octets, he]

/-- **A proxied target is the direct one when the two octets of its port are the same**, or when
    there is no target. -/
theorem proxied_iff (R : Resolver) (family : HevSocks5AddrFamily) (text : Text) (port : UInt16) :
    Proxied R family text port ↔
      (hostOctets port).1 = (hostOctets port).2 ∨ R.resolve family text.1.1 = none := by
  refine ⟨fun h => made_name_iff.1 h.name, fun h => ⟨made_name_iff.2 h, fun ip hip => ?_,
    fun ip h4 hip => ?_⟩⟩
  · have hres : R.resolve family text.1.1 = some (v4Mapped ip) := by
      rw [Resolver.resolve, hip]
    have hport := (hostOctets_eq_htons_iff port).2 (h.resolve_right (by rw [hres]; simp))
    refine made_of_endpoint (e := .ipv4 ip (hostOctets port)) (fun stack => ?_) ?_
    · exact addrFromOctets_eq addrTypeIpv4 stack ip.toList port
    · rw [hres, Endpoint.sockaddr, hport]
      rfl
  · have hres : R.resolve family text.1.1 = some ip := by
      rw [Resolver.resolve, h4, hip]
    have hport := (hostOctets_eq_htons_iff port).2 (h.resolve_right (by rw [hres]; simp))
    refine made_of_endpoint (e := .ipv6 ip (hostOctets port)) (fun stack => ?_) ?_
    · exact addrFromOctets_eq addrTypeIpv6 stack ip.toList port
    · rw [hres, Endpoint.sockaddr, hport]
      rfl

/-- The text of a loopback address, and a resolver that reads it. -/
def loopbackText : Text := ⟨⟨[49, 50, 55, 46, 48, 46, 48, 46, 49], by decide⟩, by decide⟩

def loopbackResolver : Resolver where
  pton4 name := if name = loopbackText.1.1 then some #v[127, 0, 0, 1] else none
  pton6 _ := none
  lookup _ _ := none

/-- Port 443 of the example becomes port 47873. -/
theorem not_proxied : ¬ Proxied loopbackResolver .unspec loopbackText 443 := by
  intro h
  have h' := made_name_iff.1 h.name
  exact absurd h' (by decide)

end HevSocks5
