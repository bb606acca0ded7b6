/-
  New clients (hev-socks5-client-tcp.c, and the addresses of hev-socks5-misc.c
  that a client is made from).

  The host is little-endian: a port that is given as a number is copied into an
  address as it lies in memory, its low octet first.
-/
import HevSocks5.Client

namespace HevSocks5

open Interact Sys

/-- A string of C: it ends before its first zero. -/
abbrev CString := { s : List Octet // 0 ∉ s }

/-- A `uint16_t` as it lies in memory. -/
def hostOctets (n : UInt16) : Octet × Octet := (n.toUInt8, (n >>> 8).toUInt8)

/-- What `strncpy (_, s, n)` writes. -/
def strncpy (s : CString) (n : Nat) : List Octet :=
  s.1.take n ++ List.replicate (n - s.1.length) 0

/-- `strlen` in an array of `n` octets; nothing when it has no zero. -/
def strlen (n : Nat) (m : Mem) : Option Nat := (List.range n).find? fun i => m i = 0

/-- `sizeof (addr->domain.addr)` -/
def domainAddrSize : Nat := 256 + 2

/-- `hev_socks5_addr_from_name`: the result and the memory at `addr`; nothing when octets behind
    the end of `addr` are read. -/
def hevSocks5AddrFromName (addr : Mem) (name : CString) (port : Int) : Option (Int × Mem) := do
  let port := hostOctets (.ofInt port)
  let addr := (addr.write 0 [addrTypeName]).write 2 (strncpy name 256)
  let len := UInt8.ofNat (← strlen domainAddrSize (addr.drop 2))
  let addr := (addr.write 1 [len]).write (2 + len.toNat) [port.1, port.2]
  return (4 + len.toNat, addr)

/-- `hev_socks5_addr_from_ipv4` and `hev_socks5_addr_from_ipv6`: a type, an address and a port. -/
def addrFromOctets (atype : Octet) (addr : Mem) (ip : List Octet) (port : Int) : Int × Mem :=
  let port := hostOctets (.ofInt port)
  (ip.length + 3, ((addr.write 0 [atype]).write 1 ip).write (1 + ip.length) [port.1, port.2])

def hevSocks5AddrFromIpv4 (addr : Mem) (ipv4 : Vector Octet 4) (port : Int) : Int × Mem :=
  addrFromOctets addrTypeIpv4 addr ipv4.toList port

def hevSocks5AddrFromIpv6 (addr : Mem) (ipv6 : Vector Octet 16) (port : Int) : Int × Mem :=
  addrFromOctets addrTypeIpv6 addr ipv6.toList port

namespace HevSocks5Client

/-- `hev_socks5_client_tcp_construct`: the fields of the client, or nothing when it fails. -/
def tcpConstruct (addr : Mem) : ClientM (Option HevSocks5ClientObj) := do
  let res := hevSocks5AddrLen addr
  match ← hevMalloc0 with
  | none => return none
  | some ptr => return some ⟨none, none, .tcp (some ⟨ptr, .ofList (addr.read res.toNat)⟩)⟩

/-- The address is ready, or it could not be made; a client is constructed from it. -/
def tcpNew (addr : Option (Int × Mem)) : ClientM (Option HevSocks5ClientObj) := do
  match ← hevMalloc0 with
  | none => return none
  | some self =>
    match addr with
    | none => (← overrun).elim
    | some (_, addr) =>
      match ← tcpConstruct addr with
      | none =>
        hevFree self
        return none
      | some client => return some client

/-- `hev_socks5_client_tcp_new_name`; `addr` is on the stack. -/
def tcpNewName (addr : Mem) (name : CString) (port : Int) : ClientM (Option HevSocks5ClientObj) :=
  tcpNew (hevSocks5AddrFromName addr name port)

/-- `hev_socks5_client_tcp_new_ipv4` -/
def tcpNewIpv4 (addr : Mem) (ipv4 : Vector Octet 4) (port : Int) :
    ClientM (Option HevSocks5ClientObj) :=
  tcpNew (hevSocks5AddrFromIpv4 addr ipv4 port)

/-- `hev_socks5_client_tcp_new_ipv6` -/
def tcpNewIpv6 (addr : Mem) (ipv6 : Vector Octet 16) (port : Int) :
    ClientM (Option HevSocks5ClientObj) :=
  tcpNew (hevSocks5AddrFromIpv6 addr ipv6 port)

end HevSocks5Client

end HevSocks5
