/-
  Addresses and the yielder (hev-socks5-misc.c).

  An address is a `HevSocks5Addr *`, that is, the memory it points to: the type
  in the first octet, then 4 octets and a port, 16 octets and a port, or a
  length, a name and a port.  A port stays in network order, as it lies in
  memory.
-/
import HevSocks5.Sys

namespace HevSocks5

open Interact Sys

def addrTypeIpv4 : Octet := 1
def addrTypeName : Octet := 3
def addrTypeIpv6 : Octet := 4

/-- `hev_socks5_addr_len` -/
def hevSocks5AddrLen (addr : Mem) : Int :=
  if addr 0 = addrTypeIpv4 then 7
  else if addr 0 = addrTypeIpv6 then 19
  else if addr 0 = addrTypeName then 4 + (addr 1).toNat
  else -1

/-- `IN6_IS_ADDR_V4MAPPED` -/
def SockAddrIn6.isV4Mapped (saddr : SockAddrIn6) : Bool :=
  saddr.addr.toList.take 12 = List.replicate 10 0 ++ [0xff, 0xff]

/-- The octets that `hev_socks5_addr_from_sockaddr6` writes. -/
def SockAddrIn6.octets (saddr : SockAddrIn6) : List Octet :=
  if saddr.isV4Mapped then
    addrTypeIpv4 :: (saddr.addr.toList.drop 12 ++ [saddr.port.1, saddr.port.2])
  else addrTypeIpv6 :: (saddr.addr.toList ++ [saddr.port.1, saddr.port.2])

/-- `hev_socks5_addr_from_sockaddr6`: the length, and the memory at `addr`. -/
def hevSocks5AddrFromSockaddr6 (addr : Mem) (saddr : SockAddrIn6) : Int × Mem :=
  (if saddr.isV4Mapped then 7 else 19, addr.write 0 saddr.octets)

/-- The octets from `k` on as a fixed-size array. -/
def vectorAt (m : Mem) (k n : Nat) : Vector Octet n := Vector.ofFn fun i => m (k + i)

/-- An IPv4 address in `sin6_addr`. -/
def v4Mapped (addr : Vector Octet 4) : Vector Octet 16 :=
  Vector.replicate 10 (0 : Octet) ++ (#v[0xff, 0xff] : Vector Octet 2) ++ addr

/-- The address with its first 10 octets zeroed. -/
def zeroHead (addr : Vector Octet 16) : Vector Octet 16 :=
  Vector.ofFn fun i => if i.val < 10 then 0 else addr[i]

def hevSocks5Ipv4IntoSockaddr6 (addr : Mem) : SockAddrIn6 :=
  { port := (addr 5, addr 6), addr := v4Mapped (vectorAt addr 1 4) }

def hevSocks5Ipv6IntoSockaddr6 (addr : Mem) : SockAddrIn6 :=
  { port := (addr 17, addr 18), addr := vectorAt addr 1 16 }

def hevSocks5NameResolveIpv4 (name : List Octet) (saddr : SockAddrIn6) :
    SysM (Int × SockAddrIn6) := do
  match ← inetPton4 name with
  | none => return (-1, { saddr with addr := zeroHead saddr.addr })
  | some addr => return (0, { saddr with addr := v4Mapped addr })

def hevSocks5NameResolveIpv6 (name : List Octet) (saddr : SockAddrIn6) :
    SysM (Int × SockAddrIn6) := do
  match ← inetPton6 name with
  | none => return (-1, saddr)
  | some addr => return (0, { saddr with addr })

def hevSocks5NameResolveName (name : List Octet) (saddr : SockAddrIn6)
    (family : HevSocks5AddrFamily) : SysM (Int × SockAddrIn6 × HevSocks5AddrFamily) := do
  match ← hevTaskDnsGetaddrinfo name family with
  | none => return (-1, saddr, family)
  | some (.inet addr) => return (0, { saddr with addr := v4Mapped addr }, .ipv4)
  | some (.inet6 addr) => return (0, { saddr with addr }, .ipv6)
  | some .other => return (-1, saddr, family)

/-- `hev_socks5_name_into_sockaddr6`: the result, `*saddr` and `*family`. -/
def hevSocks5NameIntoSockaddr6 (name : List Octet) (port : UInt16) (saddr : SockAddrIn6)
    (family : HevSocks5AddrFamily) : SysM (Int × SockAddrIn6 × HevSocks5AddrFamily) := do
  let saddr := { saddr with port := htons port }
  let (res, saddr) ← hevSocks5NameResolveIpv4 name saddr
  if res = 0 then return (0, saddr, .ipv4)
  else
    let (res, saddr) ← hevSocks5NameResolveIpv6 name saddr
    if res = 0 then return (0, saddr, .ipv6)
    else hevSocks5NameResolveName name saddr family

/-- A string up to its first zero. -/
def cString (s : List Octet) : List Octet := s.takeWhile (· ≠ 0)

/-- `hev_socks5_addr_into_sockaddr6`: the result, `*saddr` and `*family`. -/
def hevSocks5AddrIntoSockaddr6 (addr : Mem) (saddr : SockAddrIn6) (family : HevSocks5AddrFamily) :
    SysM (Int × SockAddrIn6 × HevSocks5AddrFamily) := do
  if addr 0 = addrTypeIpv4 then return (0, hevSocks5Ipv4IntoSockaddr6 addr, .ipv4)
  else if addr 0 = addrTypeIpv6 then return (0, hevSocks5Ipv6IntoSockaddr6 addr, .ipv6)
  else if addr 0 = addrTypeName then
    let len := (addr 1).toNat
    let name := cString ((addr.drop 2).read len)
    hevSocks5NameIntoSockaddr6 name (ntohs (addr (2 + len), addr (2 + len + 1))) saddr family
  else return (-1, saddr, family)

/-- The address that `memset` leaves. -/
def SockAddrIn6.zero : SockAddrIn6 := { port := (0, 0), addr := Vector.replicate 16 0 }

/-- `hev_socks5_set_timeout` -/
def hevSocks5SetTimeout (timeout : Int) : SysM Unit := do
  let self ← base
  if self.timeout ≠ 0 then setBase { self with timeout }

/-- `hev_socks5_task_io_yielder` -/
def hevSocks5TaskIoYielder (type : HevTaskYieldType) : SysM Int := do
  match type with
  | .yield =>
    hevTaskYield .yield
    return 0
  | .waitio =>
    let self ← base
    if self.timeout < 0 then
      hevTaskYield .waitio
      return 0
    else
      let timeout ← hevTaskSleep self.timeout
      if timeout ≤ 0 then return -1 else return 0

def modOrAddFd (fd : Int) : SysM Unit := do
  if (← hevTaskModFd fd) < 0 then
    let _ ← hevTaskAddFd fd

def addOrModFd (fd : Int) : SysM Unit := do
  if (← hevTaskAddFd fd) < 0 then
    let _ ← hevTaskModFd fd

/-- A descriptor is given up. -/
def drop (fd : Int) : SysM Unit := do
  hevTaskDelFd fd
  close fd

/-- `hev_socks5_socket` -/
def hevSocks5Socket (type : SockType) : SysM Int := do
  let fd ← hevTaskIoSocketSocket type
  if fd < 0 then return -1
  else
    let res ← setsockopt fd .v6only
    if res < 0 then
      close fd
      return -1
    else
      addOrModFd fd
      if type = .dgram then
        let _ ← setsockopt fd .rcvbuf
        return fd
      else return fd

/-- `hev_socks5_destruct` -/
def hevSocks5Destruct : SysM Unit := do
  logD "socks5 destruct"
  let self ← base
  if 0 ≤ self.fd then drop self.fd

/-! ## Octets that were read -/

theorem exists_two {l : List Octet} (h : 2 ≤ l.length) : ∃ a b l', l = a :: b :: l' := by
  match l, h with
  | a :: b :: l', _ => exact ⟨a, b, l', rfl⟩

theorem exists_four {l : List Octet} (h : 4 ≤ l.length) :
    ∃ a b c d l', l = a :: b :: c :: d :: l' := by
  match l, h with
  | a :: b :: c :: d :: l', _ => exact ⟨a, b, c, d, l', rfl⟩

theorem exists_five {l : List Octet} (h : l.length = 5) : ∃ a b c d e, l = [a, b, c, d, e] := by
  match l, h with
  | [a, b, c, d, e], _ => exact ⟨a, b, c, d, e, rfl⟩

end HevSocks5
