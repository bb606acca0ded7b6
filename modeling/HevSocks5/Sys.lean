/-
  The system under the library: what it calls outside of its own source.

  `hev_task_io_socket_*` and the socket calls, the resolver, the scheduler, the
  memory allocator, and the virtual methods that other classes override.  Each
  is an operation; what it may answer is said by an environment, not here.

  `hev_task_io_socket_recv` and its siblings take a yielder.  They call it when
  they would block, and fail when it fails; that they can fail so is part of
  their answers.  `errno` is what the last of these calls has left there.
-/
import HevSocks5.Base.Prog
import HevSocks5.Base.Mem
import HevSocks5.Authenticator

namespace HevSocks5

open Interact Interact.Prog

inductive HevSocks5Type where
  | none
  | tcp
  | udpInTcp
  | udpInUdp
deriving DecidableEq, Repr

inductive HevSocks5AddrFamily where
  | ipv4
  | ipv6
  | unspec
deriving DecidableEq, Repr

/-- The fields of `struct _HevSocks5`. -/
structure HevSocks5Obj where
  fd : Int
  timeout : Int
  type : HevSocks5Type
  udpAssociated : Bool
  addrFamily : HevSocks5AddrFamily
deriving DecidableEq

/-- `struct sockaddr_in6`: the port as it lies in memory, and the address.  The
    family of every address in use is `AF_INET6`. -/
structure SockAddrIn6 where
  port : Octet × Octet
  addr : Vector Octet 16
deriving DecidableEq

/-- A `uint16_t` in network order. -/
def htons (n : UInt16) : Octet × Octet := ((n >>> 8).toUInt8, n.toUInt8)

def ntohs (n : Octet × Octet) : UInt16 := n.1.toUInt16 <<< 8 ||| n.2.toUInt16

theorem toNat_ntohs (a b : Octet) : (ntohs (a, b)).toNat = 256 * a.toNat + b.toNat := by
  have ha := a.toNat_lt
  have hb := b.toNat_lt
  simp only [ntohs, UInt16.toNat_or, UInt16.toNat_shiftLeft, UInt8.toNat_toUInt16, Nat.shiftLeft_eq]
  rw [Nat.mod_eq_of_lt (by simp; omega), Nat.mul_comm]
  exact (Nat.two_pow_add_eq_or_of_lt (i := 8) (by omega) _).symm

@[simp] theorem toNat_htons_fst (n : UInt16) : (htons n).1.toNat = n.toNat / 256 := by
  have hn := n.toNat_lt
  simp [htons, Nat.shiftRight_eq_div_pow]
  omega

@[simp] theorem toNat_htons_snd (n : UInt16) : (htons n).2.toNat = n.toNat % 256 := by
  simp [htons]

@[simp] theorem ntohs_htons (n : UInt16) : ntohs (htons n) = n := by
  have h := toNat_ntohs (htons n).1 (htons n).2
  rw [toNat_htons_fst, toNat_htons_snd, Nat.div_add_mod] at h
  exact UInt16.toNat_inj.1 h

@[simp] theorem htons_ntohs (p : Octet × Octet) : htons (ntohs p) = p := by
  have h₁ := p.1.toNat_lt
  have h₂ := p.2.toNat_lt
  have h := toNat_ntohs p.1 p.2
  ext
  · rw [toNat_htons_fst, h]
    omega
  · rw [toNat_htons_snd, h]
    omega

/-- What the union of a server points to. -/
inductive HevSocks5ServerRef where
  | null
  | auth
  | user (user : Ptr)
deriving DecidableEq

/-- The fields of `struct _HevSocks5Server` behind its base. -/
structure HevSocks5ServerObj where
  fds : Int × Int
  obj : HevSocks5ServerRef
deriving DecidableEq

/-- What the code distinguishes of `errno`. -/
inductive Errno where
  | eagain
  | other
deriving DecidableEq

inductive MsgFlags where
  | zero
  | waitall
  | dontwait
deriving DecidableEq

inductive SockType where
  | stream
  | dgram
deriving DecidableEq

inductive SockOpt where
  | v6only
  | rcvbuf
  | reuseaddr
deriving DecidableEq

inductive HevTaskYieldType where
  | yield
  | waitio
deriving DecidableEq

/-- The result of a receive, and the octets it has put into the buffer. -/
structure Received where
  res : Int
  data : List Octet

/-- A datagram: its source and its payload, as far as the buffer holds it. -/
structure Datagram where
  src : SockAddrIn6
  data : List Octet

/-- The first address of a `struct addrinfo` list. -/
inductive AddrInfo where
  | inet (addr : Vector Octet 4)
  | inet6 (addr : Vector Octet 16)
  | other

namespace Sys

/-- The operations, and the type of the answers to each. -/
inductive Op : Type → Type where
  -- the object
  | base : Op HevSocks5Obj
  | setBase (base : HevSocks5Obj) : Op Unit
  | getFd : Op Int
  | binder (fd : Int) (addr : SockAddrIn6) : Op Int
  -- sockets
  | errno : Op Errno
  | recvRaw (fd : Int) : Op Int
  | recv (fd : Int) (len : Nat) (flags : MsgFlags) : Op Received
  | send (fd : Int) (data : List Octet) : Op Int
  | recvmsg (fd : Int) (len : Nat) : Op Received
  | sendmsg (fd : Int) (data : List Octet) : Op Int
  | recvmmsg (fd : Int) (lens : List Nat) (flags : MsgFlags) : Op (Int × List Datagram)
  | sendmmsg (fd : Int) (msgs : List (Option SockAddrIn6 × List Octet)) : Op Int
  | connect (fd : Int) (addr : SockAddrIn6) : Op Int
  -- the resolver
  | inetPton4 (name : List Octet) : Op (Option (Vector Octet 4))
  | inetPton6 (name : List Octet) : Op (Option (Vector Octet 16))
  | getaddrinfo (name : List Octet) (family : HevSocks5AddrFamily) : Op (Option AddrInfo)
  -- the scheduler
  | taskYield (type : HevTaskYieldType) : Op Unit
  | taskSleep (timeout : Int) : Op Int
  | addFd (fd : Int) : Op Int
  | modFd (fd : Int) : Op Int
  -- memory and settings
  | malloc : Op (Option (Nat → Mem))
  | udpCopyBufferNums : Op Nat
  | undefAddr : Op (Option Mem)
  | undefMsg : Op (Option Mem × Mem × UInt64)
  -- the server
  | logD (msg : String) : Op Unit
  | server : Op HevSocks5ServerObj
  | setServer (server : HevSocks5ServerObj) : Op Unit
  | authenticator (x : HevSocks5Authenticator.AuthM Ptr) : Op Ptr
  | users : Op (Ptr → HevSocks5User)
  | ref (obj : HevSocks5ServerRef) : Op Unit
  | unref (obj : HevSocks5ServerRef) : Op Unit
  | connectTimeout : Op Int
  | tcpTimeout : Op Int
  | udpTimeout : Op Int
  | undefCmd : Op Octet
  | tcpSplice (fd : Int) : Op Unit
  | udpSplice (fd : Int) : Op Unit
  -- making sockets
  | socket (type : SockType) : Op Int
  | setsockopt (fd : Int) (opt : SockOpt) : Op Int
  | close (fd : Int) : Op Unit
  | delFd (fd : Int) : Op Unit
  | bind (fd : Int) (addr : SockAddrIn6) : Op Int
  | getsockname (fd : Int) : Op (Int × SockAddrIn6)
  | socketConnect (fd : Int) (addr : SockAddrIn6) : Op Int

end Sys

abbrev SysM := Prog Sys.Op

namespace Sys

abbrev base : SysM HevSocks5Obj := op .base
abbrev setBase (base : HevSocks5Obj) : SysM Unit := op (.setBase base)
abbrev hevSocks5UdpGetFd : SysM Int := op .getFd
abbrev binder (fd : Int) (addr : SockAddrIn6) : SysM Int := op (.binder fd addr)
abbrev errno : SysM Errno := op .errno
abbrev recvRaw (fd : Int) : SysM Int := op (.recvRaw fd)
abbrev hevTaskIoSocketRecv (fd : Int) (len : Nat) (flags : MsgFlags) : SysM Received :=
  op (.recv fd len flags)
abbrev hevTaskIoSocketSend (fd : Int) (data : List Octet) : SysM Int := op (.send fd data)
abbrev hevTaskIoSocketRecvmsg (fd : Int) (len : Nat) : SysM Received := op (.recvmsg fd len)
abbrev hevTaskIoSocketSendmsg (fd : Int) (data : List Octet) : SysM Int := op (.sendmsg fd data)
abbrev hevTaskIoSocketRecvmmsg (fd : Int) (lens : List Nat) (flags : MsgFlags) :
    SysM (Int × List Datagram) :=
  op (.recvmmsg fd lens flags)
abbrev hevTaskIoSocketSendmmsg (fd : Int) (msgs : List (Option SockAddrIn6 × List Octet)) :
    SysM Int :=
  op (.sendmmsg fd msgs)
abbrev connect (fd : Int) (addr : SockAddrIn6) : SysM Int := op (.connect fd addr)
abbrev inetPton4 (name : List Octet) : SysM (Option (Vector Octet 4)) := op (.inetPton4 name)
abbrev inetPton6 (name : List Octet) : SysM (Option (Vector Octet 16)) := op (.inetPton6 name)
abbrev hevTaskDnsGetaddrinfo (name : List Octet) (family : HevSocks5AddrFamily) :
    SysM (Option AddrInfo) :=
  op (.getaddrinfo name family)
abbrev hevTaskYield (type : HevTaskYieldType) : SysM Unit := op (.taskYield type)
abbrev hevTaskSleep (timeout : Int) : SysM Int := op (.taskSleep timeout)
abbrev hevTaskAddFd (fd : Int) : SysM Int := op (.addFd fd)
abbrev hevTaskModFd (fd : Int) : SysM Int := op (.modFd fd)
abbrev hevMalloc : SysM (Option (Nat → Mem)) := op .malloc
abbrev hevSocks5GetUdpCopyBufferNums : SysM Nat := op .udpCopyBufferNums
abbrev undefAddr : SysM (Option Mem) := op .undefAddr
abbrev undefMsg : SysM (Option Mem × Mem × UInt64) := op .undefMsg
abbrev logD (msg : String) : SysM Unit := op (.logD msg)
abbrev server : SysM HevSocks5ServerObj := op .server
abbrev setServer (server : HevSocks5ServerObj) : SysM Unit := op (.setServer server)
abbrev authenticator (x : HevSocks5Authenticator.AuthM Ptr) : SysM Ptr := op (.authenticator x)
abbrev users : SysM (Ptr → HevSocks5User) := op .users
abbrev hevObjectRef (obj : HevSocks5ServerRef) : SysM Unit := op (.ref obj)
abbrev hevObjectUnref (obj : HevSocks5ServerRef) : SysM Unit := op (.unref obj)
abbrev hevSocks5GetConnectTimeout : SysM Int := op .connectTimeout
abbrev hevSocks5GetTcpTimeout : SysM Int := op .tcpTimeout
abbrev hevSocks5GetUdpTimeout : SysM Int := op .udpTimeout
abbrev undefCmd : SysM Octet := op .undefCmd
abbrev hevSocks5TcpSplice (fd : Int) : SysM Unit := op (.tcpSplice fd)
abbrev hevSocks5UdpSplice (fd : Int) : SysM Unit := op (.udpSplice fd)
abbrev hevTaskIoSocketSocket (type : SockType) : SysM Int := op (.socket type)
abbrev setsockopt (fd : Int) (opt : SockOpt) : SysM Int := op (.setsockopt fd opt)
abbrev close (fd : Int) : SysM Unit := op (.close fd)
abbrev hevTaskDelFd (fd : Int) : SysM Unit := op (.delFd fd)
protected abbrev bind (fd : Int) (addr : SockAddrIn6) : SysM Int := op (.bind fd addr)
abbrev getsockname (fd : Int) : SysM (Int × SockAddrIn6) := op (.getsockname fd)
abbrev hevTaskIoSocketConnect (fd : Int) (addr : SockAddrIn6) : SysM Int :=
  op (.socketConnect fd addr)

end Sys

end HevSocks5
