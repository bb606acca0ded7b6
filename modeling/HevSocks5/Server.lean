/-
  The server (hev-socks5-server.c): authentication, the request, the reply.

  `LOG_D` is kept where it tells that a function is entered; the other log
  lines are left out.  A function with a result and output arguments returns
  them together.
-/
import HevSocks5.Misc

namespace HevSocks5

open Interact Sys

def version5 : Octet := 5
def authVersion1 : Octet := 1

def authMethodNone : Octet := 0
def authMethodUser : Octet := 2

def reqCmdConnect : Octet := 1
def reqCmdUdpAsc : Octet := 3
def reqCmdFwdUdp : Octet := 5

/-- `HevSocks5ResRep` -/
inductive HevSocks5ResRep where
  | succ
  | fail
  | host
  | impl
  | addr
deriving DecidableEq

def HevSocks5ResRep.octet : HevSocks5ResRep → Octet
  | succ => 0
  | fail => 1
  | host => 4
  | impl => 7
  | addr => 8

namespace HevSocks5Server

/-! ## Authentication -/

def setAuth : SysM Unit := do
  let self ← server
  if self.obj ≠ .null then hevObjectUnref self.obj
  hevObjectRef .auth
  setServer { self with obj := .auth }

/-- The method, when the client offers it, or -1. -/
def methodLoop (method : Octet) : List Octet → Int
  | [] => -1
  | m :: methods => if m = method then method.toNat else methodLoop method methods

def readAuthMethod : SysM Int := do
  logD "socks5 server read auth method"
  let fd := (← base).fd
  let r ← hevTaskIoSocketRecv fd 2 .waitall
  if r.res ≠ 2 then return -1
  else if r.data.getD 0 0 ≠ version5 then return -1
  else
    let methodLen := r.data.getD 1 0
    let r ← hevTaskIoSocketRecv fd methodLen.toNat .waitall
    if r.res ≠ methodLen.toNat then return -1
    else
      let method := if (← server).obj ≠ .null then authMethodUser else authMethodNone
      return methodLoop method r.data

def writeAuthMethod (authMethod : Int) : SysM Int := do
  logD "socks5 server write auth method"
  let res ← hevTaskIoSocketSend (← base).fd [version5, UInt8.ofInt authMethod]
  if res ≤ 0 then return -1 else return 0

/-- The user with the name, checked for the password. -/
def checkUser (name pass : Str) : SysM Int := do
  let user ← authenticator (HevSocks5Authenticator.get name)
  if user = 0 then return -1
  else
    let res := ((← users) user).checker pass
    if res < 0 then return -1
    else
      hevObjectRef (.user user)
      let self ← server
      hevObjectUnref self.obj
      setServer { self with obj := .user user }
      return 0

/-- A string whose length is an octet. -/
def strOf (octets : List Octet) (len : Octet) : Str where
  octets := octets.take len.toNat
  length_lt := by
    have := len.toNat_lt
    simp
    omega

def readAuthUser : SysM Int := do
  logD "socks5 server read auth user"
  let fd := (← base).fd
  let r ← hevTaskIoSocketRecv fd 2 .waitall
  if r.res ≠ 2 then return -1
  else if r.data.getD 0 0 ≠ authVersion1 then return -1
  else
    let nlen := r.data.getD 1 0
    if nlen = 0 then return -1
    else
      let name ← hevTaskIoSocketRecv fd (nlen.toNat + 1) .waitall
      if name.res ≠ nlen.toNat + 1 then return -1
      else
        let plen := name.data.getD nlen.toNat 0
        if plen = 0 then return -1
        else
          let pass ← hevTaskIoSocketRecv fd plen.toNat .waitall
          if pass.res ≠ plen.toNat then return -1
          else checkUser (strOf name.data nlen) (strOf pass.data plen)

def writeAuthUser (authRes : Int) : SysM Int := do
  logD "socks5 server write auth user"
  let res ← hevTaskIoSocketSend (← base).fd [1, UInt8.ofInt authRes]
  if res ≤ 0 then return -1 else return 0

def auth : SysM Int := do
  let method ← readAuthMethod
  let res ← writeAuthMethod method
  if res < 0 then return -1
  else if method = authMethodNone.toNat then return 0
  else if method = authMethodUser.toNat then
    let res ← readAuthUser
    let res' ← writeAuthUser res
    if (BitVec.ofInt 32 res ||| BitVec.ofInt 32 res').toInt < 0 then return -1 else return 0
  else return -1

/-! ## The request -/

/-- What `read_request` leaves behind: its result, `*cmd` if it is set, `*rep` and `*addr`. -/
structure Request where
  res : Int
  cmd : Option Octet
  rep : HevSocks5ResRep
  addr : SockAddrIn6

/-- How many octets of an address come behind its first two; nothing for an unknown type. -/
def addrRest (atype second : Octet) : Option Nat :=
  if atype = addrTypeIpv4 then some 5
  else if atype = addrTypeIpv6 then some 17
  else if atype = addrTypeName then some (2 + second.toNat)
  else none

def readRequest (rep : HevSocks5ResRep) (addr : SockAddrIn6) : SysM Request := do
  logD "socks5 server read request"
  let fd := (← base).fd
  let req ← hevTaskIoSocketRecv fd 5 .waitall
  if req.res ≠ 5 then return ⟨-1, none, rep, addr⟩
  else if req.data.getD 0 0 ≠ version5 then return ⟨0, none, .fail, addr⟩
  else
    let atype := req.data.getD 3 0
    let second := req.data.getD 4 0
    match addrRest atype second with
    | none => return ⟨0, none, .addr, addr⟩
    | some addrlen =>
      let r ← hevTaskIoSocketRecv fd addrlen .waitall
      if r.res ≠ addrlen then return ⟨0, none, .addr, addr⟩
      else
        let family := (← base).addrFamily
        let (res, addr, family) ←
          hevSocks5AddrIntoSockaddr6 (.ofList (atype :: second :: r.data)) addr family
        if res < 0 then return ⟨0, none, .addr, addr⟩
        else
          setBase { (← base) with addrFamily := family }
          return ⟨0, some (req.data.getD 1 0), rep, addr⟩

def writeResponse (rep : HevSocks5ResRep) (addr : SockAddrIn6) : SysM Int := do
  logD "socks5 server write response"
  let res ← hevTaskIoSocketSend (← base).fd ([version5, rep.octet, 0] ++ addr.octets)
  if res ≤ 0 then return -1 else return 0

/-! ## The commands -/

def connect (addr : SockAddrIn6) : SysM Int := do
  logD "socks5 server connect"
  let fd ← hevSocks5Socket .stream
  if fd < 0 then return -1
  else
    let res ← binder fd addr
    if res < 0 then
      drop fd
      return -1
    else
      hevSocks5SetTimeout (← hevSocks5GetConnectTimeout)
      let res ← hevTaskIoSocketConnect fd addr
      if res < 0 then
        drop fd
        return -1
      else
        hevSocks5SetTimeout (← hevSocks5GetTcpTimeout)
        let self ← server
        setServer { self with fds := (fd, self.fds.2) }
        return 0

/-- `hev_socks5_server_udp_bind`: the result and `*src`. -/
def udpBind (sock : Int) (src : SockAddrIn6) : SysM (Int × SockAddrIn6) := do
  logD "socks5 server udp bind"
  let (res, name) ← getsockname (← base).fd
  if res < 0 then return (-1, src)
  else
    let src := { name with port := (0, 0) }
    let res ← Sys.bind sock src
    if res < 0 then return (-1, src)
    else
      let (res, name) ← getsockname sock
      if res < 0 then return (-1, src) else return (0, name)

/-- The relay socket of an association. -/
def bindRelay (addr : SockAddrIn6) : SysM (Int × SockAddrIn6) := do
  let fd ← hevSocks5Socket .dgram
  if fd < 0 then return (-1, addr)
  else
    let res ← setsockopt fd .reuseaddr
    if res < 0 then
      drop fd
      return (-1, addr)
    else
      let (res, addr) ← udpBind fd addr
      if res < 0 then
        drop fd
        return (-1, addr)
      else
        let self ← server
        setServer { self with fds := (self.fds.1, fd) }
        return (0, addr)

/-- `hev_socks5_server_bind`: the result and `*addr`, when there is one. -/
def bind (addr : Option SockAddrIn6) : SysM (Int × Option SockAddrIn6) := do
  logD "socks5 server bind"
  let fd ← hevSocks5Socket .dgram
  if fd < 0 then return (-1, addr)
  else
    let self ← server
    setServer { self with fds := (fd, self.fds.2) }
    match addr with
    | none => return (0, none)
    | some addr =>
      let (res, addr) ← bindRelay addr
      return (res, some addr)

def setType (type : HevSocks5Type) : SysM Unit := do
  setBase { (← base) with type }

/-- The command is executed: the reply and `addr`. -/
def execute (cmd : Octet) (addr : SockAddrIn6) : SysM (HevSocks5ResRep × SockAddrIn6) := do
  if cmd = reqCmdConnect then
    let res ← connect addr
    setType .tcp
    return (if res < 0 then .host else .succ, addr)
  else if cmd = reqCmdUdpAsc then
    let (res, addr') ← bind (some addr)
    setType .udpInUdp
    return (if res < 0 then .fail else .succ, addr'.getD addr)
  else if cmd = reqCmdFwdUdp then
    let (res, _) ← bind none
    setType .udpInTcp
    return (if res < 0 then .fail else .succ, addr)
  else return (.impl, addr)

/-- The switch over the commands, when nothing has gone wrong before. -/
def executeRequest (req : Request) : SysM (HevSocks5ResRep × SockAddrIn6) := do
  if req.rep = .succ then
    match req.cmd with
    | some cmd => execute cmd req.addr
    | none => execute (← undefCmd) req.addr
  else return (req.rep, req.addr)

/-! ## A run -/

def handshake : SysM Int := do
  logD "socks5 server handshake"
  hevSocks5SetTimeout (← hevSocks5GetTcpTimeout)
  let res ← auth
  if res < 0 then return -1
  else
    let req ← readRequest .succ .zero
    if req.res < 0 then return -1
    else
      let (rep, addr) ← executeRequest req
      let res ← writeResponse rep addr
      if res < 0 ∨ rep ≠ .succ then return -1 else return 0

def service : SysM Int := do
  logD "socks5 server service"
  match (← base).type with
  | .tcp =>
    hevSocks5TcpSplice (← server).fds.1
    return 0
  | .udpInUdp | .udpInTcp =>
    hevSocks5SetTimeout (← hevSocks5GetUdpTimeout)
    hevSocks5UdpSplice (← server).fds.1
    return 0
  | .none => return -1

def run : SysM Int := do
  logD "socks5 server run"
  addOrModFd (← base).fd
  let res ← handshake
  if res < 0 then return -1
  else
    let res ← service
    if res < 0 then return -1 else return 0

/-- The socket from which the server relays UDP, its `get_fd`. -/
def getFd : SysM Int := do
  match (← base).type with
  | .udpInTcp => return (← base).fd
  | .udpInUdp => return (← server).fds.2
  | _ => return -1

/-- `hev_socks5_server_destruct` -/
def destruct : SysM Unit := do
  logD "socks5 server destruct"
  let self ← server
  if 0 ≤ self.fds.1 then drop self.fds.1
  if 0 ≤ self.fds.2 then drop self.fds.2
  if self.obj ≠ .null then hevObjectUnref self.obj
  hevSocks5Destruct

/-- The fields of a new server. -/
def construct (fd : Int) : HevSocks5Obj × HevSocks5ServerObj :=
  (⟨fd, -1, .none, false, .unspec⟩, ⟨(-1, -1), .null⟩)

end HevSocks5Server

end HevSocks5
