/-
  The client (hev-socks5-client.c, -client-tcp.c, -client-udp.c).

  A client is one for TCP, which holds the address of its target, or one for
  UDP, which holds a socket of its own; `get_upstream_addr` and
  `set_upstream_addr` are what the class of the client says.  The log lines are
  left out.
-/
import HevSocks5.Server
import HevSocks5.Base.Both

namespace HevSocks5

open Interact Sys

/-- A `HevSocks5Addr` that was allocated. -/
structure AddrBlock where
  ptr : Ptr
  mem : Mem

/-- The fields of `HevSocks5ClientTCP` and `HevSocks5ClientUDP` behind their base. -/
inductive HevSocks5ClientClass where
  | tcp (addr : Option AddrBlock)
  | udp (fd : Int)

/-- The fields of `struct _HevSocks5Client` and its subclasses behind the base. -/
structure HevSocks5ClientObj where
  user : Option (List Octet)
  pass : Option (List Octet)
  klass : HevSocks5ClientClass

/-- The calls that the server does not make. -/
inductive ClientOp : Type → Type where
  | client : ClientOp HevSocks5ClientObj
  | setClient (client : HevSocks5ClientObj) : ClientOp Unit
  | malloc0 : ClientOp (Option Ptr)
  | free (ptr : Ptr) : ClientOp Unit
  /-- an address is read through a null pointer; there is no answer -/
  | nullAddr : ClientOp Empty
  /-- octets behind the end of an address are read; there is no answer -/
  | overrun : ClientOp Empty

abbrev ClientM := Prog (Both Sys.Op ClientOp)

namespace HevSocks5Client

abbrev client : ClientM HevSocks5ClientObj := Prog.op (.inr .client)
abbrev setClient (client : HevSocks5ClientObj) : ClientM Unit := Prog.op (.inr (.setClient client))
abbrev hevMalloc0 : ClientM (Option Ptr) := Prog.op (.inr .malloc0)
abbrev hevFree (ptr : Ptr) : ClientM Unit := Prog.op (.inr (.free ptr))
abbrev nullAddr : ClientM Empty := Prog.op (.inr .nullAddr)
abbrev overrun : ClientM Empty := Prog.op (.inr .overrun)

/-! ## The addresses of the subclasses -/

/-- `hev_malloc0`, with the type of an address. -/
def newAddr (atype : Octet) : ClientM (Option AddrBlock) := do
  match ← hevMalloc0 with
  | none => return none
  | some ptr => return some ⟨ptr, .ofList [atype]⟩

def getUpstreamAddr : ClientM (Option AddrBlock) := do
  let self ← client
  match self.klass with
  | .tcp addr =>
    setClient { self with klass := .tcp none }
    return addr
  | .udp _ =>
    match (← base).addrFamily with
    | .ipv4 => newAddr addrTypeIpv4
    | .ipv6 => newAddr addrTypeIpv6
    | .unspec => return none

/-- The socket of a UDP client. -/
def udpSocket (saddr : SockAddrIn6) : SysM Int := do
  let fd ← hevSocks5Socket .dgram
  if fd < 0 then return -1
  else
    let res ← binder fd saddr
    if res < 0 then
      drop fd
      return -1
    else
      let res ← hevTaskIoSocketConnect fd saddr
      if res < 0 then
        drop fd
        return -1
      else return fd

def udpSetUpstreamAddr (addr : Mem) : ClientM Int := do
  if (← base).type ≠ .udpInUdp then return 0
  else
    let family := (← base).addrFamily
    let (res, saddr, _) ← hevSocks5AddrIntoSockaddr6 addr .zero family
    if res < 0 then return -1
    else
      let fd ← udpSocket saddr
      if fd < 0 then return -1
      else
        setBase { (← base) with udpAssociated := true }
        setClient { (← client) with klass := .udp fd }
        return 0

def setUpstreamAddr (addr : Mem) : ClientM Int := do
  match (← client).klass with
  | .tcp _ => return 0
  | .udp _ => udpSetUpstreamAddr addr

/-- The socket from which a UDP client relays, its `get_fd`. -/
def udpGetFd : ClientM Int := do
  match (← base).type with
  | .udpInTcp => return (← base).fd
  | .udpInUdp =>
    match (← client).klass with
    | .udp fd => return fd
    -- a TCP client has no such method
    | .tcp _ => return -1
  | _ => return -1

/-! ## Messages to the server -/

def writeAuthMethods : ClientM Int := do
  let self ← client
  let method := if self.user.isNone ∨ self.pass.isNone then authMethodNone else authMethodUser
  let res ← hevTaskIoSocketSend (← base).fd [version5, 1, method]
  if res ≤ 0 then return -1 else return 0

/-- A string behind its length, which is an octet. -/
def cred (s : List Octet) : List Octet :=
  UInt8.ofNat s.length :: s.take (UInt8.ofNat s.length).toNat

def writeAuthCreds : ClientM Int := do
  let self ← client
  match self.user, self.pass with
  | some user, some pass =>
    let res ← hevTaskIoSocketSendmsg (← base).fd (authVersion1 :: (cred user ++ cred pass))
    if res ≤ 0 then return -1 else return 0
  | _, _ => return 0

/-- The command for a type of client. -/
def reqCmd : HevSocks5Type → Option Octet
  | .tcp => some reqCmdConnect
  | .udpInTcp => some reqCmdFwdUdp
  | .udpInUdp => some reqCmdUdpAsc
  | .none => none

def writeRequest : ClientM Int := do
  match reqCmd (← base).type with
  | none => return -1
  | some cmd =>
    match ← getUpstreamAddr with
    | none => (← nullAddr).elim
    | some addr =>
      -- the switch over the types is that of `hev_socks5_addr_len`
      let addrlen := hevSocks5AddrLen addr.mem
      if addrlen < 0 then return -1
      else
        let res ← hevTaskIoSocketSendmsg (← base).fd
          ([version5, cmd, 0] ++ addr.mem.read addrlen.toNat)
        if res ≤ 0 then return -1
        else
          hevFree addr.ptr
          return 0

/-! ## Messages from the server -/

def readAuthMethod : ClientM Int := do
  let r ← hevTaskIoSocketRecv (← base).fd 2 .waitall
  if r.res ≠ 2 then return -1
  else if r.data.getD 0 0 ≠ version5 then return -1
  else return (r.data.getD 1 0).toNat

def readAuthCreds : ClientM Int := do
  let r ← hevTaskIoSocketRecv (← base).fd 2 .waitall
  if r.res ≠ 2 then return -1
  else if r.data.getD 0 0 ≠ authVersion1 then return -1
  else if r.data.getD 1 0 ≠ HevSocks5ResRep.succ.octet then return -1
  else return 0

/-- How many octets of an address come behind its type; nothing for an unknown type. -/
def addrRest (atype : Octet) : Option Nat :=
  if atype = addrTypeIpv4 then some 6
  else if atype = addrTypeIpv6 then some 18
  else none

def readResponse : ClientM Int := do
  let fd := (← base).fd
  let res ← hevTaskIoSocketRecv fd 4 .waitall
  if res.res ≠ 4 then return -1
  else if res.data.getD 0 0 ≠ version5 then return -1
  else if res.data.getD 1 0 ≠ HevSocks5ResRep.succ.octet then return -1
  else
    match addrRest (res.data.getD 3 0) with
    | none => return -1
    | some addrlen =>
      let r ← hevTaskIoSocketRecv fd addrlen .waitall
      if r.res ≠ addrlen then return -1
      else
        let res ← setUpstreamAddr (.ofList (res.data.getD 3 0 :: r.data))
        if res < 0 then return -1 else return 0

/-! ## Connecting -/

/-- `hev_socks5_client_connect` -/
def connect (addr : List Octet) (port : UInt16) : SysM Int := do
  hevSocks5SetTimeout (← hevSocks5GetConnectTimeout)
  let family := (← base).addrFamily
  let (res, saddr, family) ← hevSocks5NameIntoSockaddr6 addr port .zero family
  if res < 0 then return -1
  else
    let fd ← hevSocks5Socket .stream
    if fd < 0 then return -1
    else
      let res ← binder fd saddr
      if res < 0 then
        drop fd
        return -1
      else
        let res ← hevTaskIoSocketConnect fd saddr
        if res < 0 then
          drop fd
          return -1
        else
          setBase { (← base) with fd }
          setBase { (← base) with addrFamily := family }
          return 0

/-! ## The handshake -/

def handshakeStandard : ClientM Int := do
  let res ← writeAuthMethods
  if res < 0 then return -1
  else
    let method ← readAuthMethod
    if method < 0 then return -1
    else if method = authMethodUser.toNat then
      let res ← writeAuthCreds
      if res < 0 then return -1
      else
        let res ← readAuthCreds
        if res < 0 then return -1
        else request
    else if method ≠ authMethodNone.toNat then return -1
    else request
where
  request : ClientM Int := do
    let res ← writeRequest
    if res < 0 then return -1
    else
      let res ← readResponse
      if res < 0 then return -1 else return 0

def handshakePipeline : ClientM Int := do
  let res ← writeAuthMethods
  if res < 0 then return -1
  else
    let res ← writeAuthCreds
    if res < 0 then return -1
    else
      let res ← writeRequest
      if res < 0 then return -1
      else
        let method ← readAuthMethod
        if method < 0 then return -1
        else if method = authMethodUser.toNat then
          let res ← readAuthCreds
          if res < 0 then return -1
          else response
        else if method ≠ authMethodNone.toNat then return -1
        else response
where
  response : ClientM Int := do
    let res ← readResponse
    if res < 0 then return -1 else return 0

/-- The handshake of a mode. -/
def modeOf (pipeline : Bool) : ClientM Int :=
  if pipeline then handshakePipeline else handshakeStandard

/-- The end of `hev_socks5_client_handshake`. -/
def handshakeEnd (res : Int) : ClientM Int := do
  match (← base).type with
  | .udpInTcp | .udpInUdp =>
    hevSocks5SetTimeout (← hevSocks5GetUdpTimeout)
    return res
  | _ => return res

/-- `hev_socks5_client_handshake` -/
def handshake (pipeline : Bool) : ClientM Int := do
  hevSocks5SetTimeout (← hevSocks5GetTcpTimeout)
  handshakeEnd (← modeOf pipeline)

/-- `hev_socks5_client_tcp_destruct`, `hev_socks5_client_udp_destruct` -/
def destruct : ClientM Unit := do
  match (← client).klass with
  | .tcp none => hevSocks5Destruct
  | .tcp (some addr) =>
    hevFree addr.ptr
    hevSocks5Destruct
  | .udp fd =>
    if 0 ≤ fd then drop fd
    hevSocks5Destruct

/-- The fields of a new client. -/
def construct (type : HevSocks5Type) : HevSocks5Obj := ⟨-1, -1, type, false, .unspec⟩

end HevSocks5Client

end HevSocks5
