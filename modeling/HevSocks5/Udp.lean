/-
  The UDP splicer (hev-socks5-udp.c).

  A message has its address and its payload as pointers.  A `Slot` is an entry
  of `svec` together with the buffer of `UDP_BUF_SIZE` octets its message is
  received into; the buffer keeps its octets from call to call.

  The loop of the splicer is cut off after a number of rounds.
-/
import HevSocks5.Misc

namespace HevSocks5

open Interact Sys

def udpBufSize : Nat := 1500

/-- A pointer that may not have been set yet. -/
inductive AddrPtr where
  | unset
  | null
  | addr (m : Mem)

structure HevSocks5UDPMsg where
  addr : AddrPtr
  buf : Mem
  len : UInt64

/-- A message and the buffer it is received into. -/
structure Slot where
  msg : HevSocks5UDPMsg
  mem : Mem

namespace HevSocks5UDP

/-- The yielder of the splicer: with a control connection it also notices its end. -/
def taskIoYielder (type : HevTaskYieldType) : SysM Int := do
  let self ← base
  if self.type = .udpInUdp then
    let res ← recvRaw self.fd
    if res = 0 then
      hevSocks5SetTimeout 0
      return -1
    else if res < 0 then
      if (← errno) ≠ .eagain then
        hevSocks5SetTimeout 0
        return -1
      else hevSocks5TaskIoYielder type
    else hevSocks5TaskIoYielder type
  else hevSocks5TaskIoYielder type

/-! ## Sending -/

/-- A message to send: the octets at its address and its payload. -/
structure OutMsg where
  addr : Mem
  buf : Mem
  len : UInt64

/-- `htons (len)`: the low 16 bits, in network order. -/
def datlenOctets (len : UInt64) : List Octet :=
  [(htons len.toUInt16).1, (htons len.toUInt16).2]

/-- The three pieces of a message: the header, the address and the payload. -/
def OutMsg.frame (m : OutMsg) (addrlen : Nat) : List Octet :=
  datlenOctets m.len ++ [UInt8.ofNat (3 + addrlen)] ++ m.addr.read addrlen ++
    m.buf.read m.len.toNat

def OutMsg.packet (m : OutMsg) (addrlen : Nat) : List Octet :=
  [0, 0, 0] ++ m.addr.read addrlen ++ m.buf.read m.len.toNat

/-- The gather list over all messages, or nothing when an address is refused. -/
def gather (piece : OutMsg → Nat → List Octet) : List OutMsg → Option (List (List Octet))
  | [] => some []
  | m :: msgv =>
    let addrlen := hevSocks5AddrLen m.addr
    if addrlen ≤ 0 then none
    else (gather piece msgv).map (piece m addrlen.toNat :: ·)

def sendmmsgTcp (msgv : List OutMsg) : SysM Int := do
  match gather OutMsg.frame msgv with
  | none => return -1
  | some iov =>
    let res ← hevTaskIoSocketSendmsg (← hevSocks5UdpGetFd) iov.flatten
    if res ≤ 0 then return -1 else return msgv.length

def sendmmsgUdp (msgv : List OutMsg) : SysM Int := do
  match gather OutMsg.packet msgv with
  | none => return -1
  | some iov => hevTaskIoSocketSendmmsg (← hevSocks5UdpGetFd) (iov.map fun d => (none, d))

def sendmmsg (msgv : List OutMsg) : SysM Int := do
  match (← base).type with
  | .udpInTcp => sendmmsgTcp msgv
  | .udpInUdp => sendmmsgUdp msgv
  | _ => return -1

/-! ## Receiving -/

def dontwaitIf (nonblock : Bool) : MsgFlags := if nonblock then .dontwait else .zero

/-- The head of a frame is read in two steps when the first gets a part of it. -/
def recvHead (fd : Int) (nonblock : Bool) : SysM (Int × List Octet) := do
  let r ← hevTaskIoSocketRecv fd 5 (dontwaitIf nonblock)
  if 0 < r.res ∧ r.res < 5 then
    let r' ← hevTaskIoSocketRecv fd (5 - r.res).toNat .waitall
    return (r.res + r'.res, r.data ++ r'.data)
  else return (r.res, r.data)

/-- One turn of the loop over the slots. -/
inductive Turn where
  | head (res : Int)
  | refused
  | body (res : Int) (s : Slot)
  | message (s : Slot)

def recvSlot (fd : Int) (nonblock : Bool) (s : Slot) : SysM Turn := do
  let (res, udp) ← recvHead fd nonblock
  if res ≠ 5 then return .head res
  else
    let hdrlen := udp.getD 2 0
    if hdrlen < 5 then return .refused
    else
      let addrlen := hdrlen.toNat - 3
      let datlen := ntohs (udp.getD 0 0, udp.getD 1 0)
      if datlen.toUInt64 > s.msg.len - UInt64.ofNat addrlen then return .refused
      else
        -- the address goes to `buf + 2`, the payload right behind it
        let r ← hevTaskIoSocketRecvmsg fd (addrlen - 2 + datlen.toNat)
        let mem := s.mem.write 2 r.data
        if r.res ≠ addrlen - 2 + datlen.toNat then
          return .body r.res { s with msg.buf := mem, mem }
        else
          let mem := mem.write 0 [udp.getD 3 0, udp.getD 4 0]
          return .message
            { msg := { addr := .addr mem, buf := mem.drop addrlen, len := datlen.toUInt64 }, mem }

/-- From slot to slot; `done` holds the slots that are done. -/
def recvmmsgTcpLoop (fd : Int) (nonblock : Bool) :
    List Slot → List Slot → SysM (Int × List Slot)
  | [], done => return (done.length, done)
  | s :: slots, done => do
    match ← recvSlot fd nonblock s with
    | .head res => return (if done.length > 0 then (done.length : Int) else res, done ++ s :: slots)
    | .refused => return (-1, done ++ s :: slots)
    | .body res s => return (res, done ++ s :: slots)
    | .message s => recvmmsgTcpLoop fd nonblock slots (done ++ [s])

def recvmmsgTcp (slots : List Slot) (nonblock : Bool) : SysM (Int × List Slot) := do
  recvmmsgTcpLoop (← hevSocks5UdpGetFd) nonblock slots []

/-- The kernel puts datagrams into the buffers. -/
def fill : List Slot → List Datagram → List Slot
  | s :: slots, d :: ds =>
    let mem := s.mem.write 0 d.data
    { msg := { s.msg with buf := mem }, mem } :: fill slots ds
  | slots, _ => slots

/-- A datagram of `len` octets in its slot; `none` when it is refused. -/
def parseDatagram (s : Slot) (len : Nat) : Option Slot :=
  let udp := s.mem
  let addrlen := hevSocks5AddrLen (udp.drop 3)
  if len < 4 then some { s with msg := { s.msg with addr := .null, len := 0 } }
  else if addrlen ≤ 0 then none
  else
    let doff := 3 + addrlen
    if doff > len then none
    else
      some { s with msg :=
        { addr := .addr (udp.drop 3), buf := udp.drop doff.toNat,
          len := UInt64.ofNat (len - doff.toNat) } }

/-- From datagram to datagram. -/
def parseUdp : List Slot → List Datagram → Option (List Slot)
  | s :: slots, d :: ds => do
    let s ← parseDatagram s d.data.length
    let slots ← parseUdp slots ds
    return s :: slots
  | slots, _ => some slots

/-- The socket is connected to the source of the first datagram, once. -/
def associate (fd : Int) (ds : List Datagram) : SysM Bool := do
  let self ← base
  if self.udpAssociated then return true
  else
    let res ← connect fd ((ds.head?.map (·.src)).getD .zero)
    if res < 0 then return false
    else
      setBase { (← base) with udpAssociated := true }
      return true

def recvmmsgUdp (slots : List Slot) (nonblock : Bool) : SysM (Int × List Slot) := do
  let fd ← hevSocks5UdpGetFd
  let (res, ds) ← hevTaskIoSocketRecvmmsg fd (slots.map (·.msg.len.toNat)) (dontwaitIf nonblock)
  let slots := fill slots ds
  if res ≤ 0 then return (res, slots)
  else
    if !(← associate fd ds) then return (-1, slots)
    else
      match parseUdp slots (ds.take res.toNat) with
      | none => return (-1, slots)
      | some slots => return (res, slots)

def recvmmsg (slots : List Slot) (nonblock : Bool) : SysM (Int × List Slot) := do
  match (← base).type with
  | .udpInTcp => recvmmsgTcp slots nonblock
  | .udpInUdp => recvmmsgUdp slots nonblock
  | _ => return (-1, slots)

/-! ## The splicer -/

/-- The end of `fwd_f` and `fwd_b`: 1, 0 when there is nothing to do, or -1. -/
def fwdResult (res : Int) : SysM Int := do
  if res ≤ 0 then
    if res = -1 then
      if (← errno) = .eagain then return 0 else return -1
    else return -1
  else return 1

/-- The entries `svec[0]` to `svec[res - 1]`; an entry that is not there is undefined. -/
def entries (svec : List Slot) (res : Nat) : List (Option HevSocks5UDPMsg) :=
  (svec.take res).map (fun s => some s.msg) ++ List.replicate (res - svec.length) none

/-- The fields of an entry; those that are not set are undefined. -/
def fields : Option HevSocks5UDPMsg → SysM (Option Mem × Mem × UInt64)
  | none => undefMsg
  | some ⟨.unset, buf, len⟩ => return (← undefAddr, buf, len)
  | some ⟨.null, buf, len⟩ => return (none, buf, len)
  | some ⟨.addr a, buf, len⟩ => return (some a, buf, len)

/-- The destinations and payloads of the messages, or nothing when one is refused. -/
def resolveAll : List (Option HevSocks5UDPMsg) →
    SysM (Option (List (SockAddrIn6 × List Octet)))
  | [] => return some []
  | m :: ms => do
    let (addr, buf, len) ← fields m
    match addr with
    | none => return none
    | some addr =>
      if len = 0 then return none
      else
        let family := (← base).addrFamily
        let (ret, saddr, _) ← hevSocks5AddrIntoSockaddr6 addr .zero family
        if ret < 0 then return none
        else
          match ← resolveAll ms with
          | none => return none
          | some dvec => return some ((saddr, buf.read len.toNat) :: dvec)

/-- The destination socket is bound before the first messages are sent on it. -/
def bindFirst (fd : Int) (dvec : List (SockAddrIn6 × List Octet)) (bind : Bool) : SysM Bool := do
  if bind then return true
  else
    let ret ← binder fd ((dvec.head?.map (·.1)).getD .zero)
    return !(ret < 0)

/-- The second half of `fwd_f`: messages were received, they are sent on. -/
def forward (fd : Int) (res : Nat) (svec : List Slot) (bind : Bool) : SysM (Int × Bool) := do
  match ← resolveAll (entries svec res) with
  | none => return (-1, bind)
  | some dvec =>
    if !(← bindFirst fd dvec bind) then return (-1, bind)
    else
      let res ← hevTaskIoSocketSendmmsg fd (dvec.map fun d => (some d.1, d.2))
      return (← fwdResult res, true)

/-- The end of `fwd_f`: the messages received are forwarded. -/
def fwdRest (fd : Int) (res : Int) (svec : List Slot) (bind : Bool) : SysM (Int × Bool) := do
  if res > 0 then forward fd res.toNat svec bind
  else return (← fwdResult res, bind)

/-- An entry of `svec` before a message is received. -/
def fwdSlot (mem : Mem) : Slot :=
  { msg := { addr := .unset, buf := mem, len := UInt64.ofNat udpBufSize }, mem }

/-- `hev_socks5_udp_fwd_f`: the result, `*bind` and the buffers. -/
def fwdF (fd : Int) (bufs : List Mem) (bind : Bool) : SysM (Int × Bool × List Mem) := do
  let (res, svec) ← recvmmsg (bufs.map fwdSlot) true
  let (ret, bind) ← fwdRest fd res svec bind
  return (ret, bind, svec.map (·.mem))

/-- The message that `fwd_b` sends for a datagram in its buffer. -/
def outMsg (mem : Mem) (d : Datagram) : OutMsg :=
  { addr := (hevSocks5AddrFromSockaddr6 .undef d.src).2, buf := mem.write 0 d.data,
    len := UInt64.ofNat d.data.length }

def store : List Mem → List Datagram → List Mem
  | mem :: bufs, d :: ds => mem.write 0 d.data :: store bufs ds
  | bufs, _ => bufs

/-- `hev_socks5_udp_fwd_b`: the result and the buffers. -/
def fwdB (fd : Int) (bufs : List Mem) : SysM (Int × List Mem) := do
  let (res, ds) ← hevTaskIoSocketRecvmmsg fd (bufs.map fun _ => udpBufSize) .dontwait
  if res > 0 then
    let res ← sendmmsg (List.zipWith outMsg bufs (ds.take res.toNat))
    return (← fwdResult res, store bufs ds)
  else return (← fwdResult res, store bufs ds)

/-- `fwd_f` as long as it has not failed. -/
def stepF (fdB resF : Int) (bind : Bool) (bufs : List Mem) : SysM (Int × Bool × List Mem) :=
  if resF ≥ 0 then fwdF fdB bufs bind else return (resF, bind, bufs)

/-- `fwd_b` as long as it has not failed. -/
def stepB (fdB resB : Int) (bufs : List Mem) : SysM (Int × List Mem) :=
  if resB ≥ 0 then fwdB fdB bufs else return (resB, bufs)

/-- How the splicer waits for the next round; nothing when both directions have failed. -/
def yieldType (resF resB : Int) : Option HevTaskYieldType :=
  if resF > 0 ∨ resB > 0 then some .yield
  else if BitVec.ofInt 32 resF &&& BitVec.ofInt 32 resB = 0 then some .waitio
  else none

/-- `for (;;)`, cut off after a number of rounds. -/
def splicerLoop (fdB : Int) : Nat → Int → Int → Bool → List Mem → List Mem → SysM Unit
  | 0, _, _, _, _, _ => return ()
  | rounds + 1, resF, resB, bind, bufsF, bufsB => do
    let (resF, bind, bufsF) ← stepF fdB resF bind bufsF
    let (resB, bufsB) ← stepB fdB resB bufsB
    match yieldType resF resB with
    | none => return ()
    | some type =>
      if (← taskIoYielder type) ≠ 0 then return ()
      else splicerLoop fdB rounds resF resB bind bufsF bufsB

/-- `hev_socks5_udp_splicer` -/
def splicer (fdB : Int) (rounds : Nat) : SysM Int := do
  let num ← hevSocks5GetUdpCopyBufferNums
  match ← hevMalloc with
  | none => return -1
  | some buf =>
    let fdA ← hevSocks5UdpGetFd
    modOrAddFd fdA
    addOrModFd fdB
    splicerLoop fdB rounds 1 1 false ((List.range num).map buf)
      ((List.range num).map fun i => buf (num + i))
    return 0

end HevSocks5UDP

end HevSocks5
