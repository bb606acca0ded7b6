/-
  The calls that the functions of the server make.
-/
import HevSocks5.Resolver
import HevSocks5.Server

namespace HevSocks5

open Interact

namespace Sys.Op

variable {β : Type}

/-- A message is read. -/
def Reads (msg : String) : Op β → Prop
  | logD m => m = msg
  | base | recv .. | server | inetPton4 _ | inetPton6 _ | getaddrinfo .. => True
  | _ => False

def SetsBase : Op β → Prop
  | setBase _ => True
  | _ => False

/-- A message is written. -/
def Writes (msg : String) (octets : List Octet) : Op β → Prop
  | logD m => m = msg
  | base => True
  | send _ data => data = octets
  | _ => False

/-- A user is looked up, and the union of the server is set. -/
def Checks : Op β → Prop
  | authenticator _ | users | ref _ | unref _ | server | setServer _ => True
  | _ => False

/-- A socket is made, or closed. -/
def Makes : Op β → Prop
  | addFd _ | modFd _ | delFd _ | socket _ | setsockopt .. | close _ => True
  | _ => False

/-- Sockets are made and closed. -/
def Opens (msg : String) : Op β → Prop
  | logD m => m = msg
  | base | setBase _ | addFd _ | modFd _ | delFd _ | connectTimeout | tcpTimeout => True
  | socket _ | setsockopt .. | close _ | bind .. | binder .. | getsockname _ => True
  | socketConnect .. => True
  | _ => False

theorem Makes.opens (msg : String) {o : Op β} (h : o.Makes) : o.Opens msg := by
  cases o <;> first | exact trivial | exact h.elim

theorem Resolves.reads (msg : String) {o : Op β} (h : o.Resolves) : o.Reads msg := by
  cases o <;> first | exact trivial | exact h.elim

end Sys.Op

open Sys Sys.Op

/-! ## Sockets -/

theorem makes_addOrModFd (fd : Int) : (addOrModFd fd).Only Makes :=
  .bind ((only_op _).2 trivial) fun _ =>
    .ite (.bind ((only_op _).2 trivial) fun _ => only_pure _) (only_pure _)

theorem makes_drop (fd : Int) : (drop fd).Only Makes :=
  .bind ((only_op _).2 trivial) fun _ => (only_op _).2 trivial

theorem makes_hevSocks5Socket (type : SockType) : (hevSocks5Socket type).Only Makes := by
  refine .bind ((only_op _).2 trivial) fun fd => .ite (only_pure _) ?_
  refine .bind ((only_op _).2 trivial) fun res => .ite ?_ ?_
  · exact .bind ((only_op _).2 trivial) fun _ => only_pure _
  · refine .bind (makes_addOrModFd fd) fun _ => .ite ?_ (only_pure _)
    exact .bind ((only_op _).2 trivial) fun _ => only_pure _

section
variable (msg : String)

theorem opens_addOrModFd (fd : Int) : (addOrModFd fd).Only (Opens msg) :=
  (makes_addOrModFd fd).mono (Makes.opens msg)

theorem opens_drop (fd : Int) : (drop fd).Only (Opens msg) :=
  (makes_drop fd).mono (Makes.opens msg)

theorem opens_hevSocks5Socket (type : SockType) : (hevSocks5Socket type).Only (Opens msg) :=
  (makes_hevSocks5Socket type).mono (Makes.opens msg)

theorem opens_hevSocks5SetTimeout (timeout : Int) :
    (hevSocks5SetTimeout timeout).Only (Opens msg) :=
  .bind ((only_op _).2 trivial) fun _ => .ite ((only_op _).2 trivial) (only_pure _)

end

namespace HevSocks5Server

theorem opens_udpBind (sock : Int) (src : SockAddrIn6) :
    (udpBind sock src).Only (Opens "socks5 server udp bind") := by
  refine .bind ((only_op _).2 rfl) fun _ => .bind ((only_op _).2 trivial) fun _ => ?_
  refine .bind ((only_op _).2 trivial) fun r => .ite (only_pure _) ?_
  refine .bind ((only_op _).2 trivial) fun _ => .ite (only_pure _) ?_
  exact .bind ((only_op _).2 trivial) fun r => .ite (only_pure _) (only_pure _)

/-! ## The authentication stage -/

theorem reads_readAuthMethod : readAuthMethod.Only (Reads "socks5 server read auth method") := by
  refine .bind ((only_op _).2 rfl) fun _ => ?_
  refine .bind ((only_op _).2 trivial) fun _ => .bind ((only_op _).2 trivial) fun _ => ?_
  refine .ite (only_pure _) (.ite (only_pure _) ?_)
  refine .bind ((only_op _).2 trivial) fun _ => .ite (only_pure _) ?_
  exact .bind ((only_op _).2 trivial) fun _ => only_pure _

theorem writes_writeAuthMethod (method : Int) : (writeAuthMethod method).Only
    (Writes "socks5 server write auth method" [version5, UInt8.ofInt method]) := by
  refine .bind ((only_op _).2 rfl) fun _ => .bind ((only_op _).2 trivial) fun _ => ?_
  exact .bind ((only_op _).2 rfl) fun _ => .ite (only_pure _) (only_pure _)

theorem checks_checkUser (name pass : Str) : (checkUser name pass).Only Checks := by
  refine .bind ((only_op _).2 trivial) fun _ => .ite (only_pure _) ?_
  refine .bind ((only_op _).2 trivial) fun _ => .ite (only_pure _) ?_
  refine .bind ((only_op _).2 trivial) fun _ => .bind ((only_op _).2 trivial) fun _ => ?_
  exact .bind ((only_op _).2 trivial) fun _ => .bind ((only_op _).2 trivial) fun _ => only_pure _

theorem only_readAuthUser :
    readAuthUser.Only fun o => o.Reads "socks5 server read auth user" ∨ o.Checks := by
  refine .bind ((only_op _).2 (.inl rfl)) fun _ => ?_
  refine .bind ((only_op _).2 (.inl trivial)) fun _ => ?_
  refine .bind ((only_op _).2 (.inl trivial)) fun _ => ?_
  refine .ite (only_pure _) (.ite (only_pure _) (.ite (only_pure _) ?_))
  refine .bind ((only_op _).2 (.inl trivial)) fun _ => .ite (only_pure _) (.ite (only_pure _) ?_)
  refine .bind ((only_op _).2 (.inl trivial)) fun _ => .ite (only_pure _) ?_
  exact (checks_checkUser _ _).mono .inr

theorem writes_writeAuthUser (authRes : Int) : (writeAuthUser authRes).Only
    (Writes "socks5 server write auth user" [1, UInt8.ofInt authRes]) := by
  refine .bind ((only_op _).2 rfl) fun _ => .bind ((only_op _).2 trivial) fun _ => ?_
  exact .bind ((only_op _).2 rfl) fun _ => .ite (only_pure _) (only_pure _)

/-! ## The request and the reply -/

theorem only_readRequest (rep : HevSocks5ResRep) (addr : SockAddrIn6) :
    (readRequest rep addr).Only fun o => o.Reads "socks5 server read request" ∨ o.SetsBase := by
  refine .bind ((only_op _).2 (.inl rfl)) fun _ => ?_
  refine .bind ((only_op _).2 (.inl trivial)) fun self => ?_
  refine .bind ((only_op _).2 (.inl trivial)) fun req => ?_
  refine .ite (only_pure _) (.ite (only_pure _) ?_)
  dsimp only
  cases addrRest (req.data.getD 3 0) (req.data.getD 4 0) with
  | none => exact only_pure _
  | some addrlen =>
    refine .bind ((only_op _).2 (.inl (by trivial))) fun r => .ite (only_pure _) ?_
    refine .bind ((only_op _).2 (.inl (by trivial))) fun self => ?_
    refine .bind ((only_hevSocks5AddrIntoSockaddr6 _ _ _).mono fun h => .inl (h.reads _)) ?_
    intro r
    refine .ite (only_pure _) ?_
    exact .bind ((only_op _).2 (.inl (by trivial))) fun _ =>
      .bind ((only_op _).2 (.inr (by trivial))) fun _ => only_pure _

theorem writes_writeResponse (rep : HevSocks5ResRep) (addr : SockAddrIn6) :
    (writeResponse rep addr).Only
      (Writes "socks5 server write response" ([version5, rep.octet, 0] ++ addr.octets)) := by
  refine .bind ((only_op _).2 rfl) fun _ => .bind ((only_op _).2 trivial) fun _ => ?_
  exact .bind ((only_op _).2 rfl) fun _ => .ite (only_pure _) (only_pure _)

end HevSocks5Server

end HevSocks5
