/-
  The host of a server while `hev_socks5_server_run` runs.

  A `Host` is the server object, the authenticator, and what has happened so
  far on the connection to the client and to the sockets of the server.  Local
  calls may fail or not; a receive call may get any octets, fewer than it asks
  for too.  While the server waits, other tasks may add and delete users: the
  authenticator is then another one, of any users.
-/
import HevSocks5.AuthenticatorMap
import HevSocks5.Server

namespace HevSocks5

open Interact Sys

structure Host where
  self : HevSocks5Obj
  server : HevSocks5ServerObj
  auth : HevSocks5Authenticator
  /-- the authenticator as it was at each lookup -/
  looked : List HevSocks5Authenticator
  /-- the functions that were entered -/
  entered : List String
  /-- the octets received from the client -/
  read : List Octet
  /-- what was to be sent to the client, and the result of the call -/
  sends : List (List Octet × Int)
  /-- the sockets that are open -/
  opened : List Int
  /-- the addresses of the sockets that were bound -/
  name : Int → Option SockAddrIn6
  /-- whether a command was used that was not set -/
  undef : Bool

namespace Host

/-- The server has waited, and other tasks have run. -/
def Waits (w w' : Host) : Prop := ∃ auth, auth.Valid ∧ w' = { w with auth }

end Host

/-- The system calls of the server. -/
def host : Env Op Host := fun w _ o b w' =>
  match o with
  | .base => b = w.self ∧ w' = w
  | .setBase self => w' = { w with self }
  | .server => b = w.server ∧ w' = w
  | .setServer server => w' = { w with server }
  | .logD msg => w' = { w with entered := w.entered ++ [msg] }
  | .recv _ n _ => b.data.length ≤ n ∧ (b.res = n → b.data.length = n) ∧
      Host.Waits { w with read := w.read ++ b.data } w'
  | .send _ data => Host.Waits { w with sends := w.sends ++ [(data, b)] } w'
  | .authenticator x => ∃ auth, x w.auth = some (b, auth) ∧
      w' = { w with auth, looked := w.looked ++ [w.auth] }
  | .users => b = w.auth.users ∧ w' = w
  | .undefCmd => w' = { w with undef := true }
  | .socket _ =>
    if b < 0 then w' = w
    else b ∉ w.opened ∧
      w' = { w with opened := b :: w.opened, name := Function.update w.name b none }
  | .close fd => w' = { w with opened := w.opened.erase fd }
  | .bind fd addr =>
    if b < 0 then w' = w
    else ∃ port, w' = { w with name := Function.update w.name fd (some { addr with port }) }
  | .getsockname fd => (0 ≤ b.1 → ∀ addr ∈ w.name fd, b.2 = addr) ∧ w' = w
  | _ => Host.Waits w w'

/-! ## What a call changes -/

/-- Calls of which only their effect is kept. -/
def Unrecorded {β : Type} : Op β → Prop
  | .logD _ | .send .. | .undefCmd => False
  | _ => True

/-- Calls that say nothing to the client. -/
def Silent {β : Type} : Op β → Prop
  | .recv .. | .send .. | .authenticator _ | .undefCmd => False
  | _ => True

/-- Calls about the object and its timeouts, and entries of functions. -/
def Idle {β : Type} : Op β → Prop
  | .base | .setBase _ | .logD _ | .addFd _ | .modFd _ => True
  | .connectTimeout | .tcpTimeout | .udpTimeout => True
  | _ => False

theorem Idle.silent {β : Type} {o : Op β} (h : Idle o) : Silent o := by
  cases o <;> first | exact h.elim | trivial

/-- What a call changes: what has happened is never undone, and only some calls add to it. -/
structure Host.Changes {β : Type} (o : Op β) (w w' : Host) : Prop where
  read : w.read <+: w'.read
  looked : w.looked <+: w'.looked
  entered : w.entered <+: w'.entered
  unrecorded : Unrecorded o → w'.entered = w.entered ∧ w'.sends = w.sends ∧ w'.undef = w.undef
  silent : Silent o → w'.read = w.read ∧ w'.sends = w.sends ∧ (w.auth.Valid → w'.auth.Valid)
  idle : Idle o → w'.server = w.server ∧ w'.opened = w.opened ∧ w'.name = w.name

theorem host_changes {w w' : Host} {β : Type} {o : Op β} {b : β} (he : host w o b w') :
    w.Changes o w' := by
  have hsame : w.Changes o w := ⟨List.prefix_rfl, List.prefix_rfl, List.prefix_rfl,
    fun _ => ⟨rfl, rfl, rfl⟩, fun _ => ⟨rfl, rfl, id⟩, fun _ => ⟨rfl, rfl, rfl⟩⟩
  cases o
  case base | server | users | getsockname =>
    obtain ⟨-, rfl⟩ := he
    exact hsame
  case setBase =>
    obtain rfl := he
    exact { hsame with }
  case setServer | close =>
    obtain rfl := he
    exact { hsame with idle := fun h => h.elim }
  case logD =>
    obtain rfl := he
    exact { hsame with entered := List.prefix_append _ _, unrecorded := fun h => h.elim }
  case undefCmd =>
    obtain rfl := he
    exact { hsame with unrecorded := fun h => h.elim }
  case recv =>
    obtain ⟨-, -, auth, -, rfl⟩ := he
    exact { hsame with read := List.prefix_append _ _, silent := fun h => h.elim }
  case send =>
    obtain ⟨auth, -, rfl⟩ := he
    exact { hsame with unrecorded := fun h => h.elim, silent := fun h => h.elim }
  case authenticator =>
    obtain ⟨auth, -, rfl⟩ := he
    exact { hsame with looked := List.prefix_append _ _, silent := fun h => h.elim }
  case socket =>
    simp only [host] at he
    split at he
    · exact he ▸ hsame
    · obtain ⟨-, rfl⟩ := he
      exact { hsame with idle := fun h => h.elim }
  case bind =>
    simp only [host] at he
    split at he
    · exact he ▸ hsame
    · obtain ⟨port, rfl⟩ := he
      exact { hsame with idle := fun h => h.elim }
  -- the server waits, and there is another authenticator
  all_goals
    obtain ⟨auth, hv, rfl⟩ := he
    exact { hsame with silent := fun _ => ⟨rfl, rfl, fun _ => hv⟩ }

/-! ## Calls that nothing follows from -/

/-- Nothing has happened but such calls. -/
structure Host.Same (w w' : Host) : Prop where
  server : w'.server = w.server
  read : w'.read = w.read
  sends : w'.sends = w.sends
  opened : w'.opened = w.opened
  name : w'.name = w.name
  valid : w.auth.Valid → w'.auth.Valid

namespace Host.Same

variable {w w₁ w₂ : Host}

theorem refl : Same w w := ⟨rfl, rfl, rfl, rfl, rfl, id⟩

theorem trans (h : Same w w₁) (h' : Same w₁ w₂) : Same w w₂ where
  server := h'.server.trans h.server
  read := h'.read.trans h.read
  sends := h'.sends.trans h.sends
  opened := h'.opened.trans h.opened
  name := h'.name.trans h.name
  valid hv := h'.valid (h.valid hv)

end Host.Same

theorem same_of_idle {w w' : Host} {β : Type} {o : Op β} {b : β} (ho : Idle o)
    (he : host w o b w') : w.Same w' := by
  have hc := host_changes he
  obtain ⟨hserver, hopened, hname⟩ := hc.idle ho
  obtain ⟨hread, hsends, hvalid⟩ := hc.silent ho.silent
  exact ⟨hserver, hread, hsends, hopened, hname, hvalid⟩

theorem post_idle {α : Type} {x : SysM α} (hx : x.Only Idle) (w : Host) :
    Post host x w fun _ w' => w.Same w' := by
  refine hx.always ?_ .refl
  intro w₁ w₂ β o b ho hw he
  exact ⟨trivial, hw.trans (same_of_idle ho he)⟩

end HevSocks5
