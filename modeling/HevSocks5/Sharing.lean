/-
  Servers that share authenticators and users.

  `Shared` is what the callers, the authenticators and the servers have in
  common: the reference counts, the trees, and what the union of each server
  points to.  Callers make objects, hold and release references, and call the
  authenticators and `hev_socks5_server_set_auth`; each server runs as a task,
  and gives way to the others in every call that is not about these objects.

  `hev_object_ref` and `hev_object_unref` add and subtract one, and an object
  is destructed when its count is zero.  The node of a user lies in the memory
  of the one tree that the user is in.
-/
import HevSocks5.AuthenticatorMap
import HevSocks5.Server
import HevSocks5.Base.Threads

namespace HevSocks5

open Interact Total Sys

/-- What references are counted of. -/
inductive Object where
  | auth (a : Nat)
  | user (p : Ptr)
deriving DecidableEq

structure Shared where
  /-- the trees of the authenticators -/
  tree : Nat → HevRBTree
  refs : Object → Int
  /-- the objects that were ever made -/
  made : Finset Object
  /-- how many references the callers hold -/
  outside : Object → Nat
  /-- the servers that are constructed and not yet destructed -/
  live : Finset Nat
  /-- the union of each server -/
  obj : Nat → Option Object
  /-- an object was used whose count was zero -/
  stale : Prop

namespace Shared

section
variable (users : Ptr → HevSocks5User)

/-- The authenticator with its users and their counts. -/
def authenticator (w : Shared) (a : Nat) : HevSocks5Authenticator where
  tree := w.tree a
  users := users
  refs p := w.refs (.user p)

/-- What a call of the authenticator has changed. -/
def put (w : Shared) (a : Nat) (s : HevSocks5Authenticator) : Shared where
  tree := Function.update w.tree a s.tree
  refs
    | .auth b => w.refs (.auth b)
    | .user p => s.refs p
  made := w.made
  outside := w.outside
  live := w.live
  obj := w.obj
  stale := w.stale

/-- The tree alone. -/
def index (w : Shared) (a : Nat) : HevSocks5Authenticator := ⟨w.tree a, users, fun _ => 0⟩

/-- The authenticator contains the user: a search for its name finds it. -/
def Contains (w : Shared) (a : Nat) (p : Ptr) : Prop :=
  p ≠ 0 ∧ HevSocks5Authenticator.get (users p).name (w.index users a) = some (p, w.index users a)

end

abbrev SharedM := Stuck Shared

/-! ## References -/

def use (o : Object) : SharedM Unit :=
  modify fun w => { w with stale := w.stale ∨ w.refs o ≤ 0 }

/-- `hev_object_ref` -/
def ref (o : Object) : SharedM Unit := do
  use o
  modify fun w => { w with refs := Function.update w.refs o (w.refs o + 1) }

section
variable (users : Ptr → HevSocks5User)

/-- The users in the tree of an authenticator are used. -/
def useUsers (a : Nat) : SharedM Unit :=
  modify fun w => { w with stale := w.stale ∨ ∃ p, w.Contains users a p ∧ w.refs (.user p) ≤ 0 }

def inAuth {α : Type} (a : Nat) (x : HevSocks5Authenticator.AuthM α) : SharedM α := fun w =>
  match x (w.authenticator users a) with
  | none => none
  | some (r, s) => some (r, w.put a s)

/-- A call of an authenticator. -/
def onAuth {α : Type} (a : Nat) (x : HevSocks5Authenticator.AuthM α) : SharedM α := do
  use (.auth a)
  useUsers users a
  inAuth users a x

/-- The loop of `hev_socks5_authenticator_clear`, in which the users that are left are used. -/
def clearLoop (a : Nat) : Nat → SharedM Unit
  | 0 => stuck
  | k + 1 => do
    useUsers users a
    let n ← inAuth users a (HevSocks5Authenticator.onTree HevRBTree.first)
    if n = 0 then return ()
    else
      inAuth users a (do
        HevSocks5Authenticator.onTree (HevRBTree.erase n)
        HevSocks5Authenticator.unref n)
      clearLoop a k

/-- `hev_socks5_authenticator_clear` -/
def clear (a : Nat) : SharedM Unit := clearLoop users a fuel

/-- `hev_object_unref`; the destructor of an authenticator clears it. -/
def unref (o : Object) : SharedM Unit := do
  use o
  modify fun w => { w with refs := Function.update w.refs o (w.refs o - 1) }
  if (← get).refs o = 0 then
    match o with
    | .auth a => clear users a
    | .user _ => return ()
  else return ()

/-! ## Callers -/

/-- `hev_socks5_server_set_auth` -/
def setAuth (i : Nat) (a : Nat) : SharedM Unit := do
  match (← get).obj i with
  | none => pure ()
  | some o => unref users o
  ref (.auth a)
  modify fun w => { w with obj := Function.update w.obj i (some (.auth a)) }

/-- A reference more, or less, that the callers hold. -/
def hold (o : Object) : SharedM Unit :=
  modify fun w => { w with outside := Function.update w.outside o (w.outside o + 1) }

def giveUp (o : Object) : SharedM Unit :=
  modify fun w => { w with outside := Function.update w.outside o (w.outside o - 1) }

/-- A new object, with one reference for the caller. -/
def make (o : Object) : SharedM Unit := do
  modify fun w => { w with made := insert o w.made, refs := Function.update w.refs o 1 }
  hold o

/-- What callers do. -/
inductive Call where
  | newUser (user : UserPtr)
  | newAuth (a : Nat)
  | ref (o : Object)
  | unref (o : Object)
  | add (a : Nat) (user : UserPtr)
  | del (a : Nat) (name : Str)
  | clear (a : Nat)
  | construct (i : Nat)
  | setAuth (i : Nat) (a : Nat)

/-- What callers may do: they use what they hold references to. -/
def Allows (w : Shared) : Call → Prop
  | .newUser user => .user user.val ∉ w.made
  | .newAuth a => .auth a ∉ w.made
  | .ref o | .unref o => 0 < w.outside o
  | .add a user =>
    0 < w.outside (.auth a) ∧ 0 < w.outside (.user user.val) ∧
      ∀ b, w.Contains users b user.val → b = a
  | .del a _ | .clear a => 0 < w.outside (.auth a)
  | .construct i => i ∉ w.live
  | .setAuth i a => i ∈ w.live ∧ 0 < w.outside (.auth a)

def exec : Call → SharedM Unit
  | .newUser user => make (.user user.val)
  | .newAuth a => do
    make (.auth a)
    modify fun w => { w with tree := Function.update w.tree a { w.tree a with root := 0 } }
  | .ref o => do
    ref o
    hold o
  | .unref o => do
    giveUp o
    unref users o
  | .add a user => do
    use (.user user.val)
    let res ← onAuth users a (HevSocks5Authenticator.add user)
    -- the reference is now the authenticator's
    if res = 0 then giveUp (.user user.val) else return ()
  | .del a name => do
    let _ ← onAuth users a (HevSocks5Authenticator.del name)
  | .clear a => do
    use (.auth a)
    clear users a
  | .construct i =>
    modify fun w => { w with live := insert i w.live, obj := Function.update w.obj i none }
  | .setAuth i a => setAuth users i a

/-! ## Tasks -/

/-- What a server sees of its union. -/
def seen : Option Object → HevSocks5ServerRef
  | none => .null
  | some (.auth _) => .auth
  | some (.user p) => .user p

/-- What a reference of a server stands for. -/
def target (w : Shared) (i : Nat) : HevSocks5ServerRef → Option Object
  | .null => none
  | .auth => w.obj i
  | .user p => some (.user p)

/-- The calls of server `i`. -/
def task (i : Nat) : Env Op Shared := fun w _ o b w' =>
  match o with
  | .server => b.obj = seen (w.obj i) ∧ w' = w
  | .setServer self => w' = { w with obj := Function.update w.obj i (w.target i self.obj) }
  | .users => b = users ∧ w' = w
  | .authenticator x => ∃ a, w.obj i = some (.auth a) ∧ onAuth users a x w = some (b, w')
  | .ref r => ∃ o, w.target i r = some o ∧ ref o w = some ((), w')
  | .unref r => ∃ o, w.target i r = some o ∧ unref users o w = some ((), w')
  | _ => w' = w

/-- The calls of server `i` in `hev_socks5_server_set_auth`, which is given authenticator `a`. -/
def setting (i a : Nat) : Env Op Shared := fun w _ o b w' =>
  match o with
  | .server => b.obj = seen (w.obj i) ∧ w' = w
  | .unref r => ∃ o, w.target i r = some o ∧ unref users o w = some ((), w')
  | .ref r => r = .auth ∧ ref (.auth a) w = some ((), w')
  | .setServer self =>
    self.obj = .auth ∧ w' = { w with obj := Function.update w.obj i (some (.auth a)) }
  | _ => False

end

/-- The calls in which other tasks may run. -/
def Waits (β : Type) : Op β → Prop
  | .server | .setServer _ | .users | .authenticator _ | .ref _ | .unref _ => False
  | _ => True

end Shared

open Shared

/-! ## The system -/

/-- The objects, and the servers that are running. -/
structure System where
  shared : Shared
  tasks : Nat → Option (SysM Int)

namespace System

/-- Nothing is made yet. -/
def init (mem : Ptr → HevRBTreeNode) (obj : Nat → Option Object) : System where
  shared :=
    { tree := fun _ => ⟨0, mem⟩, refs := fun _ => 0, made := ∅, outside := fun _ => 0, live := ∅,
      obj, stale := False }
  tasks := fun _ => none

/-- A caller calls, or a server is started, goes on, ends or is destructed.  A run is started on a
    server whose union does not point to a user. -/
inductive Step (users : Ptr → HevSocks5User) : System → System → Prop
  | call {S : System} (c : Call) {w' : Shared} (h : S.shared.Allows users c)
      (he : exec users c S.shared = some ((), w')) : Step users S { S with shared := w' }
  | start {S : System} (i : Nat) (hlive : i ∈ S.shared.live) (htask : S.tasks i = none)
      (hobj : ∀ p, S.shared.obj i ≠ some (.user p)) :
      Step users S { S with tasks := Function.update S.tasks i (some HevSocks5Server.run) }
  | resume {S : System} (i : Nat) {x x' : SysM Int} {w' : Shared} (htask : S.tasks i = some x)
      (hr : Resumes (task users i) Waits x S.shared x' w') :
      Step users S ⟨w', Function.update S.tasks i (some x')⟩
  | finish {S : System} (i : Nat) {res : Int} (htask : S.tasks i = some (.ret res)) :
      Step users S { S with tasks := Function.update S.tasks i none }
  | destruct {S : System} (i : Nat) {w' : Shared} (hlive : i ∈ S.shared.live)
      (htask : S.tasks i = none)
      (hr : Returns (task users i) HevSocks5Server.destruct S.shared () w') :
      Step users S { S with shared := { w' with live := w'.live.erase i } }

/-- What a run leads to. -/
def Leads (users : Ptr → HevSocks5User) : System → System → Prop :=
  Relation.ReflTransGen (Step users)

end System

end HevSocks5
