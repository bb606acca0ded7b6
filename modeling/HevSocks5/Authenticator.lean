/-
  The authenticator (hev-socks5-authenticator.c): users in a red-black tree that
  is ordered by name.

  A user is named by the address of its `node` field, so `container_of` is the
  identity here.  `refs` counts the references to each user; what
  `hev_object_unref` frees is never read again, as it is out of the tree.
-/
import HevSocks5.RBTree
import HevSocks5.User

namespace HevSocks5

open Total Shape

structure HevSocks5Authenticator where
  tree : HevRBTree
  users : Ptr → HevSocks5User
  refs : Ptr → Int

/-- An address a user can be at: not null, and with room for a colour. -/
abbrev UserPtr := { p : Ptr // p ≠ 0 ∧ p &&& 3 = 0 }

namespace HevSocks5Authenticator

abbrev AuthM := Stuck HevSocks5Authenticator

/-- A program on the tree of the authenticator. -/
def onTree {α : Type} (x : HevRBTree.TreeM α) : AuthM α := fun s =>
  match x s.tree with
  | none => none
  | some (a, t) => some (a, { s with tree := t })

def nameOf (this : Ptr) : AuthM Str := do
  return ((← get).users this).name

/-- `hev_object_unref` -/
def unref (this : Ptr) : AuthM Unit :=
  modify fun s => { s with refs := Function.update s.refs this (s.refs this - 1) }

/-- The loop of `add`: the link to put the user at and its parent, or nothing
    when the name is taken. -/
def addLoop (name : Str) : Nat → HevRBTree.Link → Ptr → AuthM (Option (HevRBTree.Link × Ptr))
  | 0, _, _ => stuck
  | k + 1, new, parent => do
    let node ← onTree new.read
    if node = 0 then return some (new, parent)
    else
      let res := compareName (← nameOf node) name
      if res < 0 then addLoop name k (.child .left node) node
      else if res > 0 then addLoop name k (.child .right node) node
      else return none

def add (user : UserPtr) : AuthM Int := do
  let name ← nameOf user.val
  match ← addLoop name fuel .root 0 with
  | none => return -1
  | some (new, parent) =>
    onTree (HevRBTree.nodeLink user.val parent new)
    onTree (HevRBTree.insertColor user.val)
    return 0

/-- The loop of `del` and `get`: the node with the name, or null. -/
def searchLoop (name : Str) : Nat → Ptr → AuthM Ptr
  | 0, _ => stuck
  | k + 1, node => do
    if node = 0 then return 0
    else
      let res := compareName (← nameOf node) name
      if res < 0 then
        let left ← onTree (HevRBTree.child .left node)
        searchLoop name k left
      else if res > 0 then
        let right ← onTree (HevRBTree.child .right node)
        searchLoop name k right
      else return node

def del (name : Str) : AuthM Int := do
  let node ← searchLoop name fuel (← get).tree.root
  if node = 0 then return -1
  else
    onTree (HevRBTree.erase node)
    unref node
    return 0

def get (name : Str) : AuthM Ptr := do
  searchLoop name fuel (← MonadState.get).tree.root

def clearLoop : Nat → AuthM Unit
  | 0 => stuck
  | k + 1 => do
    let n ← onTree HevRBTree.first
    if n = 0 then return ()
    else
      onTree (HevRBTree.erase n)
      unref n
      clearLoop k

def clear : AuthM Unit := clearLoop fuel

/-- A call of the authenticator. -/
inductive Op where
  | add (user : UserPtr)
  | del (name : Str)
  | get (name : Str)
  | clear

/-- What a call returns. -/
inductive Res where
  | int (res : Int)
  | user (user : Ptr)
  | void
deriving DecidableEq

def exec : Op → AuthM Res
  | .add user => return .int (← add user)
  | .del name => return .int (← del name)
  | .get name => return .user (← get name)
  | .clear => do
    clear
    return .void

def run : List Op → AuthM (List Res)
  | [] => return []
  | op :: ops => do
    let r ← exec op
    return r :: (← run ops)

/-- A new authenticator, in any memory. -/
def new (mem : Ptr → HevRBTreeNode) (users : Ptr → HevSocks5User) (refs : Ptr → Int) :
    HevSocks5Authenticator :=
  { tree := { root := 0, mem }, users, refs }

end HevSocks5Authenticator

end HevSocks5
