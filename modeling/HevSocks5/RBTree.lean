/-
  The red-black tree (hev-rbtree.c): nodes linked by pointers, with the colour
  of a node packed into the low bits of its parent pointer.

  A program on the tree is stuck when it follows a null pointer or when a loop
  does not end.  A loop is cut off after `fuel` rounds; there are no more than
  `fuel` addresses, so such a loop has come to some node a second time.

  The two mirrored halves of the source's loops are one definition with the
  side `d` of the parent (of the node, in the removal loop) as a parameter:
  `child d` is `left` in the first half and `right` in the second.
-/
import HevSocks5.Base.Total
import HevSocks5.Base.RedBlack

namespace HevSocks5

open Total Shape

export Shape (Tree)

/-- An address; `0` is the null pointer. -/
abbrev Ptr := UInt64

/-- `struct _HevRBTreeNode`. -/
structure HevRBTreeNode where
  parentColor : UInt64
  right : Ptr
  left : Ptr
deriving DecidableEq

namespace HevRBTreeNode

def child (d : Dir) (n : HevRBTreeNode) : Ptr :=
  match d with
  | .left => n.left
  | .right => n.right

def setChild (d : Dir) (q : Ptr) (n : HevRBTreeNode) : HevRBTreeNode :=
  match d with
  | .left => { n with left := q }
  | .right => { n with right := q }

def setParentColor (pc : UInt64) (n : HevRBTreeNode) : HevRBTreeNode :=
  { n with parentColor := pc }

end HevRBTreeNode

/-- The value of a colour: `HEV_RBTREE_RED` is 0, `HEV_RBTREE_BLACK` is 1. -/
def colorBits : Color → UInt64
  | .red => 0
  | .black => 1

/-- The root pointer of a tree, and the memory its nodes are in. -/
structure HevRBTree where
  root : Ptr
  mem : Ptr → HevRBTreeNode

/-- The tree with the node at `p` replaced. -/
def HevRBTree.set (t : HevRBTree) (p : Ptr) (n : HevRBTreeNode) : HevRBTree :=
  { t with mem := Function.update t.mem p n }

/-- The bound on the rounds of a loop. -/
def fuel : Nat := 2 ^ 64

namespace HevRBTree

abbrev TreeM := Stuck HevRBTree

/-- Read a node; following the null pointer is stuck. -/
def load (p : Ptr) : TreeM HevRBTreeNode :=
  if p = 0 then stuck else do return (← get).mem p

/-- Change a node. -/
def store (p : Ptr) (f : HevRBTreeNode → HevRBTreeNode) : TreeM Unit :=
  if p = 0 then stuck
  else modify fun t => t.set p (f (t.mem p))

def child (d : Dir) (p : Ptr) : TreeM Ptr := do
  return (← load p).child d

def setChild (d : Dir) (p q : Ptr) : TreeM Unit := store p (·.setChild d q)

/-- `if (p) x;` -/
def whenNode (p : Ptr) (x : TreeM Unit) : TreeM Unit := if p = 0 then pure () else x

def nodeColor (node : Ptr) : TreeM UInt64 := do
  return (← load node).parentColor &&& 1

def nodeIsRed (node : Ptr) : TreeM Bool := do
  return (← nodeColor node) &&& 1 = 0

def nodeIsBlack (node : Ptr) : TreeM Bool := do
  return (← nodeColor node) &&& 1 ≠ 0

/-- `_hev_rbtree_node_is_black` -/
def pcIsBlack (pc : UInt64) : Bool := pc &&& 1 ≠ 0

/-- `_hev_rbtree_node_parent` -/
def pcParent (pc : UInt64) : Ptr := pc &&& ~~~3

def nodeParent (node : Ptr) : TreeM Ptr := do
  return (← load node).parentColor &&& ~~~3

def nodeRedParent (node : Ptr) : TreeM Ptr := do
  return (← load node).parentColor

def nodeSetBlack (node : Ptr) : TreeM Unit :=
  store node fun n => n.setParentColor (n.parentColor ||| colorBits .black)

def nodeSetParent (node parent : Ptr) : TreeM Unit :=
  store node fun n => n.setParentColor ((n.parentColor &&& 1) ||| parent)

def nodeSetParentColor (node parent : Ptr) (color : Color) : TreeM Unit :=
  store node (·.setParentColor (parent ||| colorBits color))

def changeChild (old new parent : Ptr) : TreeM Unit := do
  if parent ≠ 0 then
    if (← child .left parent) = old then setChild .left parent new
    else setChild .right parent new
  else modify fun t => { t with root := new }

/-- The parent and colour of `old` go to `new`; `old` gets `new` as its parent
    and `color` as its colour. -/
def rotateSetParents (old new : Ptr) (color : Color) : TreeM Unit := do
  let parent ← nodeParent old
  let pc := (← load old).parentColor
  store new (·.setParentColor pc)
  nodeSetParentColor old new color
  changeChild old new parent

/-- A pointer to a pointer to a node: to the root, or to a child of a node. -/
inductive Link where
  | root
  | child (d : Dir) (p : Ptr)

def Link.read : Link → TreeM Ptr
  | root => do return (← get).root
  | child d p => HevRBTree.child d p

def Link.write (q : Ptr) : Link → TreeM Unit
  | root => modify fun t => { t with root := q }
  | child d p => setChild d p q

def nodeLink (node parent : Ptr) (link : Link) : TreeM Unit := do
  store node fun _ => { parentColor := parent, left := 0, right := 0 }
  link.write node

/-- `while (n->d) n = n->d;` -/
def outmostLoop (d : Dir) : Nat → Ptr → TreeM Ptr
  | 0, _ => stuck
  | k + 1, n => do
    let q ← child d n
    if q = 0 then return n else outmostLoop d k q

def first : TreeM Ptr := do
  let n := (← get).root
  if n = 0 then return 0 else outmostLoop .left fuel n

/-! ## Insertion -/

/-- `tmp && hev_rbtree_node_is_red (tmp)` -/
def isRedNode (tmp : Ptr) : TreeM Bool :=
  if tmp = 0 then return false else nodeIsRed tmp

/-- `!tmp || hev_rbtree_node_is_black (tmp)` -/
def isBlackOrNull (tmp : Ptr) : TreeM Bool :=
  if tmp = 0 then return true else nodeIsBlack tmp

/-- Case 3: rotate at `gparent`; `tmp` is the child of `parent` on the inner side. -/
def insertColorCase3 (d : Dir) (parent gparent tmp : Ptr) : TreeM Unit := do
  setChild d gparent tmp
  setChild d.flip parent gparent
  whenNode tmp (nodeSetParentColor tmp gparent .black)
  rotateSetParents gparent parent .red

/-- One half of a round: `parent` is the child of `gparent` on the side `d`,
    `tmp` the other child. -/
def insertColorSide (again : Ptr → Ptr → TreeM Unit) (d : Dir) (node parent gparent tmp : Ptr) :
    TreeM Unit := do
  if ← isRedNode tmp then
    -- Case 1: color flips
    nodeSetParentColor tmp gparent .black
    nodeSetParentColor parent gparent .black
    let node := gparent
    let parent ← nodeParent node
    nodeSetParentColor node parent .red
    again node parent
  else
    let tmp ← child d.flip parent
    if node = tmp then
      -- Case 2: rotate at parent
      let tmp ← child d node
      setChild d.flip parent tmp
      setChild d node parent
      whenNode tmp (nodeSetParentColor tmp parent .black)
      nodeSetParentColor parent node .red
      let tmp ← child d.flip node
      insertColorCase3 d node gparent tmp
    else insertColorCase3 d parent gparent tmp

def insertColorLoop : Nat → Ptr → Ptr → TreeM Unit
  | 0, _, _ => stuck
  | k + 1, node, parent => do
    if parent = 0 then nodeSetParentColor node 0 .black
    else if ← nodeIsBlack parent then return ()
    else
      let gparent ← nodeRedParent parent
      let tmp ← child .right gparent
      if parent ≠ tmp then
        insertColorSide (insertColorLoop k) .left node parent gparent tmp
      else
        let tmp ← child .left gparent
        insertColorSide (insertColorLoop k) .right node parent gparent tmp

def insertColor (node : Ptr) : TreeM Unit := do
  insertColorLoop fuel node (← nodeRedParent node)

/-! ## Removal -/

/-- `do { parent = successor; successor = tmp; tmp = tmp->left; } while (tmp);`
    from `(successor, tmp)`: the final `(parent, successor)`. -/
def successorLoop : Nat → Ptr → Ptr → TreeM (Ptr × Ptr)
  | 0, _, _ => stuck
  | k + 1, successor, tmp => do
    let l ← child .left tmp
    if l = 0 then return (successor, tmp) else successorLoop k tmp l

/-- The successor of `node` is taken out of its place under `child`, the right
    child of `node`: the parent of the gap, the successor, and its own child. -/
def takeSuccessor (child' : Ptr) : TreeM (Ptr × Ptr × Ptr) := do
  let tmp ← child .left child'
  if tmp = 0 then
    let child2 ← child .right child'
    return (child', child', child2)
  else
    let (parent, successor) ← successorLoop fuel child' tmp
    let child2 ← child .right successor
    setChild .left parent child2
    setChild .right successor child'
    nodeSetParent child' successor
    return (parent, successor, child2)

/-- `_hev_rbtree_erase`: unlink `node`, and return the node to rebalance at. -/
def eraseNode (node : Ptr) : TreeM Ptr := do
  let child' := (← load node).right
  let tmp := (← load node).left
  if tmp = 0 then
    let pc := (← load node).parentColor
    let parent := pcParent pc
    changeChild node child' parent
    if child' ≠ 0 then
      store child' (·.setParentColor pc)
      return 0
    else return if pcIsBlack pc then parent else 0
  else if child' = 0 then
    let pc := (← load node).parentColor
    store tmp (·.setParentColor pc)
    let parent := pcParent pc
    changeChild node tmp parent
    return 0
  else
    let (parent, successor, child2) ← takeSuccessor child'
    let tmp ← child .left node
    setChild .left successor tmp
    nodeSetParent tmp successor
    let pc := (← load node).parentColor
    let tmp := pcParent pc
    changeChild node successor tmp
    if child2 ≠ 0 then
      nodeSetParentColor child2 parent .black
      store successor (·.setParentColor pc)
      return 0
    else
      let black ← nodeIsBlack successor
      store successor (·.setParentColor pc)
      return if black then parent else 0

/-- Case 4: rotate at `parent` and flip colors; `tmp1` is the outer child of `sibling`. -/
def eraseColorCase4 (d : Dir) (parent sibling tmp1 : Ptr) : TreeM Unit := do
  let tmp2 ← child d sibling
  setChild d.flip parent tmp2
  setChild d sibling parent
  nodeSetParentColor tmp1 sibling .black
  whenNode tmp2 (nodeSetParent tmp2 parent)
  rotateSetParents parent sibling .black

/-- Cases 2 to 4, with a black `sibling`. -/
def eraseColorBlack (again : Ptr → Ptr → TreeM Unit) (d : Dir) (parent sibling : Ptr) :
    TreeM Unit := do
  let tmp1 ← child d.flip sibling
  if ← isBlackOrNull tmp1 then
    let tmp2 ← child d sibling
    if ← isBlackOrNull tmp2 then
      -- Case 2: sibling color flip
      nodeSetParentColor sibling parent .red
      if ← nodeIsRed parent then nodeSetBlack parent
      else
        let node := parent
        let parent ← nodeParent node
        whenNode parent (again node parent)
    else
      -- Case 3: rotate at sibling
      let tmp1 ← child d.flip tmp2
      setChild d sibling tmp1
      setChild d.flip tmp2 sibling
      setChild d.flip parent tmp2
      whenNode tmp1 (nodeSetParentColor tmp1 sibling .black)
      eraseColorCase4 d parent tmp2 sibling
  else eraseColorCase4 d parent sibling tmp1

/-- One half of a round: the node is the child of `parent` on the side `d`. -/
def eraseColorSide (again : Ptr → Ptr → TreeM Unit) (d : Dir) (parent sibling : Ptr) :
    TreeM Unit := do
  if ← nodeIsRed sibling then
    -- Case 1: rotate at parent
    let tmp1 ← child d sibling
    setChild d.flip parent tmp1
    setChild d sibling parent
    nodeSetParentColor tmp1 parent .black
    rotateSetParents parent sibling .red
    eraseColorBlack again d parent tmp1
  else eraseColorBlack again d parent sibling

def eraseColorLoop : Nat → Ptr → Ptr → TreeM Unit
  | 0, _, _ => stuck
  | k + 1, node, parent => do
    let sibling ← child .right parent
    if node ≠ sibling then eraseColorSide (eraseColorLoop k) .left parent sibling
    else
      let sibling ← child .left parent
      eraseColorSide (eraseColorLoop k) .right parent sibling

/-- `_hev_rbtree_erase_color` -/
def eraseColor (parent : Ptr) : TreeM Unit := eraseColorLoop fuel 0 parent

def erase (node : Ptr) : TreeM Unit := do
  let rebalance ← eraseNode node
  whenNode rebalance (eraseColor rebalance)

end HevRBTree

end HevSocks5
