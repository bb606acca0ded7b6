/-
  The block that a request takes.

  `get_upstream_addr` hands over a block: the one that a client for TCP holds,
  or a new one.  `hev_socks5_client_write_request` frees it when the request
  was sent, and only then; and it reads the block without a look at whether
  there is one.  So nothing goes wrong just when there is a block of a known
  type and the request is sent, or when it comes to neither (`request_tidy_iff`).
-/
import HevSocks5.Client

namespace HevSocks5

open Interact Sys HevSocks5Client

/-! ## The blocks -/

/-- The client, the blocks that are allocated, and whether something else was freed. -/
structure Blocks where
  self : HevSocks5Obj
  client : HevSocks5ClientObj
  live : Finset Ptr
  misfreed : Bool

/-- The block that an object holds. -/
def HevSocks5ClientClass.blocks : HevSocks5ClientClass → Finset Ptr
  | .tcp (some addr) => {addr.ptr}
  | .tcp none => ∅
  | .udp _ => ∅

/-- **What is allocated is held**, and nothing else was freed. -/
structure Blocks.Owned (w : Blocks) : Prop where
  live : w.live = w.client.klass.blocks
  misfreed : w.misfreed = false

/-- The calls of a client: `alloc` is what an allocation may come to, and `send` what the sending
    of a message may; the other calls may answer anything. -/
def heap (alloc : Option Ptr → Prop) (send : List Octet → Int → Prop) :
    Env (Both Op ClientOp) Blocks := fun w _ o b w' =>
  match o with
  | .inl .base => b = w.self ∧ w' = w
  | .inl (.setBase self) => w' = { w with self }
  | .inl (.sendmsg _ data) => send data b ∧ w' = w
  | .inr .client => b = w.client ∧ w' = w
  | .inr (.setClient client) => w' = { w with client }
  | .inr .malloc0 =>
    alloc b ∧ (∀ ptr ∈ b, ptr ∉ w.live) ∧ w' = { w with live := w.live ∪ b.toFinset }
  | .inr (.free ptr) =>
    w' = { w with live := w.live.erase ptr, misfreed := w.misfreed || decide (ptr ∉ w.live) }
  | _ => w' = w

/-- No address is read through a null pointer. -/
def NonNull : Assert (Both Op ClientOp) Blocks := fun _ _ o =>
  match o with
  | .inr .nullAddr => False
  | _ => True

/-! ## What is taken -/

/-- The object without its block. -/
def HevSocks5ClientClass.forget : HevSocks5ClientClass → HevSocks5ClientClass
  | .tcp _ => .tcp none
  | .udp fd => .udp fd

namespace Blocks

/-- The block that a client gets when an allocation comes to `ptr`. -/
def available (w : Blocks) (ptr : Option Ptr) : Option AddrBlock :=
  match w.client.klass, w.self.addrFamily with
  | .tcp addr, _ => addr
  | .udp _, .ipv4 => ptr.map (⟨·, .ofList [addrTypeIpv4]⟩)
  | .udp _, .ipv6 => ptr.map (⟨·, .ofList [addrTypeIpv6]⟩)
  | .udp _, .unspec => none

/-- The block is no longer held, nor is another one. -/
def taken (w : Blocks) (block : Option AddrBlock) : Blocks :=
  { w with client := { w.client with klass := w.client.klass.forget },
           live := (block.map AddrBlock.ptr).toFinset }

end Blocks

variable {w w' : Blocks} {alloc : Option Ptr → Prop} {send : List Octet → Int → Prop}

theorem HevSocks5ClientClass.blocks_forget (klass : HevSocks5ClientClass) :
    klass.forget.blocks = ∅ := by
  cases klass <;> rfl

section
variable {α : Type} {Q : α → Blocks → Prop}

theorem heap_client {k : HevSocks5ClientObj → ClientM α} :
    Meets (heap alloc send) NonNull (client >>= k) w Q ↔
      Meets (heap alloc send) NonNull (k w.client) w Q :=
  meets_op_unique trivial fun _ _ => Iff.rfl

theorem heap_setClient {c : HevSocks5ClientObj} {k : Unit → ClientM α} :
    Meets (heap alloc send) NonNull (setClient c >>= k) w Q ↔
      Meets (heap alloc send) NonNull (k ()) { w with client := c } Q :=
  meets_op_unique trivial fun _ _ => (and_iff_right rfl).symm

theorem heap_base {k : HevSocks5Obj → ClientM α} :
    Meets (heap alloc send) NonNull (liftM base >>= k) w Q ↔
      Meets (heap alloc send) NonNull (k w.self) w Q := by
  show Meets _ _ ((Prog.op (.inl .base) : ClientM HevSocks5Obj) >>= k) w Q ↔ _
  exact meets_op_unique trivial fun _ _ => Iff.rfl

theorem heap_free {ptr : Ptr} {k : Unit → ClientM α} :
    Meets (heap alloc send) NonNull (hevFree ptr >>= k) w Q ↔
      Meets (heap alloc send) NonNull (k ()) { w with
        live := w.live.erase ptr, misfreed := w.misfreed || decide (ptr ∉ w.live) } Q :=
  meets_op_unique trivial fun _ _ => (and_iff_right rfl).symm

end

theorem meets_newAddr_iff (hlive : w.live = ∅) (atype : Octet)
    {Q : Option AddrBlock → Blocks → Prop} :
    Meets (heap alloc send) NonNull (newAddr atype) w Q ↔ ∀ ptr, alloc ptr →
      Q (ptr.map (⟨·, .ofList [atype]⟩)) { w with live := ptr.toFinset } := by
  constructor
  · rintro ⟨-, h⟩ ptr hptr
    have h' := h ptr { w with live := ptr.toFinset } ⟨hptr, by simp [hlive], by simp [hlive]⟩
    cases ptr
    · exact h'
    · exact h'
  · refine fun h => ⟨trivial, ?_⟩
    rintro ptr _ ⟨hptr, -, rfl⟩
    rw [hlive, Finset.empty_union]
    have h' := h ptr hptr
    cases ptr
    · exact h'
    · exact h'

/-- What `get_upstream_addr` takes. -/
theorem meets_getUpstreamAddr_iff (hw : w.Owned) (halloc : ∃ ptr, alloc ptr)
    {Q : Option AddrBlock → Blocks → Prop} :
    Meets (heap alloc send) NonNull getUpstreamAddr w Q ↔
      ∀ ptr, alloc ptr → Q (w.available ptr) (w.taken (w.available ptr)) := by
  obtain ⟨ptr₀, hptr₀⟩ := halloc
  have hlive := hw.live
  unfold getUpstreamAddr Blocks.taken Blocks.available
  rw [heap_client]
  cases hk : w.client.klass with
  | tcp addr =>
    rw [hk] at hlive
    have hblock : w.live = (addr.map AddrBlock.ptr).toFinset := by
      rw [hlive]
      cases addr <;> rfl
    dsimp only
    rw [heap_setClient, meets_pure, ← hblock]
    exact ⟨fun h _ _ => h, fun h => h ptr₀ hptr₀⟩
  | udp fd =>
    rw [hk] at hlive
    have hsame : { w.client with klass := (HevSocks5ClientClass.udp fd).forget } = w.client := by
      show { w.client with klass := .udp fd } = w.client
      rw [← hk]
    have hnew (atype : Octet) : Meets (heap alloc send) NonNull (newAddr atype) w Q ↔
        ∀ ptr, alloc ptr → Q (ptr.map (⟨·, .ofList [atype]⟩)) { w with
          client := { w.client with klass := (HevSocks5ClientClass.udp fd).forget },
          live := ((ptr.map fun p => AddrBlock.mk p (.ofList [atype])).map
            AddrBlock.ptr).toFinset } := by
      rw [meets_newAddr_iff hlive, hsame]
      refine forall_congr' fun ptr => ?_
      cases ptr <;> rfl
    dsimp only
    rw [heap_base]
    cases w.self.addrFamily with
    | unspec =>
      have hnone : (Option.map AddrBlock.ptr none).toFinset = w.live := hlive.symm
      dsimp only
      rw [hsame, hnone]
      exact ⟨fun h _ _ => h, fun h => h ptr₀ hptr₀⟩
    | ipv4 => exact hnew addrTypeIpv4
    | ipv6 => exact hnew addrTypeIpv6

/-! ## The request -/

/-- The octets of the request for an address. -/
def HevSocks5Obj.requestFor (self : HevSocks5Obj) (addr : Mem) : List Octet :=
  [version5, (reqCmd self.type).getD 0, 0] ++ addr.read (hevSocks5AddrLen addr).toNat

/-- What becomes of a block. -/
def Blocks.Requests (w : Blocks) (send : List Octet → Int → Prop) (Q : Int → Blocks → Prop)
    (block : Option AddrBlock) : Prop :=
  match block with
  | none => False
  | some addr =>
    if hevSocks5AddrLen addr.mem < 0 then Q (-1) (w.taken block)
    else ∀ res, send (w.self.requestFor addr.mem) res →
      if res ≤ 0 then Q (-1) (w.taken block)
      else Q 0 { w.taken block with live := ∅ }

theorem meets_writeRequest_iff (hw : w.Owned) (halloc : ∃ ptr, alloc ptr)
    (htype : w.self.type ≠ .none) {Q : Int → Blocks → Prop} :
    Meets (heap alloc send) NonNull writeRequest w Q ↔
      ∀ ptr, alloc ptr → w.Requests send Q (w.available ptr) := by
  have hcmd : ∃ cmd, reqCmd w.self.type = some cmd := by
    cases h : w.self.type with
    | none => exact absurd h htype
    | _ => exact ⟨_, rfl⟩
  obtain ⟨cmd, hcmd⟩ := hcmd
  unfold writeRequest
  rw [heap_base, hcmd]
  dsimp only
  rw [meets_bind, meets_getUpstreamAddr_iff hw halloc]
  refine forall_congr' fun ptr => imp_congr_right fun _ => ?_
  cases w.available ptr with
  | none => exact ⟨fun h => h.1, False.elim⟩
  | some addr =>
    dsimp only [Blocks.Requests]
    rw [meets_ite]
    split
    · exact Iff.rfl
    rw [heap_base]
    have hsent : [version5, cmd, 0] ++ addr.mem.read (hevSocks5AddrLen addr.mem).toNat =
        w.self.requestFor addr.mem := by rw [HevSocks5Obj.requestFor, hcmd, Option.getD_some]
    have hfree : Meets (heap alloc send) NonNull (do
        hevFree addr.ptr
        return 0) (w.taken (some addr)) Q ↔ Q 0 { w.taken (some addr) with live := ∅ } := by
      rw [heap_free, meets_pure]
      simp [Blocks.taken]
    constructor
    · intro h res hres
      have h' := (meets_ite ..).1 (h.2 res _ ⟨hsent ▸ hres, rfl⟩)
      split at h'
      · rw [if_pos ‹res ≤ 0›]
        exact h'
      · rw [if_neg ‹¬ res ≤ 0›]
        exact hfree.1 h'
    · intro h
      refine ⟨trivial, ?_⟩
      rintro res _ ⟨hres, rfl⟩
      have h' := h res (hsent ▸ hres)
      refine (meets_ite ..).2 ?_
      split at h'
      · rw [if_pos ‹res ≤ 0›]
        exact h'
      · rw [if_neg ‹¬ res ≤ 0›]
        exact hfree.2 h'

/-! ## One request -/

/-- **Nothing goes wrong**: no null address is read, the block that was taken is freed before the
    request returns, the one that was not taken when the object goes, and none is freed twice. -/
structure Tidy (alloc : Option Ptr → Prop) (send : List Octet → Int → Prop) (w : Blocks) :
    Prop where
  request : Meets (heap alloc send) NonNull writeRequest w fun r w' =>
    w'.Owned ∧ ∀ ptr, alloc ptr → w.available ptr = none → r = -1
  destruct : Meets (heap alloc send) NonNull (do
    let _ ← writeRequest
    destruct) w fun _ w' => w'.live = ∅ ∧ w'.misfreed = false

/-- Calls that leave the object as it is. -/
def Mute {β : Type} : Both Op ClientOp β → Prop
  | .inl (.setBase _) => False
  | .inl _ => True
  | .inr .client => True
  | .inr _ => False

section
variable {α β : Type} {Q : β → Blocks → Prop}

theorem Mute.meets {x : ClientM α} (hx : x.Only Mute) :
    Meets (heap alloc send) NonNull x w fun _ w' => w' = w := by
  refine hx.meets (I := (· = w)) ?_ rfl
  rintro w₁ β (o | o) ho rfl
  · refine ⟨trivial, fun b w' he => ?_⟩
    cases o
    case setBase => exact ho.elim
    case base => exact he.2
    case sendmsg => exact he.2
    all_goals exact he
  · cases o
    case client => exact ⟨trivial, fun b w' he => he.2⟩
    all_goals exact ho.elim

theorem Mute.bind {x : ClientM α} {k : α → ClientM β} (hx : x.Only Mute)
    (hk : ∀ a, Meets (heap alloc send) NonNull (k a) w Q) :
    Meets (heap alloc send) NonNull (x >>= k) w Q := by
  refine (Mute.meets hx).bind ?_
  rintro a _ rfl
  exact hk a

end

theorem mute_hevSocks5Destruct : (liftM hevSocks5Destruct : ClientM Unit).Only Mute := by
  refine ⟨trivial, fun _ => ⟨trivial, fun self => ?_⟩⟩
  simp only [Prog.bind]
  split
  · exact ⟨trivial, fun _ => ⟨trivial, fun _ => trivial⟩⟩
  · trivial

theorem meets_destruct_heap (hw : w.Owned) : Meets (heap alloc send) NonNull destruct w fun _ w' =>
    w'.live = ∅ ∧ w'.misfreed = false := by
  have hlive := hw.live
  unfold HevSocks5Client.destruct
  rw [heap_client]
  cases hk : w.client.klass with
  | tcp addr =>
    rw [hk] at hlive
    cases addr with
    | none =>
      refine (Mute.meets mute_hevSocks5Destruct).mono ?_
      rintro _ _ rfl
      exact ⟨hlive, hw.misfreed⟩
    | some addr =>
      have hlive' : w.live = {addr.ptr} := hlive
      dsimp only
      rw [heap_free]
      refine (Mute.meets mute_hevSocks5Destruct).mono ?_
      rintro _ _ rfl
      simp [hlive', hw.misfreed]
  | udp fd =>
    rw [hk] at hlive
    have hfds : Meets (heap alloc send) NonNull (do
        if 0 ≤ fd then drop fd
        hevSocks5Destruct : ClientM Unit) w fun _ w' => w' = w := by
      refine Mute.meets (.ite ?_ mute_hevSocks5Destruct)
      exact ⟨trivial, fun _ => ⟨trivial, fun _ => mute_hevSocks5Destruct⟩⟩
    refine hfds.mono ?_
    rintro _ _ rfl
    exact ⟨hlive, hw.misfreed⟩

/-- A request of no type takes nothing. -/
theorem meets_writeRequest_of_none (htype : w.self.type = .none) :
    Meets (heap alloc send) NonNull writeRequest w fun r w' => r = -1 ∧ w' = w := by
  unfold writeRequest
  rw [heap_base, htype]
  exact ⟨rfl, rfl⟩

/-- What has been taken is not held any more. -/
theorem Blocks.Owned.taken (hw : w.Owned) (block : Option AddrBlock) :
    Blocks.Owned { w.taken block with live := ∅ } :=
  ⟨(HevSocks5ClientClass.blocks_forget _).symm, hw.misfreed⟩

theorem Blocks.not_owned_taken (addr : AddrBlock) : ¬ (w.taken (some addr)).Owned := by
  intro h
  have hlive : ({addr.ptr} : Finset Ptr) = w.client.klass.forget.blocks := h.live
  rw [HevSocks5ClientClass.blocks_forget] at hlive
  exact Finset.singleton_ne_empty _ hlive

/-- What a request needs: a block of a known type, and that it is sent. -/
def Feeds (alloc : Option Ptr → Prop) (send : List Octet → Int → Prop) (w : Blocks) : Prop :=
  w.self.type = .none ∨ ∀ ptr, alloc ptr → ∃ addr, w.available ptr = some addr ∧
    0 ≤ hevSocks5AddrLen addr.mem ∧ ∀ res, send (w.self.requestFor addr.mem) res → 0 < res

theorem meets_writeRequest_of_feeds (hw : w.Owned) (halloc : ∃ ptr, alloc ptr)
    (h : Feeds alloc send w) : Meets (heap alloc send) NonNull writeRequest w fun r w' =>
      w'.Owned ∧ ∀ ptr, alloc ptr → w.available ptr = none → r = -1 := by
  by_cases htype : w.self.type = .none
  · refine (meets_writeRequest_of_none htype).mono ?_
    rintro r _ ⟨rfl, rfl⟩
    exact ⟨hw, fun _ _ _ => rfl⟩
  · replace h := h.resolve_left htype
    refine (meets_writeRequest_iff hw halloc htype).2 fun ptr hptr => ?_
    obtain ⟨addr, haddr, hlen, hsend⟩ := h ptr hptr
    rw [haddr]
    unfold Blocks.Requests
    dsimp only
    rw [if_neg (Int.not_lt.2 hlen)]
    intro res hres
    rw [if_neg (Int.not_le.2 (hsend res hres))]
    refine ⟨hw.taken _, fun ptr' hptr' hnone => ?_⟩
    obtain ⟨addr', haddr', -⟩ := h ptr' hptr'
    rw [haddr'] at hnone
    cases hnone

/-- Nothing goes wrong just when the request has what it needs. -/
theorem tidy_iff_feeds (hw : w.Owned) (halloc : ∃ ptr, alloc ptr) :
    Tidy alloc send w ↔ Feeds alloc send w := by
  constructor
  · intro h
    refine or_iff_not_imp_left.2 fun htype ptr hptr => ?_
    have hrequest := (meets_writeRequest_iff hw halloc htype).1 h.request ptr hptr
    cases haddr : w.available ptr with
    | none =>
      rw [haddr] at hrequest
      exact hrequest.elim
    | some addr =>
      rw [haddr] at hrequest
      unfold Blocks.Requests at hrequest
      dsimp only at hrequest
      split at hrequest
      case isTrue => exact absurd hrequest.1 (Blocks.not_owned_taken addr)
      case isFalse hlen =>
        refine ⟨addr, rfl, Int.not_lt.1 hlen, fun res hres => ?_⟩
        have hsent := hrequest res hres
        split at hsent
        case isTrue => exact absurd hsent.1 (Blocks.not_owned_taken addr)
        case isFalse hpos => exact Int.not_le.1 hpos
  · intro h
    have hrequest := meets_writeRequest_of_feeds hw halloc h
    refine ⟨hrequest, hrequest.bind ?_⟩
    rintro r w' ⟨hw', -⟩
    exact meets_destruct_heap hw'

/-! ## A whole handshake -/

/-- Every allocation succeeds. -/
def Allocates (ptr : Option Ptr) : Prop := ptr ≠ none

/-- A request, which begins with the version, is sent; another message need not be. -/
def SendsRequests (data : List Octet) (res : Int) : Prop := data.head? = some version5 → 0 < res

/-- A client that has an address of a known type, or the family of a new one. -/
def Blocks.Supplied (w : Blocks) : Prop :=
  match w.client.klass with
  | .tcp addr => ∃ block, addr = some block ∧ 0 ≤ hevSocks5AddrLen block.mem
  | .udp _ => w.self.addrFamily ≠ .unspec

theorem fed_of_supplied (h : w.Supplied) : Feeds Allocates SendsRequests w := by
  refine .inr fun ptr hptr => ?_
  have hsend (addr : Mem) (res : Int) (hres : SendsRequests (w.self.requestFor addr) res) :
      0 < res := hres rfl
  unfold Blocks.Supplied at h
  unfold Blocks.available
  cases hk : w.client.klass with
  | tcp addr =>
    rw [hk] at h
    obtain ⟨block, rfl, hlen⟩ := h
    exact ⟨block, rfl, hlen, hsend block.mem⟩
  | udp fd =>
    rw [hk] at h
    obtain ⟨p, rfl⟩ := Option.ne_none_iff_exists'.1 hptr
    cases hf : w.self.addrFamily with
    | unspec => exact absurd hf h
    | ipv4 => exact ⟨_, rfl, (by decide : 0 ≤ hevSocks5AddrLen (.ofList [addrTypeIpv4])), hsend _⟩
    | ipv6 => exact ⟨_, rfl, (by decide : 0 ≤ hevSocks5AddrLen (.ofList [addrTypeIpv6])), hsend _⟩

/-- What a handshake needs. -/
abbrev Blocks.Fed (w : Blocks) : Prop := Feeds Allocates SendsRequests w

/-- Every run keeps what is allocated held. -/
abbrev Holding {α : Type} (x : ClientM α) (w : Blocks) : Prop :=
  Meets (heap Allocates SendsRequests) NonNull x w fun _ w' => w'.Owned

theorem holding_request (hw : w.Owned) (h : w.Fed) : Holding writeRequest w :=
  (meets_writeRequest_of_feeds hw ⟨some 0, nofun⟩ h).mono fun _ _ h => h.1

theorem holding_orFail {c : Prop} [Decidable c] {x : ClientM Int} (hw : w.Owned)
    (hx : Holding x w) : Holding (if c then return -1 else x) w := by
  refine (meets_ite ..).2 ?_
  split
  · exact hw
  · exact hx

theorem mute_writeAuthMethods : writeAuthMethods.Only Mute := by
  refine ⟨trivial, fun client => ⟨trivial, fun self => ⟨trivial, fun res => ?_⟩⟩⟩
  exact .ite trivial trivial

theorem mute_writeAuthCreds : writeAuthCreds.Only Mute := by
  refine ⟨trivial, fun client => ?_⟩
  simp only [Prog.bind]
  split
  · exact ⟨trivial, fun self => ⟨trivial, fun res => .ite trivial trivial⟩⟩
  · trivial

theorem mute_readAuthMethod : readAuthMethod.Only Mute :=
  ⟨trivial, fun _ => ⟨trivial, fun _ => .ite trivial (.ite trivial trivial)⟩⟩

theorem mute_readAuthCreds : readAuthCreds.Only Mute :=
  ⟨trivial, fun _ => ⟨trivial, fun _ => .ite trivial (.ite trivial (.ite trivial trivial))⟩⟩

/-- Calls of a client for UDP that leave no block behind. -/
def Blockless {β : Type} : Both Op ClientOp β → Prop
  | .inl _ => True
  | .inr .client => True
  | .inr (.setClient client) => client.klass.blocks = ∅
  | .inr _ => False

theorem Blockless.holding {α : Type} {x : ClientM α} (hx : x.Only Blockless) (hw : w.Owned)
    (hlive : w.live = ∅) : Holding x w := by
  refine (hx.meets (I := fun w : Blocks => w.Owned ∧ w.live = ∅) ?_ ⟨hw, hlive⟩).mono
    fun _ _ h => h.1
  rintro w₁ β (o | o) ho ⟨hw₁, hlive₁⟩
  · refine ⟨trivial, fun b w' he => ?_⟩
    cases o
    case setBase =>
      obtain rfl := he
      exact ⟨⟨hw₁.live, hw₁.misfreed⟩, hlive₁⟩
    case base => exact he.2 ▸ ⟨hw₁, hlive₁⟩
    case sendmsg => exact he.2 ▸ ⟨hw₁, hlive₁⟩
    all_goals exact he ▸ ⟨hw₁, hlive₁⟩
  · cases o
    case client => exact ⟨trivial, fun b w' he => he.2 ▸ ⟨hw₁, hlive₁⟩⟩
    case setClient =>
      refine ⟨trivial, ?_⟩
      rintro _ _ rfl
      exact ⟨⟨hlive₁.trans (Eq.symm ho), hw₁.misfreed⟩, hlive₁⟩
    all_goals exact ho.elim

theorem blockless_inl {α : Type} (x : SysM α) : (x.inl : ClientM α).Only Blockless := by
  induction x with
  | ret a => trivial
  | call o k ih => exact ⟨trivial, ih⟩

theorem blockless_udpSetUpstreamAddr (addr : Mem) : (udpSetUpstreamAddr addr).Only Blockless := by
  refine .bind (blockless_inl _) fun self => .ite (only_pure _) ?_
  refine .bind (blockless_inl _) fun self => .bind (blockless_inl _) fun r => ?_
  refine .ite (only_pure _) (.bind (blockless_inl _) fun fd => .ite (only_pure _) ?_)
  exact ⟨trivial, fun _ => ⟨trivial, fun _ => ⟨trivial, fun _ => ⟨rfl, fun _ => trivial⟩⟩⟩⟩

theorem holding_setUpstreamAddr (hw : w.Owned) (addr : Mem) : Holding (setUpstreamAddr addr) w := by
  unfold setUpstreamAddr Holding
  rw [heap_client]
  cases hk : w.client.klass with
  | tcp block => exact hw
  | udp fd =>
    refine Blockless.holding (blockless_udpSetUpstreamAddr addr) hw ?_
    rw [hw.live, hk]
    rfl

theorem holding_readResponse (hw : w.Owned) : Holding readResponse w := by
  unfold readResponse Holding
  rw [heap_base]
  have hrecv (n : Nat) : (liftM (hevTaskIoSocketRecv w.self.fd n .waitall) :
      ClientM Received).Only Mute := ⟨trivial, fun _ => trivial⟩
  refine Mute.bind (hrecv 4) fun res => ?_
  refine holding_orFail hw (holding_orFail hw (holding_orFail hw ?_))
  cases addrRest (res.data.getD 3 0) with
  | none => exact hw
  | some n =>
    refine Mute.bind (hrecv n) fun r => holding_orFail hw ?_
    refine (holding_setUpstreamAddr hw _).bind fun res w' hw' => ?_
    exact holding_orFail hw' hw'

theorem holding_response (hw : w.Owned) : Holding handshakePipeline.response w :=
  (holding_readResponse hw).bind fun _ _ hw' => holding_orFail hw' hw'

theorem holding_handshakeStandard (hw : w.Owned) (h : w.Fed) : Holding handshakeStandard w := by
  have hrequest : Holding handshakeStandard.request w :=
    (holding_request hw h).bind fun _ _ hw' => holding_orFail hw' (holding_response hw')
  refine Mute.bind mute_writeAuthMethods fun res => holding_orFail hw ?_
  refine Mute.bind mute_readAuthMethod fun method => holding_orFail hw ?_
  refine (meets_ite ..).2 ?_
  split
  · refine Mute.bind mute_writeAuthCreds fun res => holding_orFail hw ?_
    exact Mute.bind mute_readAuthCreds fun res => holding_orFail hw hrequest
  · exact holding_orFail hw hrequest

theorem holding_handshakePipeline (hw : w.Owned) (h : w.Fed) : Holding handshakePipeline w := by
  refine Mute.bind mute_writeAuthMethods fun res => holding_orFail hw ?_
  refine Mute.bind mute_writeAuthCreds fun res => holding_orFail hw ?_
  refine (holding_request hw h).bind fun res w' hw' => holding_orFail hw' ?_
  refine Mute.bind mute_readAuthMethod fun method => holding_orFail hw' ?_
  refine (meets_ite ..).2 ?_
  split
  · exact Mute.bind mute_readAuthCreds fun res => holding_orFail hw' (holding_response hw')
  · exact holding_orFail hw' (holding_response hw')

/-- The timeout is of no matter. -/
theorem meets_setTimeout_heap (timeout : Int) (hw : w.Owned) :
    Meets (heap Allocates SendsRequests) NonNull
      (liftM (hevSocks5SetTimeout timeout) : ClientM Unit) w fun _ w' =>
        w'.Owned ∧ (w.Fed → w'.Fed) := by
  refine ⟨trivial, ?_⟩
  rintro self w₁ ⟨rfl, rfl⟩
  simp only [Prog.bind]
  split
  · refine ⟨trivial, ?_⟩
    rintro _ w₂ rfl
    exact ⟨⟨hw.live, hw.misfreed⟩, id⟩
  · exact ⟨hw, id⟩

theorem holding_handshakeEnd (res : Int) (hw : w.Owned) : Holding (handshakeEnd res) w := by
  have htimeout : Holding (do
      hevSocks5SetTimeout (← hevSocks5GetUdpTimeout)
      return res : ClientM Int) w := by
    refine Mute.bind ⟨trivial, fun _ => trivial⟩ fun timeout => ?_
    exact (meets_setTimeout_heap timeout hw).bind fun _ _ hw' => hw'.1
  unfold handshakeEnd Holding
  rw [heap_base]
  split
  · exact htimeout
  · exact htimeout
  · exact hw

theorem holding_handshake (pipeline : Bool) (hw : w.Owned) (h : w.Fed) :
    Holding (handshake pipeline) w := by
  have hmode {w : Blocks} (hw : w.Owned) (h : w.Fed) : Holding (modeOf pipeline) w := by
    refine (meets_ite ..).2 ?_
    split
    · exact holding_handshakePipeline hw h
    · exact holding_handshakeStandard hw h
  unfold handshake
  refine Mute.bind ⟨trivial, fun _ => trivial⟩ fun timeout => ?_
  refine (meets_setTimeout_heap timeout hw).bind ?_
  rintro _ w₁ ⟨hw₁, h₁⟩
  refine (hmode hw₁ (h₁ h)).bind ?_
  intro res w₂ hw₂
  exact holding_handshakeEnd res hw₂

/-- A handshake, and the end of the object. -/
def life (pipeline : Bool) : ClientM Unit := do
  let _ ← handshake pipeline
  destruct

/-- **A request frees its block** just when it gets one of a known type and is sent, or takes none;
    and so does a whole life in which every allocation succeeds and every request is sent. -/
theorem request_tidy_iff (hw : w.Owned) :
    (∀ alloc send, (∃ ptr, alloc ptr) → (Tidy alloc send w ↔ Feeds alloc send w)) ∧
    (w.Fed → ∀ pipeline, Meets (heap Allocates SendsRequests) NonNull (life pipeline) w
      fun _ w' => w'.live = ∅ ∧ w'.misfreed = false) := by
  refine ⟨fun alloc send halloc => tidy_iff_feeds hw halloc, fun h pipeline => ?_⟩
  refine (holding_handshake pipeline hw h).bind ?_
  intro res w' hw'
  exact meets_destruct_heap hw'

/-- A client for TCP that has the address of its target. -/
def heldBlock : Blocks where
  self := ⟨3, -1, .tcp, false, .ipv4⟩
  client := ⟨none, none, .tcp (some ⟨16, .ofList [addrTypeIpv4]⟩)⟩
  live := {16}
  misfreed := false

theorem heldBlock_owned : heldBlock.Owned := ⟨rfl, rfl⟩

theorem request_tidy_iff_held :
    (Tidy (· = some 32) (fun _ res => res = 10) heldBlock ↔
      Feeds (· = some 32) (fun _ res => res = 10) heldBlock) ∧
    Meets (heap Allocates SendsRequests) NonNull (life true) heldBlock
      fun _ w' => w'.live = ∅ ∧ w'.misfreed = false :=
  ⟨(request_tidy_iff heldBlock_owned).1 _ _ ⟨_, rfl⟩,
    (request_tidy_iff heldBlock_owned).2 (fed_of_supplied ⟨_, rfl, by decide⟩) true⟩

/-- The send fails. -/
theorem not_request_tidy : ¬ ∀ (alloc : Option Ptr → Prop) (send : List Octet → Int → Prop)
    (w : Blocks), (∃ ptr, alloc ptr) → w.Owned → Tidy alloc send w := by
  intro h
  have halloc : ∃ ptr : Option Ptr, ptr = none := ⟨none, rfl⟩
  have htidy := h (· = none) (fun _ res => res = -1) heldBlock halloc heldBlock_owned
  have hfeeds := (tidy_iff_feeds heldBlock_owned halloc).1 htidy
  obtain ⟨addr, -, -, hsend⟩ := (hfeeds.resolve_left (by decide)) none rfl
  exact absurd (hsend (-1) rfl) (by decide)

end HevSocks5
