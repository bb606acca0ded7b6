/-
  What addresses stand for.

  A `Resolver` is a fixed answer to each lookup.  `Resolver.destination` says
  what `hev_socks5_addr_into_sockaddr6` makes of an address when the lookups
  are answered by it, in whatever environment.
-/
import HevSocks5.Misc

namespace HevSocks5

open Interact Sys

/-- The three ways to look up a name. -/
structure Resolver where
  pton4 : List Octet → Option (Vector Octet 4)
  pton6 : List Octet → Option (Vector Octet 16)
  lookup : List Octet → HevSocks5AddrFamily → Option AddrInfo

/-- The calls that look up an address. -/
def Sys.Op.Resolves {β : Type} : Op β → Prop
  | inetPton4 _ | inetPton6 _ | getaddrinfo .. => True
  | _ => False

theorem only_hevSocks5NameIntoSockaddr6 (name : List Octet) (port : UInt16) (saddr : SockAddrIn6)
    (family : HevSocks5AddrFamily) :
    (hevSocks5NameIntoSockaddr6 name port saddr family).Only Op.Resolves := by
  refine .bind ?_ fun r => .ite (only_pure _) (.bind ?_ fun r => .ite (only_pure _) ?_)
  · refine .bind ((only_op _).2 trivial) fun r => ?_
    cases r <;> exact only_pure _
  · refine .bind ((only_op _).2 trivial) fun r => ?_
    cases r <;> exact only_pure _
  · refine .bind ((only_op _).2 trivial) fun r => ?_
    rcases r with _ | _ | _ | _ <;> exact only_pure _

/-- An address is looked up with these calls only. -/
theorem only_hevSocks5AddrIntoSockaddr6 (addr : Mem) (saddr : SockAddrIn6)
    (family : HevSocks5AddrFamily) :
    (hevSocks5AddrIntoSockaddr6 addr saddr family).Only Op.Resolves :=
  .ite (only_pure _) (.ite (only_pure _) (.ite (only_hevSocks5NameIntoSockaddr6 ..) (only_pure _)))

/-- The answers of the resolver. -/
def Resolver.Answers (R : Resolver) {β : Type} (o : Op β) (b : β) : Prop :=
  match o with
  | .inetPton4 name => b = R.pton4 name
  | .inetPton6 name => b = R.pton6 name
  | .getaddrinfo name family => b = R.lookup name family
  | _ => True

/-- The address of a name. -/
def Resolver.resolve (R : Resolver) (family : HevSocks5AddrFamily) (name : List Octet) :
    Option (Vector Octet 16) :=
  match R.pton4 name with
  | some addr => some (v4Mapped addr)
  | none =>
    match R.pton6 name with
    | some addr => some addr
    | none =>
      match R.lookup name family with
      | some (.inet addr) => some (v4Mapped addr)
      | some (.inet6 addr) => some addr
      | _ => none

/-- The destination that an address stands for. -/
def Resolver.destination (R : Resolver) (family : HevSocks5AddrFamily) (addr : Mem) :
    Option SockAddrIn6 :=
  if addr 0 = addrTypeIpv4 then some (hevSocks5Ipv4IntoSockaddr6 addr)
  else if addr 0 = addrTypeIpv6 then some (hevSocks5Ipv6IntoSockaddr6 addr)
  else if addr 0 = addrTypeName then
    let len := (addr 1).toNat
    (R.resolve family (cString ((addr.drop 2).read len))).map fun a =>
      { port := (addr (2 + len), addr (2 + len + 1)), addr := a }
  else none

variable {R : Resolver}

theorem vectorAt_congr {m m' : Mem} {k n : Nat} (h : ∀ i < n, m (k + i) = m' (k + i)) :
    vectorAt m k n = vectorAt m' k n := by
  exact congrArg Vector.ofFn (funext fun i => h i i.2)

/-- A destination is known from the octets of the address. -/
theorem Resolver.destination_congr {family : HevSocks5AddrFamily} {m m' : Mem}
    (h₀ : m 0 = m' 0) (h₁ : m 1 = m' 1) (h : ∀ i : Nat, i < hevSocks5AddrLen m → m i = m' i) :
    R.destination family m = R.destination family m' := by
  unfold Resolver.destination
  rw [← h₀]
  by_cases hv4 : m 0 = addrTypeIpv4
  · have hlen : hevSocks5AddrLen m = 7 := by simp [hevSocks5AddrLen, hv4]
    have hv : vectorAt m 1 4 = vectorAt m' 1 4 := vectorAt_congr fun i hi => h _ (by omega)
    rw [if_pos hv4, if_pos hv4]
    simp only [hevSocks5Ipv4IntoSockaddr6, hv, h 5 (by omega), h 6 (by omega)]
  by_cases hv6 : m 0 = addrTypeIpv6
  · have hlen : hevSocks5AddrLen m = 19 := by
      rw [hevSocks5AddrLen, if_neg hv4, if_pos hv6]
    have hv : vectorAt m 1 16 = vectorAt m' 1 16 := vectorAt_congr fun i hi => h _ (by omega)
    rw [if_neg hv4, if_neg hv4, if_pos hv6, if_pos hv6]
    simp only [hevSocks5Ipv6IntoSockaddr6, hv, h 17 (by omega), h 18 (by omega)]
  rw [if_neg hv4, if_neg hv4, if_neg hv6, if_neg hv6]
  by_cases hname : m 0 = addrTypeName
  · have hlen : hevSocks5AddrLen m = 4 + (m 1).toNat := by
      rw [hevSocks5AddrLen, if_neg hv4, if_neg hv6, if_pos hname]
    have hread : (m.drop 2).read (m 1).toNat = (m'.drop 2).read (m 1).toNat :=
      Mem.read_congr fun i hi => h _ (by omega)
    rw [if_pos hname, if_pos hname]
    simp only [← h₁, hread, h (2 + (m 1).toNat) (by omega), h (2 + (m 1).toNat + 1) (by omega)]
  · rw [if_neg hname, if_neg hname]

section
variable {W : Type} {E : Env Op W} {I : W → Prop} {w : W}

/-- The lookups are answered by the resolver, and preserve `I`. -/
def Resolver.Serves (R : Resolver) (E : Env Op W) (I : W → Prop) : Prop :=
  ∀ (w w' : W) {β : Type} (o : Op β) (b : β), o.Resolves → I w → E w o b w' →
    R.Answers o b ∧ I w'

variable {R : Resolver}

theorem Resolver.Serves.post_nameIntoSockaddr6 (hE : R.Serves E I)
    (name : List Octet) (port : UInt16) (saddr : SockAddrIn6) (family : HevSocks5AddrFamily)
    (hw : I w) :
    Post E (hevSocks5NameIntoSockaddr6 name port saddr family) w fun r w' =>
      I w' ∧ (if r.1 < 0 then none else some r.2.1) =
        (R.resolve family name).map fun a => { port := htons port, addr := a } := by
  simp only [hevSocks5NameIntoSockaddr6, hevSocks5NameResolveIpv4, always_bind, always_op]
  rintro r₄ w₁ he
  obtain ⟨h4, hw₁⟩ := hE _ _ (.inetPton4 name) _ trivial hw he
  obtain rfl : r₄ = R.pton4 name := h4
  refine ⟨trivial, ?_⟩
  cases h4 : R.pton4 name with
  | some a => simp [Resolver.resolve, h4, hw₁]
  | none =>
    simp only [hevSocks5NameResolveIpv6, always_pure, always_bind, always_op, always_ite]
    rw [if_neg (by decide)]
    rintro r₆ w₂ he
    obtain ⟨h6, hw₂⟩ := hE _ _ (.inetPton6 name) _ trivial hw₁ he
    obtain rfl : r₆ = R.pton6 name := h6
    refine ⟨trivial, ?_⟩
    cases h6 : R.pton6 name with
    | some a => simp [Resolver.resolve, h4, h6, hw₂]
    | none =>
      simp only [hevSocks5NameResolveName, always_pure, always_bind, always_op]
      rw [if_neg (by decide)]
      rintro r w₃ he
      obtain ⟨hl, hw₃⟩ := hE _ _ (.getaddrinfo name family) _ trivial hw₂ he
      obtain rfl : r = R.lookup name family := hl
      refine ⟨trivial, ?_⟩
      rcases hl : R.lookup name family with _ | (a | a | _) <;>
        simp [Resolver.resolve, h4, h6, hl, hw₃]

theorem Resolver.Serves.post_addrIntoSockaddr6 (hE : R.Serves E I)
    (addr : Mem) (saddr : SockAddrIn6) (family : HevSocks5AddrFamily) (hw : I w) :
    Post E (hevSocks5AddrIntoSockaddr6 addr saddr family) w fun r w' =>
      I w' ∧ (if r.1 < 0 then none else some r.2.1) = R.destination family addr := by
  unfold hevSocks5AddrIntoSockaddr6 Resolver.destination
  by_cases hv4 : addr 0 = addrTypeIpv4
  · simp [hv4, hw]
  by_cases hv6 : addr 0 = addrTypeIpv6
  · simp [hv6, hw, show addrTypeIpv6 ≠ addrTypeIpv4 by decide]
  by_cases hname : addr 0 = addrTypeName
  · simp only [if_neg hv4, if_neg hv6, if_pos hname]
    refine (hE.post_nameIntoSockaddr6 _ _ _ _ hw).mono fun r w' h => ⟨h.1, ?_⟩
    simpa using h.2
  · simp [hv4, hv6, hname, hw]

end

end HevSocks5
