/-
  Users (hev-socks5-user.c): a name and a password, each an octet string of any
  content whose length fits an unsigned int.
-/
import HevSocks5.Base.Search

namespace HevSocks5

open Shape

abbrev Octet := UInt8

/-- An octet string and its length as an unsigned int. -/
structure Str where
  octets : List Octet
  length_lt : octets.length < 2 ^ 32
deriving DecidableEq

namespace Str

theorem length_nil : ([] : List Octet).length < 2 ^ 32 := Nat.two_pow_pos 32

/-- The length field that goes with the string. -/
def len (s : Str) : UInt32 := UInt32.ofNat s.octets.length

theorem ext_octets {s t : Str} (h : s.octets = t.octets) : s = t := by
  cases s
  cases t
  simp_all

@[simp] theorem toNat_len (s : Str) : s.len.toNat = s.octets.length :=
  UInt32.toNat_ofNat_of_lt' s.length_lt

theorem len_lt {s t : Str} : s.len < t.len ↔ s.octets.length < t.octets.length := by
  rw [UInt32.lt_iff_toNat_lt, toNat_len, toNat_len]

theorem len_eq {s t : Str} : s.len = t.len ↔ s.octets.length = t.octets.length := by
  rw [← UInt32.toNat_inj, toNat_len, toNat_len]

end Str

/-- `memcmp (s, t, n)`: the difference of the first two octets that differ. -/
def memcmp : List Octet → List Octet → Nat → Int
  | a :: s, b :: t, n + 1 => if a = b then memcmp s t n else (a.toNat : Int) - b.toNat
  | _, _, _ => 0

theorem octet_sub_eq_zero (a b : Octet) : (a.toNat : Int) - b.toNat = 0 ↔ a = b := by
  rw [← UInt8.toNat_inj]
  omega

theorem memcmp_eq_zero {s t : List Octet} (h : s.length = t.length) :
    memcmp s t s.length = 0 ↔ s = t := by
  induction s generalizing t with
  | nil => cases t <;> simp_all [memcmp]
  | cons a s ih =>
    cases t with
    | nil => simp at h
    | cons b t =>
      by_cases hab : a = b
      · simp [memcmp, hab, ih (by simpa using h)]
      · simp [memcmp, hab, octet_sub_eq_zero]

theorem memcmp_pos (s t : List Octet) (n : Nat) : 0 < memcmp s t n ↔ memcmp t s n < 0 := by
  induction n generalizing s t with
  | zero => cases s <;> cases t <;> simp [memcmp]
  | succ n ih =>
    cases s with
    | nil => cases t <;> simp [memcmp]
    | cons a s =>
      cases t with
      | nil => simp [memcmp]
      | cons b t =>
        by_cases hab : a = b
        · simp [memcmp, hab, ih]
        · simp only [memcmp, hab, Ne.symm hab, if_false]
          omega

theorem memcmp_trans {s t u : List Octet} {n : Nat} (hs : s.length = n) (ht : t.length = n)
    (hu : u.length = n) (h1 : memcmp s t n < 0) (h2 : memcmp t u n < 0) : memcmp s u n < 0 := by
  induction n generalizing s t u with
  | zero => simp [List.length_eq_zero_iff.1 hs, memcmp] at h1
  | succ n ih =>
    obtain ⟨a, s, rfl⟩ := List.exists_cons_of_length_eq_add_one hs
    obtain ⟨b, t, rfl⟩ := List.exists_cons_of_length_eq_add_one ht
    obtain ⟨c, u, rfl⟩ := List.exists_cons_of_length_eq_add_one hu
    simp only [memcmp, ← UInt8.toNat_inj] at h1 h2 ⊢
    simp only [List.length_cons, Nat.add_right_cancel_iff] at hs ht hu
    have hlt := ih hs ht hu
    grind

/-- The order of names in the search loops: by length, then by octets. -/
def compareName (this name : Str) : Int :=
  if this.len < name.len then -1
  else if this.len > name.len then 1
  else memcmp this.octets name.octets this.len.toNat

theorem comparison_compareName : Comparison compareName where
  eq_zero a b := by
    unfold compareName
    simp only [gt_iff_lt, Str.len_lt, Str.toNat_len]
    constructor
    · intro h
      split at h
      · cases h
      · split at h
        · cases h
        · exact Str.ext_octets ((memcmp_eq_zero (by omega)).1 h)
    · rintro rfl
      simp [memcmp_eq_zero]
  pos_iff a b := by
    unfold compareName
    simp only [gt_iff_lt, Str.len_lt, Str.toNat_len]
    by_cases h1 : a.octets.length < b.octets.length
    · simp [h1, Nat.lt_asymm h1]
    · by_cases h2 : b.octets.length < a.octets.length
      · simp [h2, Nat.lt_asymm h2]
      · have h : a.octets.length = b.octets.length := by omega
        simp [h, memcmp_pos]
  trans := by
    intro a b c
    unfold compareName
    simp only [gt_iff_lt, Str.len_lt, Str.toNat_len]
    intro h1 h2
    by_cases hab : a.octets.length < b.octets.length <;>
      by_cases hbc : b.octets.length < c.octets.length
    · rw [if_pos (by omega)]
      decide
    · have : b.octets.length = c.octets.length := by
        by_contra hne
        rw [if_neg hbc, if_pos (by omega)] at h2
        cases h2
      rw [if_pos (by omega)]
      decide
    · have : a.octets.length = b.octets.length := by
        by_contra hne
        rw [if_neg hab, if_pos (by omega)] at h1
        cases h1
      rw [if_pos (by omega)]
      decide
    · rw [if_neg hab] at h1
      rw [if_neg hbc] at h2
      split at h1
      · cases h1
      split at h2
      · cases h2
      have hab' : a.octets.length = b.octets.length := by omega
      have hbc' : b.octets.length = c.octets.length := by omega
      rw [if_neg (by omega), if_neg (by omega)]
      rw [← hab'] at h2
      exact memcmp_trans rfl hab'.symm (by omega) h1 h2

/-- A user: its name and its password. -/
structure HevSocks5User where
  name : Str
  pass : Str
deriving DecidableEq

namespace HevSocks5User

/-- `hev_socks5_user_checker` -/
def checker (self : HevSocks5User) (pass : Str) : Int :=
  if self.pass.len ≠ pass.len then -1
  else if memcmp self.pass.octets pass.octets pass.len.toNat ≠ 0 then -1
  else 0

/-- The checker accepts the password of the user and no other. -/
theorem checker_eq_zero (self : HevSocks5User) (pass : Str) :
    self.checker pass = 0 ↔ self.pass = pass := by
  unfold checker
  by_cases hl : self.pass.len = pass.len
  · have hl' := Str.len_eq.1 hl
    rw [if_neg (by simpa using hl), Str.toNat_len, ← hl']
    have hm := memcmp_eq_zero hl'
    split
    · rename_i hne
      exact ⟨fun h => absurd h (by decide), fun h => absurd (hm.2 (h ▸ rfl)) hne⟩
    · rename_i heq
      exact ⟨fun _ => Str.ext_octets (hm.1 (not_not.1 heq)), fun _ => rfl⟩
  · simp only [ne_eq, hl, not_false_eq_true, if_true]
    exact ⟨fun h => absurd h (by decide), fun h => absurd (h ▸ rfl) hl⟩

theorem checker_neg (self : HevSocks5User) (pass : Str) :
    self.checker pass < 0 ↔ self.pass ≠ pass := by
  rw [Ne, ← checker_eq_zero]
  unfold checker
  split_ifs <;> simp

end HevSocks5User

end HevSocks5
