/-
  Octets in memory, as seen from a pointer.

  A pointer is modelled by the memory from it on: `m i` is the octet at offset
  `i`, and `m.drop k` is the pointer `k` octets further.
-/
import Mathlib

/-- The memory from a pointer on. -/
abbrev Mem := Nat → UInt8

namespace Mem

/-- Memory that is not read before it is written. -/
def undef : Mem := fun _ => 0

/-- Memory that starts with the octets of a list. -/
def ofList (l : List UInt8) : Mem := fun i => l.getD i 0

def drop (m : Mem) (k : Nat) : Mem := fun i => m (k + i)

def read (m : Mem) (n : Nat) : List UInt8 := (List.range n).map m

def write (m : Mem) (k : Nat) (data : List UInt8) : Mem := fun i =>
  if k ≤ i ∧ i < k + data.length then data.getD (i - k) 0 else m i

variable {m : Mem} {k n : Nat} {data : List UInt8}

@[simp] theorem length_read : (m.read n).length = n := by simp [read]

@[simp] theorem drop_apply (i : Nat) : m.drop k i = m (k + i) := rfl

@[simp] theorem read_zero : m.read 0 = [] := rfl

theorem read_add (j : Nat) : m.read (n + j) = m.read n ++ (m.drop n).read j := by
  simp only [read, List.range_add, List.map_append, List.map_map]
  rfl

theorem read_succ : m.read (n + 1) = m 0 :: (m.drop 1).read n := by
  rw [Nat.add_comm, read_add]
  rfl

theorem read_congr {m' : Mem} (h : ∀ i < n, m i = m' i) : m.read n = m'.read n :=
  List.map_congr_left fun i hi => h i (List.mem_range.1 hi)

theorem write_apply_of_lt (i : Nat) (h : i < k) : m.write k data i = m i :=
  if_neg fun hi => absurd hi.1 (Nat.not_le.2 h)

theorem write_apply_of_ge (i : Nat) (h : k + data.length ≤ i) : m.write k data i = m i :=
  if_neg fun hi => absurd hi.2 (Nat.not_lt.2 h)

theorem write_apply (i : Nat) (h : i < data.length) : m.write k data (k + i) = data[i] := by
  simp [write, h]

theorem write_zero_apply (i : Nat) (h : i < data.length) : m.write 0 data i = data[i] := by
  simpa using write_apply (m := m) (k := 0) i h

/-- What was written is read. -/
theorem read_write (m : Mem) (k : Nat) (data : List UInt8) :
    ((m.write k data).drop k).read data.length = data := by
  apply List.ext_getElem
  · simp
  · intro i h₁ h₂
    simp only [read, List.getElem_map, List.getElem_range, drop_apply]
    exact write_apply i h₂

theorem read_write_zero (m : Mem) (data : List UInt8) :
    (m.write 0 data).read data.length = data := by
  have h := read_write m 0 data
  rwa [show (m.write 0 data).drop 0 = m.write 0 data by funext i; simp] at h

theorem drop_drop (j : Nat) : (m.drop k).drop j = m.drop (k + j) := by
  funext i
  simp [Nat.add_assoc]

theorem drop_zero : m.drop 0 = m := by
  funext i
  simp

/-- A write of two pieces in a row. -/
theorem write_append (data' : List UInt8) :
    m.write k (data ++ data') = (m.write k data).write (k + data.length) data' := by
  funext i
  simp only [write, List.length_append]
  split <;> split <;> grind

/-- Writes to different places. -/
theorem write_comm {j : Nat} {data' : List UInt8} (h : k + data.length ≤ j) :
    (m.write j data').write k data = (m.write k data).write j data' := by
  funext i
  simp only [write]
  split <;> split <;> first | rfl | omega

end Mem
