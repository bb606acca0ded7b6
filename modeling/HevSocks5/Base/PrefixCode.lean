/-
  Prefix codes.

  No word of a prefix code is a prefix of another one, so a stream starts with
  at most one maximal list of words: its decomposition.  A reader who has read
  whole words only has read a prefix of it.
-/
import Mathlib

/-- Words, none of which is a prefix of another one. -/
structure PrefixCode (F α : Type*) where
  word : F → List α
  ne_nil : ∀ f, word f ≠ []
  eq_of_prefix : ∀ f g, word f <+: word g → f = g

namespace PrefixCode

variable {F α : Type*} (C : PrefixCode F α)

def words (fs : List F) : List α := fs.flatMap C.word

@[simp] theorem words_nil : C.words [] = [] := rfl

@[simp] theorem words_cons (f : F) (fs : List F) : C.words (f :: fs) = C.word f ++ C.words fs :=
  List.flatMap_cons

@[simp] theorem words_append (fs gs : List F) : C.words (fs ++ gs) = C.words fs ++ C.words gs :=
  List.flatMap_append

variable {C} {s : List α} {f g : F} {fs gs : List F}

theorem eq_of_prefix_of_prefix (hf : C.word f <+: s) (hg : C.word g <+: s) : f = g := by
  rcases List.prefix_or_prefix_of_prefix hf hg with h | h
  · exact C.eq_of_prefix f g h
  · exact (C.eq_of_prefix g f h).symm

theorem eq_nil_of_words_eq_nil (h : C.words fs = []) : fs = [] := by
  cases fs with
  | nil => rfl
  | cons f fs => exact absurd (List.append_eq_nil_iff.1 h).1 (C.ne_nil f)

/-- Two lists of words that a stream starts with are comparable. -/
theorem prefix_or_prefix (hf : C.words fs <+: s) (hg : C.words gs <+: s) :
    fs <+: gs ∨ gs <+: fs := by
  induction fs generalizing gs s with
  | nil => exact .inl (List.nil_prefix)
  | cons f fs ih =>
    cases gs with
    | nil => exact .inr (List.nil_prefix)
    | cons g gs =>
      simp only [words_cons] at hf hg
      obtain rfl : f = g :=
        eq_of_prefix_of_prefix ((List.prefix_append _ _).trans hf)
          ((List.prefix_append _ _).trans hg)
      obtain ⟨t, rfl⟩ := (List.prefix_append _ _).trans hf
      rw [List.prefix_append_right_inj] at hf hg
      simpa [List.cons_prefix_cons] using ih hf hg

/-- Words that begin others are the first of them. -/
theorem prefix_of_words_prefix (h : C.words fs <+: C.words gs) : fs <+: gs := by
  rcases prefix_or_prefix h List.prefix_rfl with hp | ⟨t, rfl⟩
  · exact hp
  · have hlen := h.length_le
    rw [words_append, List.length_append] at hlen
    have ht : C.words t = [] := List.eq_nil_of_length_eq_zero (by omega)
    rw [eq_nil_of_words_eq_nil ht, List.append_nil]

theorem words_injective (h : C.words fs = C.words gs) : fs = gs := by
  induction fs generalizing gs with
  | nil => exact (eq_nil_of_words_eq_nil h.symm).symm
  | cons f fs ih =>
    cases gs with
    | nil => exact eq_nil_of_words_eq_nil h
    | cons g gs =>
      simp only [words_cons] at h
      obtain rfl : f = g :=
        eq_of_prefix_of_prefix (s := C.word g ++ C.words gs) (h ▸ List.prefix_append _ _)
          (List.prefix_append _ _)
      rw [ih (List.append_cancel_left h)]

variable (C) in
/-- `fs` are all the words that `s` starts with. -/
def Decomposes (s : List α) (fs : List F) : Prop :=
  C.words fs <+: s ∧ ∀ f, ¬ C.words (fs ++ [f]) <+: s

/-- Words that were read are a prefix of the decomposition. -/
theorem Decomposes.prefix_of_words (h : C.Decomposes s gs) (hf : C.words fs <+: s) : fs <+: gs := by
  rcases prefix_or_prefix hf h.1 with hp | ⟨_ | ⟨x, xs⟩, rfl⟩
  · exact hp
  · simp
  · refine absurd ?_ (h.2 x)
    refine List.IsPrefix.trans ?_ hf
    exact ⟨C.words xs, by simp⟩

theorem Decomposes.unique (hf : C.Decomposes s fs) (hg : C.Decomposes s gs) : fs = gs :=
  (hg.prefix_of_words hf.1).eq_of_length_le (hf.prefix_of_words hg.1).length_le

end PrefixCode
