import Mathlib.Data.List.Forall2
import WebBindings.Text.Ascii
/-!
# ASCII letters

Characters and texts that are the same but for the case of ASCII letters. Folding the letters to lower case
makes just these equal.
-/

namespace WebBindings.Ascii

variable {c d : Char} {s t : String}

@[elab_as_elim]
theorem of_table {p : Char → Prop} (c : Char) (small : c.toNat < 128)
    (table : ∀ n < 128, p (Char.ofNat n)) : p c := by
  have entry := table c.toNat small
  rwa [Char.ofNat_toNat] at entry

/-- The capital letters of ASCII, each with the small one. -/
def letters : List (Char × Char) :=
  "ABCDEFGHIJKLMNOPQRSTUVWXYZ".toList.zip "abcdefghijklmnopqrstuvwxyz".toList

/-- Characters that are the same but for the case of an ASCII letter. -/
def SameLetter (c d : Char) : Prop := c = d ∨ (c, d) ∈ letters ∨ (d, c) ∈ letters

/-- Texts that are the same but for the case of ASCII letters. -/
def Variants (s t : String) : Prop := List.Forall₂ SameLetter s.toList t.toList

instance : DecidableRel SameLetter :=
  fun c d => inferInstanceAs (Decidable (c = d ∨ (c, d) ∈ letters ∨ (d, c) ∈ letters))

instance : DecidableRel Variants :=
  fun s t => inferInstanceAs (Decidable (List.Forall₂ SameLetter s.toList t.toList))

theorem toLower_of_mem_letters (pair : (c, d) ∈ letters) : c.toLower = d ∧ d.toLower = d := by
  have table : ∀ pair ∈ letters, pair.1.toLower = pair.2 ∧ pair.2.toLower = pair.2 := by
    decide +kernel
  exact table (c, d) pair

theorem eq_of_mem_letters {e : Char} (pair : (c, e) ∈ letters) (pair' : (d, e) ∈ letters) : c = d := by
  have table : ∀ pair ∈ letters, ∀ pair' ∈ letters, pair.2 = pair'.2 → pair.1 = pair'.1 := by
    decide +kernel
  exact table (c, e) pair (d, e) pair' rfl

theorem SameLetter.eq_of_large (same : SameLetter c d) (large : 128 ≤ c.toNat) : c = d := by
  have table : ∀ pair ∈ letters, pair.1.toNat < 128 ∧ pair.2.toNat < 128 := by
    decide +kernel
  rcases same with same | pair | pair
  · exact same
  · exact absurd (table (c, d) pair).1 (Nat.not_lt.2 large)
  · exact absurd (table (d, c) pair).2 (Nat.not_lt.2 large)

theorem mem_letters_or_toLower_eq (c : Char) : (c, c.toLower) ∈ letters ∨ c.toLower = c := by
  by_cases upper : c.val ≥ 'A'.val ∧ c.val ≤ 'Z'.val
  · have last : c.toNat ≤ 'Z'.toNat := UInt32.le_iff_toNat_le.1 upper.2
    have small : c.toNat < 128 := Nat.lt_of_le_of_lt last (by decide)
    have table : ∀ n < 128, (Char.ofNat n).val ≥ 'A'.val ∧ (Char.ofNat n).val ≤ 'Z'.val →
        (Char.ofNat n, (Char.ofNat n).toLower) ∈ letters := by
      decide +kernel
    have capital : c.val ≥ 'A'.val ∧ c.val ≤ 'Z'.val → (c, c.toLower) ∈ letters :=
      of_table c small table
    exact .inl (capital upper)
  · exact .inr (dif_neg upper)

theorem toLower_toLower (c : Char) : c.toLower.toLower = c.toLower := by
  rcases mem_letters_or_toLower_eq c with pair | same
  · exact (toLower_of_mem_letters pair).2
  · rw [same, same]

theorem toLower_eq_iff : c.toLower = d.toLower ↔ SameLetter c d := by
  constructor
  · intro same
    rcases mem_letters_or_toLower_eq c with pair | hc <;> rcases mem_letters_or_toLower_eq d with pair' | hd
    · rw [same] at pair
      exact .inl (eq_of_mem_letters pair pair')
    · rw [same, hd] at pair
      exact .inr (.inl pair)
    · rw [← same, hc] at pair'
      exact .inr (.inr pair')
    · exact .inl (hc.symm.trans (same.trans hd))
  · rintro (rfl | pair | pair)
    · rfl
    · obtain ⟨hc, hd⟩ := toLower_of_mem_letters pair
      exact hc.trans hd.symm
    · obtain ⟨hd, hc⟩ := toLower_of_mem_letters pair
      exact hc.trans hd.symm

theorem lower_eq_iff : lower s = lower t ↔ Variants s t := by
  rw [Variants, ← String.toList_inj, lower, lower, String.toList_map, String.toList_map,
    ← List.forall₂_eq_eq_eq, List.forall₂_map_left_iff, List.forall₂_map_right_iff]
  simp only [toLower_eq_iff]

end WebBindings.Ascii
