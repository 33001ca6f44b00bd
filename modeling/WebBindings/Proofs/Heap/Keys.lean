import Mathlib.Data.List.Induction
import WebBindings.Heap.Value
import WebBindings.Proofs.Number.Decimal
import WebBindings.Proofs.Text.Units
/-!
# Keys of properties

Which keys are array indices, told by their code units alone, and the order in which keys are listed.
Listing loses no key and makes none up, since every key is of exactly one of three kinds.
-/

namespace WebBindings

/-- A script string is the decimal text of a number: all its units are digits, none of them is a zero
that leads others, and together they are worth the number. -/
structure DOMString.IsDecimal (s : DOMString) (n : Nat) : Prop where
  digits : ∀ u ∈ s.units, 48 ≤ u.toNat ∧ u.toNat ≤ 57
  nonempty : s.units ≠ []
  leading : ∀ rest, s.units = 48 :: rest → rest = []
  value : s.units.foldl (fun m u => 10 * m + (u.toNat - 48)) 0 = n

namespace Ascii

theorem toNat_of_isDigit {c : Char} (digit : isDigit c = true) : 48 ≤ c.toNat ∧ c.toNat ≤ 57 :=
  Char.isDigit_iff_toNat.1 (isDigit_eq c ▸ digit)

theorem digitChar_of_isDigit {c : Char} (digit : isDigit c = true) :
    Nat.digitChar (c.toNat - 48) = c := by
  have range := toNat_of_isDigit digit
  apply Char.toNat_inj.1
  rw [Nat.toNat_digitChar_of_lt_ten (by omega)]
  omega

theorem toDigits_leading {n : Nat} {rest : List Char} (zero : Nat.toDigits 10 n = '0' :: rest) :
    rest = [] := by
  by_cases small : n < 10
  · rw [Nat.toDigits_of_lt_base small] at zero
    exact (List.cons.inj zero).2.symm
  · rw [Nat.toDigits_of_base_le (by decide) (Nat.le_of_not_lt small)] at zero
    obtain ⟨front, hfront⟩ : ∃ front, Nat.toDigits 10 (n / 10) = '0' :: front := by
      cases hdigits : Nat.toDigits 10 (n / 10) with
      | nil => exact absurd hdigits Nat.toDigits_ne_nil
      | cons c cs =>
        rw [hdigits, List.cons_append] at zero
        exact ⟨cs, by rw [(List.cons.inj zero).1]⟩
    have alone : front = [] := toDigits_leading hfront
    have value : Nat.ofDigitChars 10 (Nat.toDigits 10 (n / 10)) 0 = n / 10 :=
      Nat.ofDigitChars_ten_toDigits
    rw [hfront, alone] at value
    have none : n / 10 = 0 := value.symm
    omega

theorem toDigits_ofDigitChars {cs : List Char} (digits : ∀ c ∈ cs, isDigit c = true)
    (nonempty : cs ≠ []) (leading : ∀ rest, cs = '0' :: rest → rest = []) :
    Nat.toDigits 10 (Nat.ofDigitChars 10 cs 0) = cs := by
  induction cs using List.reverseRecOn with
  | nil => exact absurd rfl nonempty
  | append_singleton cs c ih =>
    have digit : isDigit c = true := digits c (by simp)
    have range := toNat_of_isDigit digit
    have value : Nat.ofDigitChars 10 (cs ++ [c]) 0 =
        10 * Nat.ofDigitChars 10 cs 0 + (c.toNat - 48) := by
      rw [Nat.ofDigitChars_append, Nat.ofDigitChars_cons, Nat.ofDigitChars_nil]
      rfl
    rw [value]
    by_cases single : cs = []
    · subst single
      rw [Nat.ofDigitChars_nil, Nat.mul_zero, Nat.zero_add,
        Nat.toDigits_of_lt_base (by omega), digitChar_of_isDigit digit]
      rfl
    · have noZero : ∀ rest, cs ≠ '0' :: rest := by
        rintro rest rfl
        have := leading (rest ++ [c]) rfl
        simp at this
      have front : Nat.toDigits 10 (Nat.ofDigitChars 10 cs 0) = cs := by
        refine ih (fun c mem => digits c (by simp [mem])) single fun rest h => ?_
        exact absurd h (noZero rest)
      have positive : 0 < Nat.ofDigitChars 10 cs 0 := by
        apply Nat.pos_of_ne_zero
        intro zero
        rw [zero, Nat.toDigits_zero] at front
        exact noZero [] front.symm
      rw [← Nat.toDigits_append_toDigits (by decide) positive (by omega), front,
        Nat.toDigits_of_lt_base (by omega), digitChar_of_isDigit digit]

end Ascii

namespace DOMString

variable {s : DOMString} {n : Nat} {cs : List Char}

/-- A string that shows no replacement character spells what it shows. -/
theorem units_of_chars (proper : '\uFFFD' ∉ s.chars) : s.units = s.chars.flatMap Units.ofChar := by
  have wellFormed : s.isWellFormed = true := by
    rw [isWellFormed, List.all_eq_true]
    intro item mem
    cases item with
    | scalar c => rfl
    | lone u => exact absurd (List.mem_map.2 ⟨_, mem, rfl⟩) proper
  have known : s.chars? = some s.chars := by rw [chars?, if_pos wellFormed]
  exact chars?_eq_some_iff.1 known

theorem chars_of_units (spelled : s.units = cs.flatMap Units.ofChar) : s.chars = cs := by
  have known := chars?_eq_some_iff.2 spelled
  rw [chars?, Option.ite_none_right_eq_some] at known
  exact Option.some.inj known.2

theorem flatMap_ofChar_of_digits (digits : ∀ c ∈ cs, Ascii.isDigit c = true) :
    cs.flatMap Units.ofChar = cs.map fun c => c.toNat.toUInt16 := by
  induction cs with
  | nil => rfl
  | cons c cs ih =>
    rw [List.forall_mem_cons] at digits
    have range := Ascii.toNat_of_isDigit digits.1
    rw [List.flatMap_cons, ih digits.2, Units.ofChar, if_pos (by omega)]
    rfl

theorem chars_eq_iff (digits : ∀ c ∈ cs, Ascii.isDigit c = true) :
    s.chars = cs ↔ s.units = cs.map fun c => c.toNat.toUInt16 := by
  rw [← flatMap_ofChar_of_digits digits]
  constructor
  · intro shown
    rw [units_of_chars, shown]
    rw [shown]
    intro mem
    exact absurd (digits _ mem) (by decide)
  · exact chars_of_units

theorem foldl_digits (digits : ∀ c ∈ cs, Ascii.isDigit c = true) :
    (cs.map fun c => c.toNat.toUInt16).foldl (fun m u => 10 * m + (u.toNat - 48)) 0 =
      Nat.ofDigitChars 10 cs 0 := by
  rw [Nat.ofDigitChars_eq_foldl, List.foldl_map]
  refine List.foldl_ext _ _ _ fun m c mem => ?_
  have range := Ascii.toNat_of_isDigit (digits c mem)
  rw [Units.toNat_toUInt16 (by omega)]
  rfl

theorem isDecimal_iff : s.IsDecimal n ↔ s.chars = Nat.toDigits 10 n := by
  have digits : ∀ c ∈ Nat.toDigits 10 n, Ascii.isDigit c = true := fun c => Ascii.isDigit_of_mem_toDigits
  constructor
  · intro decimal
    obtain ⟨cs, hcs⟩ : ∃ cs, cs = s.units.map fun u => Char.ofNat u.toNat := ⟨_, rfl⟩
    have code : ∀ u ∈ s.units, (Char.ofNat u.toNat).toNat = u.toNat := by
      intro u mem
      have range := decimal.digits u mem
      exact Units.toNat_ofNat (.inl (by omega))
    have shownDigits : ∀ c ∈ cs, Ascii.isDigit c = true := by
      intro c mem
      rw [hcs] at mem
      obtain ⟨u, hu, rfl⟩ := List.mem_map.1 mem
      rw [Ascii.isDigit_eq, Char.isDigit_iff_toNat, code u hu]
      exact decimal.digits u hu
    have units : s.units = cs.map fun c => c.toNat.toUInt16 := by
      rw [hcs, List.map_map]
      refine (List.map_id _).symm.trans (List.map_congr_left fun u mem => ?_)
      change u = (Char.ofNat u.toNat).toNat.toUInt16
      rw [code u mem]
      exact UInt16.ofNat_toNat.symm
    have nonempty : cs ≠ [] := by
      rintro rfl
      exact decimal.nonempty units
    have leading : ∀ rest, cs = '0' :: rest → rest = [] := by
      rintro rest rfl
      exact List.map_eq_nil_iff.1 (decimal.leading _ units)
    have value : Nat.ofDigitChars 10 cs 0 = n := by
      rw [← foldl_digits shownDigits, ← units]
      exact decimal.value
    rw [(chars_eq_iff shownDigits).2 units, ← value]
    exact (Ascii.toDigits_ofDigitChars shownDigits nonempty leading).symm
  · intro shown
    have units := (chars_eq_iff digits).1 shown
    refine ⟨?_, ?_, ?_, ?_⟩
    · intro u mem
      rw [units] at mem
      obtain ⟨c, hc, rfl⟩ := List.mem_map.1 mem
      have range := Ascii.toNat_of_isDigit (digits c hc)
      rw [Units.toNat_toUInt16 (by omega)]
      exact range
    · rw [units]
      intro none
      exact Nat.toDigits_ne_nil (List.map_eq_nil_iff.1 none)
    · intro rest zero
      rw [units] at zero
      obtain ⟨c, cs, hdigits, first, others⟩ := List.map_eq_cons_iff.1 zero
      have range := Ascii.toNat_of_isDigit (digits c (by rw [hdigits]; exact List.mem_cons_self))
      have same : c = '0' := by
        apply Char.toNat_inj.1
        have := congrArg UInt16.toNat first
        rw [Units.toNat_toUInt16 (by omega)] at this
        exact this
      rw [same] at hdigits
      rw [← others, Ascii.toDigits_leading hdigits]
      rfl
    · rw [units, foldl_digits digits]
      exact Nat.ofDigitChars_ten_toDigits

theorem IsDecimal.unique {t : DOMString} (hs : s.IsDecimal n) (ht : t.IsDecimal n) : s = t := by
  have digits : ∀ c ∈ Nat.toDigits 10 n, Ascii.isDigit c = true := fun c => Ascii.isDigit_of_mem_toDigits
  have same : s.units = t.units := by
    rw [(chars_eq_iff digits).1 (isDecimal_iff.1 hs), (chars_eq_iff digits).1 (isDecimal_iff.1 ht)]
  cases s
  cases t
  exact congrArg DOMString.mk same

end DOMString

namespace PropertyKey

variable {k a b : PropertyKey} {m n : Nat} {keys given : List PropertyKey}

/-- A key is the decimal text of a number below `2 ^ 32 - 1`. -/
def IsIndex (k : PropertyKey) (n : Nat) : Prop :=
  n < 2 ^ 32 - 1 ∧ ∃ s, k = .string s ∧ s.IsDecimal n

/-- A key is a string that is no array index. -/
def IsName (k : PropertyKey) : Prop := k.isSymbol = false ∧ ∀ n, ¬ k.IsIndex n

theorem arrayIndex?_eq_some_iff : k.arrayIndex? = some n ↔ k.IsIndex n := by
  cases k with
  | symbol s =>
    constructor
    · nofun
    · rintro ⟨-, s, ⟨⟩, -⟩
  | string s =>
    simp only [arrayIndex?, Option.ite_none_right_eq_some, Option.some.injEq]
    constructor
    · rintro ⟨⟨small, shown⟩, rfl⟩
      exact ⟨small, s, rfl, DOMString.isDecimal_iff.2 shown⟩
    · rintro ⟨small, s', ⟨⟩, decimal⟩
      have shown := DOMString.isDecimal_iff.1 decimal
      have value : Ascii.natOf 10 s.chars = n := by rw [shown, Ascii.natOf_toDigits]
      rw [value]
      exact ⟨⟨small, shown⟩, rfl⟩

theorem arrayIndex?_eq_none_iff : k.arrayIndex? = none ↔ ∀ n, ¬ k.IsIndex n := by
  simp only [Option.eq_none_iff_forall_ne_some, ne_eq, arrayIndex?_eq_some_iff]

theorem ofIndex_isDecimal (n : Nat) : ∃ s, ofIndex n = .string s ∧ s.IsDecimal n := by
  refine ⟨_, rfl, DOMString.isDecimal_iff.2 (DOMString.chars_of_units ?_)⟩
  rw [DOMString.ofString, String.toList_ofList]

theorem isIndex_iff : k.IsIndex n ↔ n < 2 ^ 32 - 1 ∧ k = ofIndex n := by
  obtain ⟨s, hs, decimal⟩ := ofIndex_isDecimal n
  rw [IsIndex, hs]
  refine and_congr_right fun small => ?_
  constructor
  · rintro ⟨t, rfl, ht⟩
    rw [ht.unique decimal]
  · rintro rfl
    exact ⟨s, rfl, decimal⟩

/-- Keys are different if they are array indices of different numbers, and numbers if they are those of
different keys. -/
theorem IsIndex.eq_iff (ha : a.IsIndex m) (hb : b.IsIndex n) : a = b ↔ m = n := by
  constructor
  · rintro rfl
    rw [← arrayIndex?_eq_some_iff] at ha hb
    exact Option.some.inj (ha.symm.trans hb)
  · rintro rfl
    rw [(isIndex_iff.1 ha).2, (isIndex_iff.1 hb).2]

/-- Keys in the order of enumeration, where the first place in a list decides between names and between
symbols. -/
inductive Precedes (given : List PropertyKey) : PropertyKey → PropertyKey → Prop
  | ascending {a b : PropertyKey} {m n : Nat} (ha : a.IsIndex m) (hb : b.IsIndex n) (less : m < n) :
      Precedes given a b
  | index {a b : PropertyKey} {m : Nat} (ha : a.IsIndex m) (hb : ∀ n, ¬ b.IsIndex n) : Precedes given a b
  | names {a b : PropertyKey} (ha : a.IsName) (hb : b.IsName) (first : given.idxOf a < given.idxOf b) :
      Precedes given a b
  | name {a b : PropertyKey} (ha : a.IsName) (hb : b.isSymbol = true) : Precedes given a b
  | symbols {a b : PropertyKey} (ha : a.isSymbol = true) (hb : b.isSymbol = true)
      (first : given.idxOf a < given.idxOf b) : Precedes given a b

theorem not_isIndex_of_isSymbol (symbol : k.isSymbol = true) : ¬ k.IsIndex n := by
  rintro ⟨-, s, rfl, -⟩
  cases symbol

theorem isName_iff : k.IsName ↔ (!k.isSymbol && k.arrayIndex?.isNone) = true := by
  rw [IsName, Bool.and_eq_true, Bool.not_eq_true', Option.isNone_iff_eq_none, arrayIndex?_eq_none_iff]

/-- The keys that are array indices, with their numbers. -/
def indexed (keys : List PropertyKey) : List (Nat × PropertyKey) :=
  keys.filterMap fun k => k.arrayIndex?.map fun n => (n, k)

/-- The keys that are array indices, by their numbers. -/
def indices (keys : List PropertyKey) : List PropertyKey :=
  ((indexed keys).mergeSort fun a b => a.1 ≤ b.1).map Prod.snd

theorem enumerationOrder_eq (keys : List PropertyKey) : enumerationOrder keys =
    indices keys ++ keys.filter (fun k => !k.isSymbol && k.arrayIndex?.isNone) ++
      keys.filter isSymbol := rfl

theorem mem_indexed : (n, k) ∈ indexed keys ↔ k ∈ keys ∧ k.IsIndex n := by
  simp only [indexed, List.mem_filterMap, Option.map_eq_some_iff, arrayIndex?_eq_some_iff, Prod.mk.injEq]
  constructor
  · rintro ⟨j, mem, m, index, rfl, rfl⟩
    exact ⟨mem, index⟩
  · rintro ⟨mem, index⟩
    exact ⟨k, mem, n, index, rfl, rfl⟩

theorem mem_indices : k ∈ indices keys ↔ k ∈ keys ∧ ∃ n, k.IsIndex n := by
  simp only [indices, List.mem_map, List.mem_mergeSort, Prod.exists, mem_indexed]
  constructor
  · rintro ⟨n, j, ⟨mem, index⟩, rfl⟩
    exact ⟨mem, n, index⟩
  · rintro ⟨mem, n, index⟩
    exact ⟨n, k, ⟨mem, index⟩, rfl⟩

theorem mem_enumerationOrder : k ∈ enumerationOrder keys ↔ k ∈ keys := by
  simp only [enumerationOrder_eq, List.mem_append, mem_indices, List.mem_filter, ← isName_iff]
  constructor
  · rintro ((mem | mem) | mem)
    · exact mem.1
    · exact mem.1
    · exact mem.1
  · intro mem
    by_cases symbol : k.isSymbol = true
    · exact .inr ⟨mem, symbol⟩
    · by_cases index : ∃ n, k.IsIndex n
      · exact .inl (.inl ⟨mem, index⟩)
      · exact .inl (.inr ⟨mem, Bool.eq_false_iff.2 symbol, not_exists.1 index⟩)

theorem indexed_pairwise (nodup : keys.Nodup) : (indexed keys).Pairwise fun a b => a.2 ≠ b.2 := by
  rw [indexed, List.pairwise_filterMap]
  refine List.Pairwise.imp (fun {a b} apart e he f hf same => ?_) nodup
  obtain ⟨m, -, rfl⟩ := Option.map_eq_some_iff.1 he
  obtain ⟨n, -, rfl⟩ := Option.map_eq_some_iff.1 hf
  exact apart same

theorem indexed_mergeSort_pairwise (keys : List PropertyKey) :
    ((indexed keys).mergeSort fun a b => a.1 ≤ b.1).Pairwise fun a b => a.1 ≤ b.1 := by
  have sorted : ((indexed keys).mergeSort fun a b => a.1 ≤ b.1).Pairwise
      fun a b => decide (a.1 ≤ b.1) = true := by
    apply List.pairwise_mergeSort
    · intro a b c hab hbc
      simp only [decide_eq_true_eq] at hab hbc ⊢
      exact Nat.le_trans hab hbc
    · intro a b
      simpa using Nat.le_total a.1 b.1
  exact sorted.imp of_decide_eq_true

theorem indices_eq {l : List (Nat × PropertyKey)} (perm : (indexed keys).Perm l)
    (ascending : l.Pairwise fun a b => a.1 ≤ b.1) : indices keys = l.map Prod.snd := by
  have same : ((indexed keys).mergeSort fun a b => a.1 ≤ b.1) = l := by
    refine ((List.mergeSort_perm _ _).trans perm).eq_of_pairwise (fun a b ha hb hab hba => ?_)
      (indexed_mergeSort_pairwise keys) ascending
    obtain ⟨-, indexA⟩ := mem_indexed.1 (List.mem_mergeSort.1 ha)
    obtain ⟨-, indexB⟩ := mem_indexed.1 (perm.mem_iff.2 hb)
    have number : a.1 = b.1 := Nat.le_antisymm hab hba
    exact Prod.ext number ((indexA.eq_iff indexB).2 number)
  rw [indices, same]

theorem indices_pairwise (nodup : keys.Nodup) : (indices keys).Pairwise (Precedes given) := by
  have distinct : ((indexed keys).mergeSort fun a b => a.1 ≤ b.1).Pairwise fun a b => a.2 ≠ b.2 :=
    (List.mergeSort_perm _ _).symm.pairwise (indexed_pairwise nodup) fun apart => Ne.symm apart
  rw [indices, List.pairwise_map]
  refine ((indexed_mergeSort_pairwise keys).and distinct).imp_of_mem fun {a b} ha hb ⟨le, apart⟩ => ?_
  obtain ⟨-, indexA⟩ := mem_indexed.1 (List.mem_mergeSort.1 ha)
  obtain ⟨-, indexB⟩ := mem_indexed.1 (List.mem_mergeSort.1 hb)
  refine .ascending indexA indexB (Nat.lt_of_le_of_ne le fun same => apart ?_)
  exact (indexA.eq_iff indexB).2 same

/-- Keys that are given in the order of their first places in a list are listed in the order of
enumeration. -/
theorem enumerationOrder_pairwise (ordered : keys.Pairwise fun a b => given.idxOf a < given.idxOf b) :
    (enumerationOrder keys).Pairwise (Precedes given) := by
  have nodup : keys.Nodup := by
    refine List.Pairwise.imp (fun {a b} less => ?_) ordered
    rintro rfl
    exact Nat.lt_irrefl _ less
  rw [enumerationOrder_eq, List.pairwise_append, List.pairwise_append]
  refine ⟨⟨indices_pairwise nodup, ?_, ?_⟩, ?_, ?_⟩
  · refine (ordered.filter _).imp_of_mem fun ha hb less => ?_
    exact .names (isName_iff.2 (List.mem_filter.1 ha).2) (isName_iff.2 (List.mem_filter.1 hb).2) less
  · intro a ha b hb
    obtain ⟨-, m, index⟩ := mem_indices.1 ha
    exact .index index (isName_iff.2 (List.mem_filter.1 hb).2).2
  · refine (ordered.filter _).imp_of_mem fun ha hb less => ?_
    exact .symbols (List.mem_filter.1 ha).2 (List.mem_filter.1 hb).2 less
  · intro a ha b hb
    have symbol : b.isSymbol = true := (List.mem_filter.1 hb).2
    obtain index | name := List.mem_append.1 ha
    · obtain ⟨-, m, index⟩ := mem_indices.1 index
      exact .index index fun n => not_isIndex_of_isSymbol symbol
    · exact .name (isName_iff.2 (List.mem_filter.1 name).2) symbol

theorem Precedes.ne (precedes : Precedes given a b) : a ≠ b := by
  rintro rfl
  cases precedes with
  | ascending ha hb less => exact Nat.ne_of_lt less ((ha.eq_iff hb).1 rfl)
  | index ha hb => exact hb _ ha
  | names _ _ first => exact Nat.lt_irrefl _ first
  | name ha hb => exact Bool.false_ne_true (ha.1.symm.trans hb)
  | symbols _ _ first => exact Nat.lt_irrefl _ first

end PropertyKey

end WebBindings
