import Mathlib.Data.List.Basic
import WebBindings.Text.Units
/-!
# Well-formed script strings

The code points of a script string tell its units. A string is well-formed if it spells characters, and
these are the only ones that it spells.
-/

namespace WebBindings

namespace Units

variable {u v : UInt16} {us : List UInt16}

theorem isHigh_iff : isHigh u = true ↔ 0xD800 ≤ u.toNat ∧ u.toNat < 0xDC00 := by
  simp [isHigh]

theorem isLow_iff : isLow u = true ↔ 0xDC00 ≤ u.toNat ∧ u.toNat < 0xE000 := by
  simp [isLow]

theorem toNat_ofNat {n : Nat} (valid : n.isValidChar) : (Char.ofNat n).toNat = n := by
  rw [Char.ofNat, dif_pos valid]
  rfl

theorem toNat_pair (high : isHigh u = true) (low : isLow v = true) :
    (pair u v).toNat = 0x10000 + (u.toNat - 0xD800) * 0x400 + (v.toNat - 0xDC00) := by
  rw [isHigh_iff] at high
  rw [isLow_iff] at low
  exact toNat_ofNat (.inr ⟨by omega, by omega⟩)

theorem ofChar_pair (high : isHigh u = true) (low : isLow v = true) : ofChar (pair u v) = [u, v] := by
  have value := toNat_pair high low
  rw [isHigh_iff] at high
  rw [isLow_iff] at low
  have hu : (0xD800 + ((pair u v).toNat - 0x10000) / 0x400).toUInt16 = u := by
    have : 0xD800 + ((pair u v).toNat - 0x10000) / 0x400 = u.toNat := by omega
    rw [this]
    exact UInt16.ofNat_toNat
  have hv : (0xDC00 + ((pair u v).toNat - 0x10000) % 0x400).toUInt16 = v := by
    have : 0xDC00 + ((pair u v).toNat - 0x10000) % 0x400 = v.toNat := by omega
    rw [this]
    exact UInt16.ofNat_toNat
  rw [ofChar, if_neg (by omega)]
  simp only [hu, hv]

theorem units_single (u : UInt16) : (single u).units = [u] := by
  rw [single]
  split
  · rfl
  · rename_i alone
    rw [Bool.or_eq_true, isHigh_iff, isLow_iff] at alone
    have small : u.toNat < 0x10000 := u.toNat_lt
    have value : (Char.ofNat u.toNat).toNat = u.toNat :=
      toNat_ofNat (by unfold Nat.isValidChar; omega)
    change ofChar (Char.ofNat u.toNat) = [u]
    rw [ofChar, value, if_pos small]
    exact congrArg (List.cons · []) UInt16.ofNat_toNat

theorem codePoints_cons (u : UInt16) (us : List UInt16) :
    codePoints (u :: us) = attach u (codePoints us) := rfl

theorem units_attach (u : UInt16) (items : List CodePoint) :
    (attach u items).flatMap CodePoint.units = u :: items.flatMap CodePoint.units := by
  rw [attach.eq_def]
  split
  · split
    · rename_i v rest paired
      rw [Bool.and_eq_true] at paired
      rw [List.flatMap_cons, CodePoint.units, ofChar_pair paired.1 paired.2]
      rfl
    · rw [List.flatMap_cons, units_single]
      rfl
  · rw [List.flatMap_cons, units_single]
    rfl

theorem units_codePoints (us : List UInt16) : (codePoints us).flatMap CodePoint.units = us := by
  induction us with
  | nil => rfl
  | cons u us ih => rw [codePoints_cons, units_attach, ih]

theorem toNat_toUInt16 {n : Nat} (small : n < 0x10000) : n.toUInt16.toNat = n :=
  Nat.mod_eq_of_lt small

theorem single_of_scalar {c : Char} (small : c.toNat < 0x10000) :
    isHigh c.toNat.toUInt16 = false ∧ single c.toNat.toUInt16 = .scalar c := by
  have value : c.toNat.toUInt16.toNat = c.toNat := toNat_toUInt16 small
  have proper : c.toNat < 0xD800 ∨ 0xDFFF < c.toNat ∧ c.toNat < 0x110000 := c.valid
  have high : isHigh c.toNat.toUInt16 = false := by
    rw [Bool.eq_false_iff, ne_eq, isHigh_iff]
    omega
  have low : isLow c.toNat.toUInt16 = false := by
    rw [Bool.eq_false_iff, ne_eq, isLow_iff]
    omega
  refine ⟨high, ?_⟩
  rw [single, high, low, value, Char.ofNat_toNat]
  rfl

theorem attach_of_not_isHigh (notHigh : isHigh u = false) (items : List CodePoint) :
    attach u items = single u :: items := by
  rw [attach.eq_def]
  split
  · rw [notHigh]
    rfl
  · rfl

/-- Reading the units of a character takes it as one, whatever follows. -/
theorem codePoints_ofChar_append (c : Char) (us : List UInt16) :
    codePoints (ofChar c ++ us) = .scalar c :: codePoints us := by
  rw [ofChar]
  split
  · rename_i small
    obtain ⟨notHigh, same⟩ := single_of_scalar small
    rw [List.singleton_append, codePoints_cons, attach_of_not_isHigh notHigh, same]
  · rename_i large
    have proper : c.toNat < 0xD800 ∨ 0xDFFF < c.toNat ∧ c.toNat < 0x110000 := c.valid
    obtain ⟨u, hu⟩ : ∃ u, (0xD800 + (c.toNat - 0x10000) / 0x400).toUInt16 = u := ⟨_, rfl⟩
    obtain ⟨v, hv⟩ : ∃ v, (0xDC00 + (c.toNat - 0x10000) % 0x400).toUInt16 = v := ⟨_, rfl⟩
    have hu' : u.toNat = 0xD800 + (c.toNat - 0x10000) / 0x400 := by
      rw [← hu, toNat_toUInt16 (by omega)]
    have hv' : v.toNat = 0xDC00 + (c.toNat - 0x10000) % 0x400 := by
      rw [← hv, toNat_toUInt16 (by omega)]
    have high : isHigh u = true := isHigh_iff.2 (by omega)
    have low : isLow v = true := isLow_iff.2 (by omega)
    have notHigh : isHigh v = false := by
      rw [Bool.eq_false_iff, ne_eq, isHigh_iff]
      omega
    have alone : single v = .lone v := by
      rw [single, low, Bool.or_true]
      rfl
    have same : pair u v = c := Char.toNat_inj.1 ((toNat_pair high low).trans (by omega))
    simp only [hu, hv]
    rw [List.cons_append, List.singleton_append, codePoints_cons, codePoints_cons,
      attach_of_not_isHigh notHigh, alone, attach, high, low, same]
    rfl

theorem codePoints_flatMap_ofChar (cs : List Char) :
    codePoints (cs.flatMap ofChar) = cs.map .scalar := by
  induction cs with
  | nil => rfl
  | cons c cs ih => rw [List.flatMap_cons, codePoints_ofChar_append, ih, List.map_cons]

end Units

namespace DOMString

theorem codePoints_of_isWellFormed {s : DOMString} (wellFormed : s.isWellFormed = true) :
    s.codePoints = s.chars.map .scalar := by
  rw [chars, List.map_map]
  refine (List.map_id _).symm.trans (List.map_congr_left fun item mem => ?_)
  have scalar := List.all_eq_true.1 wellFormed item mem
  cases item with
  | scalar c => rfl
  | lone u => cases scalar

theorem chars?_eq_some_iff {s : DOMString} {cs : List Char} :
    s.chars? = some cs ↔ s.units = cs.flatMap Units.ofChar := by
  rw [chars?, Option.ite_none_right_eq_some, Option.some.injEq]
  constructor
  · rintro ⟨wellFormed, rfl⟩
    have read := Units.units_codePoints s.units
    rw [← codePoints, codePoints_of_isWellFormed wellFormed, List.flatMap_map] at read
    exact read.symm
  · intro spelled
    have read : s.codePoints = cs.map .scalar := by
      rw [codePoints, spelled, Units.codePoints_flatMap_ofChar]
    constructor
    · rw [isWellFormed, read, List.all_map]
      exact List.all_eq_true.2 fun _ _ => rfl
    · rw [chars, read, List.map_map]
      exact List.map_id cs

theorem isWellFormed_of_spelled {s : DOMString} {cs : List Char}
    (spelled : s.units = cs.flatMap Units.ofChar) : s.isWellFormed = true := by
  have read := chars?_eq_some_iff.2 spelled
  rw [chars?, Option.ite_none_right_eq_some] at read
  exact read.1

end DOMString

end WebBindings
