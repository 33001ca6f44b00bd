import WebBindings.Idl.Text
import WebBindings.Proofs.Motion
import WebBindings.Proofs.Text.Units
/-!
# Lone surrogates

Which surrogates of a script string stand alone can be told from their neighbours. The code points of a
string, its well-formed form, its characters and the interface type of Unicode strings all agree on them.
-/

namespace WebBindings

namespace Units

variable {u v : UInt16} {us : List UInt16} {i : Nat}

/-- A surrogate stands alone at a place: a high one without a low one next, or a low one without a high
one just before. -/
def LoneAt (us : List UInt16) (i : Nat) : Prop :=
  ∃ u, us[i]? = some u ∧
    (isHigh u = true ∧ (∀ v, us[i + 1]? = some v → isLow v = false) ∨
      isLow u = true ∧ ∀ j v, j + 1 = i → us[j]? = some v → isHigh v = false)

/-- Two parts of a text do not meet within a surrogate pair. -/
def Apart (front rest : List UInt16) : Prop :=
  ∀ u ∈ front.getLast?, ∀ v ∈ rest.head?, isHigh u = true → isLow v = false

theorem isHigh_of_isLow (low : isLow v = true) : isHigh v = false := by
  rw [isLow_iff] at low
  rw [Bool.eq_false_iff, ne_eq, isHigh_iff]
  omega

theorem single_of_isLow (low : isLow u = true) : single u = .lone u := by
  simp [single, low]

theorem codePoints_of_isLow (low : isLow v = true) (us : List UInt16) :
    codePoints (v :: us) = .lone v :: codePoints us := by
  rw [codePoints_cons, attach_of_not_isHigh (isHigh_of_isLow low), single_of_isLow low]

theorem codePoints_of_pair (high : isHigh u = true) (low : isLow v = true) (us : List UInt16) :
    codePoints (u :: v :: us) = .scalar (pair u v) :: codePoints us := by
  rw [codePoints_cons, codePoints_of_isLow low, attach, high, low]
  rfl

theorem head?_of_codePoints {rest : List CodePoint} (first : codePoints us = .lone v :: rest) :
    us.head? = some v := by
  have read := units_codePoints us
  rw [first, List.flatMap_cons] at read
  rw [← read]
  rfl

theorem codePoints_of_apart (apart : Apart [u] us) :
    codePoints (u :: us) = single u :: codePoints us := by
  rw [codePoints_cons, attach.eq_def]
  split
  · rename_i v rest first
    split
    · rename_i paired
      rw [Bool.and_eq_true] at paired
      have notLow := apart u rfl v (head?_of_codePoints first) paired.1
      rw [paired.2] at notLow
      cases notLow
    · rw [first]
  · rfl

/-- Units are read as pairs and as single units that are no front of a pair. -/
theorem read_induction {motive : List UInt16 → Prop} (nil : motive [])
    (pair : ∀ u v us, isHigh u = true → isLow v = true → motive us → motive (u :: v :: us))
    (single : ∀ u us, Apart [u] us → motive us → motive (u :: us)) (us : List UInt16) : motive us := by
  -- The unit behind a pair is two places on, so the two shortest ends go along.
  suffices both : motive us ∧ ∀ u, motive (u :: us) from both.1
  induction us with
  | nil => exact ⟨nil, fun u => single u [] (by simp [Apart]) nil⟩
  | cons v us ih =>
    refine ⟨ih.2 v, fun u => ?_⟩
    by_cases paired : isHigh u = true ∧ isLow v = true
    · exact pair u v us paired.1 paired.2 ih.1
    · refine single u (v :: us) ?_ (ih.2 v)
      simpa [Apart] using paired

theorem not_loneAt_nil : ¬ LoneAt [] i := by
  simp [LoneAt]

/-- Behind a part that does not meet the rest within a pair, the places of the rest are as they were. -/
theorem loneAt_append {front : List UInt16} (apart : Apart front us) :
    LoneAt (front ++ us) (front.length + i) ↔ LoneAt us i := by
  have behind (k : Nat) : (front ++ us)[front.length + k]? = us[k]? := by
    rw [List.getElem?_append_right (Nat.le_add_right _ _), Nat.add_sub_cancel_left]
  have before : ∀ u, us[i]? = some u → isLow u = true →
      ((∀ j v, j + 1 = front.length + i → (front ++ us)[j]? = some v → isHigh v = false) ↔
        ∀ j v, j + 1 = i → us[j]? = some v → isHigh v = false) := by
    intro u found low
    cases i with
    | zero =>
      refine ⟨fun _ j v absurd => by omega, fun _ j v last found' => ?_⟩
      have hj : j = front.length - 1 := by omega
      have inside : j < front.length := by omega
      rw [List.getElem?_append_left inside, hj, ← List.getLast?_eq_getElem?] at found'
      rw [← List.head?_eq_getElem?] at found
      by_contra high
      have notLow := apart v found' u found (by simpa using high)
      rw [low] at notLow
      cases notLow
    | succ k =>
      constructor
      · intro kept j v hj found'
        refine kept (front.length + j) v (by omega) ?_
        rw [behind]
        exact found'
      · intro kept j v hj found'
        obtain rfl : j = front.length + k := by omega
        rw [behind] at found'
        exact kept k v rfl found'
  simp only [LoneAt, behind, Nat.add_assoc]
  refine exists_congr fun u => and_congr_right fun found => or_congr_right ?_
  exact and_congr_right fun low => before u found low

theorem loneAt_zero (apart : Apart [u] us) :
    LoneAt (u :: us) 0 ↔ (isHigh u || isLow u) = true := by
  have next : isHigh u = true → ∀ v, us.head? = some v → isLow v = false :=
    fun high v first => apart u rfl v first high
  simp only [LoneAt, Bool.or_eq_true]
  constructor
  · rintro ⟨u', found, ⟨high, -⟩ | ⟨low, -⟩⟩
    · obtain rfl := Option.some.inj found
      exact .inl high
    · obtain rfl := Option.some.inj found
      exact .inr low
  · rintro (high | low)
    · refine ⟨u, rfl, .inl ⟨high, fun v found => next high v ?_⟩⟩
      rw [List.head?_eq_getElem?]
      simpa using found
    · exact ⟨u, rfl, .inr ⟨low, fun j v absurd => by omega⟩⟩

theorem not_loneAt_pair (high : isHigh u = true) (low : isLow v = true) (inside : i < 2) :
    ¬ LoneAt (u :: v :: us) i := by
  have notHigh := isHigh_of_isLow low
  have notLow : isLow u = false := by
    by_contra absurd
    rw [isHigh_of_isLow (by simpa using absurd)] at high
    cases high
  have cases : i = 0 ∨ i = 1 := by omega
  rcases cases with rfl | rfl
  · simp [LoneAt, low, notLow]
  · simp [LoneAt, high, notHigh]

theorem loneAt_succ (apart : Apart [u] us) : LoneAt (u :: us) (i + 1) ↔ LoneAt us i := by
  rw [Nat.add_comm]
  exact loneAt_append apart

theorem loneAt_behind_pair (u : UInt16) (low : isLow v = true) :
    LoneAt (u :: v :: us) (i + 2) ↔ LoneAt us i := by
  have apart : Apart [u, v] us := by simp [Apart, isHigh_of_isLow low]
  rw [Nat.add_comm]
  exact loneAt_append apart

/-- The unit of U+FFFD. -/
def replacement : UInt16 := 0xFFFD

/-- The units of the characters that are read, with U+FFFD for each surrogate that stands alone. -/
def mend (us : List UInt16) : List UInt16 :=
  (codePoints us).flatMap fun item => ofChar item.toChar

theorem mend_of_pair (high : isHigh u = true) (low : isLow v = true) (us : List UInt16) :
    mend (u :: v :: us) = u :: v :: mend us := by
  rw [mend, codePoints_of_pair high low, List.flatMap_cons, CodePoint.toChar, ofChar_pair high low]
  rfl

theorem ofChar_single (u : UInt16) :
    ofChar (single u).toChar = [if isHigh u || isLow u then replacement else u] := by
  have alone := units_single u
  rw [single] at alone ⊢
  split
  · rfl
  · rename_i plain
    rw [if_neg plain] at alone
    exact alone

theorem mend_of_apart (apart : Apart [u] us) :
    mend (u :: us) = (if isHigh u || isLow u then replacement else u) :: mend us := by
  rw [mend, codePoints_of_apart apart, List.flatMap_cons, ofChar_single]
  rfl

theorem length_mend (us : List UInt16) : (mend us).length = us.length := by
  induction us using read_induction with
  | nil => rfl
  | pair u v us high low ih => simp [mend_of_pair high low, ih]
  | single u us apart ih => simp [mend_of_apart apart, ih]

theorem getElem?_mend (us : List UInt16) (i : Nat) :
    (LoneAt us i → (mend us)[i]? = some replacement) ∧ (¬ LoneAt us i → (mend us)[i]? = us[i]?) := by
  induction us using read_induction generalizing i with
  | nil => exact ⟨fun lone => absurd lone not_loneAt_nil, fun _ => rfl⟩
  | pair u v us high low ih =>
    rw [mend_of_pair high low]
    match i with
    | 0 => exact ⟨fun lone => absurd lone (not_loneAt_pair high low (by decide)), fun _ => rfl⟩
    | 1 => exact ⟨fun lone => absurd lone (not_loneAt_pair high low (by decide)), fun _ => rfl⟩
    | i + 2 =>
      rw [loneAt_behind_pair u low]
      exact ih i
  | single u us apart ih =>
    rw [mend_of_apart apart]
    cases i with
    | zero =>
      rw [loneAt_zero apart]
      cases surrogate : isHigh u || isLow u <;> simp
    | succ i =>
      rw [loneAt_succ apart]
      exact ih i

theorem isScalar_iff_of_codePoints {before after : List CodePoint} {item : CodePoint}
    (split : codePoints us = before ++ item :: after) :
    item.isScalar = false ↔ LoneAt us (before.flatMap CodePoint.units).length := by
  induction us using read_induction generalizing before with
  | nil => simp [codePoints] at split
  | pair u v us high low ih =>
    rw [codePoints_of_pair high low] at split
    cases before with
    | nil =>
      obtain ⟨rfl, -⟩ := List.cons.inj split
      have paired : ¬ LoneAt (u :: v :: us) 0 := not_loneAt_pair high low (by decide)
      simp [CodePoint.isScalar, paired]
    | cons first before =>
      obtain ⟨rfl, later⟩ := List.cons.inj split
      rw [ih later, List.flatMap_cons, CodePoint.units, ofChar_pair high low, List.length_append,
        Nat.add_comm]
      exact (loneAt_behind_pair u low).symm
  | single u us apart ih =>
    rw [codePoints_of_apart apart] at split
    cases before with
    | nil =>
      obtain ⟨rfl, -⟩ := List.cons.inj split
      rw [List.flatMap_nil, List.length_nil, loneAt_zero apart, single]
      cases isHigh u || isLow u <;> simp [CodePoint.isScalar]
    | cons first before =>
      obtain ⟨rfl, later⟩ := List.cons.inj split
      rw [ih later, List.flatMap_cons, units_single, List.length_append, Nat.add_comm]
      exact (loneAt_succ apart).symm

theorem LoneAt.ne_replacement (lone : LoneAt us i) : us[i]? ≠ some replacement := by
  intro same
  obtain ⟨u, found, surrogate⟩ := lone
  obtain rfl : u = replacement := Option.some.inj (found.symm.trans same)
  rcases surrogate with ⟨high, -⟩ | ⟨low, -⟩
  · exact absurd high (by decide)
  · exact absurd low (by decide)

theorem mend_ne_iff (us : List UInt16) (i : Nat) : (mend us)[i]? ≠ us[i]? ↔ LoneAt us i := by
  obtain ⟨replaced, kept⟩ := getElem?_mend us i
  constructor
  · intro different
    by_contra paired
    exact different (kept paired)
  · intro lone same
    exact lone.ne_replacement (same.symm.trans (replaced lone))

theorem mend_eq_self_iff : mend us = us ↔ ∀ i, ¬ LoneAt us i := by
  constructor
  · intro same i
    rw [← mend_ne_iff, same]
    simp
  · intro paired
    apply List.ext_getElem?
    intro i
    exact (getElem?_mend us i).2 (paired i)

end Units

namespace DOMString

open WebBindings.Units

theorem ofString_text (s : DOMString) : ofString s.text = ⟨mend s.units⟩ := by
  simp only [ofString, text, chars, String.toList_ofList, mend, codePoints, List.flatMap_map]

theorem isWellFormed_ofString (t : String) : (ofString t).isWellFormed = true :=
  isWellFormed_of_spelled rfl

theorem toWellFormed_eq (s : DOMString) : s.toWellFormed = ⟨mend s.units⟩ := by
  rw [← ofString_text, toWellFormed]
  split
  · rename_i wellFormed
    have spelled := chars?_eq_some_iff.1 (if_pos wellFormed : s.chars? = some s.chars)
    simp only [ofString, text, String.toList_ofList, ← spelled]
  · simp only [ofString, text, String.toList_ofList]

theorem toWellFormed_eq_self_iff {s : DOMString} : s.toWellFormed = s ↔ s.isWellFormed = true := by
  constructor
  · intro same
    rw [← same, toWellFormed_eq, ← ofString_text]
    exact isWellFormed_ofString _
  · intro wellFormed
    rw [toWellFormed, if_pos wellFormed]

theorem outcome_toUSVString {σ : Type} (host : Host σ) (v : Value) (w : World σ) :
    outcome host (toUSVString v).run w =
      ((outcome host (toText v).run w).1.map toWellFormed, (outcome host (toText v).run w).2) := by
  obtain ⟨⟨result, w'⟩, converted⟩ : ∃ answer, outcome host (toText v).run w = answer := ⟨_, rfl⟩
  rw [converted, toUSVString]
  cases result with
  | error error => exact outcome_run_bind_of_error host _ converted
  | ok s => exact outcome_run_bind host _ converted

end DOMString

/-- Every script string has one well-formed form: as long as the string, and other than it exactly at the
surrogates that stand alone, where it has U+FFFD. The string is well formed if it is this form itself, and
if no surrogate stands alone. Its code points give the units back, and those read as surrogates are the
ones that stand alone. The characters of the string, taken as a string again, are its well-formed form,
and this is what conversion to the interface type makes of any value whose text is the string. -/
theorem views_agree_on_surrogates (s : DOMString) :
    s.toWellFormed.length = s.length ∧ s.toWellFormed.isWellFormed = true ∧
      (∀ i, (s.toWellFormed.units[i]? ≠ s.units[i]? ↔ Units.LoneAt s.units i) ∧
        (Units.LoneAt s.units i → s.toWellFormed.units[i]? = some 0xFFFD)) ∧
      (s.toWellFormed = s ↔ s.isWellFormed = true) ∧
      (s.isWellFormed = true ↔ ∀ i, ¬ Units.LoneAt s.units i) ∧
      s.toWellFormed.toWellFormed = s.toWellFormed ∧
      s.codePoints.flatMap CodePoint.units = s.units ∧
      (∀ before item after, s.codePoints = before ++ item :: after →
        (item.isScalar = false ↔ Units.LoneAt s.units (before.flatMap CodePoint.units).length)) ∧
      DOMString.ofString s.text = s.toWellFormed ∧
      ∀ {σ : Type} (host : Host σ) (v : Value) (w w' : World σ),
        outcome host (toText v).run w = (.ok s, w') →
          outcome host (toUSVString v).run w = (.ok (DOMString.ofString s.text), w') := by
  have form : s.toWellFormed = ⟨Units.mend s.units⟩ := s.toWellFormed_eq
  have spelled : DOMString.ofString s.text = s.toWellFormed := s.ofString_text.trans form.symm
  have wellFormed : s.toWellFormed.isWellFormed = true := by
    rw [← spelled]
    exact DOMString.isWellFormed_ofString _
  refine ⟨?_, wellFormed, fun i => ⟨?_, fun lone => ?_⟩, DOMString.toWellFormed_eq_self_iff, ?_,
    DOMString.toWellFormed_eq_self_iff.2 wellFormed, Units.units_codePoints _,
    fun before item after split => Units.isScalar_iff_of_codePoints split, spelled, ?_⟩
  · rw [form]
    exact Units.length_mend _
  · rw [form]
    exact Units.mend_ne_iff _ i
  · rw [form]
    exact (Units.getElem?_mend _ i).1 lone
  · rw [← DOMString.toWellFormed_eq_self_iff, form, ← Units.mend_eq_self_iff]
    exact ⟨congrArg DOMString.units, congrArg DOMString.mk⟩
  · intro σ host v w w' converted
    rw [DOMString.outcome_toUSVString, converted, spelled]
    rfl

/-- Of two high and two low surrogates in a row, the inner ones are a pair and the outer ones stand
alone. -/
theorem outer_surrogates_stand_alone :
    let s : DOMString := ⟨[0xD83D, 0xD83D, 0xDE00, 0xDE00]⟩
    Units.LoneAt s.units 0 ∧ s.toWellFormed.units[0]? = some 0xFFFD ∧
      s.codePoints = [.lone 0xD83D, .scalar '😀'] ++ .lone 0xDE00 :: [] ∧ Units.LoneAt s.units 3 ∧
      ∀ {σ : Type} (host : Host σ) (w : World σ), outcome host (toText (.string s)).run w = (.ok s, w) ∧
        outcome host (toUSVString (.string s)).run w = (.ok (.ofString s.text), w) := by
  intro s
  obtain ⟨-, -, places, -, -, -, -, items, -, converts⟩ := views_agree_on_surrogates s
  have first : Units.LoneAt s.units 0 :=
    ⟨0xD83D, rfl, .inl ⟨by decide, fun v next => by obtain rfl := Option.some.inj next; decide⟩⟩
  have read : s.codePoints = [.lone 0xD83D, .scalar '😀'] ++ .lone 0xDE00 :: [] := by decide
  exact ⟨first, (places 0).2 first, read, (items _ _ _ read).1 rfl,
    fun host w => ⟨rfl, converts host _ w w rfl⟩⟩

end WebBindings
