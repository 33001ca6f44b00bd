import Mathlib.Data.Int.ModEq
import WebBindings.Idl.Integer
import WebBindings.Proofs.Motion
import WebBindings.Proofs.Number.Integral
import WebBindings.Proofs.Script.Freezing
/-!
# Numbers as integers

What becomes of a number in each of the integer types, told by its rational value: the congruent value
of the type, the number itself without its fraction or an error, or the nearest value within bounds.
-/

namespace WebBindings

variable {σ : Type}

namespace IntegerType

/-- The values of a type. -/
def Holds (t : IntegerType) (n : ℤ) : Prop :=
  if t.isSigned then -2 ^ (t.bits - 1) ≤ n ∧ n < 2 ^ (t.bits - 1) else 0 ≤ n ∧ n < 2 ^ t.bits

instance (t : IntegerType) (n : ℤ) : Decidable (t.Holds n) := inferInstanceAs (Decidable (ite _ _ _))

/-- The values of a type up to which numbers of scripts hold every integer. -/
def Keeps (t : IntegerType) (n : ℤ) : Prop := t.Holds n ∧ |n| ≤ 2 ^ 53 - 1

variable {t : IntegerType} {m n : ℤ}

/-- The least integer that clamping and enforcing keep. -/
def lower (t : IntegerType) : ℤ := if t.bits = 64 then (if t.isSigned then -(2 ^ 53 - 1) else 0) else t.least

def upper (t : IntegerType) : ℤ := if t.bits = 64 then 2 ^ 53 - 1 else t.greatest

/-- The value of the type that is congruent to an integer. -/
def wrap (t : IntegerType) (n : ℤ) : ℤ :=
  if t.isSigned then Int.bmod n (2 ^ t.bits) else n % 2 ^ t.bits

theorem holds_iff : t.Holds n ↔ t.least ≤ n ∧ n ≤ t.greatest := by
  cases t <;> simp [Holds, least, greatest, isSigned, bits] <;> omega

theorem keeps_iff : t.Keeps n ↔ t.lower ≤ n ∧ n ≤ t.upper := by
  rw [Keeps, abs_le]
  cases t <;> simp [Holds, lower, upper, least, greatest, isSigned, bits] <;> omega

theorem lower_le_upper (t : IntegerType) : t.lower ≤ t.upper := by
  cases t <;> decide

theorem isLeast_lower (t : IntegerType) : IsLeast {n | t.Keeps n} t.lower :=
  ⟨keeps_iff.2 ⟨le_rfl, t.lower_le_upper⟩, fun _ hn => (keeps_iff.1 hn).1⟩

theorem isGreatest_upper (t : IntegerType) : IsGreatest {n | t.Keeps n} t.upper :=
  ⟨keeps_iff.2 ⟨t.lower_le_upper, le_rfl⟩, fun _ hn => (keeps_iff.1 hn).2⟩

theorem wrap_holds (t : IntegerType) (n : ℤ) : t.Holds (t.wrap n) := by
  cases t <;> simp [Holds, wrap, isSigned, bits, Int.bmod_def] <;> omega

theorem wrap_modEq (t : IntegerType) (n : ℤ) : t.wrap n ≡ n [ZMOD 2 ^ t.bits] := by
  cases t <;> simp [Int.ModEq, wrap, isSigned, bits, Int.bmod_def] <;> omega

theorem Holds.eq_of_modEq (hm : t.Holds m) (hn : t.Holds n) (same : m ≡ n [ZMOD 2 ^ t.bits]) : m = n := by
  cases t <;> simp [Holds, Int.ModEq, isSigned, bits] at hm hn same <;> omega

/-- An integer has one representative among the values of a type. -/
theorem wrap_eq_iff : t.Holds m ∧ m ≡ n [ZMOD 2 ^ t.bits] ↔ m = t.wrap n := by
  constructor
  · rintro ⟨holds, same⟩
    exact holds.eq_of_modEq (t.wrap_holds n) (same.trans (t.wrap_modEq n).symm)
  · rintro rfl
    exact ⟨t.wrap_holds n, t.wrap_modEq n⟩

theorem keeps_convex (k l : ℤ) (hk : t.Keeps k) (hl : t.Keeps l) (j : ℤ) (hkj : k ≤ j) (hjl : j ≤ l) :
    t.Keeps j := by
  rw [keeps_iff] at hk hl ⊢
  omega

/-- What becomes of a finite number in each mode. -/
structure Converts (t : IntegerType) (q : ℚ) (answer : IntegerMode → Except Fault Int) : Prop where
  modulo : ∃ n, answer .modulo = .ok n ∧
    ∀ m, t.Holds m ∧ m ≡ wholePart q [ZMOD 2 ^ t.bits] ↔ m = n
  kept : t.Keeps (wholePart q) → answer .enforceRange = .ok (wholePart q)
  refused : ¬ t.Keeps (wholePart q) → answer .enforceRange = .error (.outsideRangeOf t.name)
  clamp : ∃ n, answer .clamp = .ok n ∧ ∀ m, IsNearest t.Keeps q m ↔ m = n

namespace Converts

variable {q : ℚ} {answer : IntegerMode → Except Fault Int}

theorem of_enforced (converts : t.Converts q answer) (enforced : answer .enforceRange = .ok n) :
    t.Keeps n ∧ n = wholePart q := by
  by_cases hkeeps : t.Keeps (wholePart q)
  · obtain rfl := Except.ok.inj ((converts.kept hkeeps).symm.trans enforced)
    exact ⟨hkeeps, rfl⟩
  · rw [converts.refused hkeeps] at enforced
    cases enforced

theorem modulo_of_enforced (converts : t.Converts q answer) (enforced : answer .enforceRange = .ok n) :
    answer .modulo = .ok n := by
  obtain ⟨⟨holds, -⟩, rfl⟩ := converts.of_enforced enforced
  obtain ⟨m, hm, hunique⟩ := converts.modulo
  rw [hm, (hunique _).1 ⟨holds, Int.ModEq.refl _⟩]

theorem clamp_of_enforced {k : ℤ} (converts : t.Converts k answer)
    (enforced : answer .enforceRange = .ok n) : answer .clamp = .ok n := by
  obtain ⟨keeps, rfl⟩ := converts.of_enforced enforced
  obtain ⟨m, hm, hunique⟩ := converts.clamp
  have hnearest : IsNearest t.Keeps k (wholePart k) := by
    rw [wholePart_intCast] at keeps ⊢
    exact .of_near keeps (by simp) fun tie => by norm_num at tie
  rw [hm, (hunique _).1 hnearest]

end Converts

theorem toNat_ofInt (low : 0 ≤ n) (high : n < 2 ^ 64) : ((UInt64.ofInt n).toNat : ℤ) = n := by
  rw [UInt64.ofInt, UInt64.toNat_ofNat']
  omega

/-- The remainder is negative for negative numbers. Wrapping the negated word around makes it the one of
the division that rounds down. -/
theorem toNat_toWord {x : Double} (value : x.toRat? = some (n : ℚ)) :
    ((toWord x).toNat : ℤ) = n % 2 ^ 64 := by
  have hdivisor : (Double.ofNat (2 ^ 64)).toRat? = some (((2 ^ 64 : ℕ) : ℤ) : ℚ) :=
    Double.toRat?_ofInt (s := 1) (e := 64) rfl (by norm_num) (by norm_num)
  have hrem := Double.toRat?_rem value hdivisor (by norm_num)
  have hsize : (((2 ^ 64 : ℕ) : ℤ)) = 2 ^ 64 := by norm_num
  rw [hsize] at hrem
  have hsplit := Int.tmod_add_mul_tdiv n (2 ^ 64)
  have hless := Int.tmod_lt_of_pos n (by norm_num : (0 : ℤ) < 2 ^ 64)
  have hmore := Int.lt_tmod_of_pos n (by norm_num : (0 : ℤ) < 2 ^ 64)
  generalize n.tmod (2 ^ 64) = r at hrem hsplit hless hmore
  have hsign : (Double.zero false).le (x.rem (.ofNat (2 ^ 64))) = true ↔ 0 ≤ r := by
    rw [Double.le_iff (Double.toRat?_zero false) hrem]
    exact_mod_cast Iff.rfl
  rw [toWord]
  by_cases nonneg : 0 ≤ r
  · rw [if_pos (hsign.2 nonneg), Double.toUInt64, Double.saturate_of_within hrem nonneg (by omega),
      toNat_ofInt nonneg hless]
    omega
  · have hneg : (x.rem (.ofNat (2 ^ 64))).neg.toRat? = some ((-r : ℤ) : ℚ) := by
      rw [Double.toRat?_neg hrem]
      push_cast
      rfl
    have hword := toNat_ofInt (n := -r) (by omega) (by omega)
    rw [if_neg (mt hsign.1 nonneg), Double.toUInt64,
      Double.saturate_of_within hneg (by omega) (by omega), UInt64.toNat_neg, UInt64.size]
    omega

theorem ofWord_eq (t : IntegerType) (word : UInt64) : t.ofWord word = t.wrap word.toNat := by
  have hword := word.toNat_lt
  cases t with
  | unsignedLongLong =>
    simp [ofWord, wrap, isSigned, bits]
    omega
  | _ => simp [ofWord, wrap, isSigned, bits, BitVec.toInt_eq_toNat_bmod, Int.bmod_def]

theorem wrap_emod (t : IntegerType) (n : ℤ) : t.wrap (n % 2 ^ 64) = t.wrap n := by
  cases t <;> simp [wrap, isSigned, bits, Int.bmod_def]

theorem ofInRange_eq {x : Double} (value : x.toRat? = some (n : ℚ)) (holds : t.Holds n) :
    t.ofInRange x = n := by
  obtain ⟨low, high⟩ := holds_iff.1 holds
  exact Double.saturate_of_within value low high

theorem ofInRange_zero (t : IntegerType) : t.ofInRange (.zero false) = 0 := by
  cases t <;> decide +kernel

theorem bounds_eq (t : IntegerType) : t.bounds = (.ofInt t.lower, .ofInt t.upper) := by
  cases t <;> decide +kernel

theorem toRat?_bounds (t : IntegerType) :
    t.bounds.1.toRat? = some (t.lower : ℚ) ∧ t.bounds.2.toRat? = some (t.upper : ℚ) := by
  have hsmall : t.lower.natAbs < 2 ^ 53 ∧ t.upper.natAbs < 2 ^ 53 := by cases t <;> decide
  rw [bounds_eq]
  dsimp only
  exact ⟨Double.toRat?_ofInt_of_lt hsmall.1, Double.toRat?_ofInt_of_lt hsmall.2⟩

theorem ofInRange_roundTiesEven {x : Double} (value : x.toRat? = some (n : ℚ)) (holds : t.Holds n) :
    t.ofInRange x.roundTiesEven.dropZeroSign = n := by
  obtain ⟨m, hround, near, -⟩ := Double.toRat?_roundTiesEven value
  have same : m = n := by
    have hclose : |((n - m : ℤ) : ℚ)| < 1 := by
      push_cast
      linarith
    have hless : |n - m| < 1 := by exact_mod_cast hclose
    have := Int.abs_lt_one_iff.1 hless
    omega
  subst same
  apply ofInRange_eq _ holds
  rw [Double.toRat?_dropZeroSign, hround]

section Finite

variable {x : Double} {q : ℚ} (value : x.toRat? = some q)

include value

theorem ofDouble_modulo_of_finite : t.ofDouble .modulo x = .ok (t.wrap (wholePart q)) := by
  have hnumber : x.dropZeroSign.toRat? = some q := by rw [Double.toRat?_dropZeroSign, value]
  have hwhole := Double.toRat?_integerPart hnumber
  simp only [ofDouble]
  rw [if_pos (Double.isFinite_of_toRat? hnumber), ofWord_eq, toNat_toWord hwhole, wrap_emod]

theorem ofDouble_enforceRange_of_finite : t.ofDouble .enforceRange x =
    if t.lower ≤ wholePart q ∧ wholePart q ≤ t.upper then .ok (wholePart q)
    else .error (.outsideRangeOf t.name) := by
  have hnumber : x.dropZeroSign.toRat? = some q := by rw [Double.toRat?_dropZeroSign, value]
  have hwhole := Double.toRat?_integerPart hnumber
  obtain ⟨hlower, hupper⟩ := t.toRat?_bounds
  have hbelow : x.dropZeroSign.integerPart.lt t.bounds.1 = true ↔ wholePart q < t.lower := by
    rw [Double.lt_iff hwhole hlower, Int.cast_lt]
  have habove : t.bounds.2.lt x.dropZeroSign.integerPart = true ↔ t.upper < wholePart q := by
    rw [Double.lt_iff hupper hwhole, Int.cast_lt]
  simp only [ofDouble]
  rw [if_pos (Double.isFinite_of_toRat? hnumber)]
  simp only [Bool.or_eq_true, hbelow, habove]
  by_cases keeps : t.lower ≤ wholePart q ∧ wholePart q ≤ t.upper
  · rw [if_neg (by omega), if_pos keeps, ofInRange_eq hwhole (keeps_iff.2 keeps).1]
  · rw [if_pos (by omega), if_neg keeps]

theorem ofDouble_clamp_of_finite : ∃ n, t.ofDouble .clamp x = .ok n ∧ IsNearest t.Keeps q n := by
  have hnumber : x.dropZeroSign.toRat? = some q := by rw [Double.toRat?_dropZeroSign, value]
  obtain ⟨hlower, hupper⟩ := t.toRat?_bounds
  have hclamp := Double.toRat?_clamp hnumber hlower hupper
  have hproper : (t.lower : ℚ) ≤ t.upper := Int.cast_le.2 t.lower_le_upper
  have hlow := t.isLeast_lower.1
  have hhigh := t.isGreatest_upper.1
  simp only [ofDouble]
  rw [if_neg (by simp [Double.isNaN_of_toRat? hnumber])]
  by_cases below : q ≤ t.lower
  · rw [max_eq_left below, min_eq_right hproper] at hclamp
    rw [ofInRange_roundTiesEven hclamp hlow.1]
    exact ⟨t.lower, rfl, .of_le hlow (fun k hk => t.isLeast_lower.2 hk) below⟩
  rw [not_le] at below
  rw [max_eq_right below.le] at hclamp
  by_cases above : t.upper ≤ q
  · rw [min_eq_left above] at hclamp
    rw [ofInRange_roundTiesEven hclamp hhigh.1]
    exact ⟨t.upper, rfl, .of_ge hhigh (fun k hk => t.isGreatest_upper.2 hk) above⟩
  rw [not_le] at above
  rw [min_eq_right above.le] at hclamp
  obtain ⟨n, hround, near, even⟩ := Double.toRat?_roundTiesEven hclamp
  have keeps : t.Keeps n := keeps_iff.2 (IsNearest.between near below above)
  rw [ofInRange_eq (by rw [Double.toRat?_dropZeroSign, hround]) keeps.1]
  exact ⟨n, rfl, .of_near keeps near even⟩

theorem ofDouble_converts (t : IntegerType) : t.Converts q fun mode => t.ofDouble mode x := by
  constructor
  · exact ⟨t.wrap (wholePart q), ofDouble_modulo_of_finite value, fun m => wrap_eq_iff⟩
  · intro keeps
    simp only [ofDouble_enforceRange_of_finite value]
    rw [if_pos (keeps_iff.1 keeps)]
  · intro outside
    simp only [ofDouble_enforceRange_of_finite value]
    rw [if_neg (mt keeps_iff.2 outside)]
  · obtain ⟨n, hclamp, nearest⟩ := ofDouble_clamp_of_finite (t := t) value
    refine ⟨n, hclamp, fun m => ⟨fun other => other.unique keeps_convex nearest, ?_⟩⟩
    rintro rfl
    exact nearest

end Finite

section Other

variable {x : Double} (absent : x.toRat? = none)

include absent

theorem ofDouble_modulo_of_none : t.ofDouble .modulo x = .ok 0 := by
  have hnumber : x.dropZeroSign.isFinite = false := by
    rw [Double.isFinite_dropZeroSign, Double.isFinite_of_none absent]
  simp only [ofDouble, hnumber, Bool.false_eq_true, if_false, ofInRange_zero]

theorem ofDouble_enforceRange_of_none : t.ofDouble .enforceRange x = .error (.notFiniteFor t.name) := by
  have hnumber : x.dropZeroSign.isFinite = false := by
    rw [Double.isFinite_dropZeroSign, Double.isFinite_of_none absent]
  simp only [ofDouble, hnumber, Bool.false_eq_true, if_false]

end Other

theorem ofDouble_clamp_nan (t : IntegerType) : t.ofDouble .clamp .nan = .ok 0 := by
  have hnumber : Double.nan.dropZeroSign.isNaN = true := rfl
  simp only [ofDouble, hnumber, if_true, ofInRange_zero]

theorem ofDouble_clamp_infinite (t : IntegerType) (negative : Bool) :
    t.ofDouble .clamp (.infinite negative) = .ok (if negative then t.lower else t.upper) := by
  obtain ⟨hlower, hupper⟩ := t.toRat?_bounds
  have hproper : t.bounds.2.lt t.bounds.1 = false := by
    rw [Bool.eq_false_iff, ne_eq, Double.lt_iff hupper hlower, Int.cast_lt, not_lt]
    exact t.lower_le_upper
  have hclamp := Double.clamp_infinite (Double.isFinite_of_toRat? hlower)
    (Double.isFinite_of_toRat? hupper) hproper negative
  change Except.ok (t.ofInRange ((Double.infinite negative).clamp t.bounds.1
    t.bounds.2).roundTiesEven.dropZeroSign) = _
  rw [hclamp]
  cases negative with
  | false => exact congrArg Except.ok (ofInRange_roundTiesEven hupper t.isGreatest_upper.1.1)
  | true => exact congrArg Except.ok (ofInRange_roundTiesEven hlower t.isLeast_lower.1.1)

/-- The value of a type that represents a number: the one congruent to the number without its fraction,
or zero for no number. -/
def Represents (t : IntegerType) (x : Double) (n : ℤ) : Prop :=
  t.Holds n ∧ match x.toRat? with
    | some q => n ≡ wholePart q [ZMOD 2 ^ t.bits]
    | none => n = 0

theorem represents_iff {x : Double} {q : ℚ} (value : x.toRat? = some q) :
    t.Represents x n ↔ t.Holds n ∧ n ≡ wholePart q [ZMOD 2 ^ t.bits] := by
  rw [Represents, value]

theorem Represents.unique {x : Double} (hm : t.Represents x m) (hn : t.Represents x n) : m = n := by
  obtain ⟨holds, value⟩ := hm
  obtain ⟨holds', value'⟩ := hn
  cases hx : x.toRat? with
  | none =>
    rw [hx] at value value'
    rw [value, value']
  | some q =>
    rw [hx] at value value'
    exact holds.eq_of_modEq holds' (value.trans value'.symm)

theorem ofDouble_modulo (t : IntegerType) (x : Double) :
    ∃ n, t.ofDouble .modulo x = .ok n ∧ t.Represents x n := by
  cases hx : x.toRat? with
  | none =>
    have hzero : t.Holds 0 := by cases t <;> decide
    exact ⟨0, ofDouble_modulo_of_none hx, hzero, by rw [hx]⟩
  | some q =>
    refine ⟨t.wrap (wholePart q), ofDouble_modulo_of_finite hx, ?_⟩
    exact (represents_iff hx).2 ⟨t.wrap_holds _, t.wrap_modEq _⟩

theorem category_of_ofDouble {mode : IntegerMode} {x : Double} {fault : Fault}
    (failed : t.ofDouble mode x = .error fault) : fault.category = .native .type := by
  cases mode with
  | modulo | clamp =>
    simp only [ofDouble] at failed
    split at failed <;> cases failed
  | enforceRange =>
    simp only [ofDouble] at failed
    split at failed
    · split at failed <;> cases failed
      rfl
    · cases failed
      rfl

end IntegerType

theorem toInteger_modulo {host : Host σ} {value : Value} {w w' : World σ} {x : Double}
    (number : outcome host (toNumber value).run w = (.ok x, w')) (t : IntegerType) :
    ∃ n, outcome host (toInteger t .modulo value).run w = (.ok n, w') ∧
      ∀ m, t.Represents x m ↔ m = n := by
  obtain ⟨n, hn, represents⟩ := t.ofDouble_modulo x
  refine ⟨n, ?_, fun m => ⟨fun other => other.unique represents, ?_⟩⟩
  · rw [toInteger, outcome_run_bind host _ number, hn]
    rfl
  · rintro rfl
    exact represents

/-- A value that converts to a number converts to each integer type by what the number is. A finite
number is wrapped to the congruent value of the type, is kept without its fraction or refused with a
type error, or becomes the nearest value within bounds, the even one of two. Infinite numbers and `nan`
become zero, are refused, or become a bound and zero. Where a number is kept, wrapping agrees, and so
does clamping if it has no fraction. -/
theorem numbers_become_integers {host : Host σ} {value : Value} {w w' : World σ} {x : Double}
    (number : outcome host (toNumber value).run w = (.ok x, w')) (t : IntegerType) :
    ∃ answer : IntegerMode → Except Fault Int,
      (∀ mode, outcome host (toInteger t mode value).run w = ((answer mode).mapError .fault, w')) ∧
      (∀ q, x.toRat? = some q → t.Converts q answer) ∧
      (x.toRat? = none →
        answer .modulo = .ok 0 ∧ answer .enforceRange = .error (.notFiniteFor t.name)) ∧
      (x = .nan → answer .clamp = .ok 0) ∧
      (x = .infinite true → ∃ n, answer .clamp = .ok n ∧ IsLeast {m | t.Keeps m} n) ∧
      (x = .infinite false → ∃ n, answer .clamp = .ok n ∧ IsGreatest {m | t.Keeps m} n) ∧
      (∀ mode fault, answer mode = .error fault → fault.category = .native .type) ∧
      ∀ n, answer .enforceRange = .ok n → answer .modulo = .ok n ∧
        ∀ k : ℤ, x.toRat? = some (k : ℚ) → answer .clamp = .ok n := by
  refine ⟨fun mode => t.ofDouble mode x, ?_, fun q value => IntegerType.ofDouble_converts value t, ?_, ?_, ?_, ?_, ?_, ?_⟩
  · intro mode
    rw [toInteger, outcome_run_bind host _ number, outcome_settle]
  · intro absent
    exact ⟨IntegerType.ofDouble_modulo_of_none absent, IntegerType.ofDouble_enforceRange_of_none absent⟩
  · rintro rfl
    exact t.ofDouble_clamp_nan
  · rintro rfl
    exact ⟨t.lower, t.ofDouble_clamp_infinite true, t.isLeast_lower⟩
  · rintro rfl
    exact ⟨t.upper, t.ofDouble_clamp_infinite false, t.isGreatest_upper⟩
  · exact fun mode fault => IntegerType.category_of_ofDouble
  · intro n enforced
    cases value : x.toRat? with
    | none =>
      have refused := IntegerType.ofDouble_enforceRange_of_none (t := t) value
      cases refused.symm.trans enforced
    | some q =>
      refine ⟨(IntegerType.ofDouble_converts value t).modulo_of_enforced enforced, ?_⟩
      intro k whole
      obtain rfl := Option.some.inj whole
      exact (IntegerType.ofDouble_converts value t).clamp_of_enforced enforced

/-- An embedder whose functions answer with a text. -/
def Embedder.answering (text : String) : Embedder Unit :=
  { Embedder.mute with call := fun _ _ _ w => (.ok (.ofText text), w) }

/-- A heap with an object that is asked for a number through a function of the embedder. -/
def numericHeap : Heap :=
  ⟨Heap.initial.objects ++
    #[(Object.blank .ordinary none).define (.ofText "valueOf") (.data (.object ⟨9⟩)),
      Object.function "valueOf" (.external 0) Heap.functionPrototype]⟩

/-- The number `-129.5`. -/
def belowByte : Double := .finite true ⟨259 * 2 ^ 44, 1029, by decide, .inr (by decide), by decide⟩

theorem belowByte_value : belowByte.toRat? = some (-259 / 2) := by
  norm_num [belowByte, Double.toRat?, Magnitude.toRat]

theorem wholePart_belowByte : wholePart (-259 / 2) = -129 := by
  norm_num [wholePart]

/-- An object that answers with a text just below the bytes: wrapping leads to the other end of their
range, clamping to the nearer one. -/
theorem object_below_bytes :
    let run (mode : IntegerMode) : Except ScriptError Int :=
      (outcome (Embedder.answering " -129.5 ").host (toInteger .byte mode (.object ⟨8⟩)).run
        { World.initial ⟨⟩ with heap := numericHeap }).1
    run .modulo = .ok 127 ∧ run .clamp = .ok (-128) ∧
      run .enforceRange = .error (.fault (.outsideRangeOf "byte")) := by
  intro run
  let host := (Embedder.answering " -129.5 ").host
  let w : World Unit := { World.initial ⟨⟩ with heap := numericHeap }
  let asked := (toNumber (.object ⟨8⟩) : Script Unit Double).run
  have answered : (outcome host asked w).1 = .ok belowByte := by decide +kernel
  have number : outcome host asked w = (.ok belowByte, after host asked w) := by
    rw [after, ← answered]
  obtain ⟨answer, runs, finite, -⟩ := numbers_become_integers number .byte
  obtain ⟨⟨m, hm, wrapped⟩, -, refused, n, hn, clamped⟩ := finite _ belowByte_value
  rw [wholePart_belowByte] at wrapped refused
  have least (k : ℤ) (hk : IntegerType.byte.Keeps k) : -128 ≤ k := (IntegerType.keeps_iff.1 hk).1
  obtain rfl : 127 = m := (wrapped 127).1 ⟨by simp [IntegerType.Holds, IntegerType.isSigned,
    IntegerType.bits], by decide⟩
  obtain rfl : -128 = n := (clamped (-128)).1 <|
    .of_le (IntegerType.keeps_iff.2 (by decide)) least (by norm_num)
  refine ⟨?_, ?_, ?_⟩
  · change (outcome host _ w).1 = _
    rw [runs, hm]
    rfl
  · change (outcome host _ w).1 = _
    rw [runs, hn]
    rfl
  · change (outcome host _ w).1 = _
    rw [runs, refused fun inside => absurd (least _ inside) (by decide)]
    rfl

end WebBindings
