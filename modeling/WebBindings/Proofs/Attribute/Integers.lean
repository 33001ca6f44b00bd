import WebBindings.Proofs.Attribute.Writing
import WebBindings.Proofs.Idl.Integer
import WebBindings.Proofs.Number.LeadingInteger
/-!
# Integer properties

Integer properties are written as decimal text and read back from it. The number that a value converts
to comes back as far as it is in the range of the property; otherwise the default comes back, or setting
it is refused.
-/

namespace WebBindings

variable {σ : Type} {host : Host σ}

/-- The types of integer properties are narrow enough for their decimal text to be read back. -/
theorem IntegerType.Holds.kept {t : IntegerType} (narrow : t.bits = 32) {n : ℤ} (holds : t.Holds n) :
    n.natAbs ≤ AttributeNumber.maxMagnitude := by
  have : AttributeNumber.maxMagnitude = 9223372036854775807 := rfl
  cases t <;> simp [Holds, isSigned, bits] at holds narrow <;> omega

theorem IntegerType.long_holds_iff {n : ℤ} :
    long.Holds n ↔ long.lower ≤ n ∧ n ≤ Reflector.maxInt := by
  have hlower : long.lower = -2147483648 := rfl
  have hmax : Reflector.maxInt = 2147483647 := rfl
  simp only [Holds, isSigned, bits, if_true]
  omega

namespace Reflector

variable {n : ℤ}

theorem intInRange?_toString {least : ℤ} (nonneg : 0 ≤ least)
    (kept : n.natAbs ≤ AttributeNumber.maxMagnitude) :
    intInRange? least (some (toString n)) = if least ≤ n ∧ n ≤ maxInt then some n else none := by
  rw [intInRange?, Option.bind_some, AttributeNumber.nonNegative?_toString kept]
  by_cases hn : 0 ≤ n
  · rw [if_pos hn, Option.filter_some]
    simp
  · rw [if_neg hn, if_neg (by omega)]
    rfl

theorem getD_intInRange? {least : ℤ} (nonneg : 0 ≤ least)
    (kept : n.natAbs ≤ AttributeNumber.maxMagnitude) (default : ℤ) :
    (intInRange? least (some (toString n))).getD default =
      if least ≤ n ∧ n ≤ maxInt then n else default := by
  rw [intInRange?_toString nonneg kept]
  split <;> rfl

/-- The default that is written for a large integer is also read where it is itself out of range. -/
theorem getD_intInRange?_written {least d : ℤ} (nonneg : 0 ≤ least) (above : least ≤ n)
    (hn : IntegerType.unsignedLong.Holds n) (hd : IntegerType.unsignedLong.Holds d) :
    (intInRange? least (some (toString (if n ≤ maxInt then n else d)))).getD d =
      if n ≤ maxInt then n else d := by
  by_cases small : n ≤ maxInt
  · rw [if_pos small, getD_intInRange? nonneg (hn.kept rfl), if_pos ⟨above, small⟩]
  · -- Out of range, the written default is no integer to the reader, who takes the default then.
    rw [if_neg small, getD_intInRange? nonneg (hd.kept rfl), ite_self]

theorem ofText_clampedInt_toString {lower upper : ℤ} (proper : lower ≤ upper) (default : ℤ)
    (holds : IntegerType.unsignedLong.Holds n) :
    (clampedInt lower upper default).ofText (some (toString n)) = (max lower (min upper n) : ℤ) := by
  have nonneg : 0 ≤ n := holds.1
  simp only [ofText, Option.bind_some, AttributeNumber.nonNegative?_toString (holds.kept rfl),
    if_pos nonneg]
  change (if n < lower then lower else if upper < n then upper else n : ℤ) = max lower (min upper n)
  split_ifs <;> omega

theorem ofText_int_toString (default : ℤ) (holds : IntegerType.long.Holds n) :
    (int default).ofText (some (toString n)) = n := by
  have within := IntegerType.holds_iff.1 holds
  simp only [ofText, Option.bind_some, AttributeNumber.integer?_toString (holds.kept rfl),
    Option.filter_some, within, and_self, decide_true, if_true, Option.getD_some]
  rfl

theorem writeUnsigned_change (name : String) (default n : ℤ) :
    (writeUnsigned name default n).change =
      .set (toString (if n ≤ maxInt then n else default)) := by
  rw [writeUnsigned]
  by_cases large : maxInt < n
  · rw [if_pos large, if_neg (by omega)]
  · rw [if_neg large, if_pos (by omega)]
    rfl

/-- Setting the property comes to a good end, and getting it then gives a content. -/
def SetsTo (r : Reflector) (host : Host σ) (w : World σ) (id : ElementId) (name : String)
    (value : Value) (content : r.Content) : Prop :=
  ∃ w', outcome host (r.set id name value).run w = (.ok ⟨⟩, w') ∧ r.get w' id name = content

/-- Setting the property is refused with an index size error that shows a number, and the attributes of
the element stay. -/
def Refuses (r : Reflector) (host : Host σ) (w : World σ) (id : ElementId) (name : String)
    (value : Value) (n : ℤ) : Prop :=
  ∃ w', outcome host (r.set id name value).run w =
      (.error (.fault (.indexSize (toString n) name)), w') ∧
    (w'.element id).attributes = (w.element id).attributes

section Setting

variable {r : Reflector} {w w' : World σ} {id : ElementId} {name : String} {value : Value}
  {content : r.Content}

theorem read_eq_ofText (alone : ∀ resolver base, r ≠ .url resolver base) (view : AttributeView) :
    r.read view = r.ofText view.text := by
  rw [read]
  exact alone

theorem SetsTo.of_text {a : AttributeWrite} {text : String} {result : r.Content}
    (coerced : outcome host (r.coerce value).run w = (.ok content, w'))
    (writing : r.writing name content = .ok a) (set : a.change = .set text)
    (valid : Element.isValidAttributeName name = true) (housed : id.index < w'.elements.size)
    (alone : ∀ resolver base, r ≠ .url resolver base) (reads : r.ofText (some text) = result) :
    r.SetsTo host w id name value result := by
  obtain ⟨w'', happly, writes⟩ := a.apply_writes host id (fun _ _ => valid) w'
  refine ⟨w'', ?_, ?_⟩
  · rw [Reflector.set, outcome_run_bind host _ coerced, write, writing]
    exact happly
  · rw [get, read_eq_ofText alone, World.attributeView, writes.written housed, set]
    exact reads

theorem Refuses.of_fault {n : ℤ} (coerced : outcome host (r.coerce value).run w = (.ok content, w'))
    (writing : r.writing name content = .error (.indexSize (toString n) name))
    (same : w'.elements[id.index]? = w.elements[id.index]?) : r.Refuses host w id name value n := by
  refine ⟨w', ?_, ?_⟩
  · rw [Reflector.set, outcome_run_bind host _ coerced, write, writing]
    rfl
  · rw [World.element, same, World.element]

end Setting

section Kinds

variable {w w' : World σ} {id : ElementId} {name : String} {value : Value} {n u d : ℤ}
  (valid : Element.isValidAttributeName name = true) (housed : id.index < w'.elements.size)

section Signed

variable (coerced : outcome host (toInteger .long .modulo value).run w = (.ok n, w'))
  (holds : IntegerType.long.Holds n)

include valid housed coerced holds

theorem int_setsTo (d : ℤ) : (int d).SetsTo host w id name value n :=
  .of_text coerced rfl rfl valid housed nofun (ofText_int_toString d holds)

theorem nonNegativeInt_setsTo (nonneg : 0 ≤ n) (d : ℤ) :
    (nonNegativeInt d).SetsTo host w id name value n := by
  refine .of_text coerced (if_neg (not_lt.2 nonneg)) rfl valid housed nofun ?_
  have within : 0 ≤ n ∧ n ≤ maxInt := ⟨nonneg, (IntegerType.long_holds_iff.1 holds).2⟩
  exact (getD_intInRange? le_rfl (holds.kept rfl) d).trans (if_pos within)

end Signed

section Unsigned

variable (coerced : outcome host (toInteger .unsignedLong .modulo value).run w = (.ok u, w'))
  (hu : IntegerType.unsignedLong.Holds u) (hd : IntegerType.unsignedLong.Holds d)

include valid housed coerced hu hd

theorem unsignedInt_setsTo :
    (unsignedInt d).SetsTo host w id name value (if u ≤ maxInt then u else d : ℤ) :=
  .of_text coerced rfl (writeUnsigned_change name d u) valid housed nofun
    (getD_intInRange?_written le_rfl hu.1 hu hd)

theorem positiveInt_setsTo (positive : u ≠ 0) :
    (positiveInt d).SetsTo host w id name value (if u ≤ maxInt then u else d : ℤ) := by
  have above : 1 ≤ u := lt_of_le_of_ne hu.1 positive.symm
  exact .of_text coerced (if_neg positive) (writeUnsigned_change name d u) valid housed nofun
    (getD_intInRange?_written (by decide) above hu hd)

theorem positiveIntOrDefault_setsTo :
    (positiveIntOrDefault d).SetsTo host w id name value (if 1 ≤ u ∧ u ≤ maxInt then u else d : ℤ) := by
  by_cases zero : u = 0
  · rw [if_neg fun within => absurd within.1 (by omega)]
    refine .of_text coerced rfl (by rw [if_pos zero]) valid housed nofun ?_
    exact (getD_intInRange? (by decide) (hd.kept rfl) d).trans (ite_self d)
  · have above : 1 ≤ u := lt_of_le_of_ne hu.1 (Ne.symm zero)
    refine .of_text coerced rfl ((congrArg _ (if_neg zero)).trans (writeUnsigned_change name d u))
      valid housed nofun ?_
    simp only [above, true_and]
    exact getD_intInRange?_written (by decide) above hu hd

theorem clampedInt_setsTo {lower upper : ℤ} (proper : lower ≤ upper) :
    (clampedInt lower upper d).SetsTo host w id name value
      (max lower (min upper (if u ≤ maxInt then u else d)) : ℤ) := by
  refine .of_text coerced rfl (writeUnsigned_change name d u) valid housed nofun ?_
  refine ofText_clampedInt_toString proper d ?_
  split
  · exact hu
  · exact hd

end Unsigned

end Kinds

end Reflector

/-- The number that a value converts to comes back from an integer property. The signed kinds take it as
a `long`, one of them refusing negative numbers. The unsigned kinds take it as an `unsigned long`; one too
great for the attribute gives the default, and so does zero where only positive numbers are kept, if it
is not refused. The clamped kind brings whatever was written into its bounds. -/
theorem integer_properties_read_back {w w' : World σ} {id : ElementId} {name : String} {value : Value}
    {x : Double} (valid : Element.isValidAttributeName name = true)
    (housed : id.index < w.elements.size)
    (number : outcome host (toNumber value).run w = (.ok x, w'))
    (untouched : w'.elements[id.index]? = w.elements[id.index]?) :
    ∃ n u : ℤ, (∀ m, IntegerType.long.Represents x m ↔ m = n) ∧
      (∀ m, IntegerType.unsignedLong.Represents x m ↔ m = u) ∧
      outcome host (toInteger .long .modulo value).run w = (.ok n, w') ∧
      outcome host (toInteger .unsignedLong .modulo value).run w = (.ok u, w') ∧
      (∀ d, (Reflector.int d).SetsTo host w id name value n) ∧
      (∀ d, if n < 0 then (Reflector.nonNegativeInt d).Refuses host w id name value n
        else (Reflector.nonNegativeInt d).SetsTo host w id name value n) ∧
      ∀ d, IntegerType.unsignedLong.Holds d →
        (Reflector.unsignedInt d).SetsTo host w id name value (if u ≤ 2 ^ 31 - 1 then u else d : ℤ) ∧
        (if u = 0 then (Reflector.positiveInt d).Refuses host w id name value 0
          else (Reflector.positiveInt d).SetsTo host w id name value
            (if u ≤ 2 ^ 31 - 1 then u else d : ℤ)) ∧
        (Reflector.positiveIntOrDefault d).SetsTo host w id name value
          (if 1 ≤ u ∧ u ≤ 2 ^ 31 - 1 then u else d : ℤ) ∧
        ∀ lower upper, lower ≤ upper →
          (Reflector.clampedInt lower upper d).SetsTo host w id name value
            (max lower (min upper (if u ≤ 2 ^ 31 - 1 then u else d)) : ℤ) := by
  obtain ⟨n, hn, represents⟩ := toInteger_modulo number .long
  obtain ⟨u, hu, represents'⟩ := toInteger_modulo number .unsignedLong
  have holds : IntegerType.long.Holds n := ((represents n).2 rfl).1
  have holds' : IntegerType.unsignedLong.Holds u := ((represents' u).2 rfl).1
  have housed' : id.index < w'.elements.size :=
    (Array.getElem?_eq_some_iff.1 (untouched.trans (Array.getElem?_eq_getElem housed))).1
  refine ⟨n, u, represents, represents', hn, hu, ?_, ?_, ?_⟩
  · exact Reflector.int_setsTo valid housed' hn holds
  · intro d
    split
    · exact .of_fault hn (if_pos ‹_›) untouched
    · exact Reflector.nonNegativeInt_setsTo valid housed' hn holds (by omega) d
  · intro d hd
    refine ⟨?_, ?_, ?_, fun lower upper proper => ?_⟩
    · exact Reflector.unsignedInt_setsTo valid housed' hu holds' hd
    · split
      · rename_i zero
        subst zero
        exact .of_fault hu rfl untouched
      · exact Reflector.positiveInt_setsTo valid housed' hu holds' hd ‹_›
    · exact Reflector.positiveIntOrDefault_setsTo valid housed' hu holds' hd
    · exact Reflector.clampedInt_setsTo valid housed' hu holds' hd proper

/-- A negative number with a fraction, that an object gives when it is asked, comes back as a `long`, is
too great as an `unsigned long`, and is refused where negative numbers are. -/
theorem negative_number_reads_back :
    let host := (Embedder.answering " -129.5 ").host
    let w : World Unit := { labeledWorld with heap := numericHeap }
    (Reflector.int 7).SetsTo host w ⟨0⟩ "Cols" (.object ⟨8⟩) (-129 : ℤ) ∧
      (Reflector.nonNegativeInt (-1)).Refuses host w ⟨0⟩ "Cols" (.object ⟨8⟩) (-129) ∧
      (Reflector.unsignedInt 7).SetsTo host w ⟨0⟩ "Cols" (.object ⟨8⟩) (7 : ℤ) ∧
      (Reflector.clampedInt 10 20 7).SetsTo host w ⟨0⟩ "Cols" (.object ⟨8⟩) (10 : ℤ) := by
  intro host w
  let asked := (toNumber (.object ⟨8⟩) : Script Unit Double).run
  have answered : (outcome host asked w).1 = .ok belowByte := by decide +kernel
  have number : outcome host asked w = (.ok belowByte, after host asked w) := by
    rw [after, ← answered]
  have valid : Element.isValidAttributeName "Cols" = true := by decide +kernel
  have housed : (⟨0⟩ : ElementId).index < w.elements.size := by decide
  obtain ⟨n, u, hn, hu, -, -, signed, nonNegative, unsigned⟩ :=
    integer_properties_read_back valid housed number rfl
  have whole (t : IntegerType) (m : ℤ) (holds : t.Holds m) (same : m ≡ -129 [ZMOD 2 ^ t.bits]) :
      t.Represents belowByte m := by
    rw [IntegerType.represents_iff belowByte_value, wholePart_belowByte]
    exact ⟨holds, same⟩
  obtain rfl : -129 = n := (hn _).1 (whole .long _ (by decide) (by decide))
  obtain rfl : 4294967167 = u := (hu _).1 (whole .unsignedLong _ (by decide) (by decide))
  exact ⟨signed 7, nonNegative (-1), (unsigned 7 (by decide)).1,
    (unsigned 7 (by decide)).2.2.2 10 20 (by decide)⟩

end WebBindings
