import WebBindings.Proofs.Number.Numeral
/-!
# Numbers in front of a text

Attributes read a number from the front of a text, behind white space and an optional sign. The longest
front that is a number counts. It is put together anew for the parser of numbers, with the same value.
-/

namespace WebBindings.AttributeNumber

variable {text : String} {c e : Char} {cs digits digits' part part' rest tail tail' sign : List Char}
  {negative negative' : Bool} {l : DecimalLiteral}

/-- A text is white space, an optional sign and a rest. -/
structure Opens (text : String) (negative : Bool) (sign rest : List Char) : Prop where
  signed : Sign negative sign
  spaced : ∃ blanks, text.toList = blanks ++ (sign ++ rest) ∧ ∀ c ∈ blanks, Ascii.isWhitespace c = true

namespace Opens

theorem skipWhitespace (opens : Opens text negative sign (c :: rest))
    (first : Ascii.isDigit c = true ∨ c = '.') : skipWhitespace text = sign ++ c :: rest := by
  obtain ⟨signed, blanks, split, all⟩ := opens
  rw [AttributeNumber.skipWhitespace, split, List.dropWhile_append_of_pos all]
  cases signed with
  | absent =>
    apply List.dropWhile_cons_of_neg
    intro blank
    simp only [Ascii.isWhitespace, Bool.or_eq_true, decide_eq_true_eq] at blank
    rcases blank with (((rfl | rfl) | rfl) | rfl) | rfl <;> simp [Ascii.isDigit] at first
  | plus => exact List.dropWhile_cons_of_neg (by decide)
  | minus => exact List.dropWhile_cons_of_neg (by decide)

theorem unsigned_eq (opens : Opens text negative sign (c :: rest))
    (first : Ascii.isDigit c = true ∨ c = '.') :
    Literal.unsigned (AttributeNumber.skipWhitespace text) = (negative, c :: rest) := by
  rw [opens.skipWhitespace first, Literal.unsigned_of_first first opens.signed]

theorem unsigned_digits (opens : Opens text negative sign (digits ++ rest)) (nonempty : digits ≠ [])
    (decimal : Decimal digits) :
    Literal.unsigned (AttributeNumber.skipWhitespace text) = (negative, digits ++ rest) := by
  obtain ⟨c, cs, rfl⟩ := List.exists_cons_of_ne_nil nonempty
  have first : Ascii.isDigit c = true := decimal c List.mem_cons_self
  exact opens.unsigned_eq (.inl first)

end Opens

theorem exists_opens (text : String) :
    ∃ sign, Opens text (Literal.unsigned (skipWhitespace text)).1 sign
      (Literal.unsigned (skipWhitespace text)).2 := by
  obtain ⟨sign, signed, split⟩ := Literal.exists_sign (skipWhitespace text)
  refine ⟨sign, signed, text.toList.takeWhile Ascii.isWhitespace, ?_, ?_⟩
  · rw [← split, skipWhitespace, List.takeWhile_append_dropWhile]
  · intro c mem
    exact List.mem_takeWhile_imp mem

theorem exists_digits (cs : List Char) :
    ∃ digits rest, cs = digits ++ rest ∧ Decimal digits ∧ NoDigit rest := by
  refine ⟨cs.takeWhile Ascii.isDigit, cs.dropWhile Ascii.isDigit, ?_⟩
  exact span_isDigit_eq_iff.1 (List.span_eq_takeWhile_dropWhile _ _)

theorem exists_digits_of_first (digit : Ascii.isDigit c = true) (cs : List Char) :
    ∃ digits rest, c :: cs = digits ++ rest ∧ digits ≠ [] ∧ Decimal digits ∧ NoDigit rest := by
  obtain ⟨digits, rest, split, decimal, stop⟩ := exists_digits (c :: cs)
  refine ⟨digits, rest, split, ?_, decimal, stop⟩
  rintro rfl
  rw [stop c cs split.symm] at digit
  cases digit

theorem span_digits (decimal : Decimal digits) (stop : NoDigit rest) :
    (digits ++ rest).span Ascii.isDigit = (digits, rest) :=
  span_isDigit_eq_iff.2 ⟨rfl, decimal, stop⟩

theorem takeWhile_digits (decimal : Decimal digits) (stop : NoDigit rest) :
    (digits ++ rest).takeWhile Ascii.isDigit = digits := by
  have read := span_digits decimal stop
  rw [List.span_eq_takeWhile_dropWhile] at read
  exact (Prod.mk.inj read).1

theorem digits_append_eq (decimal' : Decimal digits') (stop : NoDigit rest)
    (same : digits' ++ tail = digits ++ rest) :
    ∃ more, digits = digits' ++ more ∧ tail = more ++ rest := by
  rcases List.append_eq_append_iff.1 same with ⟨more, hdigits, htail⟩ | ⟨more, hdigits, hrest⟩
  · exact ⟨more, hdigits, htail⟩
  · cases more with
    | nil => exact ⟨[], by simpa using hdigits.symm, by simpa using hrest.symm⟩
    | cons c more =>
      have digit : Ascii.isDigit c = true := decimal' c (by simp [hdigits])
      rw [stop c _ hrest] at digit
      cases digit

theorem eq_of_point (decimal' : Decimal digits') (decimal : Decimal digits) (stop : NoDigit rest)
    (same : digits' ++ '.' :: tail = digits ++ rest) : digits' = digits ∧ rest = '.' :: tail := by
  have read : (digits' ++ '.' :: tail).span Ascii.isDigit = (digits', '.' :: tail) :=
    span_digits decimal' noDigit_point
  rw [same, span_digits decimal stop] at read
  obtain ⟨hdigits, hrest⟩ := Prod.mk.inj read
  exact ⟨hdigits.symm, hrest⟩

theorem exponentText_cons (e : Char) (cs : List Char) :
    exponentText (e :: cs) =
      if e = 'e' ∨ e = 'E' then
        if (Literal.unsigned cs).2.takeWhile Ascii.isDigit = [] then []
        else 'e' :: ((if (Literal.unsigned cs).1 then ['-'] else []) ++
          (Literal.unsigned cs).2.takeWhile Ascii.isDigit)
      else [] := by
  simp only [exponentText, Bool.or_eq_true, decide_eq_true_eq, List.isEmpty_iff]

/-- The longest front of a text that is an exponent; it can be empty. -/
structure ExponentFront (cs part tail : List Char) (negative : Bool) (digits : List Char) : Prop where
  scale : ExponentPart negative digits part
  split : cs = part ++ tail
  longest : ∀ {negative' digits' part' tail'}, ExponentPart negative' digits' part' →
    cs = part' ++ tail' → part'.length ≤ part.length

theorem exponent_front_cases (scale : ExponentPart negative digits part)
    (split : e :: cs = part ++ tail) :
    part = [] ∨ (e = 'e' ∨ e = 'E') ∧ digits ≠ [] ∧ Decimal digits ∧
      ∃ sign, part = e :: (sign ++ digits) ∧ cs = sign ++ (digits ++ tail) ∧
        Literal.unsigned cs = (negative, digits ++ tail) := by
  cases scale with
  | absent => exact .inl rfl
  | @present e' negative sign digits letter signed nonempty decimal =>
    rw [List.cons_append, List.cons_append, List.cons.injEq, List.append_assoc] at split
    obtain ⟨rfl, rfl⟩ := split
    have unsigned := Literal.unsigned_of_digits nonempty decimal signed tail
    exact .inr ⟨letter, nonempty, decimal, sign, rfl, rfl, unsigned⟩

theorem ExponentFront.empty
    (unread : ∀ negative digits part tail, ExponentPart negative digits part → cs = part ++ tail →
      part = []) : ExponentFront cs [] cs false [] := by
  refine ⟨.absent, rfl, ?_⟩
  intro negative digits part tail scale split
  rw [unread negative digits part tail scale split]

theorem ExponentFront.present (letter : e = 'e' ∨ e = 'E') (signed : Sign negative sign)
    (nonempty : digits ≠ []) (decimal : Decimal digits) (stop : NoDigit tail) :
    ExponentFront (e :: (sign ++ (digits ++ tail))) (e :: (sign ++ digits)) tail negative digits := by
  refine ⟨.present letter signed nonempty decimal, by simp, ?_⟩
  intro negative' digits' part' tail' scale' split'
  rcases exponent_front_cases scale' split' with none | ⟨-, -, decimal', sign', rfl, same, read'⟩
  · simp [none]
  · have read := Literal.unsigned_of_digits nonempty decimal signed tail
    have unsigned : digits' ++ tail' = digits ++ tail := (Prod.mk.inj (read'.symm.trans read)).2
    obtain ⟨more, hmore, -⟩ := digits_append_eq decimal' stop unsigned
    rw [unsigned] at same
    rw [List.append_cancel_right same, hmore]
    simp

theorem exists_exponentFront (cs : List Char) :
    ∃ part tail negative digits, ExponentFront cs part tail negative digits ∧
      ExponentPart negative digits (exponentText cs) := by
  cases cs with
  | nil =>
    refine ⟨[], [], false, [], .empty ?_, .absent⟩
    intro negative digits part tail scale split
    exact (List.append_eq_nil_iff.1 split.symm).1
  | cons e cs =>
    obtain ⟨sign, signed, split⟩ := Literal.exists_sign cs
    obtain ⟨digits, tail, hunsigned, decimal, stop⟩ := exists_digits (Literal.unsigned cs).2
    rw [exponentText_cons, hunsigned, takeWhile_digits decimal stop]
    by_cases read : (e = 'e' ∨ e = 'E') ∧ digits ≠ []
    · obtain ⟨letter, nonempty⟩ := read
      rw [hunsigned] at split
      rw [if_pos letter, if_neg nonempty, split]
      refine ⟨_, _, _, _, .present letter signed nonempty decimal stop, ?_⟩
      rw [← split]
      refine .present (.inl rfl) ?_ nonempty decimal
      cases (Literal.unsigned cs).1
      exacts [.absent, .minus]
    · have none : (if e = 'e' ∨ e = 'E' then
          if digits = [] then []
          else 'e' :: ((if (Literal.unsigned cs).1 then ['-'] else []) ++ digits)
        else []) = [] := by
        split_ifs with letter nonempty
        · rfl
        · exact absurd ⟨letter, nonempty⟩ read
        · rfl
      rw [none]
      refine ⟨[], _, false, [], .empty ?_, .absent⟩
      intro negative' digits' part' tail' scale' split'
      rcases exponent_front_cases scale' split' with none | ⟨letter, nonempty', decimal', -, -, -, read'⟩
      · exact none
      · rw [read'] at hunsigned
        obtain ⟨more, rfl, -⟩ := digits_append_eq decimal' stop hunsigned
        exact absurd ⟨letter, by simp [nonempty']⟩ read

/-- What is read as an unsigned number in front of a rest: digits, which no point follows, with an optional
exponent; digits and a point; digits behind a point, with or without others before it, and an optional
exponent. -/
inductive NumberFront (rest : List Char) : List Char → DecimalLiteral → Prop
  | whole {whole exponent part : List Char} {negative : Bool} (nonempty : whole ≠ [])
      (decimal : Decimal whole) (scale : ExponentPart negative exponent part)
      (pointless : ∀ tail, part ++ rest ≠ '.' :: tail) :
      NumberFront rest (whole ++ part) ⟨whole, [], negative, exponent⟩
  | point {whole : List Char} (nonempty : whole ≠ []) (decimal : Decimal whole) :
      NumberFront rest (whole ++ ['.']) ⟨whole, [], false, []⟩
  | fraction {whole fraction exponent part : List Char} {negative : Bool} (decimal : Decimal whole)
      (nonempty : fraction ≠ []) (decimal' : Decimal fraction)
      (scale : ExponentPart negative exponent part) :
      NumberFront rest (whole ++ '.' :: fraction ++ part) ⟨whole, fraction, negative, exponent⟩

namespace NumberFront

theorem numeral (front : NumberFront rest part l) : Numeral true part l := by
  cases front with
  | whole nonempty decimal scale pointless => exact .whole nonempty decimal scale
  | @point whole nonempty decimal =>
    have numeral : Numeral true (whole ++ '.' :: [] ++ []) ⟨whole, [], false, []⟩ :=
      .mixed nonempty decimal (.inr rfl) nofun .absent
    rwa [List.append_nil] at numeral
  | @fraction whole fraction exponent part negative decimal nonempty decimal' scale =>
    by_cases bare : whole = []
    · subst bare
      exact .fraction nonempty decimal' scale
    · exact .mixed bare decimal (.inr rfl) decimal' scale

theorem of_numeral (numeral : Numeral false part l) : NumberFront [] part l := by
  cases numeral with
  | whole nonempty decimal scale =>
    refine .whole nonempty decimal scale ?_
    intro tail point
    rw [List.append_nil] at point
    cases scale with
    | absent => cases point
    | present letter => rcases letter with rfl | rfl <;> cases point
  | mixed nonempty decimal nonempty' decimal' scale =>
    exact .fraction decimal (nonempty'.resolve_right Bool.false_ne_true) decimal' scale
  | @fraction fraction exponent part negative nonempty decimal scale =>
    have nothing : Decimal [] := nofun
    exact .fraction nothing nonempty decimal scale

end NumberFront

/-- The longest front of a text that is a number. -/
structure LongestFront (cs part rest : List Char) (l : DecimalLiteral) : Prop where
  split : cs = part ++ rest
  front : NumberFront rest part l
  longest : ∀ {part' rest' l'}, cs = part' ++ rest' → NumberFront rest' part' l' →
    part'.length ≤ part.length

variable {whole fraction exponent exponent' : List Char}

/-- Of digits with an exponent in front of a text, all digits with their exponent are the longest. -/
theorem length_digits_exponent_le (decimal : Decimal digits) (stop : NoDigit rest)
    (exponentFront : ExponentFront rest part tail negative exponent) (decimal' : Decimal digits')
    (scale' : ExponentPart negative' exponent' part') (same : digits ++ rest = digits' ++ part' ++ tail') :
    (digits' ++ part').length ≤ (digits ++ part).length := by
  rw [List.append_assoc] at same
  obtain ⟨more, rfl, hmore⟩ := digits_append_eq decimal' stop same.symm
  cases more with
  | nil =>
    have shorter := exponentFront.longest scale' hmore.symm
    simpa using shorter
  | cons c more =>
    -- An exponent does not begin with a digit, so there is none behind some of the digits.
    have digit : Ascii.isDigit c = true := decimal c (by simp)
    cases part' with
    | nil => simp
    | cons c' part' =>
      obtain rfl : c' = c := (List.cons.inj hmore).1
      rw [scale'.noDigit c' part' rfl] at digit
      cases digit

theorem exponentFront_point : ExponentFront ('.' :: rest) [] ('.' :: rest) false [] := by
  apply ExponentFront.empty
  intro negative exponent part tail scale split
  cases scale with
  | absent => rfl
  | present letter =>
    obtain rfl := (List.cons.inj split).1
    rcases letter with letter | letter <;> cases letter

namespace LongestFront

theorem of_whole (nonempty : whole ≠ []) (decimal : Decimal whole) (stop : NoDigit rest)
    (pointless : ∀ tail, rest ≠ '.' :: tail)
    (exponentFront : ExponentFront rest part tail negative exponent) :
    LongestFront (whole ++ rest) (whole ++ part) tail ⟨whole, [], negative, exponent⟩ := by
  have pointless' : ∀ more, part ++ tail ≠ '.' :: more := exponentFront.split ▸ pointless
  refine ⟨by simp [exponentFront.split], .whole nonempty decimal exponentFront.scale pointless', ?_⟩
  intro part' rest' l' split front
  cases front with
  | whole nonempty' decimal' scale =>
    exact length_digits_exponent_le decimal stop exponentFront decimal' scale split
  | point nonempty' decimal' =>
    rw [List.append_assoc] at split
    obtain ⟨-, point⟩ := eq_of_point decimal' decimal stop split.symm
    exact absurd point (pointless _)
  | fraction decimal' =>
    rw [List.append_assoc, List.append_assoc] at split
    obtain ⟨-, point⟩ := eq_of_point decimal' decimal stop split.symm
    exact absurd point (pointless _)

theorem of_point (nonempty : whole ≠ []) (decimal : Decimal whole) (stop : NoDigit rest) :
    LongestFront (whole ++ '.' :: rest) (whole ++ ['.']) rest ⟨whole, [], false, []⟩ := by
  refine ⟨by simp, .point nonempty decimal, ?_⟩
  intro part' rest' l' split front
  cases front with
  | whole nonempty' decimal' scale =>
    have shorter := length_digits_exponent_le decimal noDigit_point exponentFront_point decimal' scale split
    rw [List.append_nil] at shorter
    exact shorter.trans (by simp)
  | point nonempty' decimal' =>
    rw [List.append_assoc] at split
    obtain ⟨rfl, -⟩ := eq_of_point decimal' decimal noDigit_point split.symm
    exact le_rfl
  | fraction decimal' nonempty' hfraction scale =>
    rw [List.append_assoc, List.append_assoc] at split
    obtain ⟨-, behind⟩ := eq_of_point decimal' decimal noDigit_point split.symm
    obtain ⟨c, cs, rfl⟩ := List.exists_cons_of_ne_nil nonempty'
    have digit : Ascii.isDigit c = true := hfraction c List.mem_cons_self
    rw [stop c _ (List.cons.inj behind).2] at digit
    cases digit

theorem of_fraction (decimal : Decimal whole) (nonempty : fraction ≠ []) (hfraction : Decimal fraction)
    (stop : NoDigit rest) (exponentFront : ExponentFront rest part tail negative exponent) :
    LongestFront (whole ++ '.' :: (fraction ++ rest)) (whole ++ '.' :: fraction ++ part) tail
      ⟨whole, fraction, negative, exponent⟩ := by
  refine ⟨by simp [exponentFront.split], .fraction decimal nonempty hfraction exponentFront.scale, ?_⟩
  intro part' rest' l' split front
  cases front with
  | whole nonempty' decimal' scale =>
    have shorter := length_digits_exponent_le decimal noDigit_point exponentFront_point decimal' scale split
    rw [List.append_nil] at shorter
    exact shorter.trans (by simp)
  | point nonempty' decimal' =>
    rw [List.append_assoc] at split
    obtain ⟨rfl, -⟩ := eq_of_point decimal' decimal noDigit_point split.symm
    simp
  | fraction decimal' nonempty' hfraction' scale =>
    rw [List.append_assoc, List.append_assoc] at split
    obtain ⟨rfl, behind⟩ := eq_of_point decimal' decimal noDigit_point split.symm
    have same := (List.cons.inj behind).2.trans (List.append_assoc _ _ _).symm
    have shorter := length_digits_exponent_le hfraction stop exponentFront hfraction' scale same
    simp only [List.length_append, List.length_cons] at shorter ⊢
    omega

end LongestFront

theorem startsWithFraction_eq_true_iff :
    startsWithFraction cs = true ↔ ∃ c rest, cs = '.' :: c :: rest ∧ Ascii.isDigit c = true := by
  constructor
  · intro starts
    unfold startsWithFraction at starts
    split at starts
    · exact ⟨_, _, rfl, starts⟩
    · cases starts
  · rintro ⟨c, rest, rfl, digit⟩
    exact digit

/-- A literal that the parser of numbers reads with the value of another one. -/
def Rewrites (l : DecimalLiteral) (text : List Char) : Prop :=
  ∃ l', Numeral true text l' ∧ ∀ negative, l'.value negative = l.value negative

/-- A text begins with a number, and its longest one is put together anew. -/
def ReadsFront (cs : List Char) : Prop :=
  ∃ part rest l text, LongestFront cs part rest l ∧ literalText? cs = some text ∧ Rewrites l text

theorem behindWhole_point (nonempty : fraction ≠ []) (decimal : Decimal fraction) (stop : NoDigit rest) :
    behindWhole ('.' :: (fraction ++ rest)) = '.' :: fraction ++ exponentText rest := by
  simp only [behindWhole, span_digits decimal stop]
  rw [if_neg (by simpa using nonempty)]

theorem behindWhole_barePoint (stop : NoDigit rest) : behindWhole ('.' :: rest) = [] := by
  have bare : rest.span Ascii.isDigit = ([], rest) := span_isDigit_eq_iff.2 ⟨rfl, nofun, stop⟩
  simp only [behindWhole, bare]
  rfl

/-- A zero before the point does not change the value. -/
theorem readsFront_of_startsWithFraction (starts : startsWithFraction cs = true) : ReadsFront cs := by
  obtain ⟨c, after, rfl, digit⟩ := startsWithFraction_eq_true_iff.1 starts
  obtain ⟨fraction, rest, split, nonempty, decimal, stop⟩ := exists_digits_of_first digit after
  rw [split] at starts ⊢
  obtain ⟨part, tail, negative, exponent, exponentFront, scale⟩ := exists_exponentFront rest
  have nothing : Decimal [] := nofun
  have front := LongestFront.of_fraction nothing nonempty decimal stop exponentFront
  have zero : Numeral true (['0'] ++ '.' :: fraction ++ exponentText rest)
      ⟨['0'], fraction, negative, exponent⟩ :=
    .mixed (List.cons_ne_nil _ _) (List.forall_mem_singleton.2 rfl) (.inr rfl) decimal scale
  have read : literalText? ('.' :: (fraction ++ rest)) =
      some (['0'] ++ '.' :: fraction ++ exponentText rest) := by
    simp only [literalText?, starts, if_true, behindWhole_point nonempty decimal stop]
    rfl
  exact ⟨_, _, _, _, front, read, _, zero, fun _ => rfl⟩

theorem readsFront_of_digits (starts : startsWithFraction (whole ++ rest) = false) (nonempty : whole ≠ [])
    (decimal : Decimal whole) (stop : NoDigit rest) : ReadsFront (whole ++ rest) := by
  have read : literalText? (whole ++ rest) = some (whole ++ behindWhole rest) := by
    simp only [literalText?, starts, Bool.false_eq_true, if_false, span_digits decimal stop]
    rw [if_neg (by simpa using nonempty)]
  by_cases point : ∃ afterPoint, rest = '.' :: afterPoint
  · obtain ⟨afterPoint, rfl⟩ := point
    obtain ⟨fraction, rest, rfl, decimal', stop'⟩ := exists_digits afterPoint
    by_cases bare : fraction = []
    · subst bare
      rw [List.nil_append] at read ⊢
      rw [behindWhole_barePoint stop'] at read
      exact ⟨_, _, _, _, .of_point nonempty decimal stop', read, _, .whole nonempty decimal .absent,
        fun _ => rfl⟩
    · rw [behindWhole_point bare decimal' stop', ← List.append_assoc] at read
      obtain ⟨part, tail, negative, exponent, exponentFront, scale⟩ := exists_exponentFront rest
      have front := LongestFront.of_fraction decimal bare decimal' stop' exponentFront
      exact ⟨_, _, _, _, front, read, _, .mixed nonempty decimal (.inr rfl) decimal' scale, fun _ => rfl⟩
  · have pointless : ∀ tail, rest ≠ '.' :: tail := fun tail same => point ⟨tail, same⟩
    rw [behindWhole] at read
    · obtain ⟨part, tail, negative, exponent, exponentFront, scale⟩ := exists_exponentFront rest
      have front := LongestFront.of_whole nonempty decimal stop pointless exponentFront
      exact ⟨_, _, _, _, front, read, _, .whole nonempty decimal scale, fun _ => rfl⟩
    · exact pointless

theorem not_numberFront (starts : startsWithFraction cs = false) (stop : NoDigit cs)
    (split : cs = part ++ tail) : ¬ NumberFront tail part l := by
  intro front
  have undigit {digits tail : List Char} (nonempty : digits ≠ []) (decimal : Decimal digits)
      (split : cs = digits ++ tail) : False := by
    obtain ⟨c, digits, rfl⟩ := List.exists_cons_of_ne_nil nonempty
    have digit : Ascii.isDigit c = true := decimal c List.mem_cons_self
    rw [stop c _ split] at digit
    cases digit
  cases front with
  | whole nonempty decimal =>
    rw [List.append_assoc] at split
    exact undigit nonempty decimal split
  | point nonempty decimal =>
    rw [List.append_assoc] at split
    exact undigit nonempty decimal split
  | @fraction whole fraction exponent part negative decimal nonempty decimal' =>
    rw [List.append_assoc, List.append_assoc] at split
    by_cases bare : whole = []
    · subst bare
      obtain ⟨c, digits, rfl⟩ := List.exists_cons_of_ne_nil nonempty
      have point : startsWithFraction cs = true :=
        startsWithFraction_eq_true_iff.2 ⟨c, _, split, decimal' c List.mem_cons_self⟩
      rw [starts] at point
      cases point
    · exact undigit bare decimal split

/-- A text is read as the longest number in front of it, or begins with none. -/
theorem literalText?_spec (cs : List Char) :
    (literalText? cs = none ∧ ∀ part rest l, cs = part ++ rest → ¬ NumberFront rest part l) ∨
      ReadsFront cs := by
  cases starts : startsWithFraction cs with
  | true => exact .inr (readsFront_of_startsWithFraction starts)
  | false =>
    obtain ⟨whole, rest, rfl, decimal, stop⟩ := exists_digits cs
    by_cases bare : whole = []
    · subst bare
      left
      constructor
      · simp only [literalText?, starts, Bool.false_eq_true, if_false, span_digits decimal stop]
        rfl
      · intro part tail l split
        exact not_numberFront starts stop split
    · exact .inr (readsFront_of_digits starts bare decimal stop)

theorem literalText?_of_numeral (numeral : Numeral false cs l) :
    ∃ text, literalText? cs = some text ∧ Rewrites l text := by
  have whole : NumberFront [] cs l := .of_numeral numeral
  rcases literalText?_spec cs with ⟨-, none⟩ | ⟨part, rest, l', text, front, read, l'', hnumeral, value⟩
  · exact absurd whole (none cs [] l (List.append_nil cs).symm)
  · have longest := front.longest (List.append_nil cs).symm whole
    have split := front.split
    obtain rfl : rest = [] := by
      rw [split, List.length_append] at longest
      exact List.eq_nil_of_length_eq_zero (by omega)
    rw [List.append_nil] at split
    subst split
    have same := Literal.unsignedDecimal?_of_numeral front.front.numeral
    rw [Literal.unsignedDecimal?_of_numeral numeral.allowing] at same
    obtain rfl := Option.some.inj same
    exact ⟨text, read, l'', hnumeral, value⟩

theorem double?_eq {literal : List Char} (unsigned : Literal.unsigned (skipWhitespace text) = (negative, cs))
    (read : literalText? cs = some literal) (rewrites : Rewrites l literal) :
    double? text =
      if (l.value negative).isFinite then some (l.value negative).dropZeroSign else none := by
  obtain ⟨l', numeral, value⟩ := rewrites
  rw [double?, unsigned]
  simp only [read, Option.bind_some, Literal.unsignedDecimal?_of_numeral numeral, value]

end WebBindings.AttributeNumber
