import WebBindings.Proofs.Script.Coverage
/-!
# Where tokens end

Every token takes as much of the text as it can. So of what stands behind a token only the first
character matters: a text that spells a token is read as this token, unless it goes on with a character
that the token would take.
-/

namespace WebBindings.Script

/-- The punctuators that another equals sign would make longer. -/
def Punctuator.isOpen (p : Punctuator) : Bool :=
  [Punctuator.assign, .bang, .looseEqual, .looseNotEqual].contains p

/-- A text is read as a token where a certain character, or none, stands behind it. -/
inductive IsLexed : List Char → Token → (next : Option Char) → Prop
  | number {whole point scale fraction exponent : List Char} {negative : Bool} {next : Option Char}
      (decimal : ∀ c ∈ whole, Ascii.isDigit c = true) (fractional : WritesFraction point fraction)
      (scaled : WritesExponent scale negative exponent) (some : whole ≠ [] ∨ fraction ≠ [])
      (ends : ∀ c ∈ next, Ascii.isDigit c = false ∧ isNameStart c = false)
      (pointless : point = [] → scale = [] → next ≠ .some '.') :
      IsLexed (whole ++ (point ++ scale))
        (.number ((⟨whole, fraction, negative, exponent⟩ : DecimalLiteral).value false)) next
  | string {quote : Char} {body decoded : List Char} {next : Option Char}
      (isQuote : quote = '"' ∨ quote = '\'') (decodes : Decodes quote body decoded) :
      IsLexed (quote :: (body ++ [quote])) (.string (String.ofList decoded)) next
  | identifier {first : Char} {name : List Char} {next : Option Char}
      (starts : isNameStart first = true) (parts : ∀ c ∈ name, isNamePart c = true)
      (ends : ∀ c ∈ next, isNamePart c = false) :
      IsLexed (first :: name) (.identifier (String.ofList (first :: name))) next
  | punctuator {p : Punctuator} {next : Option Char} (closed : p.isOpen = true → next ≠ some '=')
      (undotted : p = .dot → ∀ c ∈ next, Ascii.isDigit c = false) :
      IsLexed p.text.toList (.punctuator p) next
  | endOfInput : IsLexed [] .endOfInput none

theorem span_append {p : Char → Bool} {read rest : List Char} (all : ∀ c ∈ read, p c = true)
    (ends : ∀ c ∈ rest.head?, p c = false) : (read ++ rest).span p = (read, rest) := by
  rw [List.span_eq_takeWhile_dropWhile, List.takeWhile_append_of_pos all,
    List.dropWhile_append_of_pos all]
  cases rest with
  | nil => simp
  | cons c rest =>
    have other := ends c rfl
    simp [other]

theorem span_ends {p : Char → Bool} {cs read rest : List Char} (h : cs.span p = (read, rest)) :
    ∀ c ∈ rest.head?, p c = false := by
  rw [List.span_eq_takeWhile_dropWhile] at h
  obtain ⟨-, rfl⟩ := Prod.mk.inj h
  intro c hc
  have stop := List.head?_dropWhile_not p cs
  rw [hc] at stop
  exact stop

theorem isDigit_not_sign {c : Char} (digit : Ascii.isDigit c = true) : c ≠ '-' ∧ c ≠ '+' ∧ c ≠ '.' := by
  refine ⟨?_, ?_, ?_⟩ <;> (rintro rfl; cases digit)

theorem WritesExponent.takeExponent?_eq {scale digits rest : List Char} {negative : Bool}
    (writes : WritesExponent scale negative digits) (present : scale ≠ [])
    (ends : ∀ c ∈ rest.head?, Ascii.isDigit c = false) :
    DecimalLiteral.takeExponent? (scale ++ rest) = some ((negative, digits), rest) := by
  cases writes with
  | absent => exact absurd rfl present
  | unsigned letter some decimal =>
    cases digits with
    | nil => exact absurd rfl some
    | cons d digits =>
      have span := span_append decimal ends
      have unsigned := isDigit_not_sign (decimal d List.mem_cons_self)
      rcases letter with rfl | rfl <;>
        simp_all [DecimalLiteral.takeExponent?]
  | signed letter isSign some decimal =>
    have span := span_append decimal ends
    rcases letter with rfl | rfl <;> rcases isSign with rfl | rfl <;>
      simp_all [DecimalLiteral.takeExponent?]

theorem WritesExponent.letter {scale digits : List Char} {negative : Bool}
    (writes : WritesExponent scale negative digits) :
    scale = [] ∨ ∃ e more, scale = e :: more ∧ (e = 'e' ∨ e = 'E') := by
  cases writes with
  | absent => exact .inl rfl
  | unsigned letter | signed letter => exact .inr ⟨_, _, rfl, letter⟩

theorem isNameStart_letter {e : Char} (letter : e = 'e' ∨ e = 'E') : isNameStart e = true := by
  rcases letter with rfl | rfl <;> decide

section Numbers

variable {whole point scale fraction exponent rest : List Char} {negative : Bool}

theorem fraction_head (fractional : WritesFraction point fraction)
    (scaled : WritesExponent scale negative exponent)
    (ends : ∀ c ∈ rest.head?, Ascii.isDigit c = false) :
    ∀ c ∈ (point ++ (scale ++ rest)).head?, Ascii.isDigit c = false := by
  cases fractional with
  | point => simp [Ascii.isDigit]
  | absent =>
    obtain rfl | ⟨e, more, rfl, letter⟩ := scaled.letter
    · exact ends
    · rcases letter with rfl | rfl <;> simp [Ascii.isDigit]

theorem number_front (decimal : ∀ c ∈ whole, Ascii.isDigit c = true)
    (fractional : WritesFraction point fraction) (some : whole ≠ [] ∨ fraction ≠ [])
    (rest : List Char) : ∃ first cs, whole ++ (point ++ rest) = first :: cs ∧
      (Ascii.isDigit first = true ∨ first = '.' ∧ cs.head?.any Ascii.isDigit = true) := by
  cases whole with
  | cons d whole => exact ⟨d, _, rfl, .inl (decimal d List.mem_cons_self)⟩
  | nil =>
    cases fractional with
    | absent => simp at some
    | point digits =>
      cases fraction with
      | nil => simp at some
      | cons d fraction => exact ⟨'.', _, rfl, .inr ⟨rfl, digits d List.mem_cons_self⟩⟩

theorem mantissa_eq (fractional : WritesFraction point fraction)
    (scaled : WritesExponent scale negative exponent)
    (digitless : ∀ c ∈ rest.head?, Ascii.isDigit c = false)
    (pointless : point = [] → scale = [] → rest.head? ≠ some '.') :
    (match point ++ (scale ++ rest) with
      | '.' :: rest => rest.span Ascii.isDigit
      | rest => ([], rest)) = (fraction, scale ++ rest) := by
  cases fractional with
  | point digits => exact span_append digits (fraction_head .absent scaled digitless)
  | absent =>
    obtain rfl | ⟨e, more, rfl, letter⟩ := scaled.letter
    · cases rest with
      | nil => rfl
      | cons c rest =>
        have other := pointless rfl rfl
        simp only [List.nil_append]
        split
        · rename_i same
          cases same
          exact absurd rfl other
        · rfl
    · rcases letter with rfl | rfl <;> rfl

theorem scanNumber_eq (decimal : ∀ c ∈ whole, Ascii.isDigit c = true)
    (fractional : WritesFraction point fraction) (scaled : WritesExponent scale negative exponent)
    (ends : ∀ c ∈ rest.head?, Ascii.isDigit c = false ∧ isNameStart c = false)
    (pointless : point = [] → scale = [] → rest.head? ≠ some '.') (offset : Nat) :
    scanNumber ⟨offset, whole ++ (point ++ (scale ++ rest))⟩ =
      .ok (.number ((⟨whole, fraction, negative, exponent⟩ : DecimalLiteral).value false),
        ⟨offset + byteCount (whole ++ (point ++ scale)), rest⟩) := by
  have digitless : ∀ c ∈ rest.head?, Ascii.isDigit c = false := fun c hc => (ends c hc).1
  have first := span_append decimal (fraction_head fractional scaled digitless)
  have second := mantissa_eq fractional scaled digitless pointless
  have unnamed : rest.head?.any isNameStart = false := by
    cases rest with
    | nil => rfl
    | cons c rest => exact (ends c rfl).2
  have cut : whole ++ (point ++ (scale ++ rest)) = (whole ++ (point ++ scale)) ++ rest := by simp
  have read := Cursor.skip_take (c := ⟨offset, whole ++ (point ++ (scale ++ rest))⟩) cut
  unfold scanNumber
  split
  rename_i spanned
  obtain ⟨rfl, rfl⟩ := Prod.mk.inj (spanned.symm.trans first)
  split
  rename_i fractioned
  obtain ⟨rfl, rfl⟩ := Prod.mk.inj (fractioned.symm.trans second)
  obtain rfl | ⟨e, more, rfl, letter⟩ := scaled.letter
  · cases scaled
    cases rest with
    | nil => simpa using read
    | cons c rest =>
      have other : ¬ (c = 'e' ∨ c = 'E') := by
        intro letter
        have named := isNameStart_letter letter
        rw [(ends c rfl).2] at named
        cases named
      simpa [other, (ends c rfl).2] using read
  · have exponent := scaled.takeExponent?_eq (List.cons_ne_nil _ _) digitless
    simp only [List.cons_append] at exponent read ⊢
    simpa [letter, exponent, unnamed] using read

end Numbers

theorem takeExponent?_ends {cs digits rest : List Char} {negative : Bool}
    (h : DecimalLiteral.takeExponent? cs = some ((negative, digits), rest)) :
    ∀ c ∈ rest.head?, Ascii.isDigit c = false := by
  cases cs with
  | nil => cases h
  | cons e cs =>
    simp only [DecimalLiteral.takeExponent?] at h
    split at h
    · split at h
      all_goals
        split at h
        · cases h
        simp only [Option.some.injEq, Prod.mk.injEq] at h
        obtain ⟨-, rfl⟩ := h
        exact span_ends rfl
    · cases h

theorem mantissa_ends {whole afterWhole fraction afterFraction : List Char} {cs : List Char}
    (hfraction : (match afterWhole with
      | '.' :: rest => rest.span Ascii.isDigit
      | rest => ([], rest)) = (fraction, afterFraction))
    (hwhole : cs.span Ascii.isDigit = (whole, afterWhole)) :
    (∀ c ∈ afterFraction.head?, Ascii.isDigit c = false) ∧
      (afterFraction = afterWhole → afterFraction.head? ≠ some '.') := by
  split at hfraction
  · rename_i rest
    refine ⟨span_ends hfraction, ?_⟩
    rintro rfl
    exact absurd (span_suffix hfraction).length_le (Nat.not_succ_le_self _)
  · rename_i pointless
    cases hfraction
    refine ⟨span_ends hwhole, fun _ pointed => ?_⟩
    obtain ⟨rest, rfl⟩ := List.head?_eq_some_iff.1 pointed
    exact pointless rest rfl

/-- A token is read from a text that ends where the token ends. -/
def Cursor.Lexes (c : Cursor) (t : Token) (after : Cursor) : Prop :=
  ∃ text, IsLexed text t after.rest.head? ∧ c.rest = text ++ after.rest ∧
    after.offset = c.offset + byteCount text

theorem scanNumber_lexes {c after : Cursor} {t : Token} {first : Char} {cs : List Char}
    (h : scanNumber c = .ok (t, after)) (hc : c.rest = first :: cs)
    (starts : Ascii.isDigit first = true ∨ first = '.' ∧ cs.head?.any Ascii.isDigit = true) :
    c.Lexes t after := by
  unfold scanNumber at h
  split at h
  rename_i whole afterWhole hwhole
  split at h
  rename_i fraction afterFraction hfraction
  rw [hc] at hwhole
  obtain ⟨decimal, some, point, cut, fractional⟩ := mantissa_writes starts hfraction hwhole
  obtain ⟨digitless, pointless⟩ := mantissa_ends hfraction hwhole
  have cut' : first :: cs = whole ++ afterWhole := by
    rw [List.span_eq_takeWhile_dropWhile] at hwhole
    obtain ⟨rfl, rfl⟩ := Prod.mk.inj hwhole
    rw [List.takeWhile_append_dropWhile]
  -- Whatever stands for the exponent, the number ends behind it.
  have ends : ∀ scale {negative exponent rest}, afterFraction = scale ++ rest →
      WritesExponent scale negative exponent → (∀ c ∈ rest.head?, Ascii.isDigit c = false) →
      (if rest.head?.any isNameStart then .error (SyntaxFault.invalidToken c.offset)
        else .ok (.number ((⟨whole, fraction, negative, exponent⟩ : DecimalLiteral).value false),
          c.skip (c.rest.take (c.rest.length - rest.length)) rest)) = Except.ok (t, after) →
      c.Lexes t after := by
    intro scale negative exponent rest behind scaled undigited h
    split at h
    · cases h
    · rename_i unnamed
      have whole_cut : c.rest = (whole ++ (point ++ scale)) ++ rest := by
        rw [hc, cut, behind]
        simp
      rw [Cursor.skip_take whole_cut] at h
      cases h
      refine ⟨_, .number decimal fractional scaled some (fun d hd => ⟨undigited d hd, ?_⟩) ?_,
        whole_cut, rfl⟩
      · rw [Option.mem_def] at hd
        simpa [hd] using unnamed
      · rintro rfl rfl
        rw [List.nil_append] at behind cut
        exact behind ▸ pointless (List.append_cancel_left (cut.symm.trans cut'))
  split at h
  · split at h
    · split at h
      · rename_i hexponent
        obtain ⟨scale, behind, scaled⟩ := takeExponent?_writes hexponent
        exact ends scale behind scaled (takeExponent?_ends hexponent) h
      · cases h
    · exact ends [] rfl .absent digitless h
  · exact ends [] rfl .absent digitless h

theorem isDigit_mem {c : Char} (digit : Ascii.isDigit c = true) : c ∈ "0123456789".toList := by
  simp only [Ascii.isDigit, Bool.and_eq_true, decide_eq_true_eq, Char.le_def, UInt32.le_iff_toNat_le]
    at digit
  have low : 48 ≤ c.toNat := digit.1
  have high : c.toNat ≤ 57 := digit.2
  have digits : ∀ n ∈ List.range' 48 10, Char.ofNat n ∈ "0123456789".toList := by decide
  rw [← Char.ofNat_toNat c]
  exact digits _ (List.mem_range'_1.2 ⟨low, by omega⟩)

theorem isNameStart_of_isDigit {c : Char} (digit : Ascii.isDigit c = true) : isNameStart c = false := by
  have none : ("0123456789".toList.all fun d => !isNameStart d) = true := by decide
  simpa using List.all_eq_true.1 none c (isDigit_mem digit)

theorem isNamePart_of_isDigit {c : Char} (digit : Ascii.isDigit c = true) : isNamePart c = true := by
  have all : "0123456789".toList.all isNamePart = true := by decide
  exact List.all_eq_true.1 all c (isDigit_mem digit)

/-- A name, a number and a string literal begin with different characters. -/
theorem isNameStart_other {c : Char} (starts : isNameStart c = true) :
    Ascii.isDigit c = false ∧ c ≠ '.' ∧ c ≠ '"' ∧ c ≠ '\'' := by
  refine ⟨?_, ?_, ?_, ?_⟩
  · by_contra digit
    rw [isNameStart_of_isDigit (eq_true_of_ne_false digit)] at starts
    cases starts
  all_goals
    rintro rfl
    exact absurd starts (by decide)

theorem IsLexed.ne_nil {text : List Char} {t : Token} {next : Option Char} (lexed : IsLexed text t next)
    (other : t ≠ .endOfInput) : text ≠ [] := by
  cases lexed with
  | number decimal fractional scaled some =>
    exact (IsSpelled.number decimal fractional scaled some).ne_nil other
  | string | identifier => exact List.cons_ne_nil _ _
  | punctuator => exact (IsSpelled.punctuator _).ne_nil other
  | endOfInput => exact absurd rfl other

theorem atFront?_eq {p : Punctuator} {rest : List Char}
    (closed : p.isOpen = true → rest.head? ≠ some '=') :
    Punctuator.atFront? (p.text.toList ++ rest) = some p := by
  cases rest with
  | nil => cases p <;> rfl
  | cons c rest =>
    cases p
    all_goals first
      | rfl
      | have other : ('=' == c) = false :=
          beq_false_of_ne fun same => closed rfl (congrArg some same.symm)
        simp [Punctuator.atFront?, Punctuator.all, Punctuator.text, List.isPrefixOf, other]

/-- The character that a punctuator begins with begins nothing else, except for the point. -/
theorem Punctuator.text_eq (p : Punctuator) : ∃ first more, p.text.toList = first :: more ∧
    Ascii.isDigit first = false ∧ (first = '.' → p = .dot ∧ more = []) ∧ first ≠ '"' ∧ first ≠ '\'' ∧
    isNameStart first = false := by
  cases p <;> exact ⟨_, _, rfl, by decide, by decide, by decide, by decide, by decide⟩

/-- What is read from a text that cannot go on with the next character. -/
theorem IsLexed.scanToken_eq {text rest : List Char} {t : Token} (lexed : IsLexed text t rest.head?)
    (offset : Nat) :
    scanToken ⟨offset, text ++ rest⟩ = .ok (t, ⟨offset + byteCount text, rest⟩) := by
  generalize following : rest.head? = next at lexed
  cases lexed with
  | @number whole point scale fraction exponent negative _ decimal fractional scaled some ends pointless =>
    subst following
    have read := scanNumber_eq decimal fractional scaled ends pointless offset
    obtain ⟨first, cs, cut, starts⟩ := number_front decimal fractional some (scale ++ rest)
    rw [List.append_assoc, List.append_assoc]
    rw [cut] at read ⊢
    rw [scanToken]
    exact (if_pos (by simpa using starts)).trans read
  | @string quote body decoded _ isQuote decodes =>
    have unescaped : quote ≠ '\\' := by rcases isQuote with rfl | rfl <;> decide
    have same : quote :: (body ++ [quote]) ++ rest = quote :: (body ++ quote :: rest) := by simp
    obtain ⟨stop, read⟩ := decodes.scanString_eq unescaped (offset + 1) [] (offset + 1) rest
    have bytes := scanString_bytes isQuote read
    rw [same, scanToken_quote isQuote, read]
    have single : quote.utf8Size = 1 := by rcases isQuote with rfl | rfl <;> rfl
    have counted : stop = offset + byteCount (quote :: (body ++ [quote])) := by
      simp only [byteCount_append, byteCount_cons, single] at bytes ⊢
      have : byteCount [] = 0 := rfl
      omega
    rw [counted]
    rfl
  | @identifier first name _ starts parts ends =>
    subst following
    obtain ⟨digit, dot, double, single⟩ := isNameStart_other starts
    have part : isNamePart first = true := by rw [isNamePart, starts, Bool.true_or]
    have spanned := span_append (List.forall_mem_cons.2 ⟨part, parts⟩) ends
    rw [List.cons_append] at spanned ⊢
    simp only [scanToken, digit, dot, double, single, starts, spanned, Cursor.skip]
    simp
  | @punctuator p _ closed undotted =>
    subst following
    obtain ⟨first, more, htext, digit, dot, double, single, unnamed⟩ := p.text_eq
    have front := atFront?_eq closed
    have starts : (Ascii.isDigit first || (first = '.' && (more ++ rest).head?.any Ascii.isDigit)) =
        false := by
      rw [digit, Bool.false_or, Bool.and_eq_false_iff]
      by_cases point : first = '.'
      · obtain ⟨rfl, rfl⟩ := dot point
        right
        cases rest with
        | nil => rfl
        | cons c rest => exact undotted rfl c rfl
      · exact .inl (by simpa using point)
    have length : p.text.length = (first :: more).length := by rw [← htext, String.length_toList]
    rw [htext, List.cons_append] at front
    rw [htext, List.cons_append, scanToken]
    simp only [starts, double, single, unnamed, front, htext, length, Cursor.skip]
    simp
  | endOfInput =>
    rw [List.head?_eq_none_iff] at following
    subst following
    rfl

theorem atFront?_closed {p : Punctuator} {rest : List Char}
    (h : Punctuator.atFront? (p.text.toList ++ rest) = some p) (isOpen : p.isOpen = true) :
    rest.head? ≠ some '=' := by
  intro equals
  obtain ⟨rest, rfl⟩ := List.head?_eq_some_iff.1 equals
  cases third : List.isPrefixOf ['='] rest
  all_goals
    cases p
    all_goals first
      | exact absurd isOpen (by decide)
      | simp [Punctuator.atFront?, Punctuator.all, Punctuator.text, List.isPrefixOf, third] at h

theorem scanToken_lexes {front after : Cursor} {t : Token} (h : scanToken front = .ok (t, after)) :
    front.Lexes t after := by
  unfold scanToken at h
  split at h
  · rename_i empty
    cases h
    exact ⟨[], by rw [empty]; exact .endOfInput, rfl, rfl⟩
  · rename_i first cs hfront
    split at h
    · rename_i starts
      simp only [Bool.or_eq_true, Bool.and_eq_true, decide_eq_true_eq] at starts
      exact scanNumber_lexes h hfront starts
    · rename_i numberless
      split at h
      · rename_i isQuote
        simp only [Bool.or_eq_true, decide_eq_true_eq] at isQuote
        obtain ⟨body, decoded, decodes, rfl, rfl⟩ := scanString_decodes h
        have bytes := scanString_bytes isQuote h
        have single : first.utf8Size = 1 := by rcases isQuote with rfl | rfl <;> rfl
        refine ⟨_, .string isQuote decodes, by simp [hfront], ?_⟩
        simp only [byteCount_append, byteCount_cons, single] at bytes ⊢
        have : byteCount [] = 0 := rfl
        omega
      · split at h
        · rename_i starts
          have part : isNamePart first = true := by rw [isNamePart, starts, Bool.true_or]
          simp only [List.span_eq_takeWhile_dropWhile, hfront, List.takeWhile_cons_of_pos part,
            List.dropWhile_cons_of_pos part] at h
          cases h
          refine ⟨_, .identifier starts (fun c hc => List.mem_takeWhile_imp hc)
            (span_ends (List.span_eq_takeWhile_dropWhile ..)), ?_, rfl⟩
          rw [hfront, List.cons_append, Cursor.skip, List.takeWhile_append_dropWhile]
        · split at h
          · rename_i p hp
            obtain ⟨cut, -⟩ := atFront?_eq_some hp
            cases h
            refine ⟨_, .punctuator (fun isOpen => ?_) ?_, cut, rfl⟩
            · rw [cut] at hp
              exact atFront?_closed hp isOpen
            · rintro rfl d hd
              rw [hfront] at cut hd
              have point : first = '.' := (List.cons.inj cut).1
              have next : cs.head? = some d := hd
              simpa [point, next, Ascii.isDigit] using numberless
          · cases h

/-- Whether no token goes on with a character. -/
def separates (c : Char) : Bool := !isNamePart c && (c ≠ '.' && c ≠ '=')

/-- In front of a character that separates tokens, every token ends where it ended elsewhere. -/
theorem IsLexed.before_separator {text : List Char} {t : Token} {next : Option Char}
    (lexed : IsLexed text t next) (other : t ≠ .endOfInput) {c : Char} (separator : separates c = true) :
    IsLexed text t (some c) := by
  simp only [separates, Bool.and_eq_true, Bool.not_eq_true', decide_eq_true_eq] at separator
  obtain ⟨part, dot, equals⟩ := separator
  have digit : Ascii.isDigit c = false := by
    by_contra digit
    rw [isNamePart_of_isDigit (eq_true_of_ne_false digit)] at part
    cases part
  have starts : isNameStart c = false := by
    rw [isNamePart, Bool.or_eq_false_iff] at part
    exact part.1
  cases lexed with
  | number decimal fractional scaled some =>
    refine .number decimal fractional scaled some ?_ fun _ _ point => dot (Option.some.inj point)
    rintro _ ⟨⟩
    exact ⟨digit, starts⟩
  | string isQuote decodes => exact .string isQuote decodes
  | identifier starts parts =>
    refine .identifier starts parts ?_
    rintro _ ⟨⟩
    exact part
  | punctuator =>
    refine .punctuator (fun _ same => equals (Option.some.inj same)) fun _ => ?_
    rintro _ ⟨⟩
    exact digit
  | endOfInput => exact absurd rfl other

end WebBindings.Script
