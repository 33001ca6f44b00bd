import WebBindings.Proofs.Script.Masking
/-!
# The text behind the lexemes

The lexemes of a text stand in it one behind the other, with nothing but white space and comments
between them. Each remembers whether a line ends in the blanks before it, and its own text spells its
token.
-/

namespace WebBindings.Script

theorem byteCount_eq (cs : List Char) : byteCount cs = (String.ofList cs).utf8ByteSize := by
  have go : ∀ n, cs.foldl (fun count c => count + c.utf8Size) n =
      n + (String.ofList cs).utf8ByteSize := by
    induction cs with
    | nil => exact fun n => rfl
    | cons c cs ih =>
      intro n
      rw [List.foldl_cons, ih, String.ofList_cons, String.utf8ByteSize_append,
        String.utf8ByteSize_singleton, Nat.add_assoc]
  rw [byteCount, go, Nat.zero_add]

theorem byteCount_append (cs ds : List Char) : byteCount (cs ++ ds) = byteCount cs + byteCount ds := by
  rw [byteCount_eq, String.ofList_append, String.utf8ByteSize_append, ← byteCount_eq, ← byteCount_eq]

theorem byteCount_cons (c : Char) (cs : List Char) :
    byteCount (c :: cs) = c.utf8Size + byteCount cs := by
  rw [byteCount_eq, String.ofList_cons, String.utf8ByteSize_append, String.utf8ByteSize_singleton,
    ← byteCount_eq]

theorem byteCount_pos {cs : List Char} (some : cs ≠ []) : 0 < byteCount cs := by
  cases cs with
  | nil => exact absurd rfl some
  | cons c cs =>
    rw [byteCount_cons]
    exact Nat.add_pos_left c.utf8Size_pos _

theorem offset_pair {c d : Char} (first : c.utf8Size = 1) (second : d.utf8Size = 1) (offset : Nat)
    (cs : List Char) : offset + 2 + byteCount cs = offset + byteCount (c :: d :: cs) := by
  rw [byteCount_cons, byteCount_cons, first, second]
  omega

/-- White space and comments in front of a text. A comment up to its line end leaves the line end; a
comment with an end of its own ends there first. -/
inductive IsBlank : List Char → (following : List Char) → Prop
  | nil {following} : IsBlank [] following
  | space {c cs following} (white : Unicode.isWhitespace c = true) (more : IsBlank cs following) :
      IsBlank (c :: cs) following
  | lineComment {body cs following} (inLine : ∀ c ∈ body, isLineEnd c = false)
      (ended : ∀ c ∈ (cs ++ following).head?, isLineEnd c = true) (more : IsBlank cs following) :
      IsBlank ('/' :: '/' :: (body ++ cs)) following
  | blockComment {body cs following} (opened : ¬ ['*', '/'] <:+: body) (more : IsBlank cs following) :
      IsBlank ('/' :: '*' :: (body ++ '*' :: '/' :: cs)) following

/-- What is passed from inside of a blank, up to a text. -/
def Blank.Passes (following : List Char) : Blank → List Char → Prop
  | .space, gap => IsBlank gap following
  | .lineComment, gap => ∃ body cs, gap = body ++ cs ∧ (∀ c ∈ body, isLineEnd c = false) ∧
      (∀ c ∈ (cs ++ following).head?, isLineEnd c = true) ∧ IsBlank cs following
  | .blockComment _, gap => ∃ body cs, gap = body ++ '*' :: '/' :: cs ∧ ¬ ['*', '/'] <:+: body ∧
      IsBlank cs following

theorem isLineEnd_isWhitespace {c : Char} (ends : isLineEnd c = true) :
    Unicode.isWhitespace c = true := by
  simp only [isLineEnd, Bool.or_eq_true, decide_eq_true_eq] at ends
  rcases ends with ((rfl | rfl) | rfl) | rfl <;> decide

/-- The reader of blanks passes over blanks only, counts their bytes and sees their line ends. -/
theorem skipBlanks_passes {blank : Blank} {newline newline' : Bool} {offset : Nat} {cs : List Char}
    {front : Cursor} (h : skipBlanks blank newline offset cs = .ok (newline', front)) :
    ∃ gap, cs = gap ++ front.rest ∧ blank.Passes front.rest gap ∧
      front.offset = offset + byteCount gap ∧ newline' = (newline || gap.any isLineEnd) := by
  fun_induction skipBlanks blank newline offset cs with
  | case1 newline offset rest ih =>
    obtain ⟨_, rfl, ⟨body, cs, rfl, inLine, ended, more⟩, hoffset, hnewline⟩ := ih h
    refine ⟨_, rfl, .lineComment inLine ended more, ?_, hnewline⟩
    exact hoffset.trans (offset_pair rfl rfl _ _)
  | case2 newline offset rest ih =>
    obtain ⟨_, rfl, ⟨body, cs, rfl, opened, more⟩, hoffset, hnewline⟩ := ih h
    refine ⟨_, rfl, .blockComment opened more, ?_, hnewline⟩
    exact hoffset.trans (offset_pair rfl rfl _ _)
  | case3 newline offset c rest _ _ white ih =>
    obtain ⟨gap, rfl, more, hoffset, hnewline⟩ := ih h
    refine ⟨c :: gap, rfl, .space white more, ?_, ?_⟩
    · rw [hoffset, byteCount_cons, Nat.add_assoc]
    · rw [hnewline, List.any_cons, Bool.or_assoc]
  | case4 =>
    cases h
    exact ⟨[], rfl, .nil, rfl, by simp⟩
  | case5 newline offset c rest ends ih =>
    obtain ⟨gap, rfl, more, hoffset, hnewline⟩ := ih h
    refine ⟨c :: gap, rfl, ⟨[], c :: gap, rfl, by simp, by simpa using ends, ?_⟩, ?_, ?_⟩
    · exact .space (isLineEnd_isWhitespace ends) more
    · rw [hoffset, byteCount_cons, Nat.add_assoc]
    · rw [hnewline, List.any_cons, ends]
      simp
  | case6 newline offset c rest inLine ih =>
    obtain ⟨_, rfl, ⟨body, cs, rfl, others, ended, more⟩, hoffset, hnewline⟩ := ih h
    rw [Bool.not_eq_true] at inLine
    refine ⟨c :: (body ++ cs), rfl, ⟨c :: body, cs, rfl, ?_, ended, more⟩, ?_, ?_⟩
    · exact List.forall_mem_cons.2 ⟨inLine, others⟩
    · rw [hoffset, byteCount_cons, Nat.add_assoc]
    · rw [hnewline, List.any_cons, inLine, Bool.false_or]
  | case7 start newline offset rest ih =>
    obtain ⟨gap, rfl, more, hoffset, hnewline⟩ := ih h
    refine ⟨'*' :: '/' :: gap, rfl, ⟨[], gap, rfl, by simp, more⟩, ?_, hnewline⟩
    exact hoffset.trans (offset_pair rfl rfl _ _)
  | case8 start newline offset c rest unclosed ih =>
    obtain ⟨_, rfl, ⟨body, cs, rfl, opened, more⟩, hoffset, hnewline⟩ := ih h
    refine ⟨c :: (body ++ '*' :: '/' :: cs), rfl, ⟨c :: body, cs, rfl, ?_, more⟩, ?_, ?_⟩
    · rw [List.infix_cons_iff]
      rintro (front | within)
      · obtain ⟨rfl, slash⟩ := List.cons_prefix_cons.1 front
        obtain ⟨tail, rfl⟩ := slash
        exact unclosed _ rfl rfl
      · exact opened within
    · rw [hoffset, byteCount_cons, Nat.add_assoc]
    · rw [hnewline, List.any_cons, Bool.or_assoc]
  | case9 => cases h
  | case10 blank newline offset _ =>
    cases h
    refine ⟨[], rfl, ?_, rfl, by simp⟩
    cases blank with
    | space => exact .nil
    | lineComment => exact ⟨[], [], rfl, by simp, by simp, .nil⟩
    | blockComment start => simp_all

/-- The text of a literal's fraction, with the point. -/
inductive WritesFraction : List Char → (digits : List Char) → Prop
  | absent : WritesFraction [] []
  | point {digits} (decimal : ∀ c ∈ digits, Ascii.isDigit c = true) :
      WritesFraction ('.' :: digits) digits

/-- The text of a literal's exponent, with its letter and its sign. -/
inductive WritesExponent : List Char → (negative : Bool) → (digits : List Char) → Prop
  | absent : WritesExponent [] false []
  | unsigned {e digits} (letter : e = 'e' ∨ e = 'E') (some : digits ≠ [])
      (decimal : ∀ c ∈ digits, Ascii.isDigit c = true) : WritesExponent (e :: digits) false digits
  | signed {e sign digits} (letter : e = 'e' ∨ e = 'E') (isSign : sign = '+' ∨ sign = '-')
      (some : digits ≠ []) (decimal : ∀ c ∈ digits, Ascii.isDigit c = true) :
      WritesExponent (e :: sign :: digits) (sign = '-') digits

/-- The text that a token is read from. -/
inductive IsSpelled : List Char → Token → Prop
  | number {whole point scale fraction exponent : List Char} {negative : Bool}
      (decimal : ∀ c ∈ whole, Ascii.isDigit c = true) (fractional : WritesFraction point fraction)
      (scaled : WritesExponent scale negative exponent) (some : whole ≠ [] ∨ fraction ≠ []) :
      IsSpelled (whole ++ (point ++ scale))
        (.number ((⟨whole, fraction, negative, exponent⟩ : DecimalLiteral).value false))
  | string {quote : Char} {body decoded : List Char} (isQuote : quote = '"' ∨ quote = '\'')
      (decodes : Decodes quote body decoded) :
      IsSpelled (quote :: (body ++ [quote])) (.string (String.ofList decoded))
  | identifier {first : Char} {name : List Char} (starts : isNameStart first = true)
      (parts : ∀ c ∈ name, isNamePart c = true) :
      IsSpelled (first :: name) (.identifier (String.ofList (first :: name)))
  | punctuator (p : Punctuator) : IsSpelled p.text.toList (.punctuator p)
  | endOfInput : IsSpelled [] .endOfInput

theorem IsSpelled.ne_nil {text : List Char} {t : Token} (spelled : IsSpelled text t)
    (other : t ≠ .endOfInput) : text ≠ [] := by
  cases spelled with
  | number _ fractional _ some =>
    rintro empty
    simp only [List.append_eq_nil_iff] at empty
    obtain ⟨rfl, rfl, -⟩ := empty
    cases fractional
    simp at some
  | string | identifier => exact List.cons_ne_nil _ _
  | punctuator p => cases p <;> decide
  | endOfInput => exact absurd rfl other

theorem takeExponent?_writes {cs rest digits : List Char} {negative : Bool}
    (h : DecimalLiteral.takeExponent? cs = some ((negative, digits), rest)) :
    ∃ scale, cs = scale ++ rest ∧ WritesExponent scale negative digits := by
  cases cs with
  | nil => cases h
  | cons e cs =>
    simp only [DecimalLiteral.takeExponent?, List.span_eq_takeWhile_dropWhile] at h
    split at h
    · rename_i letter
      simp only [Bool.or_eq_true, decide_eq_true_eq] at letter
      have decimal : ∀ {cs : List Char}, ∀ c ∈ cs.takeWhile Ascii.isDigit, Ascii.isDigit c = true :=
        fun _ hc => List.mem_takeWhile_imp hc
      split at h
      all_goals
        split at h
        · cases h
        rename_i some
        rw [List.isEmpty_iff] at some
        simp only [Option.some.injEq, Prod.mk.injEq] at h
        obtain ⟨⟨rfl, rfl⟩, rfl⟩ := h
      · exact ⟨_, by simp, .signed letter (.inr rfl) some decimal⟩
      · exact ⟨_, by simp, .signed letter (.inl rfl) some decimal⟩
      · exact ⟨_, by simp, .unsigned letter some decimal⟩
    · cases h

theorem mantissa_writes {first : Char} {cs whole afterWhole fraction afterFraction : List Char}
    (starts : Ascii.isDigit first = true ∨ first = '.' ∧ cs.head?.any Ascii.isDigit = true)
    (hfraction : (match afterWhole with
      | '.' :: rest => rest.span Ascii.isDigit
      | rest => ([], rest)) = (fraction, afterFraction))
    (hwhole : (first :: cs).span Ascii.isDigit = (whole, afterWhole)) :
    (∀ c ∈ whole, Ascii.isDigit c = true) ∧ (whole ≠ [] ∨ fraction ≠ []) ∧
      ∃ point, first :: cs = whole ++ (point ++ afterFraction) ∧ WritesFraction point fraction := by
  rw [List.span_eq_takeWhile_dropWhile] at hwhole
  obtain ⟨rfl, hafter⟩ := Prod.mk.inj hwhole
  have cut : first :: cs = (first :: cs).takeWhile Ascii.isDigit ++ afterWhole := by
    rw [← hafter, List.takeWhile_append_dropWhile]
  have decimal : ∀ {cs : List Char}, ∀ c ∈ cs.takeWhile Ascii.isDigit, Ascii.isDigit c = true :=
    fun _ hc => List.mem_takeWhile_imp hc
  have some : (first :: cs).takeWhile Ascii.isDigit ≠ [] ∨ fraction ≠ [] := by
    obtain digit | ⟨rfl, digit⟩ := starts
    · exact .inl (by simp [digit])
    · right
      rw [List.dropWhile_cons_of_neg (by decide)] at hafter
      subst hafter
      change cs.span Ascii.isDigit = _ at hfraction
      rw [List.span_eq_takeWhile_dropWhile] at hfraction
      obtain ⟨rfl, -⟩ := Prod.mk.inj hfraction
      cases cs with
      | nil => cases digit
      | cons d cs => simpa using digit
  refine ⟨decimal, some, ?_⟩
  split at hfraction
  · rename_i rest
    rw [List.span_eq_takeWhile_dropWhile] at hfraction
    cases hfraction
    exact ⟨_, by simpa using cut, .point decimal⟩
  · cases hfraction
    exact ⟨[], cut, .absent⟩

theorem Cursor.skip_take {c : Cursor} {text rest : List Char} (cut : c.rest = text ++ rest) :
    c.skip (c.rest.take (c.rest.length - rest.length)) rest = ⟨c.offset + byteCount text, rest⟩ := by
  rw [skip, cut, List.length_append, Nat.add_sub_cancel, List.take_left]

/-- A token is read from a text that spells it, and the place behind it counts the bytes of this text. -/
def Cursor.Reads (c : Cursor) (t : Token) (after : Cursor) : Prop :=
  ∃ text, IsSpelled text t ∧ c.rest = text ++ after.rest ∧ after.offset = c.offset + byteCount text

theorem scanNumber_reads {c after : Cursor} {t : Token} {first : Char} {cs : List Char}
    (h : scanNumber c = .ok (t, after)) (hc : c.rest = first :: cs)
    (starts : Ascii.isDigit first = true ∨ first = '.' ∧ cs.head?.any Ascii.isDigit = true) :
    c.Reads t after := by
  unfold scanNumber at h
  split at h
  rename_i whole afterWhole hwhole
  split at h
  rename_i fraction afterFraction hfraction
  rw [hc] at hwhole
  obtain ⟨decimal, some, point, cut, fractional⟩ := mantissa_writes starts hfraction hwhole
  -- Whatever stands for the exponent, the number ends behind it.
  have ends : ∀ scale {negative exponent rest}, afterFraction = scale ++ rest →
      WritesExponent scale negative exponent →
      (if rest.head?.any isNameStart then .error (SyntaxFault.invalidToken c.offset)
        else .ok (.number ((⟨whole, fraction, negative, exponent⟩ : DecimalLiteral).value false),
          c.skip (c.rest.take (c.rest.length - rest.length)) rest)) = Except.ok (t, after) →
      c.Reads t after := by
    intro scale negative exponent rest behind scaled h
    split at h
    · cases h
    · have whole_cut : c.rest = (whole ++ (point ++ scale)) ++ rest := by
        rw [hc, cut, behind]
        simp
      rw [Cursor.skip_take whole_cut] at h
      cases h
      exact ⟨_, .number decimal fractional scaled some, whole_cut, rfl⟩
  split at h
  · split at h
    · split at h
      · rename_i hexponent
        obtain ⟨scale, behind, scaled⟩ := takeExponent?_writes hexponent
        exact ends scale behind scaled h
      · cases h
    · exact ends [] rfl .absent h
  · exact ends [] rfl .absent h

theorem utf8Size_of_digit? {radix : Nat} {c : Char} (digit : (Ascii.digit? radix c).isSome = true) :
    c.utf8Size = 1 := by
  rw [Char.utf8Size_eq_one_iff]
  simp only [Ascii.digit?, Ascii.isDigit, Bool.and_eq_true, decide_eq_true_eq] at digit
  split at digit
  · rename_i within
    exact UInt32.le_trans (Char.le_def.1 within.2) (by decide)
  · split at digit
    · rename_i within
      exact UInt32.le_trans (Char.le_def.1 within.2) (by decide)
    · split at digit
      · rename_i within
        exact UInt32.le_trans (Char.le_def.1 within.2) (by decide)
      · simp at digit

theorem utf8Size_of_escapeNumber? {digits : List Char} {n : Nat}
    (h : escapeNumber? digits = some n) : ∀ c ∈ digits, c.utf8Size = 1 := by
  intro c hc
  have known := escapeNumber?_digits h c hc
  rw [Bool.or_eq_true, decide_eq_true_eq] at known
  obtain rfl | digit := known
  · rfl
  · exact utf8Size_of_digit? digit

/-- Whatever a string literal takes from the text is counted. -/
theorem scanString_bytes {quote : Char} (isQuote : quote = '"' ∨ quote = '\'') {opened : Nat}
    {read : List Char} {offset : Nat} {cs : List Char} {t : Token} {after : Cursor}
    (h : scanString quote opened read offset cs = .ok (t, after)) :
    after.offset + byteCount after.rest = offset + byteCount cs := by
  fun_induction scanString quote opened read offset cs
  case case2 number _ ih =>
    have single := utf8Size_of_escapeNumber? number
    simp only [List.forall_mem_cons] at single
    rw [ih h]
    simp only [byteCount_cons, single]
    have : ('\\' : Char).utf8Size = 1 := rfl
    have : ('u' : Char).utf8Size = 1 := rfl
    omega
  case case5 ih =>
    rw [ih h]
    simp only [byteCount_cons]
    have : ('\\' : Char).utf8Size = 1 := rfl
    omega
  case case6 =>
    cases h
    have single : quote.utf8Size = 1 := by rcases isQuote with rfl | rfl <;> rfl
    rw [byteCount_cons, single, ← Nat.add_assoc]
  case case8 ih =>
    rw [ih h, byteCount_cons, Nat.add_assoc]
  -- the others are faults
  all_goals cases h

theorem scanToken_reads {front after : Cursor} {t : Token} (h : scanToken front = .ok (t, after)) :
    front.Reads t after := by
  unfold scanToken at h
  split at h
  · cases h
    exact ⟨[], .endOfInput, rfl, rfl⟩
  · rename_i first cs hfront
    split at h
    · rename_i starts
      simp only [Bool.or_eq_true, Bool.and_eq_true, decide_eq_true_eq] at starts
      exact scanNumber_reads h hfront starts
    · split at h
      · rename_i isQuote
        simp only [Bool.or_eq_true, decide_eq_true_eq] at isQuote
        obtain ⟨body, decoded, decodes, rfl, rfl⟩ := scanString_decodes h
        have bytes := scanString_bytes isQuote h
        have single : first.utf8Size = 1 := by rcases isQuote with rfl | rfl <;> rfl
        refine ⟨_, .string isQuote decodes, by simp [hfront], ?_⟩
        simp only [byteCount_append, byteCount_cons, single] at bytes ⊢
        have : byteCount [] = 0 := rfl
        omega
      · split at h
        · rename_i starts
          have part : isNamePart first = true := by rw [isNamePart, starts, Bool.true_or]
          simp only [List.span_eq_takeWhile_dropWhile, hfront, List.takeWhile_cons_of_pos part,
            List.dropWhile_cons_of_pos part] at h
          cases h
          refine ⟨_, .identifier starts fun c hc => List.mem_takeWhile_imp hc, ?_, rfl⟩
          rw [hfront, List.cons_append, Cursor.skip, List.takeWhile_append_dropWhile]
        · split at h
          · rename_i p hp
            obtain ⟨cut, -⟩ := atFront?_eq_some hp
            cases h
            exact ⟨_, .punctuator p, cut, rfl⟩
          · cases h

/-- A text that begins at an offset is cut into blanks and the texts of lexemes, up to its end. -/
inductive Tiles : (offset : Nat) → List Char → List Lexeme → Prop
  | last {offset gap} (blank : IsBlank gap []) :
      Tiles offset gap [⟨.endOfInput, offset + byteCount gap, offset + byteCount gap,
        gap.any isLineEnd⟩]
  | cons {offset gap text rest t ls} (blank : IsBlank gap (text ++ rest)) (spelled : IsSpelled text t)
      (other : t ≠ .endOfInput) (more : Tiles (offset + byteCount gap + byteCount text) rest ls) :
      Tiles offset (gap ++ (text ++ rest)) (⟨t, offset + byteCount gap,
        offset + byteCount gap + byteCount text, gap.any isLineEnd⟩ :: ls)

theorem scanLexemes_tiles {bound : Nat} {c : Cursor} {ls : List Lexeme}
    (enough : c.rest.length < bound) (h : scanLexemes bound c = .ok ls) :
    Tiles c.offset c.rest ls := by
  induction bound generalizing c ls with
  | zero => exact absurd enough (Nat.not_lt_zero _)
  | succ bound ih =>
    obtain ⟨newline, front, t, after, hblanks, htoken, h⟩ := scanLexemes_succ.1 h
    obtain ⟨gap, hgap, blank, hfront, hnewline⟩ := skipBlanks_passes hblanks
    obtain ⟨text, spelled, htext, hafter⟩ := scanToken_reads htoken
    rw [Bool.false_or] at hnewline
    subst hnewline
    by_cases ended : t = .endOfInput
    · subst ended
      rw [if_pos rfl] at h
      have atEnd : front.rest = [] := by
        obtain ⟨-, atEnd⟩ | ⟨other, -⟩ | ⟨other, -⟩ := scanToken_masks htoken
        · exact atEnd
        · exact absurd other (by simp)
        · exact absurd rfl other
      cases spelled
      rw [atEnd] at blank hgap
      rw [h, hafter, hfront, hgap, List.append_nil]
      exact .last blank
    · rw [if_neg ended] at h
      obtain ⟨more, hmore, rfl⟩ := h
      have some := List.length_pos_iff.2 (spelled.ne_nil ended)
      rw [hgap, htext]
      rw [hgap, htext, List.length_append, List.length_append] at enough
      rw [htext] at blank
      have tiled := ih (by omega) hmore
      rw [hafter, hfront] at tiled ⊢
      exact .cons blank spelled ended tiled

/-- The reader of lexemes needs no more steps than its text has characters, and one for the end. -/
theorem scanLexemes_more {bound : Nat} (extra : Nat) {c : Cursor} (enough : c.rest.length < bound) :
    scanLexemes (bound + extra) c = scanLexemes bound c := by
  induction bound generalizing c with
  | zero => exact absurd enough (Nat.not_lt_zero _)
  | succ bound ih =>
    rw [Nat.add_right_comm, scanLexemes, scanLexemes]
    cases hblanks : skipBlanks .space false c.offset c.rest with
    | error fault => rfl
    | ok passed =>
      obtain ⟨newline, front⟩ := passed
      change (scanToken front >>= _) = (scanToken front >>= _)
      cases htoken : scanToken front with
      | error fault => rfl
      | ok read =>
        obtain ⟨t, after⟩ := read
        have blanks := (skipBlanks_suffix hblanks).length_le
        obtain rfl | ⟨first, cs, hfront, other, suffix⟩ := scanToken_suffix htoken
        · rfl
        · have shorter := suffix.length_le
          rw [hfront, List.length_cons] at blanks
          have rest := ih (c := after) (by omega)
          simp only [bind, Except.bind, other, if_false, rest]

/-- The byte behind a list of lexemes, or the one where the text before the first begins. -/
def endOf (offset : Nat) : List Lexeme → Nat
  | [] => offset
  | l :: ls => endOf l.stop ls

/-- A lexeme stands in a source with nothing but blanks since an earlier byte. It remembers whether a
line ends in the blanks, and its own text spells its token. -/
def Lexeme.StandsIn (source : String) (place : Nat) (l : Lexeme) : Prop :=
  ∃ head gap text tail : String, source = head ++ gap ++ text ++ tail ∧
    head.utf8ByteSize = place ∧ (head ++ gap).utf8ByteSize = l.start ∧
    (head ++ gap ++ text).utf8ByteSize = l.stop ∧
    IsBlank gap.toList (text ++ tail).toList ∧ IsSpelled text.toList l.token ∧
    l.newlineBefore = gap.toList.any isLineEnd

namespace Tiles

variable {offset : Nat} {cs : List Char} {ls : List Lexeme}

theorem standsIn (tiles : Tiles offset cs ls) {head : String} (size : head.utf8ByteSize = offset)
    {before : List Lexeme} {l : Lexeme} {after : List Lexeme} (cut : ls = before ++ l :: after) :
    l.StandsIn (head ++ String.ofList cs) (endOf offset before) := by
  induction tiles generalizing head before with
  | @last offset gap blank =>
    cases before with
    | nil =>
      cases cut
      refine ⟨head, String.ofList gap, "", "", by simp, size, ?_, ?_, by simpa using blank,
        .endOfInput, by simp⟩
      all_goals simp [byteCount_eq, size]
    | cons => simp at cut
  | @cons offset gap text rest t ls blank spelled other more ih =>
    cases before with
    | nil =>
      cases cut
      refine ⟨head, String.ofList gap, String.ofList text, String.ofList rest,
        by simp [String.append_assoc], size, ?_, ?_, by simpa using blank, by simpa using spelled,
        by simp⟩
      all_goals simp [byteCount_eq, size]
    | cons first before =>
      obtain ⟨rfl, rest_cut⟩ := List.cons.inj cut
      have behind : (head ++ String.ofList gap ++ String.ofList text).utf8ByteSize =
          offset + byteCount gap + byteCount text := by
        simp [byteCount_eq, size]
      simpa [String.append_assoc, endOf] using ih behind rest_cut

theorem offset_le (tiles : Tiles offset cs ls) : ∀ l ∈ ls, offset ≤ l.start := by
  induction tiles with
  | last blank => simp
  | @cons offset gap text rest t ls blank spelled other more ih =>
    rw [List.forall_mem_cons]
    refine ⟨Nat.le_add_right _ _, fun l hl => Nat.le_trans ?_ (ih l hl)⟩
    rw [Nat.add_assoc]
    exact Nat.le_add_right _ _

theorem ascending (tiles : Tiles offset cs ls) :
    ls.Pairwise fun l k => l.start < k.start ∧ l.stop ≤ k.start := by
  induction tiles with
  | last blank => exact List.pairwise_singleton _ _
  | cons blank spelled other more ih =>
    rw [List.pairwise_cons]
    refine ⟨fun k hk => ?_, ih⟩
    have some := byteCount_pos (spelled.ne_nil other)
    have behind := more.offset_le k hk
    dsimp only
    omega

theorem last_eq (tiles : Tiles offset cs ls) : ∃ body last, ls = body ++ [last] ∧
    last.token = .endOfInput ∧ (∀ l ∈ body, l.token ≠ .endOfInput) ∧
    last.start = offset + byteCount cs ∧ last.stop = offset + byteCount cs := by
  induction tiles with
  | last blank => exact ⟨[], _, rfl, rfl, by simp, rfl, rfl⟩
  | cons blank spelled other more ih =>
    obtain ⟨body, last, rfl, token, others, start, stop⟩ := ih
    refine ⟨_ :: body, last, rfl, token, List.forall_mem_cons.2 ⟨other, others⟩, ?_, ?_⟩
    · rw [start, byteCount_append, byteCount_append]
      omega
    · rw [stop, byteCount_append, byteCount_append]
      omega

/-- Every byte lies in a lexeme or between the end of the one before and its start. -/
theorem covers (tiles : Tiles offset cs ls) {n : Nat} (above : offset ≤ n)
    (below : n < offset + byteCount cs) : (∃ l ∈ ls, l.start ≤ n ∧ n < l.stop) ∨
      ∃ before l after, ls = before ++ l :: after ∧ endOf offset before ≤ n ∧ n < l.start := by
  induction tiles with
  | last blank => exact .inr ⟨[], _, [], rfl, above, below⟩
  | @cons offset gap text rest t ls blank spelled other more ih =>
    rw [byteCount_append, byteCount_append] at below
    by_cases inGap : n < offset + byteCount gap
    · exact .inr ⟨[], _, ls, rfl, above, inGap⟩
    · by_cases inText : n < offset + byteCount gap + byteCount text
      · exact .inl ⟨_, List.mem_cons_self, Nat.le_of_not_lt inGap, inText⟩
      · obtain ⟨l, hl, within⟩ | ⟨before, l, after, rfl, between⟩ :=
          ih (Nat.le_of_not_lt inText) (by omega)
        · exact .inl ⟨l, List.mem_cons_of_mem _ hl, within⟩
        · exact .inr ⟨_ :: before, l, after, rfl, between⟩

end Tiles

theorem Lexeme.StandsIn.isValid {source : String} {place : Nat} {l : Lexeme}
    (stands : l.StandsIn source place) :
    (⟨l.start⟩ : String.Pos.Raw).IsValid source ∧ (⟨l.stop⟩ : String.Pos.Raw).IsValid source := by
  obtain ⟨head, gap, text, tail, rfl, -, hstart, hstop, -⟩ := stands
  simp only [String.Pos.Raw.isValid_iff_exists_append]
  refine ⟨⟨head ++ gap, text ++ tail, String.append_assoc, ?_⟩, ⟨head ++ gap ++ text, tail, rfl, ?_⟩⟩
  · rw [← hstart]
    rfl
  · rw [← hstop]
    rfl

/-- Reading the lexemes of a text comes to an end. If it succeeds, the lexemes stand in the text one
behind the other and between its characters, and the last one, which alone is the end of input, stands
at its end. Every byte belongs to a lexeme or to the blanks before one, and a lexeme is marked exactly
if a line ends in the blanks before it. -/
theorem lexemes_cover_the_text :
    (∀ (source : String) (extra : Nat),
      scanLexemes (source.toList.length + 1 + extra) ⟨0, source.toList⟩ = lexemes source) ∧
    ∀ (source : String) (ls : List Lexeme), lexemes source = .ok ls →
      (∀ before l after, ls = before ++ l :: after → l.StandsIn source (endOf 0 before)) ∧
      (ls.Pairwise fun l k => l.start < k.start ∧ l.stop ≤ k.start) ∧
      (∀ l ∈ ls, (⟨l.start⟩ : String.Pos.Raw).IsValid source ∧
        (⟨l.stop⟩ : String.Pos.Raw).IsValid source) ∧
      (∀ n, n < source.utf8ByteSize → (∃ l ∈ ls, l.start ≤ n ∧ n < l.stop) ∨
        ∃ before l after, ls = before ++ l :: after ∧ endOf 0 before ≤ n ∧ n < l.start) ∧
      ∃ body last, ls = body ++ [last] ∧ last.token = .endOfInput ∧
        (∀ l ∈ body, l.token ≠ .endOfInput) ∧ last.start = source.utf8ByteSize ∧
        last.stop = source.utf8ByteSize := by
  refine ⟨fun source extra => scanLexemes_more extra (Nat.lt_succ_self _), fun source ls h => ?_⟩
  have tiles : Tiles 0 source.toList ls := scanLexemes_tiles (Nat.lt_succ_self _) h
  have size : byteCount source.toList = source.utf8ByteSize := by
    rw [byteCount_eq, String.ofList_toList]
  have stands : ∀ before l after, ls = before ++ l :: after →
      l.StandsIn source (endOf 0 before) := by
    intro before l after cut
    have empty : "".utf8ByteSize = 0 := rfl
    have found := tiles.standsIn empty cut
    rwa [String.empty_append, String.ofList_toList] at found
  refine ⟨stands, tiles.ascending, ?_, ?_, ?_⟩
  · intro l hl
    obtain ⟨before, after, cut⟩ := List.append_of_mem hl
    exact (stands before l after cut).isValid
  · intro n below
    exact tiles.covers (Nat.zero_le n) (by omega)
  · simpa [size] using tiles.last_eq

/-- A comment to the end of its line and one of its own end, and a letter of two bytes. -/
theorem commented_lexemes_cover : ∃ ls, lexemes "é//x\n/*\n*/ b" = .ok ls ∧
    (∀ before l after, ls = before ++ l :: after →
      l.StandsIn "é//x\n/*\n*/ b" (endOf 0 before)) ∧
    ls.map (fun l => (l.start, l.stop, l.newlineBefore)) =
      [(0, 2, false), (12, 13, true), (13, 13, false)] := by
  let ls : List Lexeme :=
    [⟨.identifier "é", 0, 2, false⟩, ⟨.identifier "b", 12, 13, true⟩, ⟨.endOfInput, 13, 13, false⟩]
  have lexed : lexemes "é//x\n/*\n*/ b" = .ok ls := by decide +kernel
  exact ⟨ls, lexed, (lexemes_cover_the_text.2 _ _ lexed).1, rfl⟩

end WebBindings.Script
