import WebBindings.Proofs.Script.Munch
/-!
# White space between lexemes

What scripts count as white space is almost what the reader of blanks skips: it does not skip U+FEFF,
and it skips U+0085. White space that is skipped may be added in front of every lexeme; the tokens stay,
and so do the marks of line ends, but for those that are added.
-/

namespace WebBindings.Script

/-- Whether scripts count a character as white space or as a line end. -/
def isScriptSpace (c : Char) : Bool := (Units.ofChar c).all Literal.isBlank

theorem isScriptSpace_iff {c : Char} : isScriptSpace c = true ↔
    Unicode.isWhitespace c = true ∧ c ≠ '\u0085' ∨ c = '\uFEFF' := by
  have next : c = '\u0085' ↔ c.toNat = 0x85 := by rw [← Char.toNat_inj]; rfl
  have mark : c = '\uFEFF' ↔ c.toNat = 0xFEFF := by rw [← Char.toNat_inj]; rfl
  rw [ne_eq, next, mark, isScriptSpace, Units.ofChar]
  split
  · rename_i small
    have unit : c.toNat.toUInt16.toNat = c.toNat := UInt16.toNat_ofNat_of_lt' small
    simp only [List.all_cons, List.all_nil, Bool.and_true, Literal.isBlank, unit, Unicode.isWhitespace,
      Bool.or_eq_true, Bool.and_eq_true, decide_eq_true_eq]
    omega
  · rename_i large
    have bound : c.toNat < 0x110000 := by
      obtain small | between := c.valid
      · exact Nat.lt_trans small (by decide)
      · exact between.2
    have unit : (0xD800 + (c.toNat - 0x10000) / 0x400).toUInt16.toNat =
        0xD800 + (c.toNat - 0x10000) / 0x400 := by
      refine UInt16.toNat_ofNat_of_lt' (Nat.lt_of_lt_of_le ?_ (by decide : 0xDC00 ≤ UInt16.size))
      omega
    simp only [List.all_cons, Literal.isBlank, unit, Unicode.isWhitespace, Bool.or_eq_true,
      Bool.and_eq_true, decide_eq_true_eq]
    omega

theorem mem_of_isWhitespace {c : Char} (white : Unicode.isWhitespace c = true) :
    c.toNat ∈ List.range' 9 5 ++ List.range' 0x2000 11 ++
      [0x20, 0x85, 0xA0, 0x1680, 0x2028, 0x2029, 0x202F, 0x205F, 0x3000] := by
  simp only [Unicode.isWhitespace, Bool.or_eq_true, Bool.and_eq_true, decide_eq_true_eq] at white
  simp only [List.mem_append, List.mem_range'_1, List.mem_cons, List.not_mem_nil, or_false]
  omega

theorem separates_of_isWhitespace {c : Char} (white : Unicode.isWhitespace c = true) :
    separates c = true := by
  have all : ∀ n ∈ List.range' 9 5 ++ List.range' 0x2000 11 ++
      [0x20, 0x85, 0xA0, 0x1680, 0x2028, 0x2029, 0x202F, 0x205F, 0x3000],
      separates (Char.ofNat n) = true := by decide +kernel
  rw [← Char.ofNat_toNat c]
  exact all _ (mem_of_isWhitespace white)

namespace IsBlank

variable {gap following : List Char}

theorem of_white {run : List Char} (white : ∀ c ∈ run, Unicode.isWhitespace c = true)
    (following : List Char) : IsBlank run following := by
  induction run with
  | nil => exact .nil
  | cons c run ih =>
    rw [List.forall_mem_cons] at white
    exact .space white.1 (ih white.2)

theorem congr (blank : IsBlank gap following) {following' : List Char}
    (same : following'.head? = following.head?) : IsBlank gap following' := by
  induction blank with
  | nil => exact .nil
  | space white _ ih => exact .space white (ih same)
  | lineComment inLine ended _ ih =>
    refine .lineComment inLine ?_ (ih same)
    rw [List.head?_append] at ended ⊢
    rwa [same]
  | blockComment opened _ ih => exact .blockComment opened (ih same)

theorem before (blank : IsBlank gap following) {c : Char} (head : following.head? = some c)
    (inLine : isLineEnd c = false) (following' : List Char) : IsBlank gap following' := by
  induction blank with
  | nil => exact .nil
  | space white _ ih => exact .space white (ih head)
  | @lineComment body cs _ others ended _ ih =>
    refine .lineComment others ?_ (ih head)
    cases cs with
    | nil =>
      have ends := ended c (by simpa using head)
      rw [inLine] at ends
      cases ends
    | cons d cs => exact ended
  | blockComment opened _ ih => exact .blockComment opened (ih head)

/-- White space behind a blank makes a longer one. A comment that is open at the end of the text takes
it up to its first line end. -/
theorem append_white (blank : IsBlank gap following)
    (inLine : ∀ c ∈ following.head?, isLineEnd c = false) {run : List Char}
    (white : ∀ c ∈ run, Unicode.isWhitespace c = true) : IsBlank (gap ++ run) following := by
  induction blank with
  | nil => exact of_white white _
  | space first _ ih => exact .space first (ih inLine)
  | @lineComment body cs following others ended _ ih =>
    cases cs with
    | cons d cs =>
      have longer : IsBlank ('/' :: '/' :: (body ++ (d :: cs ++ run))) following :=
        .lineComment others ended (ih inLine)
      simpa using longer
    | nil =>
      have last : following = [] := by
        cases following with
        | nil => rfl
        | cons c following =>
          have ends := ended c rfl
          rw [inLine c rfl] at ends
          cases ends
      subst last
      have cut : run = run.takeWhile (!isLineEnd ·) ++ run.dropWhile (!isLineEnd ·) :=
        List.takeWhile_append_dropWhile.symm
      have longer : IsBlank ('/' :: '/' :: ((body ++ run.takeWhile (!isLineEnd ·)) ++
          run.dropWhile (!isLineEnd ·))) [] := by
        refine .lineComment ?_ ?_ (of_white (fun c hc => white c ?_) _)
        · intro c hc
          rcases List.mem_append.1 hc with hc | hc
          · exact others c hc
          · simpa using List.mem_takeWhile_imp hc
        · intro c hc
          have stop := span_ends (p := (!isLineEnd ·)) (List.span_eq_takeWhile_dropWhile ..) c
            (by simpa using hc)
          simpa using stop
        · exact (List.dropWhile_suffix _).subset hc
      simpa [← cut] using longer
  | @blockComment body cs following opened _ ih =>
    have longer : IsBlank ('/' :: '*' :: (body ++ '*' :: '/' :: (cs ++ run))) following :=
      .blockComment opened (ih inLine)
    simpa using longer

end IsBlank

/-- Whether neither white space nor a comment begins with the first character of a text. -/
def IsSolid (cs : List Char) : Prop := ∀ c ∈ cs.head?, Unicode.isWhitespace c = false ∧ c ≠ '/'

theorem IsSolid.inLine {cs : List Char} (solid : IsSolid cs) : ∀ c ∈ cs.head?, isLineEnd c = false := by
  intro c hc
  by_contra ends
  have white := isLineEnd_isWhitespace (eq_true_of_ne_false ends)
  rw [(solid c hc).1] at white
  cases white

theorem skipBlanks_white {c : Char} (white : Unicode.isWhitespace c = true) (newline : Bool)
    (offset : Nat) (cs : List Char) : skipBlanks .space newline offset (c :: cs) =
      skipBlanks .space (newline || isLineEnd c) (offset + c.utf8Size) cs := by
  have other : c ≠ '/' := by
    rintro rfl
    cases white
  rw [skipBlanks, if_pos white]
  all_goals
    rintro _ rfl
    exact absurd rfl other

theorem IsSolid.skipBlanks_eq {cs : List Char} (solid : IsSolid cs) (newline : Bool) (offset : Nat) :
    skipBlanks .space newline offset cs = .ok (newline, ⟨offset, cs⟩) := by
  cases cs with
  | nil => simp [skipBlanks]
  | cons c cs =>
    obtain ⟨dark, other⟩ := solid c rfl
    rw [skipBlanks]
    · simp [dark]
    all_goals
      rintro _ rfl
      exact absurd rfl other

theorem skipBlanks_lineComment {body : List Char} (inLine : ∀ c ∈ body, isLineEnd c = false)
    {rest : List Char} (ended : ∀ c ∈ rest.head?, isLineEnd c = true) (newline : Bool) (offset : Nat) :
    skipBlanks .lineComment newline offset (body ++ rest) =
      skipBlanks .space newline (offset + byteCount body) rest := by
  induction body generalizing offset with
  | nil =>
    cases rest with
    | nil => simp [skipBlanks, byteCount]
    | cons c rest =>
      have ends := ended c rfl
      rw [skipBlanks_white (isLineEnd_isWhitespace ends)]
      simp [skipBlanks, ends, byteCount]
  | cons c body ih =>
    rw [List.forall_mem_cons] at inLine
    rw [List.cons_append, skipBlanks, inLine.1, ih inLine.2, byteCount_cons, Nat.add_assoc]
    rfl

theorem skipBlanks_blockComment {body : List Char} (opened : ¬ ['*', '/'] <:+: body)
    (rest : List Char) (start : Nat) (newline : Bool) (offset : Nat) :
    skipBlanks (.blockComment start) newline offset (body ++ '*' :: '/' :: rest) =
      skipBlanks .space (newline || body.any isLineEnd) (offset + byteCount body + 2) rest := by
  induction body generalizing newline offset with
  | nil => simp [skipBlanks, byteCount]
  | cons c body ih =>
    rw [List.infix_cons_iff, not_or] at opened
    rw [List.cons_append, skipBlanks, ih opened.2, byteCount_cons, List.any_cons, Bool.or_assoc,
      Nat.add_assoc offset]
    rintro more rfl same
    apply opened.1
    cases body with
    | nil => cases same
    | cons d body =>
      obtain ⟨rfl, -⟩ := List.cons.inj same
      exact ⟨body, rfl⟩

theorem IsBlank.skipBlanks_eq {gap following : List Char} (blank : IsBlank gap following)
    (solid : IsSolid following) (newline : Bool) (offset : Nat) :
    skipBlanks .space newline offset (gap ++ following) =
      .ok (newline || gap.any isLineEnd, ⟨offset + byteCount gap, following⟩) := by
  induction blank generalizing newline offset with
  | nil => simpa [byteCount] using solid.skipBlanks_eq newline offset
  | space white _ ih =>
    rw [List.cons_append, skipBlanks_white white, ih solid, List.any_cons, byteCount_cons,
      Bool.or_assoc, Nat.add_assoc]
  | @lineComment body cs following inLine ended _ ih =>
    have silent : body.any isLineEnd = false := by simpa using inLine
    have flag : ('/' :: '/' :: (body ++ cs)).any isLineEnd = cs.any isLineEnd := by
      simp [silent, isLineEnd]
    have same : '/' :: '/' :: (body ++ cs) ++ following = '/' :: '/' :: (body ++ (cs ++ following)) := by
      simp
    rw [same, skipBlanks, skipBlanks_lineComment inLine ended, ih solid, flag,
      ← offset_pair (c := '/') (d := '/') rfl rfl, byteCount_append, Nat.add_assoc (offset + 2)]
  | @blockComment body cs following opened _ ih =>
    have flag : ('/' :: '*' :: (body ++ '*' :: '/' :: cs)).any isLineEnd =
        (body.any isLineEnd || cs.any isLineEnd) := by
      simp [isLineEnd]
    have same : '/' :: '*' :: (body ++ '*' :: '/' :: cs) ++ following =
        '/' :: '*' :: (body ++ '*' :: '/' :: (cs ++ following)) := by
      simp
    rw [same, skipBlanks, skipBlanks_blockComment opened, ih solid, flag, Bool.or_assoc,
      ← offset_pair (c := '/') (d := '*') rfl rfl, byteCount_append, ← Nat.add_assoc (offset + 2),
      ← offset_pair (c := '*') (d := '/') rfl rfl]

/-- Blanks whose characters outside of comments are of a class. -/
inductive BlankOf (white : Char → Prop) : List Char → (following : List Char) → Prop
  | nil {following} : BlankOf white [] following
  | space {c cs following} (isWhite : white c) (more : BlankOf white cs following) :
      BlankOf white (c :: cs) following
  | lineComment {body cs following} (inLine : ∀ c ∈ body, isLineEnd c = false)
      (ended : ∀ c ∈ (cs ++ following).head?, isLineEnd c = true) (more : BlankOf white cs following) :
      BlankOf white ('/' :: '/' :: (body ++ cs)) following
  | blockComment {body cs following} (opened : ¬ ['*', '/'] <:+: body)
      (more : BlankOf white cs following) :
      BlankOf white ('/' :: '*' :: (body ++ '*' :: '/' :: cs)) following

theorem IsBlank.blankOf {white : Char → Prop} (all : ∀ c, Unicode.isWhitespace c = true → white c)
    {gap following : List Char} (blank : IsBlank gap following) : BlankOf white gap following := by
  induction blank with
  | nil => exact .nil
  | space first _ ih => exact .space (all _ first) ih
  | lineComment inLine ended _ ih => exact .lineComment inLine ended ih
  | blockComment opened _ ih => exact .blockComment opened ih

/-- A text that begins at an offset consists of lexemes, up to the end of the last one, and of the blanks
before each, where another text follows. -/
inductive LaidOut : (offset : Nat) → List Char → List Lexeme → (following : List Char) → Prop
  | nil {offset following} : LaidOut offset [] [] following
  | cons {offset gap text rest t ls following} (blank : IsBlank gap (text ++ (rest ++ following)))
      (lexed : IsLexed text t (rest ++ following).head?) (other : t ≠ .endOfInput)
      (more : LaidOut (offset + byteCount gap + byteCount text) rest ls following) :
      LaidOut offset (gap ++ (text ++ rest)) (⟨t, offset + byteCount gap,
        offset + byteCount gap + byteCount text, gap.any isLineEnd⟩ :: ls) following

/-- The end of input behind a text and its last blanks. -/
def endAt (offset : Nat) (gap : List Char) : Lexeme :=
  ⟨.endOfInput, offset + byteCount gap, offset + byteCount gap, gap.any isLineEnd⟩

theorem IsLexed.isSolid {text : List Char} {t : Token} {next : Option Char} (lexed : IsLexed text t next)
    (other : t ≠ .endOfInput) (rest : List Char) : IsSolid (text ++ rest) := by
  have part {c : Char} (part : isNamePart c = true) : Unicode.isWhitespace c = false ∧ c ≠ '/' := by
    constructor
    · by_contra white
      have separator := separates_of_isWhitespace (eq_true_of_ne_false white)
      rw [separates, part] at separator
      cases separator
    · rintro rfl
      exact absurd part (by decide)
  cases lexed with
  | @number whole point scale _ _ _ _ decimal fractional _ some =>
    obtain ⟨first, cs, cut, starts⟩ := number_front decimal fractional some (scale ++ rest)
    rw [List.append_assoc, List.append_assoc, cut]
    rintro _ ⟨⟩
    obtain digit | ⟨rfl, -⟩ := starts
    · exact part (isNamePart_of_isDigit digit)
    · decide
  | string isQuote =>
    rintro _ ⟨⟩
    rcases isQuote with rfl | rfl <;> decide
  | identifier starts =>
    rintro _ ⟨⟩
    exact part (by rw [isNamePart, starts, Bool.true_or])
  | @punctuator p =>
    have solid : IsSolid p.text.toList := by
      cases p <;> (rintro _ ⟨⟩; decide)
    obtain ⟨first, more, htext, -⟩ := p.text_eq
    rw [htext] at solid ⊢
    exact solid
  | endOfInput => exact absurd rfl other

namespace LaidOut

variable {offset : Nat} {cs : List Char} {ls : List Lexeme} {following : List Char}

theorem append {ds : List Char} {ks : List Lexeme} (first : LaidOut offset cs ls (ds ++ following))
    (second : LaidOut (offset + byteCount cs) ds ks following) :
    LaidOut offset (cs ++ ds) (ls ++ ks) following := by
  generalize behind : ds ++ following = later at first
  induction first with
  | nil => exact second
  | @cons offset gap text rest t ls _ blank lexed other more ih =>
    subst behind
    rw [List.append_assoc, List.append_assoc, List.cons_append]
    refine .cons ?_ ?_ other (ih ?_ rfl)
    · rwa [List.append_assoc]
    · rwa [List.append_assoc]
    · rw [byteCount_append, byteCount_append] at second
      simpa only [Nat.add_assoc] using second

theorem split {ks : List Lexeme} (laid : LaidOut offset cs (ls ++ ks) following) :
    ∃ first second, cs = first ++ second ∧ LaidOut offset first ls (second ++ following) ∧
      LaidOut (offset + byteCount first) second ks following := by
  induction ls generalizing offset cs with
  | nil => exact ⟨[], cs, rfl, .nil, laid⟩
  | cons l ls ih =>
    cases laid with
    | @cons _ gap text rest t _ _ blank lexed other more =>
      obtain ⟨first, second, rfl, laid, laid'⟩ := ih more
      refine ⟨gap ++ (text ++ first), second, by simp, .cons ?_ ?_ other laid, ?_⟩
      · rwa [List.append_assoc] at blank
      · rwa [List.append_assoc] at lexed
      · rw [byteCount_append, byteCount_append]
        simpa only [Nat.add_assoc] using laid'

/-- Behind the last lexeme only the next character matters, and not even this one if tokens end there. -/
theorem refollow (laid : LaidOut offset cs ls following) {following' : List Char}
    (same : following'.head? = following.head? ∨ ∃ c, following'.head? = some c ∧ separates c = true) :
    LaidOut offset cs ls following' := by
  induction laid with
  | nil => exact .nil
  | @cons offset gap text rest t ls _ blank lexed other more ih =>
    refine .cons (blank.congr ?_) ?_ other (ih same)
    · cases text with
      | nil => exact absurd rfl (lexed.ne_nil other)
      | cons c text => rfl
    · cases rest with
      | cons c rest => exact lexed
      | nil =>
        obtain same | ⟨c, head, separator⟩ := same
        · rwa [List.nil_append, same]
        · rw [List.nil_append, head]
          exact lexed.before_separator other separator

theorem before_white {gap tail run next : List Char} (laid : LaidOut offset cs ls (gap ++ tail))
    (white : ∀ c ∈ run, Unicode.isWhitespace c = true)
    (same : next.head? = tail.head? ∨ ∃ c, next.head? = some c ∧ separates c = true) :
    LaidOut offset cs ls ((gap ++ run) ++ next) := by
  refine laid.refollow ?_
  cases gap with
  | cons c gap => exact .inl rfl
  | nil =>
    cases run with
    | nil => exact same
    | cons c run => exact .inr ⟨c, rfl, separates_of_isWhitespace (white c List.mem_cons_self)⟩

theorem shift (laid : LaidOut offset cs ls following) (n : Nat) :
    LaidOut (offset + n) cs (ls.map fun l => { l with start := l.start + n, stop := l.stop + n })
      following := by
  induction laid with
  | nil => exact .nil
  | @cons offset gap text rest t ls _ blank lexed other more ih =>
    have moved := Nat.add_right_comm offset (byteCount gap) n
    have moved' := Nat.add_right_comm (offset + byteCount gap) (byteCount text) n
    rw [List.map_cons]
    dsimp only
    rw [moved', moved] at ih ⊢
    exact .cons blank lexed other ih

theorem scanLexemes_eq (laid : LaidOut offset cs ls following) (bound : Nat) :
    scanLexemes (bound + ls.length) ⟨offset, cs ++ following⟩ =
      (ls ++ ·) <$> scanLexemes bound ⟨offset + byteCount cs, following⟩ := by
  induction laid with
  | nil => simp [byteCount]
  | @cons offset gap text rest t ls following blank lexed other more ih =>
    have solid := lexed.isSolid other (rest ++ following)
    have skipped := blank.skipBlanks_eq solid false offset
    have read := lexed.scanToken_eq (offset + byteCount gap)
    rw [List.append_assoc, List.append_assoc, List.length_cons, ← Nat.add_assoc, scanLexemes]
    dsimp only
    rw [skipped]
    change (scanToken _ >>= _) = _
    rw [read]
    change (if t = .endOfInput then _ else _) = _
    rw [if_neg other, ih, byteCount_append, byteCount_append, Nat.add_assoc (offset + byteCount gap),
      Nat.add_assoc offset]
    cases scanLexemes bound _ <;> rfl

end LaidOut

/-- The lexemes of a text are laid out in it, up to its last blanks. -/
theorem scanLexemes_laidOut {bound : Nat} {c : Cursor} {ls : List Lexeme}
    (enough : c.rest.length < bound) (h : scanLexemes bound c = .ok ls) :
    ∃ text gap body, c.rest = text ++ gap ∧ LaidOut c.offset text body gap ∧ IsBlank gap [] ∧
      ls = body ++ [endAt (c.offset + byteCount text) gap] := by
  induction bound generalizing c ls with
  | zero => exact absurd enough (Nat.not_lt_zero _)
  | succ bound ih =>
    obtain ⟨newline, front, t, after, hblanks, htoken, h⟩ := scanLexemes_succ.1 h
    obtain ⟨gap, hgap, blank, hfront, hnewline⟩ := skipBlanks_passes hblanks
    obtain ⟨text, lexed, htext, hafter⟩ := scanToken_lexes htoken
    rw [Bool.false_or] at hnewline
    subst hnewline
    by_cases ended : t = .endOfInput
    · subst ended
      rw [if_pos rfl] at h
      generalize following : after.rest.head? = next at lexed
      cases lexed
      rw [List.head?_eq_none_iff] at following
      rw [htext, following] at hgap blank
      refine ⟨[], gap, [], by simpa using hgap, .nil, blank, ?_⟩
      rw [h, hafter, hfront]
      rfl
    · rw [if_neg ended] at h
      obtain ⟨more, hmore, rfl⟩ := h
      have some := List.length_pos_iff.2 (lexed.ne_nil ended)
      rw [hgap, htext, List.length_append, List.length_append] at enough
      obtain ⟨rest, last, body, hrest, laid, final, rfl⟩ := ih (by omega) hmore
      rw [htext, hrest] at blank
      rw [hrest] at lexed
      rw [hafter, hfront] at laid
      refine ⟨gap ++ (text ++ rest), last, _, by simp [hgap, htext, hrest],
        .cons blank lexed ended laid, final, ?_⟩
      rw [hafter, hfront, byteCount_append, byteCount_append]
      simp only [Nat.add_assoc, List.cons_append]

theorem LaidOut.lexemes_append {text rest : List Char} {body : List Lexeme}
    (laid : LaidOut 0 text body rest) : lexemes (String.ofList (text ++ rest)) =
      (body ++ ·) <$> scanLexemes ((text ++ rest).length + 1) ⟨byteCount text, rest⟩ := by
  have more := scanLexemes_more body.length (c := ⟨0, text ++ rest⟩) (Nat.lt_succ_self _)
  rw [lexemes, String.toList_ofList, ← more, laid.scanLexemes_eq, Nat.zero_add]

theorem LaidOut.lexemes_eq {text gap : List Char} {body : List Lexeme} (laid : LaidOut 0 text body gap)
    (final : IsBlank gap []) :
    lexemes (String.ofList (text ++ gap)) = .ok (body ++ [endAt (byteCount text) gap]) := by
  have skipped := final.skipBlanks_eq (by simp [IsSolid]) false (byteCount text)
  rw [List.append_nil] at skipped
  rw [laid.lexemes_append, scanLexemes]
  dsimp only
  rw [skipped]
  rfl

/-- From an offset on, a text consists of a token up to its stop and of other lexemes. -/
inductive Continues : (offset : Nat) → List Char → Token → (stop : Nat) → List Lexeme → Prop
  | last {offset} : Continues offset [] .endOfInput offset []
  | token {offset text t rest body gap} (lexed : IsLexed text t (rest ++ gap).head?)
      (other : t ≠ .endOfInput) (laid : LaidOut (offset + byteCount text) rest body gap)
      (final : IsBlank gap []) :
      Continues offset (text ++ (rest ++ gap)) t (offset + byteCount text)
        (body ++ [endAt (offset + byteCount text + byteCount rest) gap])

/-- A lexeme some bytes further on. -/
def Lexeme.shift (n : Nat) (l : Lexeme) : Lexeme := { l with start := l.start + n, stop := l.stop + n }

theorem endAt_shift (offset n : Nat) (gap : List Char) :
    (endAt offset gap).shift n = endAt (offset + n) gap := by
  simp only [Lexeme.shift, endAt, Nat.add_right_comm offset n]

namespace Continues

variable {offset stop : Nat} {tail : List Char} {t : Token} {after : List Lexeme}

theorem isSolid (continues : Continues offset tail t stop after) : IsSolid tail := by
  cases continues with
  | last => simp [IsSolid]
  | token lexed other => exact lexed.isSolid other _

theorem shift (continues : Continues offset tail t stop after) (n : Nat) :
    Continues (offset + n) tail t (stop + n) (after.map (Lexeme.shift n)) := by
  cases continues with
  | last => exact .last
  | @token text _ rest body gap lexed other laid final =>
    have moved := laid.shift n
    rw [Nat.add_right_comm] at moved
    rw [List.map_append, List.map_singleton, endAt_shift, Nat.add_right_comm _ (byteCount rest),
      Nat.add_right_comm offset]
    exact .token lexed other moved final

end Continues

theorem Continues.lexemes_eq {first gap tail : List Char} {before after : List Lexeme} {t : Token}
    {stop : Nat} (laid : LaidOut 0 first before (gap ++ tail)) (blank : IsBlank gap tail)
    (continues : Continues (byteCount first + byteCount gap) tail t stop after) :
    lexemes (String.ofList (first ++ (gap ++ tail))) =
      .ok (before ++ ⟨t, byteCount first + byteCount gap, stop, gap.any isLineEnd⟩ :: after) := by
  cases continues with
  | last =>
    rw [List.append_nil] at laid ⊢
    exact laid.lexemes_eq blank
  | @token text _ rest body final lexed other more last =>
    have whole : LaidOut (0 + byteCount first) (gap ++ (text ++ rest)) _ final :=
      .cons (by simpa using blank) lexed other (by simpa using more)
    have cut : first ++ (gap ++ (text ++ (rest ++ final))) = (first ++ (gap ++ (text ++ rest))) ++ final := by
      simp
    have laid' := LaidOut.append (by simpa using laid) whole
    rw [cut, laid'.lexemes_eq last]
    simp [byteCount_append, Nat.add_assoc]

theorem lexemes_cut {source : String} {before after : List Lexeme} {l : Lexeme}
    (h : lexemes source = .ok (before ++ l :: after)) : ∃ first gap tail t stop,
      source.toList = first ++ (gap ++ tail) ∧ LaidOut 0 first before (gap ++ tail) ∧
      IsBlank gap tail ∧ Continues (byteCount first + byteCount gap) tail t stop after ∧
      l = ⟨t, byteCount first + byteCount gap, stop, gap.any isLineEnd⟩ := by
  obtain ⟨text, final, body, cut, laid, last, same⟩ := scanLexemes_laidOut (Nat.lt_succ_self _) h
  dsimp only at cut laid same
  rw [Nat.zero_add] at same
  rw [cut]
  obtain rfl | ⟨init, l', rfl⟩ := List.eq_nil_or_concat after
  · obtain ⟨rfl, single⟩ := List.append_inj' same rfl
    obtain rfl := List.singleton_inj.1 single
    refine ⟨text, final, [], .endOfInput, _, by simp, by simpa using laid, last, .last, rfl⟩
  · have split : (before ++ l :: init) ++ [l'] = body ++ [endAt (byteCount text) final] := by
      simpa using same
    obtain ⟨rfl, single⟩ := List.append_inj' split rfl
    obtain rfl := List.singleton_inj.1 single
    obtain ⟨first, second, rfl, front, behind⟩ := laid.split
    rw [Nat.zero_add] at behind
    cases behind with
    | @cons _ gap own rest t _ _ blank lexed other more =>
      have continued := Continues.token lexed other more last
      refine ⟨first, gap, own ++ (rest ++ final), t, _, by simp, by simpa using front, blank, ?_, rfl⟩
      simpa [byteCount_append, Nat.add_assoc] using continued

theorem scanLexemes_error {bound : Nat} {c front : Cursor} {newline : Bool} {fault : SyntaxFault}
    (skipped : skipBlanks .space false c.offset c.rest = .ok (newline, front))
    (refused : scanToken front = .error fault) : scanLexemes (bound + 1) c = .error fault := by
  rw [scanLexemes, skipped]
  change (scanToken front >>= _) = _
  rw [refused]
  rfl

/-- No token begins with U+FEFF, so that lexemes cannot be read any further. -/
theorem LaidOut.lexemes_eq_error {text gap rest : List Char} {body : List Lexeme}
    (laid : LaidOut 0 text body (gap ++ '\uFEFF' :: rest))
    (blank : IsBlank gap ('\uFEFF' :: rest)) :
    lexemes (String.ofList (text ++ (gap ++ '\uFEFF' :: rest))) =
      .error (.invalidCharacter '\uFEFF' (byteCount text + byteCount gap)) := by
  have solid : IsSolid ('\uFEFF' :: rest) := by
    rintro _ ⟨⟩
    decide
  have unnamed : isNameStart '\uFEFF' = false := by decide +kernel
  have skipped := blank.skipBlanks_eq solid false (byteCount text)
  have refused : scanToken ⟨byteCount text + byteCount gap, '\uFEFF' :: rest⟩ =
      .error (.invalidCharacter '\uFEFF' (byteCount text + byteCount gap)) := by
    simp [scanToken, Ascii.isDigit, unnamed, Punctuator.atFront?, Punctuator.all, Punctuator.text,
      List.isPrefixOf]
  rw [laid.lexemes_append, scanLexemes_error skipped refused]
  rfl

theorem LaidOut.endOf_eq {offset : Nat} {cs following : List Char} {ls : List Lexeme}
    (laid : LaidOut offset cs ls following) : endOf offset ls = offset + byteCount cs := by
  induction laid with
  | nil => rfl
  | cons _ _ _ _ ih =>
    rw [endOf, ih, byteCount_append, byteCount_append]
    omega

theorem cut_eq {a b c d : List Char} (same : a ++ b = c ++ d) (bytes : byteCount a = byteCount c) :
    a = c ∧ b = d := by
  have none {cs : List Char} (empty : byteCount cs = 0) : cs = [] := by
    by_contra some
    exact Nat.ne_of_gt (byteCount_pos some) empty
  obtain ⟨more, rfl, rfl⟩ | ⟨more, rfl, rfl⟩ := List.append_eq_append_iff.1 same
  · rw [byteCount_append] at bytes
    obtain rfl := none (by omega : byteCount more = 0)
    simp
  · rw [byteCount_append] at bytes
    obtain rfl := none (by omega : byteCount more = 0)
    simp

/-- White space that is put in front of a lexeme moves this lexeme and those behind it. -/
theorem Continues.lexemes_white {first gap tail run : List Char} {before after : List Lexeme} {t : Token}
    {stop : Nat} (laid : LaidOut 0 first before (gap ++ tail)) (blank : IsBlank gap tail)
    (continues : Continues (byteCount first + byteCount gap) tail t stop after)
    (white : ∀ c ∈ run, Unicode.isWhitespace c = true) :
    lexemes (String.ofList (first ++ (gap ++ (run ++ tail)))) = .ok (before ++
      ⟨t, byteCount first + byteCount gap + byteCount run, stop + byteCount run,
        gap.any isLineEnd || run.any isLineEnd⟩ :: after.map (Lexeme.shift (byteCount run))) := by
  have moved := continues.shift (byteCount run)
  rw [Nat.add_assoc, ← byteCount_append] at moved
  have read := moved.lexemes_eq (laid.before_white white (.inl rfl))
    (blank.append_white continues.isSolid.inLine white)
  rw [List.append_assoc, byteCount_append, List.any_append, ← Nat.add_assoc] at read
  exact read

/-- U+FEFF in front of a token ends the reading, also behind white space that is put there. -/
theorem Continues.lexemes_mark {first gap tail run rest : List Char} {before after : List Lexeme}
    {t : Token} {stop : Nat} (laid : LaidOut 0 first before (gap ++ tail)) (blank : IsBlank gap tail)
    (continues : Continues (byteCount first + byteCount gap) tail t stop after) (other : t ≠ .endOfInput)
    (white : ∀ c ∈ run, Unicode.isWhitespace c = true) :
    lexemes (String.ofList (first ++ ((gap ++ run) ++ '\uFEFF' :: rest))) =
      .error (.invalidCharacter '\uFEFF' (byteCount first + byteCount (gap ++ run))) := by
  obtain ⟨c, more, rfl⟩ : ∃ c more, tail = c :: more := by
    cases continues with
    | last => exact absurd rfl other
    | token lexed other =>
      obtain ⟨c, text, rfl⟩ := List.exists_cons_of_ne_nil (lexed.ne_nil other)
      exact ⟨c, _, rfl⟩
  have mark : separates '\uFEFF' = true := by decide +kernel
  have inLine := continues.isSolid.inLine
  exact LaidOut.lexemes_eq_error (laid.before_white white (.inr ⟨_, rfl, mark⟩))
    ((blank.append_white inLine white).before rfl (inLine c rfl) _)

/-- The reader of blanks skips what scripts count as white space, except for U+FEFF, and also U+0085.
White space that it skips may be put in front of every lexeme: the tokens stay, and so do the marks of
line ends, but that the lexeme is also marked if a line ends in the white space. U+FEFF in front of a
token is refused. Between lexemes nothing is skipped but this white space and comments. -/
theorem white_space_between_lexemes {source : String} {before after : List Lexeme} {l : Lexeme}
    (read : lexemes source = .ok (before ++ l :: after)) :
    (∀ c, isScriptSpace c = true ↔ Unicode.isWhitespace c = true ∧ c ≠ '\u0085' ∨ c = '\uFEFF') ∧
    (∃ head tail : String, source = head ++ tail ∧ head.utf8ByteSize = l.start) ∧
    ∀ head tail : String, source = head ++ tail → head.utf8ByteSize = l.start →
      (∀ run : String, (∀ c ∈ run.toList, Unicode.isWhitespace c = true) →
        lexemes (head ++ run ++ tail) = .ok (before ++
          ⟨l.token, l.start + run.utf8ByteSize, l.stop + run.utf8ByteSize,
            l.newlineBefore || run.toList.any isLineEnd⟩ :: after.map (.shift run.utf8ByteSize))) ∧
      (l.token ≠ .endOfInput → ∀ run rest : String, (∀ c ∈ run.toList, Unicode.isWhitespace c = true) →
        lexemes (head ++ run ++ "\uFEFF" ++ rest ++ tail) =
          .error (.invalidCharacter '\uFEFF' (l.start + run.utf8ByteSize))) ∧
      ∃ first gap : String, head = first ++ gap ∧ first.utf8ByteSize = endOf 0 before ∧
        BlankOf (fun c => isScriptSpace c = true ∨ c = '\u0085') gap.toList tail.toList := by
  have size (s : String) : s.utf8ByteSize = byteCount s.toList := by
    rw [byteCount_eq, String.ofList_toList]
  obtain ⟨first, gap, rest, t, stop, cut, laid, blank, continues, rfl⟩ := lexemes_cut read
  refine ⟨fun c => isScriptSpace_iff, ?_, fun head tail same place => ?_⟩
  · refine ⟨String.ofList (first ++ gap), String.ofList rest, ?_, ?_⟩
    · rw [← String.ofList_append, List.append_assoc, ← cut, String.ofList_toList]
    · rw [← byteCount_eq, byteCount_append]
  · rw [same, String.toList_append, ← List.append_assoc] at cut
    rw [size] at place
    obtain ⟨hhead, rfl⟩ := cut_eq cut (by rw [place, byteCount_append])
    refine ⟨fun run white => ?_, fun other run rest white => ?_,
      String.ofList first, String.ofList gap, ?_, ?_, ?_⟩
    · have shifted := continues.lexemes_white laid blank white
      have spelled : head ++ run ++ tail = String.ofList (first ++ (gap ++ (run.toList ++ tail.toList))) := by
        rw [← List.append_assoc, ← hhead, ← String.toList_append, ← String.toList_append,
          String.ofList_toList, String.append_assoc]
      rw [spelled, shifted, size run]
    · have spelled : head ++ run ++ "\uFEFF" ++ rest ++ tail = String.ofList (first ++ ((gap ++ run.toList) ++
          '\uFEFF' :: (rest.toList ++ tail.toList))) := by
        rw [← List.append_assoc, ← List.append_assoc, ← hhead]
        simp [String.ofList_append, String.append_assoc, String.ofList_cons]
      rw [spelled, continues.lexemes_mark laid blank other white, byteCount_append, size run, Nat.add_assoc]
    · rw [← String.ofList_append, ← hhead, String.ofList_toList]
    · rw [← byteCount_eq, laid.endOf_eq, Nat.zero_add]
    · rw [String.toList_ofList]
      refine blank.blankOf fun c white => ?_
      by_cases next : c = '\u0085'
      · exact .inr next
      · exact .inl (isScriptSpace_iff.2 (.inl ⟨white, next⟩))

/-- A line separator and U+0085 in front of the value of a `return`. -/
theorem separated_return_keeps_its_tokens :
    lexemes ("return " ++ "\u0085\u2028" ++ "1") = .ok [⟨.identifier "return", 0, 6, false⟩,
      ⟨.number (.ofNat 1), 12, 13, true⟩, ⟨.endOfInput, 13, 13, false⟩] ∧
    lexemes ("return " ++ "" ++ "\uFEFF" ++ "" ++ "1") = .error (.invalidCharacter '\uFEFF' 7) := by
  have lexed : lexemes ("return " ++ "1") = .ok ([⟨.identifier "return", 0, 6, false⟩] ++
      ⟨.number (.ofNat 1), 7, 8, false⟩ :: [⟨.endOfInput, 8, 8, false⟩]) := by decide +kernel
  obtain ⟨-, -, cuts⟩ := white_space_between_lexemes lexed
  obtain ⟨spaced, marked, -⟩ := cuts "return " "1" rfl rfl
  have white : "\u0085\u2028".toList.all Unicode.isWhitespace = true := by decide
  exact ⟨spaced "\u0085\u2028" (List.all_eq_true.1 white), marked (by decide) "" "" (by simp)⟩

/-- U+FEFF is white space of scripts that is not skipped, and U+0085 is skipped without being any. -/
theorem skipped_space_is_not_script_space :
    isScriptSpace '\uFEFF' = true ∧ (∃ ls, lexemes "return 1" = .ok ls) ∧
    lexemes "return \uFEFF1" = .error (.invalidCharacter '\uFEFF' 7) ∧
    isScriptSpace '\u0085' = false ∧ lexemes "a\u0085b" = .ok [⟨.identifier "a", 0, 1, false⟩,
      ⟨.identifier "b", 3, 4, false⟩, ⟨.endOfInput, 4, 4, false⟩] := by
  refine ⟨by decide, ⟨[⟨.identifier "return", 0, 6, false⟩, ⟨.number (.ofNat 1), 7, 8, false⟩,
    ⟨.endOfInput, 8, 8, false⟩], by decide +kernel⟩, by decide +kernel, by decide, by decide +kernel⟩

end WebBindings.Script
