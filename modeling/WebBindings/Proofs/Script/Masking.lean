import Mathlib.Data.List.TakeWhile
import WebBindings.Proofs.Script.StringLiterals
/-!
# Characters outside literals and comments

A text is masked when every character of a string literal or comment is replaced by a blank. Masking
knows nothing of tokens; the readers of blanks and tokens are shown to keep to it. A minus in what is
left is a token of its own, unless it is the sign of an exponent.
-/

namespace WebBindings.Script

section Repeats

variable {α : Type} (p : α → Bool)

/-- How many items of a class stand directly behind another one; `before` tells whether one stands
before the list. -/
def repeats : (before : Bool) → List α → Nat
  | _, [] => 0
  | before, x :: xs => (if before && p x then 1 else 0) + repeats (p x) xs

/-- Whether the last item is of the class, or the one before an empty list. -/
def endsIn : (before : Bool) → List α → Bool
  | before, [] => before
  | _, x :: xs => endsIn (p x) xs

/-- At most `n` items repeat, even behind another one, and the last item is not of the class. -/
structure Spaced (xs : List α) (n : Nat) : Prop where
  few : repeats p true xs ≤ n
  ends : endsIn p true xs = false

variable {p}

theorem repeats_append (before : Bool) (xs ys : List α) :
    repeats p before (xs ++ ys) = repeats p before xs + repeats p (endsIn p before xs) ys := by
  induction xs generalizing before with
  | nil => simp [repeats, endsIn]
  | cons x xs ih => simp [repeats, endsIn, ih, Nat.add_assoc]

theorem endsIn_append (before : Bool) (xs ys : List α) :
    endsIn p before (xs ++ ys) = endsIn p (endsIn p before xs) ys := by
  induction xs generalizing before with
  | nil => rfl
  | cons x xs ih => exact ih _

theorem repeats_le (before : Bool) (xs : List α) : repeats p before xs ≤ repeats p true xs := by
  cases xs with
  | nil => exact Nat.le_refl _
  | cons x xs => cases before <;> simp [repeats]

theorem repeats_false_le (before : Bool) (xs : List α) :
    repeats p false xs ≤ repeats p before xs := by
  cases xs with
  | nil => exact Nat.le_refl _
  | cons x xs => simp [repeats]

theorem endsIn_of_ends {xs : List α} (ends : endsIn p true xs = false) (before : Bool) :
    endsIn p before xs = false := by
  cases xs with
  | nil => cases ends
  | cons => exact ends

theorem repeats_append_le {xs ys : List α} {m n : Nat} (left : repeats p true xs ≤ m)
    (right : repeats p true ys ≤ n) : repeats p true (xs ++ ys) ≤ m + n := by
  rw [repeats_append]
  exact Nat.add_le_add left (Nat.le_trans (repeats_le _ _) right)

theorem repeats_cons_le {x : α} {xs : List α} {n : Nat} (other : p x = false)
    (rest : repeats p true xs ≤ n) : repeats p true (x :: xs) ≤ n := by
  have behind := repeats_le (p := p) false xs
  simp [repeats, other]
  omega

namespace Spaced

theorem single {x : α} (other : p x = false) : Spaced p [x] 0 := by
  constructor
  · simp [repeats, other]
  · exact other

theorem of_none {x : α} {xs : List α} (none : ∀ y ∈ x :: xs, p y = false) :
    Spaced p (x :: xs) 0 := by
  induction xs generalizing x with
  | nil => exact single (none x (by simp))
  | cons y xs ih =>
    rw [List.forall_mem_cons] at none
    obtain ⟨few, ends⟩ := ih none.2
    have other := none.1
    constructor
    · rw [repeats, other]
      exact Nat.le_trans (by simpa using repeats_le _ _) few
    · rw [endsIn, other]
      exact endsIn_of_ends ends _

theorem append {xs ys : List α} {m n : Nat} (left : Spaced p xs m) (right : Spaced p ys n) :
    Spaced p (xs ++ ys) (m + n) := by
  constructor
  · rw [repeats_append]
    exact Nat.add_le_add left.few (Nat.le_trans (repeats_le _ _) right.few)
  · rw [endsIn_append]
    exact endsIn_of_ends right.ends _

theorem join {xs ys : List α} {m n : Nat} (left : Spaced p xs m) (x : α) (right : Spaced p ys n) :
    Spaced p (xs ++ x :: ys) (m + n) := by
  constructor
  · have behind := Nat.le_trans (repeats_le (p x) ys) right.few
    rw [repeats_append, left.ends, repeats]
    have := left.few
    simp
    omega
  · rw [endsIn_append, endsIn]
    exact endsIn_of_ends right.ends _

theorem cons {x : α} {xs : List α} {n : Nat} (other : p x = false) (rest : Spaced p xs n) :
    Spaced p (x :: xs) n := by
  simpa using (single other).append rest

theorem succ {xs : List α} {n : Nat} (x : α) (rest : Spaced p xs n) : Spaced p (x :: xs) (n + 1) := by
  constructor
  · have behind := Nat.le_trans (repeats_le (p x) xs) rest.few
    rw [repeats]
    split <;> omega
  · exact endsIn_of_ends rest.ends _

end Spaced

theorem repeats_blank {x : α} {xs ys : List α} (other : p x = false)
    (h : ∀ before, repeats p before xs ≤ repeats p before ys) (before : Bool) :
    repeats p before (x :: xs) ≤ repeats p before ys := by
  have first := h false
  have second := repeats_false_le (p := p) before ys
  simp [repeats, other]
  omega

theorem repeats_pos {x y : α} (hx : p x = true) (hy : p y = true) (before : Bool) (xs ys : List α) :
    0 < repeats p before (xs ++ x :: y :: ys) := by
  rw [repeats_append, repeats, repeats, hx, hy]
  simp only [Bool.and_true, if_true]
  omega

end Repeats

/-- What a character of a text stands in. -/
inductive Region
  | code
  | text (quote : Char)
  | escape (quote : Char)
  | lineComment
  | blockComment

/-- The text with a blank in place of every character of a string literal or comment. -/
def mask : Region → List Char → List Char
  | _, [] => []
  | .code, '/' :: '/' :: cs => ' ' :: ' ' :: mask .lineComment cs
  | .code, '/' :: '*' :: cs => ' ' :: ' ' :: mask .blockComment cs
  | .code, c :: cs =>
    if c = '"' || c = '\'' then ' ' :: mask (.text c) cs else c :: mask .code cs
  | .text quote, c :: cs =>
    ' ' :: mask (if c = '\\' then .escape quote else if c = quote then .code else .text quote) cs
  | .escape quote, _ :: cs => ' ' :: mask (.text quote) cs
  | .lineComment, c :: cs =>
    if isLineEnd c then c :: mask .code cs else ' ' :: mask .lineComment cs
  | .blockComment, '*' :: '/' :: cs => ' ' :: ' ' :: mask .code cs
  | .blockComment, _ :: cs => ' ' :: mask .blockComment cs

/-- The text outside string literals and comments. -/
def exposed (source : String) : List Char := mask .code source.toList

def isDash (c : Char) : Bool := c = '-'

/-- Characters that begin neither a string literal nor a comment. -/
def isBare (c : Char) : Bool := c ≠ '/' && c ≠ '"' && c ≠ '\''

/-- Classes that none of the four belongs to need no attention. -/
theorem ordinary {q : Char → Bool} (none : ['/', '"', '\'', '-'].any q = false) {c : Char}
    (h : q c = true) : isBare c = true ∧ isDash c = false := by
  have other : c ∉ ['/', '"', '\'', '-'] := by
    intro special
    exact List.any_eq_false.1 none c special h
  constructor <;> simp_all [isBare, isDash]

theorem mask_bare {c : Char} (bare : isBare c = true) (cs : List Char) :
    mask .code (c :: cs) = c :: mask .code cs := by
  simp only [isBare, Bool.and_eq_true, decide_eq_true_eq] at bare
  rw [mask]
  · simp [bare]
  all_goals simp [bare]

theorem mask_append {read : List Char} (bare : ∀ c ∈ read, isBare c = true) (rest : List Char) :
    mask .code (read ++ rest) = read ++ mask .code rest := by
  induction read with
  | nil => rfl
  | cons c read ih =>
    rw [List.forall_mem_cons] at bare
    rw [List.cons_append, mask_bare bare.1, ih bare.2, List.cons_append]

namespace Blank

/-- Where a reader of blanks is. -/
def region : Blank → Region
  | .space => .code
  | .lineComment => .lineComment
  | .blockComment _ => .blockComment

end Blank

theorem skipBlanks_repeats {blank : Blank} {newline newline' : Bool} {offset : Nat}
    {cs : List Char} {front : Cursor} (h : skipBlanks blank newline offset cs = .ok (newline', front))
    (before : Bool) :
    repeats isDash before (mask blank.region cs) ≤ repeats isDash before (mask .code front.rest) := by
  fun_induction skipBlanks blank newline offset cs generalizing before with
  | case1 newline offset rest ih =>
    exact repeats_blank rfl (repeats_blank rfl (ih h)) before
  | case2 newline offset rest ih =>
    exact repeats_blank rfl (repeats_blank rfl (ih h)) before
  | case3 newline offset c rest _ _ white ih =>
    have other := ordinary (by decide) white
    rw [Blank.region, mask_bare other.1]
    exact repeats_blank other.2 (ih h) before
  | case4 =>
    cases h
    exact Nat.le_refl _
  | case5 newline offset c rest ends ih =>
    rw [Blank.region, mask, if_pos ends]
    have other : isDash c = false := by
      simp only [isDash, decide_eq_false_iff_not]
      rintro rfl
      cases ends
    exact repeats_blank other (ih h) before
  | case6 newline offset c rest ends ih =>
    rw [Blank.region, mask, if_neg ends]
    exact repeats_blank rfl (ih h) before
  | case7 start newline offset rest ih =>
    exact repeats_blank rfl (repeats_blank rfl (ih h)) before
  | case8 start newline offset c rest unclosed ih =>
    rw [Blank.region, mask]
    · exact repeats_blank rfl (ih h) before
    · exact unclosed
  | case9 => cases h
  | case10 =>
    cases h
    simp [mask, repeats]

theorem escapeNumber?_digits {digits : List Char} {n : Nat} (h : escapeNumber? digits = some n) :
    ∀ c ∈ digits, (c = '+' || (Ascii.digit? 16 c).isSome) = true := by
  simp only [escapeNumber?, Option.ite_none_right_eq_some] at h
  have known := h.1
  intro c hc
  split at known <;> simp_all
  rcases hc with rfl | hc
  · simp
  · simp [known c hc]

theorem Decodes.mask_eq {quote : Char} (isQuote : quote = '"' ∨ quote = '\'') {body decoded : List Char}
    (decodes : Decodes quote body decoded) (rest : List Char) :
    mask (.text quote) (body ++ quote :: rest) =
      List.replicate (body.length + 1) ' ' ++ mask .code rest := by
  have unescaped : quote ≠ '\\' := by rcases isQuote with rfl | rfl <;> decide
  induction decodes with
  | nil => simp [mask, unescaped]
  | plain other unescaped inLine more ih => simp [mask, other, unescaped, ih, List.replicate_succ]
  | @unicode a b c d cs read n number more ih =>
    have digit : ∀ x ∈ [a, b, c, d], x ≠ '\\' ∧ x ≠ quote := by
      intro x hx
      have known := escapeNumber?_digits number x hx
      constructor
      · rintro rfl
        cases known
      · rintro rfl
        rcases isQuote with rfl | rfl <;> cases known
    simp only [List.forall_mem_cons] at digit
    simp [mask, digit, ih, List.replicate_succ]
  | escape other more ih => simp [mask, ih, List.replicate_succ]

/-- A text that begins no string literal or comment, and in which every minus stands between two other
characters. -/
structure Plain (read : List Char) : Prop where
  bare : ∀ c ∈ read, isBare c = true
  spaced : Spaced isDash read 0

namespace Plain

theorem append {read read' : List Char} (left : Plain read) (right : Plain read') :
    Plain (read ++ read') := by
  refine ⟨?_, left.spaced.append right.spaced⟩
  intro c hc
  rcases List.mem_append.1 hc with hc | hc
  · exact left.bare c hc
  · exact right.bare c hc

theorem of_forall {read : List Char} (some : read ≠ [])
    (other : ∀ c ∈ read, isBare c = true ∧ isDash c = false) : Plain read := by
  cases read with
  | nil => exact absurd rfl some
  | cons c read => exact ⟨fun c hc => (other c hc).1, .of_none fun c hc => (other c hc).2⟩

theorem join {read read' : List Char} (left : Plain read) {x : Char} (bare : isBare x = true)
    (right : Plain read') : Plain (read ++ x :: read') := by
  refine ⟨?_, left.spaced.join x right.spaced⟩
  intro c hc
  rcases List.mem_append.1 hc with hc | hc
  · exact left.bare c hc
  · rcases List.mem_cons.1 hc with rfl | hc
    · exact bare
    · exact right.bare c hc

end Plain

theorem digits_plain {cs : List Char} (some : cs.takeWhile Ascii.isDigit ≠ []) :
    Plain (cs.takeWhile Ascii.isDigit) :=
  .of_forall some fun _ hc => ordinary (by decide) (List.mem_takeWhile_imp hc)

/-- The only minus of an exponent is its sign, which stands between the letter and a digit. -/
theorem takeExponent?_plain {cs rest : List Char} {exponent : Bool × List Char}
    (h : DecimalLiteral.takeExponent? cs = some (exponent, rest)) :
    ∃ read, cs = read ++ rest ∧ Plain read := by
  cases cs with
  | nil => cases h
  | cons e cs =>
    simp only [DecimalLiteral.takeExponent?, List.span_eq_takeWhile_dropWhile] at h
    split at h
    · rename_i letter
      have plain : Plain [e] := by
        simp only [Bool.or_eq_true, decide_eq_true_eq] at letter
        refine .of_forall (by simp) ?_
        rcases letter with rfl | rfl <;> simp [isBare, isDash]
      split at h
      all_goals
        split at h
        · cases h
        rename_i some
        rw [List.isEmpty_iff] at some
        have digits := digits_plain some
        simp only [Option.some.injEq, Prod.mk.injEq] at h
        obtain ⟨-, rfl⟩ := h
      · exact ⟨_, by simp, plain.join (x := '-') rfl digits⟩
      · exact ⟨_, by simp, plain.join (x := '+') rfl digits⟩
      · exact ⟨_, by simp, plain.append digits⟩
    · cases h

theorem mantissa_plain {first : Char} {cs whole afterWhole fraction afterFraction : List Char}
    (starts : Ascii.isDigit first = true ∨ first = '.')
    (hfraction : (match afterWhole with
      | '.' :: rest => rest.span Ascii.isDigit
      | rest => ([], rest)) = (fraction, afterFraction))
    (hwhole : (first :: cs).span Ascii.isDigit = (whole, afterWhole)) :
    ∃ read, first :: cs = read ++ afterFraction ∧ Plain read := by
  rw [List.span_eq_takeWhile_dropWhile] at hwhole
  obtain ⟨rfl, hafter⟩ := Prod.mk.inj hwhole
  have cut : first :: cs = (first :: cs).takeWhile Ascii.isDigit ++ afterWhole := by
    rw [← hafter, List.takeWhile_append_dropWhile]
  have other : ∀ {cs : List Char}, ∀ c ∈ cs.takeWhile Ascii.isDigit,
      isBare c = true ∧ isDash c = false :=
    fun _ hc => ordinary (by decide) (List.mem_takeWhile_imp hc)
  split at hfraction
  · rename_i rest
    rw [List.span_eq_takeWhile_dropWhile] at hfraction
    cases hfraction
    refine ⟨(first :: cs).takeWhile Ascii.isDigit ++ '.' :: rest.takeWhile Ascii.isDigit, ?_, ?_⟩
    · simpa using cut
    · refine .of_forall (by simp) ?_
      intro c hc
      rcases List.mem_append.1 hc with hc | hc
      · exact other c hc
      · rcases List.mem_cons.1 hc with rfl | hc
        · exact ⟨rfl, rfl⟩
        · exact other c hc
  · rename_i pointless
    cases hfraction
    refine ⟨_, cut, .of_forall ?_ other⟩
    rcases starts with digit | rfl
    · simp [digit]
    · exact absurd hafter.symm (pointless cs)

theorem scanNumber_plain {c after : Cursor} {t : Token} {first : Char} {cs : List Char}
    (h : scanNumber c = .ok (t, after)) (hc : c.rest = first :: cs)
    (starts : Ascii.isDigit first = true ∨ first = '.') :
    (∃ x, t = .number x) ∧ ∃ read, c.rest = read ++ after.rest ∧ Plain read := by
  unfold scanNumber at h
  split at h
  rename_i whole afterWhole hwhole
  split at h
  rename_i fraction afterFraction hfraction
  rw [hc] at hwhole
  obtain ⟨read, hread, plain⟩ := mantissa_plain starts hfraction hwhole
  rw [← hc] at hread
  split at h
  · split at h
    · split at h
      · rename_i hexponent
        simp only [pure_bind] at h
        split at h
        · cases h
        · cases h
          obtain ⟨read', hread', plain'⟩ := takeExponent?_plain hexponent
          refine ⟨⟨_, rfl⟩, _, ?_, plain.append plain'⟩
          rw [hread, hread', List.append_assoc]
          rfl
      · cases h
    · simp only [pure_bind] at h
      split at h
      · cases h
      · cases h
        exact ⟨⟨_, rfl⟩, read, hread, plain⟩
  · simp only [pure_bind] at h
    split at h
    · cases h
    · cases h
      exact ⟨⟨_, rfl⟩, read, hread, plain⟩

/-- Punctuators stand where they are found, and a minus is not within any other. -/
theorem atFront?_eq_some {cs : List Char} {p : Punctuator} (h : Punctuator.atFront? cs = some p) :
    cs = p.text.toList ++ cs.drop p.text.length ∧ (p ≠ .minus → Plain p.text.toList) := by
  rw [Punctuator.atFront?] at h
  have present := List.find?_some h
  obtain ⟨rest, rfl⟩ := List.isPrefixOf_iff_prefix.1 present
  constructor
  · rw [← String.length_toList, List.drop_left]
  · intro other
    apply Plain.of_forall
    · cases p <;> decide
    · intro c hc
      have hplain : p.text.toList.all (fun c => isBare c && !isDash c) = true := by
        cases p <;> first | decide | exact absurd rfl other
      simpa using List.all_eq_true.1 hplain c hc

/-- Every token but a minus hides its minuses or keeps them apart from those around it. -/
theorem scanToken_masks {front after : Cursor} {t : Token} (h : scanToken front = .ok (t, after)) :
    (t = .endOfInput ∧ front.rest = []) ∨
    (t = .punctuator .minus ∧ mask .code front.rest = '-' :: mask .code after.rest) ∨
    (t ≠ .endOfInput ∧ t ≠ .punctuator .minus ∧
      ∃ shown, Spaced isDash shown 0 ∧ mask .code front.rest = shown ++ mask .code after.rest) := by
  unfold scanToken at h
  split at h
  · rename_i empty
    cases h
    exact .inl ⟨rfl, empty⟩
  · rename_i first cs hfront
    have plainly : ∀ read, front.rest = read ++ after.rest → Plain read →
        ∃ shown, Spaced isDash shown 0 ∧ mask .code front.rest = shown ++ mask .code after.rest := by
      intro read hread plain
      exact ⟨read, plain.spaced, by rw [hread, mask_append plain.bare]⟩
    split at h
    · rename_i starts
      simp only [Bool.or_eq_true, Bool.and_eq_true, decide_eq_true_eq] at starts
      obtain ⟨⟨x, rfl⟩, read, hread, plain⟩ := scanNumber_plain h hfront (starts.imp_right And.left)
      exact .inr (.inr ⟨by simp, by simp, plainly read hread plain⟩)
    · split at h
      · rename_i isQuote
        simp only [Bool.or_eq_true, decide_eq_true_eq] at isQuote
        obtain ⟨body, decoded, decodes, rfl, rfl⟩ := scanString_decodes h
        refine .inr (.inr ⟨by simp, by simp, ' ' :: List.replicate (body.length + 1) ' ', ?_, ?_⟩)
        · refine .of_none ?_
          intro c hc
          rw [← List.replicate_succ, List.mem_replicate] at hc
          rw [hc.2]
          rfl
        · rw [hfront, List.cons_append, ← decodes.mask_eq isQuote]
          rcases isQuote with rfl | rfl <;> simp [mask]
      · split at h
        · rename_i starts
          have part : isNamePart first = true := by rw [isNamePart, starts, Bool.true_or]
          simp only [List.span_eq_takeWhile_dropWhile] at h
          cases h
          refine .inr (.inr ⟨by simp, by simp, plainly _ (List.takeWhile_append_dropWhile ..).symm ?_⟩)
          refine .of_forall ?_ fun c hc => ordinary (by decide) (List.mem_takeWhile_imp hc)
          simp [hfront, part]
        · split at h
          · rename_i p hp
            obtain ⟨cut, plain⟩ := atFront?_eq_some hp
            cases h
            by_cases minus : p = .minus
            · subst minus
              refine .inr (.inl ⟨rfl, ?_⟩)
              rw [cut]
              exact mask_bare (c := '-') (by decide) _
            · exact .inr (.inr ⟨by simp, by simpa using minus, plainly _ cut (plain minus)⟩)
          · cases h

end WebBindings.Script
