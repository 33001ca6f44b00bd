import Mathlib.Data.Option.Basic
import WebBindings.Proofs.Script.Lexing
import WebBindings.Script.Evaluation
/-!
# The values of string literals

ECMAScript gives every string literal a sequence of code units. A literal of a handler is read into a
`String`, which has no room for surrogates, and a few of its escapes are read like any other escaped
character. Literals without these escapes keep their value; the others need not.
-/

namespace WebBindings.Script

/-- The number written by a run of hexadecimal digits. -/
def hexNumber? (digits : List Char) : Option Nat :=
  if digits.all fun c => (Ascii.digit? 16 c).isSome then some (Ascii.natOf 16 digits) else none

/-- The units of an escape other than `\u` and `\x`, given the character behind it: a null character
may not stand before a digit. -/
def escapeUnits? (c : Char) (next : Option Char) : Option (List UInt16) :=
  if c = 'n' then some [0x0A]
  else if c = 't' then some [0x09]
  else if c = 'r' then some [0x0D]
  else if c = 'b' then some [0x08]
  else if c = 'f' then some [0x0C]
  else if c = 'v' then some [0x0B]
  else if c = '0' then if next.any Ascii.isDigit then none else some [0]
  else if c = 'u' || c = 'x' then none
  else some (Units.ofChar c)

/-- The code units of a literal, given what stands between its quotes. Escapes by number write one unit
each, surrogates included, and an escaped line end writes nothing. -/
def stringValue? (quote : Char) : List Char → Option (List UInt16)
  | [] => some []
  | '\\' :: 'u' :: a :: b :: c :: d :: cs => do
    return (← hexNumber? [a, b, c, d]).toUInt16 :: (← stringValue? quote cs)
  | '\\' :: 'x' :: a :: b :: cs => do
    return (← hexNumber? [a, b]).toUInt16 :: (← stringValue? quote cs)
  | '\\' :: '\r' :: '\n' :: cs => stringValue? quote cs
  | '\\' :: c :: cs =>
    if isLineEnd c then stringValue? quote cs
    else do return (← escapeUnits? c cs.head?) ++ (← stringValue? quote cs)
  | c :: cs =>
    if c = quote || c = '\\' || isLineEnd c then none
    else do return Units.ofChar c ++ (← stringValue? quote cs)

/-- Whether a text between quotes has none of the escapes that handlers read otherwise: a signed or
surrogate number behind `\u`, `\x`, an escaped line end, and `\0` before a digit. -/
def isPortable : List Char → Bool
  | '\\' :: 'u' :: a :: b :: c :: d :: cs =>
    a ≠ '+' && (Ascii.natOf 16 [a, b, c, d]).isValidChar && isPortable cs
  | '\\' :: c :: cs =>
    c ≠ 'x' && !isLineEnd c && !(c = '0' && cs.head?.any Ascii.isDigit) && isPortable cs
  | _ :: cs => isPortable cs
  | [] => true

theorem isPortable_plain {c : Char} (unescaped : c ≠ '\\') (cs : List Char) :
    isPortable (c :: cs) = isPortable cs := by
  rw [isPortable]
  all_goals simp [unescaped]

theorem isPortable_escape {c : Char} (other : c ≠ 'u') {cs : List Char} :
    isPortable ('\\' :: c :: cs) = true ↔ c ≠ 'x' ∧ isLineEnd c = false ∧
      ¬ (c = '0' ∧ cs.head?.any Ascii.isDigit = true) ∧ isPortable cs = true := by
  rw [isPortable]
  · simp [and_assoc, imp_iff_not_or]
  all_goals simp [other]

/-- What a handler decodes from the text between two quotes. -/
inductive Decodes (quote : Char) : List Char → List Char → Prop
  | nil : Decodes quote [] []
  | plain {c : Char} {cs read : List Char} (other : c ≠ quote) (unescaped : c ≠ '\\')
      (inLine : isLineEnd c = false) (more : Decodes quote cs read) : Decodes quote (c :: cs) (c :: read)
  | unicode {a b c d : Char} {cs read : List Char} {n : Nat}
      (number : escapeNumber? [a, b, c, d] = some n) (more : Decodes quote cs read) :
      Decodes quote ('\\' :: 'u' :: a :: b :: c :: d :: cs)
        ((if n.isValidChar then Char.ofNat n else '\uFFFD') :: read)
  | escape {c : Char} {cs read : List Char} (other : c ≠ 'u') (more : Decodes quote cs read) :
      Decodes quote ('\\' :: c :: cs) (escaped c :: read)

theorem scanString_decodes {quote : Char} {opened : Nat} {read : List Char} {offset : Nat}
    {cs : List Char} {t : Token} {after : Cursor}
    (h : scanString quote opened read offset cs = .ok (t, after)) :
    ∃ body decoded, Decodes quote body decoded ∧ cs = body ++ quote :: after.rest ∧
      t = .string (String.ofList (read.reverse ++ decoded)) := by
  fun_induction scanString quote opened read offset cs
  case case2 number decoded ih =>
    obtain ⟨body, more, decodes, rfl, rfl⟩ := ih h
    exact ⟨_, _, decodes.unicode number, rfl, by simp [decoded]⟩
  case case5 other ih =>
    obtain ⟨body, more, decodes, rfl, rfl⟩ := ih h
    exact ⟨_, _, decodes.escape other, rfl, by simp⟩
  case case6 =>
    cases h
    exact ⟨[], [], .nil, rfl, by simp⟩
  case case8 other unescaped ih =>
    obtain ⟨body, more, decodes, rfl, rfl⟩ := ih h
    simp only [Bool.or_eq_true, decide_eq_true_eq, not_or, Bool.not_eq_true] at unescaped
    exact ⟨_, _, decodes.plain other unescaped.2 unescaped.1, rfl, by simp⟩
  -- the others are faults
  all_goals cases h

theorem Decodes.scanString_eq {quote : Char} (unescaped : quote ≠ '\\') {body decoded : List Char}
    (decodes : Decodes quote body decoded) (opened : Nat) (read : List Char) (offset : Nat)
    (rest : List Char) :
    ∃ stop, scanString quote opened read offset (body ++ quote :: rest) =
      .ok (.string (String.ofList (read.reverse ++ decoded)), ⟨stop, rest⟩) := by
  induction decodes generalizing read offset with
  | nil =>
    refine ⟨offset + 1, ?_⟩
    simp [scanString.eq_def, unescaped]
  | @plain c cs decoded other plain inLine more ih =>
    obtain ⟨stop, h⟩ := ih (c :: read) (offset + c.utf8Size)
    refine ⟨stop, ?_⟩
    rw [List.cons_append, scanString.eq_def]
    simp [plain, other, inLine, h]
  | @unicode a b c d cs decoded n number more ih =>
    obtain ⟨stop, h⟩ := ih ((if n.isValidChar then Char.ofNat n else '\uFFFD') :: read) (offset + 6)
    refine ⟨stop, ?_⟩
    simp [scanString, number, h]
  | @escape c cs decoded other more ih =>
    obtain ⟨stop, h⟩ := ih (escaped c :: read) (offset + 1 + c.utf8Size)
    refine ⟨stop, ?_⟩
    simp [scanString, other, h]

theorem scanToken_quote {quote : Char} (isQuote : quote = '"' ∨ quote = '\'') (offset : Nat)
    (cs : List Char) :
    scanToken ⟨offset, quote :: cs⟩ = scanString quote (offset + 1) [] (offset + 1) cs := by
  rcases isQuote with rfl | rfl <;> simp [scanToken, Ascii.isDigit]

theorem natOf_lt {radix : Nat} (positive : 0 < radix) (digits : List Char) :
    Ascii.natOf radix digits < radix ^ digits.length := by
  -- each digit multiplies what was read before it, so the induction is about every start
  have go : ∀ n, digits.foldl (fun n c => n * radix + (Ascii.digit? radix c).getD 0) n <
      (n + 1) * radix ^ digits.length := by
    induction digits with
    | nil => simp
    | cons c digits ih =>
      intro n
      have digit : (Ascii.digit? radix c).getD 0 < radix := by
        cases h : Ascii.digit? radix c with
        | none => exact positive
        | some v => exact Ascii.digit?_lt h
      calc
        _ < (n * radix + (Ascii.digit? radix c).getD 0 + 1) * radix ^ digits.length := ih _
        _ ≤ ((n + 1) * radix) * radix ^ digits.length := by
          apply Nat.mul_le_mul_right
          rw [Nat.add_mul]
          omega
        _ = (n + 1) * radix ^ (c :: digits).length := by
          rw [List.length_cons, Nat.pow_succ, Nat.mul_assoc, Nat.mul_comm radix]
  rw [Ascii.natOf]
  simpa only [Nat.zero_add, Nat.one_mul] using go 0

theorem ofChar_ofNat {n : Nat} (valid : n.isValidChar) (small : n < 0x10000) :
    Units.ofChar (Char.ofNat n) = [n.toUInt16] := by
  have same : (Char.ofNat n).toNat = n := by
    rw [Char.ofNat, dif_pos valid]
    rfl
  rw [Units.ofChar, same, if_pos small]

theorem hexNumber?_eq_some {digits : List Char} {n : Nat} (h : hexNumber? digits = some n) :
    n = Ascii.natOf 16 digits := by
  simp only [hexNumber?, Option.ite_none_right_eq_some, Option.some.injEq] at h
  exact h.2.symm

theorem escapeNumber?_eq {a b c d : Char} (unsigned : a ≠ '+') :
    escapeNumber? [a, b, c, d] = hexNumber? [a, b, c, d] := by
  unfold escapeNumber?
  split
  · rename_i same
    exact absurd (List.cons.inj same).1 unsigned
  · rfl

theorem escapeUnits?_eq {c : Char} {next : Option Char} (other : c ≠ 'u') (other' : c ≠ 'x')
    (last : ¬ (c = '0' ∧ next.any Ascii.isDigit = true)) :
    escapeUnits? c next = some (Units.ofChar (escaped c)) := by
  unfold escapeUnits? escaped
  repeat' split
  all_goals simp_all
  all_goals rfl

theorem Decodes.stringValue?_eq {quote : Char} {body decoded : List Char}
    (decodes : Decodes quote body decoded) (portable : isPortable body = true) :
    stringValue? quote body = some (decoded.flatMap Units.ofChar) := by
  induction decodes with
  | nil => rfl
  | @plain c cs decoded other unescaped inLine more ih =>
    rw [isPortable_plain unescaped] at portable
    rw [stringValue?]
    · simp [other, unescaped, inLine, ih portable]
    all_goals simp [unescaped]
  | @unicode a b c d cs decoded n number more ih =>
    simp only [isPortable, Bool.and_eq_true, decide_eq_true_eq] at portable
    obtain ⟨⟨unsigned, valid⟩, portable⟩ := portable
    rw [escapeNumber?_eq unsigned] at number
    obtain rfl := hexNumber?_eq_some number
    have small := natOf_lt (by decide : 0 < 16) [a, b, c, d]
    have units := ofChar_ofNat valid (by simpa using small)
    simp [stringValue?, number, ih portable, if_pos valid, units]
  | @escape c cs decoded other more ih =>
    obtain ⟨named, inLine, last, portable⟩ := (isPortable_escape other).1 portable
    have unpaired : c ≠ '\r' := by
      rintro rfl
      cases inLine
    rw [stringValue?]
    · simp [inLine, ih portable, escapeUnits?_eq other named last]
    all_goals simp [other, named, unpaired]

theorem decodes_of_stringValue? {quote : Char} {body : List Char} {us : List UInt16}
    (value : stringValue? quote body = some us) (portable : isPortable body = true) :
    ∃ decoded, Decodes quote body decoded := by
  fun_induction stringValue? quote body generalizing us with
  | case1 => exact ⟨[], .nil⟩
  | case2 a b c d cs ih =>
    simp only [isPortable, Bool.and_eq_true, decide_eq_true_eq] at portable
    obtain ⟨⟨unsigned, -⟩, portable⟩ := portable
    simp only [Option.bind_eq_bind, Option.bind_eq_some_iff] at value
    obtain ⟨n, number, vs, value, -⟩ := value
    obtain ⟨decoded, decodes⟩ := ih value portable
    rw [← escapeNumber?_eq unsigned] at number
    exact ⟨_, decodes.unicode number⟩
  -- `\x` and escaped line ends are not portable
  | case3 => exact absurd rfl ((isPortable_escape (by decide)).1 portable).1
  | case4 => cases ((isPortable_escape (by decide)).1 portable).2.1
  | case5 c cs _ _ _ ends =>
    have other : c ≠ 'u' := by
      rintro rfl
      cases ends
    rw [((isPortable_escape other).1 portable).2.1] at ends
    cases ends
  | case6 c cs _ _ _ _ ih =>
    simp only [Option.bind_eq_bind, Option.bind_eq_some_iff] at value
    obtain ⟨units, escape, vs, value, -⟩ := value
    have other : c ≠ 'u' := by
      rintro rfl
      cases escape
    obtain ⟨decoded, decodes⟩ := ih value ((isPortable_escape other).1 portable).2.2.2
    exact ⟨_, decodes.escape other⟩
  | case7 => cases value
  | case8 c cs _ _ _ _ plain ih =>
    simp only [Bool.or_eq_true, decide_eq_true_eq, not_or, Bool.not_eq_true] at plain
    obtain ⟨⟨other, unescaped⟩, inLine⟩ := plain
    rw [isPortable_plain unescaped] at portable
    simp only [Option.bind_eq_bind, Option.bind_eq_some_iff] at value
    obtain ⟨vs, value, -⟩ := value
    obtain ⟨decoded, decodes⟩ := ih value portable
    exact ⟨_, decodes.plain other unescaped inLine⟩

/-- A literal that is accepted ends with its own quote, and the text it is read into has the value of
the literal in ECMAScript, if the literal is portable. Every portable literal with a value is accepted. -/
theorem portable_literals_keep_their_value {quote : Char} (isQuote : quote = '"' ∨ quote = '\'')
    (offset : Nat) (cs : List Char) :
    (∀ t after, scanToken ⟨offset, quote :: cs⟩ = .ok (t, after) →
      ∃ body decoded, cs = body ++ quote :: after.rest ∧ Decodes quote body decoded ∧
        t = .string (String.ofList decoded) ∧
        (isPortable body = true → ∃ us, stringValue? quote body = some us ∧
          (Constant.text (String.ofList decoded)).value = .string ⟨us⟩)) ∧
    ∀ body us rest, cs = body ++ quote :: rest → stringValue? quote body = some us →
      isPortable body = true → ∃ s stop,
        scanToken ⟨offset, quote :: cs⟩ = .ok (.string s, ⟨stop, rest⟩) ∧
        (Constant.text s).value = .string ⟨us⟩ := by
  have value : ∀ decoded : List Char, (Constant.text (String.ofList decoded)).value =
      .string ⟨decoded.flatMap Units.ofChar⟩ := by
    intro decoded
    simp [Constant.value, Value.ofText, DOMString.ofString]
  rw [scanToken_quote isQuote]
  constructor
  · intro t after h
    obtain ⟨body, decoded, decodes, same, rfl⟩ := scanString_decodes h
    refine ⟨body, decoded, same, decodes, rfl, ?_⟩
    intro portable
    exact ⟨_, decodes.stringValue?_eq portable, value decoded⟩
  · intro body us rest same spelled portable
    subst same
    obtain ⟨decoded, decodes⟩ := decodes_of_stringValue? spelled portable
    have unescaped : quote ≠ '\\' := by rcases isQuote with rfl | rfl <;> decide
    obtain ⟨stop, h⟩ := decodes.scanString_eq unescaped (offset + 1) [] (offset + 1) rest
    rw [decodes.stringValue?_eq portable] at spelled
    exact ⟨_, stop, h, (value decoded).trans (by rw [Option.some.inj spelled])⟩

theorem escaped_letter_keeps_its_value :
    ∃ s stop, scanToken ⟨0, '"' :: ['\\', 'u', '0', '0', '4', '1', '\\', 'n', '"']⟩ =
      .ok (.string s, ⟨stop, []⟩) ∧ (Constant.text s).value = .string ⟨[0x41, 0x0A]⟩ :=
  (portable_literals_keep_their_value (.inl rfl) 0 _).2
    ['\\', 'u', '0', '0', '4', '1', '\\', 'n'] _ [] rfl (by decide) (by decide)

/-- Literals that do not keep their value: `'\x41'` is read as `x41`, a pair of surrogate escapes as
two replacement characters, and an escaped line end as itself; a sign may stand among the digits of
`\u`, which no value belongs to. -/
theorem some_literals_lose_their_value :
    (stringValue? '\'' ['\\', 'x', '4', '1'] = some [0x41] ∧
      ∃ after, scanToken ⟨0, ['\'', '\\', 'x', '4', '1', '\'']⟩ = .ok (.string "x41", after) ∧
        (Constant.text "x41").value ≠ .string ⟨[0x41]⟩) ∧
    (stringValue? '\'' "\\uD83D\\uDE00".toList = some [0xD83D, 0xDE00] ∧
      ∃ after, scanToken ⟨0, "'\\uD83D\\uDE00'".toList⟩ = .ok (.string "\uFFFD\uFFFD", after) ∧
        (Constant.text "\uFFFD\uFFFD").value ≠ .string ⟨[0xD83D, 0xDE00]⟩) ∧
    (stringValue? '\'' ['a', '\\', '\n', 'b'] = some [0x61, 0x62] ∧
      ∃ after, scanToken ⟨0, ['\'', 'a', '\\', '\n', 'b', '\'']⟩ = .ok (.string "a\nb", after) ∧
        (Constant.text "a\nb").value ≠ .string ⟨[0x61, 0x62]⟩) ∧
    stringValue? '\'' ['\\', 'u', '+', '0', '4', '1'] = none ∧
      ∃ after, scanToken ⟨0, ['\'', '\\', 'u', '+', '0', '4', '1', '\'']⟩ = .ok (.string "A", after) := by
  refine ⟨⟨by decide, ⟨_, rfl, by decide⟩⟩, ⟨by decide, ⟨_, rfl, by decide⟩⟩,
    ⟨by decide, ⟨_, rfl, by decide⟩⟩, by decide, ⟨_, rfl⟩⟩

end WebBindings.Script
