import WebBindings.Handler.Gate
import WebBindings.Proofs.Attribute.TokenText
import WebBindings.Proofs.Motion
import WebBindings.Proofs.Policy
import WebBindings.Proofs.Text.Letters
/-!
# The decision of a header

A header is cut at its semicolons, and each segment that is not blank gives a directive by its words. The
first invalid name makes a header fail, a header of blank segments has no directives, and else the first
directive of each name counts. Whether texts are blocked is decided by the disposition and by the
directive that governs scripts.
-/

namespace WebBindings.Policy

/-- The parts of a header between its semicolons. -/
structure IsSegments (header : String) (segs : List String) : Prop where
  nonempty : segs ≠ []
  joined : ";".intercalate segs = header
  free : ∀ s ∈ segs, ';' ∉ s.toList

/-- The words of a text: its maximal runs between white space, in the order of their places. -/
def IsWords (text : String) (ws : List String) : Prop :=
  ∃ places : List (Nat × String), ws = places.map Prod.snd ∧
    places.Pairwise (fun q r => q.1 < r.1) ∧ ∀ start t, (start, t) ∈ places ↔ TokenAt text start t

theorem isWords_iff {text : String} {ws : List String} :
    IsWords text ws ↔ Ascii.runs Ascii.isWhitespace text = ws := by
  obtain ⟨places, runs, ascending, mem⟩ := exists_token_places text
  constructor
  · rintro ⟨places', rfl, ascending', mem'⟩
    have same : places.Perm places' := by
      refine (List.perm_ext_iff_of_nodup ?_ ?_).2 fun q => (mem q.1 q.2).trans (mem' q.1 q.2).symm
      · exact ascending.imp fun less same => Nat.ne_of_lt less (congrArg Prod.fst same)
      · exact ascending'.imp fun less same => Nat.ne_of_lt less (congrArg Prod.fst same)
    rw [runs, same.eq_of_pairwise (fun q r _ _ less greater => absurd less (Nat.lt_asymm greater))
      ascending ascending']
  · intro read
    exact ⟨places, read.symm.trans runs, ascending, mem⟩

theorem intercalate_splitOn (cs : List Char) :
    Ascii.splitOn (· = ';') cs ≠ [] ∧
      ";".intercalate ((Ascii.splitOn (· = ';') cs).map String.ofList) = String.ofList cs := by
  induction cs using Ascii.pieces_induction (p := (· = ';')) with
  | last piece free =>
    rw [Ascii.splitOn_eq_singleton free]
    simp
  | cut piece c rest free cut ih =>
    obtain ⟨nonempty, joined⟩ := ih
    obtain rfl : c = ';' := of_decide_eq_true cut
    rw [Ascii.splitOn_append_cons free cut]
    obtain ⟨first, others, hsplit⟩ := List.exists_cons_of_ne_nil nonempty
    rw [hsplit, List.map_cons] at joined
    refine ⟨List.cons_ne_nil _ _, ?_⟩
    rw [hsplit, List.map_cons, List.map_cons, String.intercalate_cons_cons, joined, ← String.toList_inj]
    simp

theorem isSegments_segments (header : String) : IsSegments header (segments header) := by
  obtain ⟨nonempty, joined⟩ := intercalate_splitOn header.toList
  refine ⟨by simpa [segments] using nonempty, ?_, ?_⟩
  · rw [segments, joined, String.ofList_toList]
  · intro s hs mem
    obtain ⟨piece, hpiece, rfl⟩ := List.mem_map.1 hs
    rw [String.toList_ofList] at mem
    simpa using Ascii.splitOn_free hpiece _ mem

theorem IsSegments.eq_segments {header : String} {segs : List String} (cut : IsSegments header segs) :
    segs = segments header := by
  obtain ⟨nonempty, rfl, free⟩ := cut
  induction segs with
  | nil => exact absurd rfl nonempty
  | cons s rest ih =>
    rw [List.forall_mem_cons] at free
    have bare : ∀ c ∈ s.toList, decide (c = ';') = false := by
      intro c mem
      rw [decide_eq_false_iff_not]
      exact fun same => free.1 (same ▸ mem)
    cases rest with
    | nil =>
      rw [String.intercalate_singleton, segments, Ascii.splitOn_eq_singleton bare]
      simp
    | cons t ts =>
      have htext : (";".intercalate (s :: t :: ts)).toList =
          s.toList ++ ';' :: (";".intercalate (t :: ts)).toList := by
        rw [String.intercalate_cons_cons, String.toList_append, String.toList_append, List.append_assoc]
        rfl
      have hrest := ih (List.cons_ne_nil _ _) free.2
      rw [segments] at hrest
      rw [segments, htext, Ascii.splitOn_append_cons bare (decide_eq_true rfl), List.map_cons,
        String.ofList_toList, ← hrest]

/-- The characters of directive names. -/
def nameChars : String := "ABCDEFGHIJKLMNOPQRSTUVWXYZabcdefghijklmnopqrstuvwxyz0123456789-"

def IsName (name : String) : Prop := ∀ c ∈ name.toList, c ∈ nameChars.toList

theorem isNameChar_iff (c : Char) : isNameChar c = true ↔ c ∈ nameChars.toList := by
  by_cases small : c.toNat < 128
  · have table : ∀ n < 128, (isNameChar (Char.ofNat n) = true ↔ Char.ofNat n ∈ nameChars.toList) := by
      decide +kernel
    exact Ascii.of_table (p := fun c => isNameChar c = true ↔ c ∈ nameChars.toList) c small table
  · have bound : nameChars.toList.all (fun d => decide (d.toNat < 128)) = true := by decide +kernel
    have beyond {d : Char} (ascii : d.toNat < 128) : ¬ c ≤ d := by
      intro le
      exact small (Nat.lt_of_le_of_lt (UInt32.le_iff_toNat_le.1 le) ascii)
    have other : c ≠ '-' := by
      rintro rfl
      exact small (by decide)
    constructor
    · intro named
      simp [isNameChar, Ascii.isAlphanumeric, Ascii.isDigit, other, beyond (d := '9') (by decide),
        beyond (d := 'z') (by decide), beyond (d := 'Z') (by decide)] at named
    · intro mem
      exact absurd (of_decide_eq_true (List.all_eq_true.1 bound c mem)) small

theorem isName_iff (name : String) : IsName name ↔ name.toList.all isNameChar = true := by
  simp [IsName, isNameChar_iff]

/-- The first directive of a header whose name is of some kind, with the sources it gives. -/
def FirstWith (kind : String → Prop) (segs : List String) (name : String) (sources : List String) :
    Prop :=
  ∃ before s after, segs = before ++ s :: after ∧ IsWords s (name :: sources) ∧ kind name ∧
    ∀ t ∈ before, ∀ n ns, IsWords t (n :: ns) → ¬ kind n

section First

variable {kind : String → Prop} {segs : List String} {s name : String} {sources : List String}

theorem not_firstWith_nil : ¬ FirstWith kind [] name sources := by
  simp [FirstWith]

theorem firstWith_cons : FirstWith kind (s :: segs) name sources ↔
    IsWords s (name :: sources) ∧ kind name ∨
      (∀ n ns, IsWords s (n :: ns) → ¬ kind n) ∧ FirstWith kind segs name sources := by
  constructor
  · rintro ⟨before, t, after, split, words, hkind, earlier⟩
    cases before with
    | nil =>
      obtain ⟨rfl, -⟩ := List.cons.inj split
      exact .inl ⟨words, hkind⟩
    | cons first before =>
      obtain ⟨rfl, later⟩ := List.cons.inj split
      rw [List.forall_mem_cons] at earlier
      exact .inr ⟨earlier.1, before, t, after, later, words, hkind, earlier.2⟩
  · rintro (⟨words, hkind⟩ | ⟨none, before, t, after, rfl, words, hkind, earlier⟩)
    · exact ⟨[], s, segs, rfl, words, hkind, by simp⟩
    · refine ⟨s :: before, t, after, rfl, words, hkind, ?_⟩
      rw [List.forall_mem_cons]
      exact ⟨none, earlier⟩

theorem firstWith_of_blank (blank : Ascii.runs Ascii.isWhitespace s = []) :
    FirstWith kind (s :: segs) name sources ↔ FirstWith kind segs name sources := by
  simp [firstWith_cons, isWords_iff, blank]

theorem firstWith_of_words {n : String} {ns : List String}
    (words : Ascii.runs Ascii.isWhitespace s = n :: ns) :
    FirstWith kind (s :: segs) name sources ↔
      n = name ∧ ns = sources ∧ kind n ∨ ¬ kind n ∧ FirstWith kind segs name sources := by
  rw [firstWith_cons, isWords_iff, words, List.cons.injEq]
  constructor
  · rintro (⟨⟨rfl, rfl⟩, hkind⟩ | ⟨none, later⟩)
    · exact .inl ⟨rfl, rfl, hkind⟩
    · exact .inr ⟨none n ns (isWords_iff.2 words), later⟩
  · rintro (⟨rfl, rfl, hkind⟩ | ⟨other, later⟩)
    · exact .inl ⟨⟨rfl, rfl⟩, hkind⟩
    · refine .inr ⟨fun m ms same => ?_, later⟩
      obtain ⟨rfl, -⟩ := List.cons.inj (words.symm.trans (isWords_iff.1 same))
      exact other

theorem exists_firstWith_iff : (∃ name sources, FirstWith kind segs name sources) ↔
    ∃ s ∈ segs, ∃ n ns, IsWords s (n :: ns) ∧ kind n := by
  induction segs with
  | nil => simp [not_firstWith_nil]
  | cons s rest ih =>
    simp only [List.mem_cons, or_and_right, exists_or, exists_eq_left, ← ih, firstWith_cons]
    constructor
    · rintro (⟨n, ns, words, hkind⟩ | ⟨n, ns, -, later⟩)
      · exact .inl ⟨n, ns, words, hkind⟩
      · exact .inr ⟨n, ns, later⟩
    · rintro (⟨n, ns, words, hkind⟩ | ⟨n, ns, later⟩)
      · exact .inl ⟨n, ns, words, hkind⟩
      · by_cases here : ∃ m ms, IsWords s (m :: ms) ∧ kind m
        · exact .inl here
        · exact .inr ⟨n, ns, fun m ms words hkind => here ⟨m, ms, words, hkind⟩, later⟩

theorem firstSources?_eq_some_iff {key : String} : firstSources? key segs = some sources ↔
    ∃ name, FirstWith (fun n => Ascii.lower n = key) segs name sources := by
  induction segs with
  | nil => simp [firstSources?, not_firstWith_nil]
  | cons s rest ih =>
    cases words : Ascii.runs Ascii.isWhitespace s with
    | nil =>
      simp only [firstWith_of_blank words, ← ih, firstSources?_of_blank key rest words]
    | cons n ns =>
      simp only [firstWith_of_words words, firstSources?_of_words key rest words]
      by_cases same : Ascii.lower n = key
      · simp [same]
      · simp [same, ih]

theorem readDirectives_error_iff {known : OrderedMap String (List String)} {fault : Fault} :
    (readDirectives known segs).1 = .error fault ↔
      ∃ name, fault = .invalidName name ∧ ∃ sources, FirstWith (fun n => ¬ IsName n) segs name sources := by
  induction segs generalizing known with
  | nil => simp [readDirectives, not_firstWith_nil]
  | cons s rest ih =>
    rw [readDirectives]
    cases words : Ascii.runs Ascii.isWhitespace s with
    | nil =>
      simp only [firstWith_of_blank words]
      exact ih
    | cons n ns =>
      simp only [firstWith_of_words words]
      by_cases valid : IsName n
      · have hname := (isName_iff n).1 valid
        simp only [hname, valid, not_true_eq_false, not_false_eq_true, and_false, true_and, false_or, if_true]
        split <;> exact ih
      · have hname : n.toList.all isNameChar ≠ true := fun all => valid ((isName_iff n).2 all)
        simp [hname, valid, eq_comm]

theorem readDirectives_of_blank {known : OrderedMap String (List String)}
    (blank : ∀ s ∈ segs, Ascii.runs Ascii.isWhitespace s = []) :
    readDirectives known segs = (.ok known, []) := by
  induction segs with
  | nil => rfl
  | cons s rest ih =>
    rw [List.forall_mem_cons] at blank
    rw [readDirectives, blank.1]
    exact ih blank.2

theorem blank_of_readDirectives {directives : OrderedMap String (List String)}
    (read : (readDirectives .empty segs).1 = .ok directives) (none : directives.entries = []) :
    ∀ s ∈ segs, Ascii.runs Ascii.isWhitespace s = [] := by
  intro s mem
  cases words : Ascii.runs Ascii.isWhitespace s with
  | nil => rfl
  | cons n ns =>
    have unknown : firstSources? (Ascii.lower n) segs = Option.none := by
      have found := readDirectives_get? read (Ascii.lower n)
      simpa [OrderedMap.get?, none, OrderedMap.empty] using found.symm
    have given : (Ascii.lower n, ns) ∈ segs.filterMap directiveOf? :=
      List.mem_filterMap.2 ⟨s, mem, by rw [directiveOf?, words]⟩
    rw [firstSources?, Option.map_eq_none_iff, List.find?_eq_none] at unknown
    exact absurd (decide_eq_true rfl) (unknown _ given)

end First

section Parsing

variable {header : String} {disposition : Disposition} {p : Policy} {sources : List String}

theorem parse_of_error {fault : Fault}
    (read : (readDirectives .empty (segments header)).1 = .error fault) :
    (parse header disposition).1 = .error fault := by
  simp [parse, read, Except.bind]

theorem parse_of_ok {directives : OrderedMap String (List String)}
    (read : (readDirectives .empty (segments header)).1 = .ok directives) :
    (parse header disposition).1 =
      if directives.entries = [] then .error .noDirectives else .ok ⟨directives, disposition⟩ := by
  simp [parse, read, Except.bind]

theorem parse_invalidName_iff {name : String} :
    (parse header disposition).1 = .error (.invalidName name) ↔
      ∃ sources, FirstWith (fun n => ¬ IsName n) (segments header) name sources := by
  have failed : (readDirectives .empty (segments header)).1 = .error (.invalidName name) ↔
      ∃ sources, FirstWith (fun n => ¬ IsName n) (segments header) name sources := by
    simp [readDirectives_error_iff]
  rw [← failed]
  cases read : (readDirectives .empty (segments header)).1 with
  | error fault => simp [parse_of_error read]
  | ok directives =>
    rw [parse_of_ok read]
    split <;> simp

theorem parse_noDirectives_iff : (parse header disposition).1 = .error .noDirectives ↔
    ∀ s ∈ segments header, IsWords s [] := by
  simp only [isWords_iff]
  constructor
  · intro failed
    cases read : (readDirectives .empty (segments header)).1 with
    | error fault =>
      obtain ⟨name, rfl, -⟩ := readDirectives_error_iff.1 read
      rw [parse_of_error read] at failed
      cases failed
    | ok directives =>
      apply blank_of_readDirectives read
      by_contra given
      rw [parse_of_ok read, if_neg given] at failed
      cases failed
  · intro blank
    rw [parse, readDirectives_of_blank blank]
    rfl

/-- A header has a policy if it fails in neither way. -/
theorem parse_ok_iff : (∃ p, (parse header disposition).1 = .ok p) ↔
    (∃ s ∈ segments header, ¬ IsWords s []) ∧
      ∀ s ∈ segments header, ∀ n ns, IsWords s (n :: ns) → IsName n := by
  have some : (∃ s ∈ segments header, ¬ IsWords s []) ↔
      (parse header disposition).1 ≠ .error .noDirectives := by
    simp [parse_noDirectives_iff]
  have valid : (∀ s ∈ segments header, ∀ n ns, IsWords s (n :: ns) → IsName n) ↔
      ∀ name, (parse header disposition).1 ≠ .error (.invalidName name) := by
    have none := not_congr (@exists_firstWith_iff (fun n => ¬ IsName n) (segments header))
    simpa [parse_invalidName_iff] using none.symm
  rw [some, valid]
  constructor
  · rintro ⟨p, parsed⟩
    simp [parsed]
  · rintro ⟨given, named⟩
    cases parsed : (parse header disposition).1 with
    | ok p => exact ⟨p, rfl⟩
    | error fault =>
      cases fault with
      | noDirectives => exact absurd parsed given
      | invalidName name => exact absurd parsed (named name)

/-- The sources that govern scripts: those of the first `script-src`, in whatever letter case, and if there
is none, of the first `default-src`. -/
def Governs (segs : List String) (sources : List String) : Prop :=
  (∃ name, FirstWith (fun n => Ascii.lower n = "script-src") segs name sources) ∨
    (¬ ∃ name ns, FirstWith (fun n => Ascii.lower n = "script-src") segs name ns) ∧
      ∃ name, FirstWith (fun n => Ascii.lower n = "default-src") segs name sources

theorem governing?_eq_some_iff :
    governing? header = some sources ↔ Governs (segments header) sources := by
  have unnamed : firstSources? "script-src" (segments header) = none ↔
      ¬ ∃ name ns, FirstWith (fun n => Ascii.lower n = "script-src") (segments header) name ns := by
    simp only [Option.eq_none_iff_forall_ne_some, ne_eq, firstSources?_eq_some_iff]
    rw [exists_comm, not_exists]
  rw [governing?, Option.or_eq_some_iff, firstSources?_eq_some_iff, unnamed, firstSources?_eq_some_iff]
  rfl

theorem allowsCompilation_eq_false_iff : allowsCompilation sources = false ↔
    ∀ source ∈ sources, ¬ Ascii.Variants source "'unsafe-eval'" := by
  simp [allowsCompilation, Ascii.sameFold, Ascii.lower_eq_iff]

variable {σ : Type} (host : Host σ) (w : World σ) (source : String)

theorem check_eq_true_iff (p : Policy) : (outcome host (p.check source) w).1 = true ↔
    p.disposition = .enforce ∧ ∃ sources, p.scriptSources = some sources ∧
      allowsCompilation sources = false := by
  cases governed : p.scriptSources with
  | none => simp [check, violation?, governed]
  | some sources =>
    cases allowed : allowsCompilation sources <;>
      simp [check, violation?, governed, allowed, Violation.blocks]

end Parsing

/-- A header has one way to be cut at its semicolons. If a segment has an invalid name, the header fails
with the first such name; if all segments are blank, it has no directives; and else its policy has for
each name, in lower case, the words that follow the name where it is first given. Such a policy blocks a
text exactly if it is to be enforced, some directive governs scripts, and none of the sources there is
`'unsafe-eval'` in any letter case, whatever the text is. -/
theorem headers_decide_what_is_blocked (header : String) (disposition : Disposition) :
    (∃ segs, IsSegments header segs) ∧ ∀ segs, IsSegments header segs →
      (∀ name, (parse header disposition).1 = .error (.invalidName name) ↔
        ∃ sources, FirstWith (fun n => ¬ IsName n) segs name sources) ∧
      ((parse header disposition).1 = .error .noDirectives ↔ ∀ s ∈ segs, IsWords s []) ∧
      ((∃ p, (parse header disposition).1 = .ok p) ↔
        (∃ s ∈ segs, ¬ IsWords s []) ∧ ∀ s ∈ segs, ∀ n ns, IsWords s (n :: ns) → IsName n) ∧
      ∀ p, (parse header disposition).1 = .ok p →
        (∀ key sources, p.directive key = some sources ↔
          ∃ name, FirstWith (fun n => Ascii.lower n = key) segs name sources) ∧
        ∀ {σ : Type} (host : Host σ) (w : World σ) (source : String),
          (outcome host (p.check source) w).1 = true ↔ disposition = .enforce ∧
            ∃ sources, Governs segs sources ∧ ∀ e ∈ sources, ¬ Ascii.Variants e "'unsafe-eval'" := by
  refine ⟨⟨_, isSegments_segments header⟩, fun segs cut => ?_⟩
  obtain rfl := cut.eq_segments
  refine ⟨fun name => parse_invalidName_iff, parse_noDirectives_iff, parse_ok_iff, fun p parsed => ?_⟩
  obtain ⟨hdisposition, hdirective⟩ := parse_eq parsed
  constructor
  · intro key sources
    rw [hdirective, firstSources?_eq_some_iff]
  · intro σ host w source
    rw [check_eq_true_iff, hdisposition, parse_scriptSources parsed]
    simp only [governing?_eq_some_iff, allowsCompilation_eq_false_iff]

/-- The first of two directives of one name governs, before the directive for everything, and blocks. -/
theorem first_script_directive_blocks :
    let header := ";Default-Src 'unsafe-eval' ; SCRIPT-src 'self';script-src 'Unsafe-Eval'"
    let segs := ["", "Default-Src 'unsafe-eval' ", " SCRIPT-src 'self'", "script-src 'Unsafe-Eval'"]
    IsSegments header segs ∧ ∃ p, (parse header .enforce).1 = .ok p ∧
      p.directive "script-src" = some ["'self'"] ∧
      ∀ {σ : Type} (host : Host σ) (w : World σ) (source : String),
        (outcome host (p.check source) w).1 = true := by
  intro header segs
  have cut : IsSegments header segs := ⟨by decide, by decide +kernel, by decide⟩
  have blank : Ascii.runs Ascii.isWhitespace "" = [] := by decide +kernel
  have everything : Ascii.runs Ascii.isWhitespace "Default-Src 'unsafe-eval' " =
      ["Default-Src", "'unsafe-eval'"] := by decide +kernel
  have scripts : Ascii.runs Ascii.isWhitespace " SCRIPT-src 'self'" = ["SCRIPT-src", "'self'"] := by
    decide +kernel
  have again : Ascii.runs Ascii.isWhitespace "script-src 'Unsafe-Eval'" =
      ["script-src", "'Unsafe-Eval'"] := by decide +kernel
  have other : ¬ Ascii.lower "Default-Src" = "script-src" := by decide +kernel
  have named : Ascii.lower "SCRIPT-src" = "script-src" := by decide +kernel
  have first : FirstWith (fun n => Ascii.lower n = "script-src") segs "SCRIPT-src" ["'self'"] := by
    apply (firstWith_of_blank blank).2
    apply (firstWith_of_words everything).2
    apply Or.inr
    constructor
    · exact other
    · exact (firstWith_of_words scripts).2 (.inl ⟨rfl, rfl, named⟩)
  obtain ⟨-, decides⟩ := headers_decide_what_is_blocked header .enforce
  obtain ⟨-, -, ok, policies⟩ := decides segs cut
  have given : ∃ s ∈ segs, ¬ IsWords s [] :=
    ⟨" SCRIPT-src 'self'", by simp [segs], by simp [isWords_iff, scripts]⟩
  have valid : ∀ s ∈ segs, ∀ n ns, IsWords s (n :: ns) → IsName n := by
    intro s mem n ns words
    rw [isName_iff]
    have runs := isWords_iff.1 words
    simp only [segs, List.mem_cons, List.not_mem_nil, or_false] at mem
    rcases mem with rfl | rfl | rfl | rfl
    · cases blank.symm.trans runs
    · cases everything.symm.trans runs
      decide +kernel
    · cases scripts.symm.trans runs
      decide +kernel
    · cases again.symm.trans runs
      decide +kernel
  obtain ⟨p, parsed⟩ := ok.2 ⟨given, valid⟩
  obtain ⟨directives, blocked⟩ := policies p parsed
  refine ⟨cut, p, parsed, (directives "script-src" ["'self'"]).2 ⟨_, first⟩, fun host w source => ?_⟩
  apply (blocked host w source).2
  exact ⟨rfl, ["'self'"], .inl ⟨_, first⟩, by decide +kernel⟩

end WebBindings.Policy
