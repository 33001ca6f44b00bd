import WebBindings.Policy
/-!
# Policies of headers

A policy has the directives of its header: of each name, in whatever letter case, the first one
counts. What governs scripts can be read off the header.
-/

namespace WebBindings.Policy

def directiveOf? (segment : String) : Option (String × List String) :=
  match Ascii.runs Ascii.isWhitespace segment with
  | [] => none
  | name :: sources => some (Ascii.lower name, sources)

/-- The sources of the first directive of a name in some segments. -/
def firstSources? (name : String) (segments : List String) : Option (List String) :=
  ((segments.filterMap directiveOf?).find? fun d => d.1 = name).map Prod.snd

/-- The sources that govern scripts by a header. -/
def governing? (header : String) : Option (List String) :=
  (firstSources? "script-src" (segments header)).or (firstSources? "default-src" (segments header))

theorem firstSources?_of_blank {segment : String} (name : String) (rest : List String)
    (blank : Ascii.runs Ascii.isWhitespace segment = []) :
    firstSources? name (segment :: rest) = firstSources? name rest := by
  simp [firstSources?, directiveOf?, blank]

theorem firstSources?_of_words {segment key : String} {sources : List String} (name : String)
    (rest : List String) (words : Ascii.runs Ascii.isWhitespace segment = key :: sources) :
    firstSources? name (segment :: rest) =
      if Ascii.lower key = name then some sources else firstSources? name rest := by
  simp only [firstSources?, directiveOf?, words, List.filterMap_cons, List.find?_cons]
  by_cases hname : Ascii.lower key = name <;> simp [hname]

theorem readDirectives_get? {segments : List String}
    {known directives : OrderedMap String (List String)}
    (read : (readDirectives known segments).1 = .ok directives) (name : String) :
    directives.get? name = (known.get? name).or (firstSources? name segments) := by
  induction segments generalizing known with
  | nil =>
    rw [readDirectives] at read
    cases read
    simp [firstSources?]
  | cons segment rest ih =>
    rw [readDirectives] at read
    cases hruns : Ascii.runs Ascii.isWhitespace segment with
    | nil =>
      rw [hruns] at read
      rw [ih read, firstSources?_of_blank name rest hruns]
    | cons key sources =>
      rw [hruns] at read
      dsimp only at read
      rw [firstSources?_of_words name rest hruns]
      split at read
      · split at read
        · rename_i hknown
          rw [ih read]
          by_cases hname : Ascii.lower key = name
          · obtain ⟨old, hold⟩ := Option.isSome_iff_exists.1 hknown
            rw [hname] at hold
            simp [hold]
          · rw [if_neg hname]
        · rename_i hnew
          rw [ih read]
          have hnone : known.get? (Ascii.lower key) = none := by
            simpa [OrderedMap.contains] using hnew
          by_cases hname : Ascii.lower key = name
          · rw [if_pos hname, ← hname, OrderedMap.get?_insert_self, hnone]
            rfl
          · rw [if_neg hname, OrderedMap.get?_insert_of_ne _ _ (Ne.symm hname)]
      · exact absurd read (by simp)

variable {header : String} {disposition : Disposition} {p : Policy}

theorem parse_eq (parsed : (parse header disposition).1 = .ok p) :
    p.disposition = disposition ∧
      ∀ name, p.directive name = firstSources? name (segments header) := by
  rw [parse] at parsed
  cases hread : (readDirectives .empty (segments header)).1 with
  | error fault => simp [hread, Except.bind] at parsed
  | ok directives =>
    simp only [hread, Except.bind] at parsed
    split at parsed
    · exact absurd parsed (by simp)
    · cases parsed
      refine ⟨rfl, fun name => ?_⟩
      rw [directive, readDirectives_get? hread]
      rfl

theorem parse_scriptSources (parsed : (parse header disposition).1 = .ok p) :
    p.scriptSources = governing? header := by
  obtain ⟨-, hdirective⟩ := parse_eq parsed
  rw [scriptSources, governing?, hdirective, hdirective]
  cases firstSources? "script-src" (segments header) <;> rfl

end WebBindings.Policy
