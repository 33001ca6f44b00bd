import WebBindings.Proofs.Attribute.TokenList
/-!
# Replacing tokens

How the replacement of a token fails. Each of the two texts is checked on its own, the first one as a
whole before the second one, and whatever fails or finds nothing leaves everything as it was.
-/

namespace WebBindings

variable {σ : Type}

namespace TokenList

variable {l : TokenList} {w : World σ} {token new : String}

/-- The error that a replacement is to fail with. An empty text counts before white space, whichever of
the two it is. -/
def replacementError (token new : String) : Option ExceptionName :=
  if token = "" ∨ new = "" then some .syntactic
  else if token.toList.any Ascii.isWhitespace ∨ new.toList.any Ascii.isWhitespace then
    some .invalidCharacter
  else none

/-- White space in the first text comes before the emptiness of the second one. -/
def Masks (token new : String) : Prop := token.toList.any Ascii.isWhitespace ∧ new = ""

instance (token new : String) : Decidable (Masks token new) :=
  inferInstanceAs (Decidable (_ ∧ _))

theorem category_of_tokenFault? (token : String) :
    (TokenOperation.tokenFault? token).map Fault.category =
      if token = "" then some (.dom .syntactic)
      else if token.toList.any Ascii.isWhitespace then some (.dom .invalidCharacter)
      else none := by
  rw [TokenOperation.tokenFault?]
  split_ifs <;> rfl

/-- A replacement is refused with the error that it is to fail with, but where one text masks the other. -/
theorem category_of_refusal (token new : String) :
    ((TokenOperation.tokenFault? token).or (TokenOperation.tokenFault? new)).map Fault.category =
      (if Masks token new then some .invalidCharacter else replacementError token new).map .dom := by
  rw [Option.map_or, category_of_tokenFault?, category_of_tokenFault?]
  by_cases masked : Masks token new
  · obtain ⟨spaced, rfl⟩ := id masked
    have nonempty : token ≠ "" := by
      rintro rfl
      cases spaced
    rw [if_pos masked, if_neg nonempty, if_pos spaced]
    rfl
  · have visible : token.toList.any Ascii.isWhitespace → new ≠ "" := fun spaced empty =>
      masked ⟨spaced, empty⟩
    rw [if_neg masked, replacementError]
    by_cases first : token = ""
    · simp [first]
    by_cases spaced : token.toList.any Ascii.isWhitespace
    · simp [first, spaced, visible spaced]
    · by_cases second : new = "" <;> by_cases spaced' : new.toList.any Ascii.isWhitespace <;>
        simp [first, spaced, second, spaced']

theorem refused_of_replacementError {kind : ExceptionName}
    (wrong : replacementError token new = some kind) : ∃ fault,
      (TokenOperation.tokenFault? token).or (TokenOperation.tokenFault? new) = some fault ∧
        (fault.category = .dom kind ↔ ¬ Masks token new) := by
  have category := category_of_refusal token new
  by_cases masked : Masks token new
  · rw [replacementError, if_pos (.inr masked.2)] at wrong
    cases wrong
    rw [if_pos masked, Option.map_some] at category
    obtain ⟨fault, refused, found⟩ := Option.map_eq_some_iff.1 category
    exact ⟨fault, refused, by simp [found, masked]⟩
  · rw [if_neg masked, wrong, Option.map_some] at category
    obtain ⟨fault, refused, found⟩ := Option.map_eq_some_iff.1 category
    exact ⟨fault, refused, by simp [found, masked]⟩

theorem proper_of_replacementError (proper : replacementError token new = none) :
    TokenOperation.tokenFault? token = none ∧ TokenOperation.tokenFault? new = none := by
  have category := category_of_refusal token new
  have visible : ¬ Masks token new := by
    rintro ⟨-, empty⟩
    rw [replacementError, if_pos (.inr empty)] at proper
    cases proper
  rw [if_neg visible, proper, Option.map_none, Option.map_eq_none_iff] at category
  exact Option.or_eq_none_iff.1 category

theorem outcome_update_cases (host : Host σ) (l : TokenList) (set : TokenSet) (w : World σ) :
    (∃ w', outcome host (l.update set).run w = (.ok ⟨⟩, w')) ∨
      (Element.isValidAttributeName l.attributeName = false ∧ outcome host (l.update set).run w =
        (.error (.fault (.invalidAttributeName l.attributeName)), w)) := by
  rw [outcome_update]
  split
  · exact .inl ⟨w, rfl⟩
  · cases valid : Element.isValidAttributeName l.attributeName with
    | true =>
      obtain ⟨w', hset, -⟩ := setAttribute_writes host l.element valid set.text w
      exact .inl ⟨w', hset⟩
    | false => exact .inr ⟨rfl, outcome_setAttribute_of_invalid host w l.element valid set.text⟩

theorem outcome_replace_cases (host : Host σ) (l : TokenList) (w : World σ)
    (proper : replacementError token new = none) :
    (token ∉ (l.tokens w).tokens ∧ outcome host (l.replace token new).run w = (.ok false, w)) ∨
    (token ∈ (l.tokens w).tokens ∧ ∃ w', outcome host (l.replace token new).run w = (.ok true, w')) ∨
    (Element.isValidAttributeName l.attributeName = false ∧ outcome host (l.replace token new).run w =
      (.error (.fault (.invalidAttributeName l.attributeName)), w)) := by
  obtain ⟨htoken, hnew⟩ := proper_of_replacementError proper
  rw [outcome_replace host htoken hnew]
  by_cases present : token ∈ (l.tokens w).tokens
  · rw [if_pos present]
    obtain ⟨w', updated⟩ | ⟨invalid, failed⟩ :=
      outcome_update_cases host l ((l.tokens w).replace token new) w
    · exact .inr (.inl ⟨present, w', outcome_run_bind host _ updated⟩)
    · exact .inr (.inr ⟨invalid, outcome_run_bind_of_error host _ failed⟩)
  · rw [if_neg present]
    exact .inl ⟨present, rfl⟩

end TokenList

/-- A replacement fails for an empty text before it fails for white space, unless the white space is in the
first text and the second one is empty: then it fails for the white space. Proper tokens are replaced, or
not found. A failure leaves the world as it was, and so does a replacement that finds nothing. -/
theorem replacements_check_texts_in_turn (host : Host σ) (l : TokenList) (token new : String)
    (w : World σ) :
    let result := outcome host (l.replace token new).run w
    (∀ kind, TokenList.replacementError token new = some kind →
      ∃ fault, result = (.error (.fault fault), w) ∧
        (fault.category = .dom kind ↔ ¬ TokenList.Masks token new)) ∧
    (TokenList.replacementError token new = none →
      Element.isValidAttributeName l.attributeName = true →
        result.1 = .ok (token ∈ (l.tokens w).tokens)) ∧
    (∀ error, result.1 = .error error → result.2 = w) ∧
    (result.1 = .ok false → token ∉ (l.tokens w).tokens ∧ result.2 = w) := by
  intro result
  cases wrong : TokenList.replacementError token new with
  | some kind =>
    obtain ⟨fault, refused, category⟩ := TokenList.refused_of_replacementError wrong
    have failed : result = (.error (.fault fault), w) :=
      TokenList.outcome_replace_of_fault host l refused w
    rw [failed]
    refine ⟨?_, nofun, fun _ _ => rfl, nofun⟩
    rintro _ ⟨⟩
    exact ⟨fault, rfl, category⟩
  | none =>
    obtain ⟨absent, kept⟩ | ⟨present, w', replaced⟩ | ⟨invalid, failed⟩ :=
      TokenList.outcome_replace_cases host l w wrong
    · rw [show result = (.ok false, w) from kept]
      exact ⟨nofun, fun _ _ => by simp [absent], nofun, fun _ => ⟨absent, rfl⟩⟩
    · rw [show result = (.ok true, w') from replaced]
      exact ⟨nofun, fun _ _ => by simp [present], nofun, nofun⟩
    · rw [show result = (.error (.fault (.invalidAttributeName l.attributeName)), w) from failed]
      refine ⟨nofun, fun _ valid => ?_, fun _ _ => rfl, nofun⟩
      rw [invalid] at valid
      cases valid

/-- Emptiness of the first text is told before the white space in the second one. -/
theorem empty_text_comes_first :
    TokenList.replacementError "" "two words" = some .syntactic ∧
      ∃ fault : Fault, outcome Embedder.mute.host
          ((TokenList.new ⟨0⟩ "class" none).replace "" "two words").run labeledWorld =
            (.error (.fault fault), labeledWorld) ∧ fault.category = .dom .syntactic := by
  have wrong : TokenList.replacementError "" "two words" = some .syntactic := by decide
  obtain ⟨fault, failed, category⟩ := (replacements_check_texts_in_turn Embedder.mute.host
    (TokenList.new ⟨0⟩ "class" none) "" "two words" labeledWorld).1 _ wrong
  exact ⟨wrong, fault, failed, category.2 (by decide)⟩

/-- Emptiness of the second text is not told behind white space in the first one. -/
theorem empty_text_is_masked :
    TokenList.replacementError "two words" "" = some .syntactic ∧
      ∃ fault : Fault, outcome Embedder.mute.host
          ((TokenList.new ⟨0⟩ "class" none).replace "two words" "").run labeledWorld =
            (.error (.fault fault), labeledWorld) ∧ fault.category = .dom .invalidCharacter :=
  ⟨by decide, .tokenWithSpace "two words", rfl, rfl⟩

end WebBindings
