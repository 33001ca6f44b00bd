import WebBindings.Attribute.PropertyTable
import WebBindings.Attribute.Reflection
import WebBindings.Proofs.Node.Attributes
import WebBindings.Proofs.Script.Freezing
import WebBindings.Proofs.Script.Motion
/-!
# Writing reflected attributes

Setting a reflected property writes its attribute and nothing else, or fails and leaves all elements as
they were when the value had been converted. Whatever happens before that is done by the scripts that
the conversion asks.
-/

namespace WebBindings

variable {σ α β : Type} {host : Host σ}

/-- An attempt to write one attribute touches nothing else, and nothing at all if it fails. -/
structure World.Atomic (id : ElementId) (name : String) (w : World σ)
    (result : Except ScriptError α × World σ) : Prop where
  kept : ∀ error, result.1 = .error error → result.2.elements = w.elements
  only : ∀ a, result.1 = .ok a → w.RewritesOnly id name result.2

namespace World.Atomic

variable {id : ElementId} {name : String} {w w' : World σ}

theorem of_error {error : ScriptError} (same : w'.elements = w.elements) :
    w.Atomic id name ((.error error, w') : Except ScriptError α × World σ) :=
  ⟨fun _ _ => same, by rintro a ⟨⟩⟩

theorem of_ok {a : α} (only : w.RewritesOnly id name w') :
    w.Atomic id name ((.ok a, w') : Except ScriptError α × World σ) :=
  ⟨by rintro error ⟨⟩, fun _ _ => only⟩

theorem bind {s : Script σ β} {f : β → Script σ α}
    (rest : ∀ b (w' : World σ), w'.Atomic id name (outcome host (f b).run w')) :
    (after host s.run w).Atomic id name (outcome host (s >>= f).run w) := by
  rw [after]
  cases first : outcome host s.run w with
  | mk answer w' =>
    cases answer with
    | error error =>
      rw [outcome_run_bind_of_error host f first]
      exact of_error rfl
    | ok b =>
      rw [outcome_run_bind host f first]
      exact rest b w'

end World.Atomic

/-- The attribute after a change. -/
def AttributeChange.applied (before : Option String) : AttributeChange → Option String
  | .set text => some text
  | .remove => none
  | .keep => before

/-- The note of a write goes to the log, and its change is made to the same elements. -/
private theorem AttributeWrite.outcome_apply (host : Host σ) (a : AttributeWrite) (id : ElementId)
    (name : String) (w : World σ) : ∃ noted, noted.elements = w.elements ∧
      outcome host (a.apply id name).run w = outcome host (match a.change with
        | .set text => setAttribute id name text
        | .remove => perform (removeAttribute id name)
        | .keep => pure ⟨⟩ : Script σ Unit).run noted := by
  rw [apply]
  cases a.note with
  | none => exact ⟨w, rfl, rfl⟩
  | some note =>
    refine ⟨_, ?_, outcome_run_bind host _ (outcome_perform host w _)⟩
    rfl

theorem AttributeWrite.apply_writes (host : Host σ) (a : AttributeWrite) (id : ElementId) {name : String}
    (allowed : ∀ text, a.change = .set text → Element.isValidAttributeName name = true) (w : World σ) :
    ∃ w', outcome host (a.apply id name).run w = (.ok ⟨⟩, w') ∧
      w.Writes id name (a.change.applied (w.attribute? id name)) w' := by
  obtain ⟨noted, same, happly⟩ := a.outcome_apply host id name w
  rw [happly]
  cases hchange : a.change with
  | set text =>
    obtain ⟨w', hset, writes⟩ := setAttribute_writes host id (allowed text hchange) text noted
    exact ⟨w', hset, writes.of_elements_trans same⟩
  | remove =>
    obtain ⟨w', hremove, writes⟩ := removeAttribute_writes host id name noted
    exact ⟨w', by simp [hremove], writes.of_elements_trans same⟩
  | keep => exact ⟨noted, rfl, .of_elements same⟩

theorem AttributeWrite.apply_refused (host : Host σ) {a : AttributeWrite} {text : String}
    (set : a.change = .set text) (id : ElementId) {name : String}
    (invalid : Element.isValidAttributeName name = false) (w : World σ) : ∃ w', w'.elements = w.elements ∧
      outcome host (a.apply id name).run w = (.error (.fault (.invalidAttributeName name)), w') := by
  obtain ⟨noted, same, happly⟩ := a.outcome_apply host id name w
  rw [happly, set]
  exact ⟨noted, same, outcome_setAttribute_of_invalid host noted id invalid text⟩

theorem Reflector.write_cases (host : Host σ) (r : Reflector) (id : ElementId) (name : String)
    (content : r.Content) (w : World σ) :
    (∃ a w', r.writing name content = .ok a ∧
      outcome host (r.write id name content).run w = (.ok ⟨⟩, w') ∧
      w.Writes id name (a.change.applied (w.attribute? id name)) w') ∨
    ∃ error w', outcome host (r.write id name content).run w = (.error error, w') ∧
      w'.elements = w.elements := by
  rw [write]
  cases r.writing name content with
  | error fault => exact .inr ⟨_, w, rfl, rfl⟩
  | ok a =>
    by_cases allowed : ∀ text, a.change = .set text → Element.isValidAttributeName name = true
    · obtain ⟨w', happly, writes⟩ := a.apply_writes host id allowed w
      exact .inl ⟨a, w', rfl, happly, writes⟩
    · push Not at allowed
      obtain ⟨text, hset, invalid⟩ := allowed
      obtain ⟨w', same, happly⟩ :=
        AttributeWrite.apply_refused host hset id (by simpa using invalid) w
      exact .inr ⟨_, w', happly, same⟩

theorem Reflector.write_atomic (r : Reflector) (id : ElementId) (name : String) (content : r.Content)
    (w : World σ) : w.Atomic id name (outcome host (r.write id name content).run w) := by
  obtain ⟨a, w', -, hwrite, writes⟩ | ⟨error, w', hwrite, same⟩ := r.write_cases host id name content w
  · rw [hwrite]
    exact .of_ok writes.toRewritesOnly
  · rw [hwrite]
    exact .of_error same

theorem Reflector.set_atomic (r : Reflector) (id : ElementId) (name : String) (value : Value)
    (w : World σ) : (after host (r.coerce value).run w).Atomic id name
      (outcome host (r.set id name value).run w) :=
  .bind fun content w' => r.write_atomic id name content w'

section References

variable (host : Host σ) (r : ElementReference)

theorem outcome_aside_bind {s : Script σ β} (f : β → Remembering σ α) {w w' : World σ} {b : β}
    (first : outcome host s.run w = (.ok b, w')) :
    outcome host ((aside s >>= f).run.run r) w = outcome host ((f b).run.run r) w' := by
  change outcome host (ExceptT.bindCont f (outcome host s.run w).1 r) (outcome host s.run w).2 = _
  rw [first]
  rfl

theorem outcome_aside_bind_of_error {s : Script σ β} (f : β → Remembering σ α) {w w' : World σ}
    {error : ScriptError} (failed : outcome host s.run w = (.error error, w')) :
    outcome host ((aside s >>= f).run.run r) w = ((.error error, r), w') := by
  change outcome host (ExceptT.bindCont f (outcome host s.run w).1 r) (outcome host s.run w).2 = _
  rw [failed]
  rfl

theorem ElementReference.write_cases (id : ElementId) (name : String) (content : Option ObjectId)
    (w : World σ) :
    (∃ w', outcome host ((write id name content).run.run r) w = ((.ok ⟨⟩, ⟨content⟩), w') ∧
      w.Writes id name (content.map fun _ => "") w') ∨
    outcome host ((write id name content).run.run r) w =
      ((.error (.fault (.invalidAttributeName name)), r), w) := by
  cases content with
  | none =>
    -- The reference is forgotten first, but then nothing can fail.
    obtain ⟨w', hremove, writes⟩ := removeAttribute_writes host id name w
    refine .inl ⟨w', ?_, writes⟩
    change ((_, _), (outcome host (removeAttribute id name) w).2) = _
    rw [hremove]
    rfl
  | some o =>
    rw [write]
    cases valid : Element.isValidAttributeName name with
    | true =>
      obtain ⟨w', hset, writes⟩ := setAttribute_writes host id valid "" w
      refine .inl ⟨w', ?_, writes⟩
      rw [outcome_aside_bind host r _ hset]
      rfl
    | false =>
      have refused := outcome_setAttribute_of_invalid host w id valid ""
      exact .inr (outcome_aside_bind_of_error host r _ refused)

end References

theorem ElementReference.coerce_ok {value : Value} {content : Option ObjectId}
    (converted : coerce value = .ok content) : content = value.object? := by
  unfold coerce at converted
  split at converted <;> cases converted <;> rfl

theorem Reflection.after_coerce_plain (r : Reflector) (value : Value) (w : World σ) :
    after host ((Reflection.plain r).coerce value).run w = after host (r.coerce value).run w := by
  rw [coerce, after, after]
  cases converted : outcome host (r.coerce value).run w with
  | mk answer w' =>
    cases answer with
    | error error => rw [outcome_run_bind_of_error host _ converted]
    | ok content =>
      rw [outcome_run_bind host _ converted]
      rfl

theorem Reflection.after_coerce_reference (r : ElementReference) (value : Value) (w : World σ) :
    after host ((Reflection.reference r).coerce value).run w = w := by
  rw [coerce]
  cases ElementReference.coerce value <;> rfl

/-- Setting a reference succeeds as a whole, or an error leaves it and the world as they were. -/
theorem ElementReference.set_cases (host : Host σ) (r : ElementReference) (id : ElementId) (name : String)
    (value : Value) (w : World σ) :
    (∃ w', coerce value = .ok value.object? ∧
      outcome host ((set id name value).run.run r) w = ((.ok ⟨⟩, ⟨value.object?⟩), w') ∧
      w.Writes id name (value.object?.map fun _ => "") w') ∨
    ∃ error, outcome host ((set id name value).run.run r) w = ((.error error, r), w) := by
  rw [set]
  cases hcoerce : coerce value with
  | error fault => exact .inr ⟨_, outcome_aside_bind_of_error host r _ (outcome_settle host _ w)⟩
  | ok content =>
    obtain rfl := coerce_ok hcoerce
    rw [outcome_aside_bind host r _ (outcome_settle host _ w)]
    obtain ⟨w', hwrite, writes⟩ | refused := write_cases host r id name value.object? w
    · exact .inl ⟨w', rfl, hwrite, writes⟩
    · exact .inr ⟨_, refused⟩

theorem Reflection.outcome_set_plain (r : Reflector) (id : ElementId) (name : String) (value : Value)
    (w : World σ) : outcome host ((plain r).set id name value) w =
      (((outcome host (r.set id name value).run w).1, plain r),
        after host (r.set id name value).run w) := rfl

theorem Reflection.outcome_set_reference {r changed : ElementReference} {id : ElementId} {name : String}
    {value : Value} {result : Except ScriptError Unit} {w w' : World σ}
    (done : outcome host ((ElementReference.set id name value).run.run r) w = ((result, changed), w')) :
    outcome host ((reference r).set id name value) w = ((result, reference changed), w') := by
  rw [set, outcome_bind, done]
  rfl

theorem Reflector.writes_of_set {r : Reflector} {id : ElementId} {name : String} {value : Value}
    {w : World σ} (done : (outcome host (r.set id name value).run w).1 = .ok ⟨⟩) :
    ∃ content a, (outcome host (r.coerce value).run w).1 = .ok content ∧
      r.writing name content = .ok a ∧
      (after host (r.coerce value).run w).Writes id name
        (a.change.applied ((after host (r.coerce value).run w).attribute? id name))
        (after host (r.set id name value).run w) := by
  rw [after, after]
  rw [set] at done ⊢
  cases converted : outcome host (r.coerce value).run w with
  | mk answer w' =>
    cases answer with
    | error error =>
      rw [outcome_run_bind_of_error host _ converted] at done
      cases done
    | ok content =>
      rw [outcome_run_bind host _ converted] at done ⊢
      obtain ⟨a, w'', writing, hwrite, writes⟩ | ⟨error, w'', hwrite, -⟩ :=
        r.write_cases host id name content w'
      · rw [hwrite]
        exact ⟨content, a, rfl, writing, writes⟩
      · rw [hwrite] at done
        cases done

theorem PropertyTable.set_of_absent (t : PropertyTable) (id : ElementId) {property : String}
    (absent : t.properties.get? property = none) (value : Value) (w : World σ) :
    outcome host (t.set id property value).run w = (.error (.fault (.notReflected property)), w) := by
  rw [set, PropertyTable.property, absent]
  rfl

theorem PropertyTable.set_of_wired (t : PropertyTable) (id : ElementId) {property : String}
    {p : ReflectedProperty} (wired : t.properties.get? property = some p) (value : Value) (w : World σ) :
    outcome host (t.set id property value).run w =
      outcome host (p.reflector.set id p.attributeName value).run w := by
  rw [set, PropertyTable.property, wired]
  rfl

section Conversion

variable {R : World σ → World σ → Prop} [IsPreorder (World σ) R] {value : Value}

theorem Reflector.coerce_moves (number : ScriptMoves host R (toNumber value))
    (text : ScriptMoves host R (toText value)) (r : Reflector) : ScriptMoves host R (r.coerce value) := by
  have nullable : ScriptMoves host R (nullableText value) := by
    rw [nullableText]
    split
    · exact .pure _
    · exact text.bind fun _ => .pure _
  cases r with
  | string | enumerated => exact text.bind fun _ => .pure _
  | url => exact (text.bind fun _ => .pure _).bind fun _ => .pure _
  | nullableString | nullableEnumerated => exact nullable
  | boolean => exact .pure _
  | int | nonNegativeInt | unsignedInt | positiveInt | positiveIntOrDefault | clampedInt | double
  | positiveDouble => exact number.bind fun _ => .settle _

theorem Reflection.coerce_moves (number : ScriptMoves host R (toNumber value))
    (text : ScriptMoves host R (toText value)) (r : Reflection) :
    ScriptMoves host R (r.coerce value) := by
  cases r with
  | plain r => exact (r.coerce_moves number text).bind fun _ => .pure _
  | reference r => exact (ScriptMoves.settle _).bind fun _ => .pure _

end Conversion

theorem toPrimitive_of_not_object {value : Value} (primitive : value.isObject = false)
    (preferred : PreferredType) : (toPrimitive value preferred : Script σ Value) = pure value := by
  cases value with
  | object o => cases primitive
  | _ => rfl

theorem Reflection.after_coerce_of_not_object {value : Value} (primitive : value.isObject = false)
    (r : Reflection) (w : World σ) : after host (r.coerce value).run w = w := by
  have asked (preferred : PreferredType) : ScriptMoves host (· = ·) (toPrimitive value preferred) := by
    rw [toPrimitive_of_not_object primitive]
    exact .pure _
  have number : ScriptMoves host (· = ·) (toNumber value) := (asked _).bind fun _ => .settle _
  have text : ScriptMoves host (· = ·) (toText value) := (asked _).bind fun _ => .settle _
  exact (r.coerce_moves number text w).symm

/-- Setting a reflected property or one of a table converts the value and then attempts one write. A
failure leaves all elements as the conversion left them, and a reference as it was. A success writes to
the one attribute what the kind of property tells, and a reference remembers the element that it was set
to. The conversion of a primitive does nothing, and that of an object only calls functions. -/
theorem reflected_writes_are_atomic (host : Host σ) (w : World σ) (id : ElementId) (value : Value) :
    (∀ (r : Reflection) (name : String),
      let converted := after host (r.coerce value).run w
      let attempt := outcome host (r.set id name value) w
      converted.Atomic id name (attempt.1.1, attempt.2) ∧
        (∀ error, attempt.1.1 = .error error → attempt.1.2 = r) ∧
        (∀ plain, r = .plain plain → attempt.1.1 = .ok ⟨⟩ →
          attempt.1.2 = r ∧ ∃ content a, (outcome host (plain.coerce value).run w).1 = .ok content ∧
            plain.writing name content = .ok a ∧
            converted.Writes id name (a.change.applied (converted.attribute? id name)) attempt.2) ∧
        ∀ reference, r = .reference reference → attempt.1.1 = .ok ⟨⟩ →
          attempt.1.2.explicit = value.object? ∧
            converted.Writes id name (value.object?.map fun _ => "") attempt.2) ∧
    (∀ (t : PropertyTable) (property : String),
      (t.properties.get? property = none →
        outcome host (t.set id property value).run w =
          (.error (.fault (.notReflected property)), w)) ∧
      ∀ p, t.properties.get? property = some p →
        (after host (p.reflector.coerce value).run w).Atomic id p.attributeName
          (outcome host (t.set id property value).run w)) ∧
    ∀ r : Reflection,
      (value.isObject = false → after host (r.coerce value).run w = w) ∧
      ∀ (R : World σ → World σ → Prop) [Motion host R], R w (after host (r.coerce value).run w) := by
  refine ⟨fun r name => ?_, fun t property => ⟨?_, ?_⟩, fun r => ⟨?_, ?_⟩⟩
  · cases r with
    | plain r =>
      dsimp only
      rw [Reflection.after_coerce_plain, Reflection.outcome_set_plain]
      refine ⟨r.set_atomic id name value w, fun _ _ => rfl, ?_, nofun⟩
      rintro plain ⟨rfl⟩ done
      exact ⟨rfl, Reflector.writes_of_set done⟩
    | reference r =>
      dsimp only
      rw [Reflection.after_coerce_reference]
      obtain ⟨w', -, hset, writes⟩ | ⟨error, hset⟩ := ElementReference.set_cases host r id name value w
      · rw [Reflection.outcome_set_reference hset]
        exact ⟨.of_ok writes.toRewritesOnly, nofun, nofun, fun _ _ _ => ⟨rfl, writes⟩⟩
      · rw [Reflection.outcome_set_reference hset]
        exact ⟨.of_error rfl, fun _ _ => rfl, nofun, nofun⟩
  · exact fun absent => t.set_of_absent id absent value w
  · intro p wired
    rw [t.set_of_wired id wired]
    exact p.reflector.set_atomic id p.attributeName value w
  · exact fun primitive => Reflection.after_coerce_of_not_object primitive r w
  · intro R _
    exact r.coerce_moves (toNumber_moves value) (toText_moves value) w

/-- A name that no attribute can have is refused when the element was already converted, and the
reference keeps the element that it had. -/
theorem reference_after_refused_name :
    let r : Reflection := .reference ⟨some ⟨5⟩⟩
    let attempt :=
      outcome Embedder.mute.host (r.set ⟨0⟩ "aria owns" (.object ⟨7⟩)) labeledWorld
    attempt.1.1 = .error (.fault (.invalidAttributeName "aria owns")) ∧
      (attempt.2.element ⟨0⟩).attributes.entries =
        [("id", "menu"), ("class", " wide dark\twide ")] ∧
      attempt.1.2.explicit = some ⟨5⟩ := by
  intro r attempt
  have refused : attempt.1.1 = .error (.fault (.invalidAttributeName "aria owns")) := rfl
  obtain ⟨atomic, unchanged, -⟩ := (reflected_writes_are_atomic Embedder.mute.host labeledWorld ⟨0⟩
    (.object ⟨7⟩)).1 r "aria owns"
  have kept : attempt.2.elements = labeledWorld.elements := atomic.kept _ refused
  refine ⟨refused, ?_, ?_⟩
  · rw [World.element, kept]
    decide +kernel
  · rw [unchanged _ refused]
    rfl

end WebBindings
