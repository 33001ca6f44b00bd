import WebBindings.Proofs.Attribute.Writing
import WebBindings.Proofs.Node.Documents
import Mathlib.Data.List.Induction
/-!
# Element references over time

A reference remembers the element that was set last, for as long as nobody else sets or removes the
attribute. At all other times the attribute says by an id which element is meant, and the oldest element
in use that bears this id is found.
-/

namespace WebBindings

variable {σ : Type}

/-- The attribute of an element that a reference is for. -/
structure ReferencePlace where
  element : ElementId
  attributeName : String

/-- What happens around a reference. Attributes of any element are written or removed, elements are made,
and references from outside come and go. -/
inductive ReferenceStep
  | set (value : Value)
  | write (target : ElementId) (name : String) (text : Option String)
  | create (localName : String) (document : Option DocumentId)
  | hold (handle : Handle)
  | release (handle : Handle)

/-- A reference and the world around it. -/
structure ReferenceState (σ : Type) where
  reference : ElementReference
  world : World σ

/-- Write an attribute, or remove it. -/
def writeAttribute (id : ElementId) (name : String) : Option String → Script σ Unit
  | some text => setAttribute id name text
  | none => perform (removeAttribute id name)

namespace ReferencePlace

def isAt (p : ReferencePlace) (target : ElementId) (name : String) : Bool :=
  target = p.element && Ascii.lower name = Ascii.lower p.attributeName

/-- The reference is told when somebody else writes its attribute. -/
def step (host : Host σ) (p : ReferencePlace) (s : ReferenceState σ) :
    ReferenceStep → ReferenceState σ
  | .set value =>
    let ((_, changed), w) :=
      outcome host ((ElementReference.set p.element p.attributeName value).run.run s.reference) s.world
    ⟨changed, w⟩
  | .write target name text =>
    ⟨if p.isAt target name then s.reference.forget else s.reference,
      after host (writeAttribute target name text).run s.world⟩
  | .create localName document => ⟨s.reference, (s.world.createElement localName document).2⟩
  | .hold handle => ⟨s.reference, s.world.hold handle⟩
  | .release handle => ⟨s.reference, s.world.release handle⟩

/-- A new reference after a number of steps. -/
def run (host : Host σ) (p : ReferencePlace) (w : World σ) (steps : List ReferenceStep) :
    ReferenceState σ :=
  steps.foldl (p.step host) ⟨.none, w⟩

/-- A step that sets an element or none, or writes the attribute from outside. -/
def decides (p : ReferencePlace) : ReferenceStep → Bool
  | .set (.object _) | .set .null | .set .undefined => true
  | .write target name _ => p.isAt target name
  | _ => false

/-- The element was set, and nothing decided otherwise since. -/
def LastSet (p : ReferencePlace) (steps : List ReferenceStep) (o : ObjectId) : Prop :=
  ∃ before since, steps = before ++ .set (.object o) :: since ∧ ∀ step ∈ since, p.decides step = false

theorem lastSet_nil {p : ReferencePlace} {o : ObjectId} : ¬ p.LastSet [] o := by
  rintro ⟨before, since, cut, -⟩
  simp at cut

theorem lastSet_concat_iff {p : ReferencePlace} {steps : List ReferenceStep} {step : ReferenceStep}
    {o : ObjectId} : p.LastSet (steps ++ [step]) o ↔
      step = .set (.object o) ∨ p.decides step = false ∧ p.LastSet steps o := by
  constructor
  · rintro ⟨before, since, cut, undecided⟩
    obtain rfl | ⟨since, last, rfl⟩ := since.eq_nil_or_concat
    · exact .inl (List.singleton_inj.1 (List.append_inj' cut rfl).2)
    · rw [List.concat_eq_append, ← List.cons_append, ← List.append_assoc] at cut
      obtain ⟨rfl, same⟩ := List.append_inj' cut rfl
      obtain rfl := List.singleton_inj.1 same
      exact .inr ⟨undecided _ (by simp), before, since, rfl, fun s mem => undecided s (by simp [mem])⟩
  · rintro (rfl | ⟨idle, before, since, rfl, undecided⟩)
    · exact ⟨steps, [], rfl, nofun⟩
    · refine ⟨before, since ++ [step], by simp, fun s mem => ?_⟩
      obtain earlier | rfl := by simpa using mem
      · exact undecided s earlier
      · exact idle

end ReferencePlace

section Step

variable (host : Host σ) {p : ReferencePlace} {d : DocumentId} {w : World σ}

theorem writeAttribute_keeps_homes (id : ElementId) (name : String) (text : Option String) :
    ScriptMoves host World.SameHomes (writeAttribute id name text) := by
  cases text with
  | some text => exact setAttribute_keeps_homes host id name text
  | none => exact ScriptMoves.perform (removeAttribute_keeps_homes host id name)

theorem writeAttribute_rewrites (id : ElementId) (name : String) (text : Option String) (w : World σ) :
    w.RewritesOnly id name (after host (writeAttribute id name text).run w) := by
  rw [after]
  cases text with
  | none =>
    obtain ⟨w', hremove, writes⟩ := removeAttribute_writes host id name w
    rw [writeAttribute, outcome_perform, hremove]
    exact writes.toRewritesOnly
  | some text =>
    rw [writeAttribute]
    cases valid : Element.isValidAttributeName name with
    | true =>
      obtain ⟨w', hset, writes⟩ := setAttribute_writes host id valid text w
      rw [hset]
      exact writes.toRewritesOnly
    | false =>
      rw [outcome_setAttribute_of_invalid host w id valid]
      exact .of_elements rfl

theorem ElementReference.set_keeps_homes (r : ElementReference) (id : ElementId) (name : String)
    (value : Value) (w : World σ) :
    w.SameHomes (outcome host ((set id name value).run.run r) w).2 := by
  rw [set]
  cases coerce value with
  | error fault =>
    rw [outcome_aside_bind_of_error host r _ (outcome_settle host _ w)]
    exact refl_of _ w
  | ok content =>
    rw [outcome_aside_bind host r _ (outcome_settle host _ w)]
    cases content with
    | none => exact removeAttribute_keeps_homes host id name w
    | some o =>
      have kept := setAttribute_keeps_homes host id name "" w
      rw [after] at kept
      rw [write]
      cases hset : outcome host (setAttribute id name "").run w with
      | mk answer w' =>
        rw [hset] at kept
        cases answer with
        | error error =>
          rw [outcome_aside_bind_of_error host r _ hset]
          exact kept
        | ok _ =>
          rw [outcome_aside_bind host r _ hset]
          exact kept

theorem ElementReference.refused_of_valid (r : ElementReference) (id : ElementId) {name : String}
    (valid : Element.isValidAttributeName name = true) {value : Value} {w w' : World σ}
    {changed : ElementReference} {error : ScriptError}
    (failed : outcome host ((set id name value).run.run r) w = ((.error error, changed), w')) :
    ∃ fault, coerce value = .error fault := by
  rw [set] at failed
  cases hcoerce : coerce value with
  | error fault => exact ⟨fault, rfl⟩
  | ok content =>
    rw [hcoerce, outcome_aside_bind host r _ (outcome_settle host _ w)] at failed
    cases content with
    | none => cases failed
    | some o =>
      obtain ⟨w'', hset, -⟩ := setAttribute_writes host id valid "" w
      change outcome host ((write id name (some o)).run.run r) w = _ at failed
      rw [write, outcome_aside_bind host r _ hset] at failed
      cases failed

end Step

namespace ReferencePlace

/-- What holds of a reference at all times. -/
structure Sound (p : ReferencePlace) (d : DocumentId) (s : ReferenceState σ) : Prop where
  lists : s.world.Lists d
  housed : p.element.index < s.world.elements.size
  home : (s.world.element p.element).document = some d
  empty : s.reference.explicit ≠ none → s.world.attribute? p.element p.attributeName = some ""

variable (host : Host σ) {p : ReferencePlace} {d : DocumentId} {s : ReferenceState σ}

theorem Sound.of_sameHomes (sound : p.Sound d s) {s' : ReferenceState σ}
    (same : s.world.SameHomes s'.world)
    (empty : s'.reference.explicit ≠ none → s'.world.attribute? p.element p.attributeName = some "") :
    p.Sound d s' :=
  ⟨same.lists sound.lists, same.size ▸ sound.housed, (same.home _).trans sound.home, empty⟩

theorem step_sound (sound : p.Sound d s) (step : ReferenceStep) : p.Sound d (p.step host s step) := by
  cases step with
  | set value =>
    have same :=
      ElementReference.set_keeps_homes host s.reference p.element p.attributeName value s.world
    obtain ⟨w', -, hset, writes⟩ | ⟨error, hset⟩ :=
      ElementReference.set_cases host s.reference p.element p.attributeName value s.world
    · rw [hset] at same
      rw [ReferencePlace.step, hset]
      refine sound.of_sameHomes same fun remembered => (writes.written sound.housed).trans ?_
      obtain ⟨o, ho⟩ := Option.ne_none_iff_exists'.1 remembered
      rw [show value.object? = some o from ho]
      rfl
    · rw [ReferencePlace.step, hset]
      exact sound
  | write target name text =>
    refine sound.of_sameHomes (writeAttribute_keeps_homes host target name text s.world) ?_
    -- An element is still remembered only if another attribute was written.
    cases here : p.isAt target name with
    | true => simp [ReferencePlace.step, here, ElementReference.forget, ElementReference.none]
    | false =>
      have other : ¬ (target = p.element ∧ Ascii.lower name = Ascii.lower p.attributeName) := by
        simpa [isAt] using here
      have apart : p.element ≠ target ∨ Ascii.lower p.attributeName ≠ Ascii.lower name :=
        (not_and_or.1 other).imp Ne.symm Ne.symm
      simp only [ReferencePlace.step, here]
      intro remembered
      rw [(writeAttribute_rewrites host target name text s.world).attribute?_other apart]
      exact sound.empty remembered
  | create localName document =>
    have kept := s.world.element_createElement_of_lt localName document sound.housed
    refine ⟨sound.lists.createElement localName document, ?_, ?_, ?_⟩
    · exact (s.world.size_createElement localName document).symm ▸ Nat.lt_succ_of_lt sound.housed
    · rw [ReferencePlace.step, kept]
      exact sound.home
    · rw [ReferencePlace.step, World.attribute?, kept]
      exact sound.empty
  | hold handle => exact sound.of_sameHomes ⟨rfl, rfl, fun _ => rfl⟩ sound.empty
  | release handle => exact sound.of_sameHomes ⟨rfl, rfl, fun _ => rfl⟩ sound.empty

theorem step_of_error {value : Value} {error : ScriptError}
    (failed : (outcome host ((ElementReference.set p.element p.attributeName value).run.run s.reference)
      s.world).1.1 = .error error) : p.step host s (.set value) = s := by
  rw [ReferencePlace.step]
  obtain ⟨w', -, hset, -⟩ | ⟨error, hset⟩ :=
    ElementReference.set_cases host s.reference p.element p.attributeName value s.world
  · rw [hset] at failed
    cases failed
  · rw [hset]

theorem explicit_step (valid : Element.isValidAttributeName p.attributeName = true) (step : ReferenceStep)
    (o : ObjectId) : (p.step host s step).reference.explicit = some o ↔
      step = .set (.object o) ∨ p.decides step = false ∧ s.reference.explicit = some o := by
  cases step with
  | set value =>
    obtain ⟨w', converted, hset, -⟩ | ⟨error, hset⟩ :=
      ElementReference.set_cases host s.reference p.element p.attributeName value s.world
    · have chosen : (p.step host s (.set value)).reference.explicit = value.object? := by
        rw [ReferencePlace.step, hset]
      rw [chosen]
      cases value with
      | object | null | undefined => simp [decides, Value.object?]
      | _ => cases converted
    · obtain ⟨fault, refused⟩ :=
        ElementReference.refused_of_valid host s.reference p.element valid hset
      rw [ReferencePlace.step, hset]
      cases value with
      | object | null | undefined => cases refused
      | _ => simp [decides]
  | write target name text =>
    cases here : p.isAt target name <;>
      simp [ReferencePlace.step, decides, here, ElementReference.forget, ElementReference.none]
  | create | hold | release => simp [ReferencePlace.step, decides]

/-- The element that is remembered in the end is the one that was set last. -/
theorem run_follows (valid : Element.isValidAttributeName p.attributeName = true) {w : World σ}
    (sound : p.Sound d ⟨.none, w⟩) (steps : List ReferenceStep) : p.Sound d (p.run host w steps) ∧
      ∀ o, (p.run host w steps).reference.explicit = some o ↔ p.LastSet steps o := by
  -- The last step tells whether the one before it still counts, so the induction is from the end.
  induction steps using List.reverseRecOn with
  | nil => exact ⟨sound, fun o => ⟨nofun, fun last => (lastSet_nil last).elim⟩⟩
  | append_singleton steps step ih =>
    obtain ⟨sound, explicit⟩ := ih
    have last : p.run host w (steps ++ [step]) = p.step host (p.run host w steps) step :=
      List.foldl_concat ..
    rw [last]
    refine ⟨step_sound host sound step, fun o => ?_⟩
    rw [explicit_step host valid, lastSet_concat_iff, explicit]

end ReferencePlace

theorem ElementReference.read_of_explicit {r : ElementReference} {o : ObjectId}
    (explicit : r.explicit = some o) (view : AttributeView) : r.read view = some o := by
  rw [read, explicit]

theorem World.objectById?_eq (w : World σ) {element : ElementId} {d : DocumentId}
    (home : (w.element element).document = some d) (id : String) :
    w.objectById? element id = (w.elementById? d id).map fun e => (w.element e).object := by
  simp only [objectById?, home, Option.bind_eq_bind, Option.bind_some]
  cases w.elementById? d id <;> rfl

/-- Over any run of a new reference for an attribute that can be written, an element is remembered only
while the attribute is there and empty. The element that was set last is read until none is set or somebody
else writes or removes the attribute. Then nothing is read without the attribute, and with it the oldest
element in use whose id it names, if there is one. Without an attribute to look at nothing is read either.
A value that is refused leaves everything as it was. -/
theorem references_follow_their_history (host : Host σ) (p : ReferencePlace)
    (valid : Element.isValidAttributeName p.attributeName = true) {d : DocumentId} {w : World σ}
    (lists : w.Lists d) (housed : p.element.index < w.elements.size)
    (home : (w.element p.element).document = some d) (steps : List ReferenceStep) :
    let s := p.run host w steps
    let text := s.world.attribute? p.element p.attributeName
    let read := s.reference.read (s.world.attributeView p.element p.attributeName)
    (s.reference.explicit ≠ none → text = some "") ∧
      (∀ o, p.LastSet steps o → read = some o) ∧
      ((∀ o, ¬ p.LastSet steps o) →
        (text = none → read = none) ∧
        ∀ id, text = some id →
          (∀ e, s.world.BearsFirst d id e → read = some (s.world.element e).object) ∧
            ((∀ e, ¬ s.world.Bears d id e) → read = none)) ∧
      s.reference.ofText none = none ∧
      ∀ value error,
        (outcome host ((ElementReference.set p.element p.attributeName value).run.run s.reference)
          s.world).1.1 = .error error → p.step host s (.set value) = s := by
  intro s text read
  have start : p.Sound d ⟨.none, w⟩ := ⟨lists, housed, home, fun remembered => (remembered rfl).elim⟩
  obtain ⟨sound, explicit⟩ := ReferencePlace.run_follows host valid start steps
  refine ⟨sound.empty, fun o last => ?_, fun never => ?_, rfl,
    fun value error failed => ReferencePlace.step_of_error host failed⟩
  · exact ElementReference.read_of_explicit ((explicit o).2 last) _
  · have forgotten : s.reference.explicit = none :=
      Option.eq_none_iff_forall_ne_some.2 fun o remembered => never o ((explicit o).1 remembered)
    have byText : read = text.bind (s.world.objectById? p.element) := by
      simp only [read, ElementReference.read, forgotten]
      rfl
    refine ⟨fun absent => by rw [byText, absent]; rfl, fun id present => ?_⟩
    have byId : read = (s.world.elementById? d id).map fun e => (s.world.element e).object := by
      rw [byText, present, ← s.world.objectById?_eq sound.home]
      rfl
    refine ⟨fun e first => ?_, fun nobody => ?_⟩
    · rw [byId, sound.lists.elementById?_eq_some_iff.2 first]
      rfl
    · rw [byId, sound.lists.elementById?_eq_none_iff.2 nobody]
      rfl

/-- A document with an input and a label for it. -/
def labeledInput : World Unit :=
  let (document, w) := (World.initial ⟨⟩).createDocument
  ((w.createElement "input" (some document)).2.createElement "label" (some document)).2

/-- The label is for another element until its attribute is written, and then for the input by its id. A
text that nobody bears as an id leads nowhere, and a text is not accepted as an element. -/
theorem label_follows_its_attribute :
    let p : ReferencePlace := ⟨⟨1⟩, "for"⟩
    let run := p.run Embedder.mute.host labeledInput
    let read (s : ReferenceState Unit) := s.reference.read (s.world.attributeView ⟨1⟩ "for")
    let chosen := [.hold (.element ⟨0⟩), .write ⟨0⟩ "id" (some "field"), .set (.object ⟨5⟩)]
    let renamed text := chosen ++ [.write ⟨1⟩ "for" text]
    read (run chosen) = some ⟨5⟩ ∧ (run chosen).world.attribute? ⟨1⟩ "for" = some "" ∧
      read (run (renamed (some "field"))) = some ((run (renamed (some "field"))).world.element ⟨0⟩).object ∧
      read (run (renamed (some "fields"))) = none ∧ read (run (renamed none)) = none ∧
      p.step Embedder.mute.host (run chosen) (.set (.ofText "field")) = run chosen := by
  intro p run read chosen renamed
  have valid : Element.isValidAttributeName p.attributeName = true := by decide +kernel
  have lists : labeledInput.Lists ⟨0⟩ :=
    ((World.createDocument_lists (World.initial ()) nofun).createElement "input" _).createElement "label" _
  have housed : p.element.index < labeledInput.elements.size := by decide
  have home : (labeledInput.element p.element).document = some ⟨0⟩ := by decide +kernel
  have follows := references_follow_their_history Embedder.mute.host p valid lists housed home
  have last : p.LastSet chosen ⟨5⟩ := ⟨chosen.take 2, [], rfl, nofun⟩
  have never (text : Option String) (o : ObjectId) : ¬ p.LastSet (renamed text) o := by
    rw [ReferencePlace.lastSet_concat_iff]
    simp [ReferencePlace.decides, ReferencePlace.isAt, p]
  obtain ⟨empty, remembers, -, -, refuses⟩ := follows chosen
  obtain ⟨-, -, named, -⟩ := follows (renamed (some "field"))
  obtain ⟨-, -, unnamed, -⟩ := follows (renamed (some "fields"))
  obtain ⟨-, -, removed, -⟩ := follows (renamed none)
  refine ⟨remembers _ last, empty (by decide +kernel), ?_, ?_, ?_, ?_⟩
  · have bears : (run (renamed (some "field"))).world.BearsFirst ⟨0⟩ "field" ⟨0⟩ :=
      ⟨⟨by decide, by decide +kernel, by decide +kernel, by decide +kernel, by decide +kernel⟩,
        fun _ _ => Nat.zero_le _⟩
    exact ((named (never _)).2 "field" (by decide +kernel)).1 ⟨0⟩ bears
  · have nobody : ∀ i < 2, (run (renamed (some "fields"))).world.attribute? ⟨i⟩ "id" ≠ some "fields" := by
      decide +kernel
    have size : (run (renamed (some "fields"))).world.elements.size = 2 := by decide +kernel
    refine ((unnamed (never _)).2 "fields" (by decide +kernel)).2 fun e bears => ?_
    exact nobody e.index (size ▸ bears.housed) bears.bears
  · exact (removed (never _)).1 (by decide +kernel)
  · have refused (r : ElementReference) (w : World Unit) : (outcome Embedder.mute.host
        ((ElementReference.set p.element p.attributeName (.ofText "field")).run.run r) w).1.1 =
          .error (.fault .notElement) := rfl
    exact refuses (.ofText "field") _ (refused _ _)

end WebBindings
