import WebBindings.Proofs.Heap.Inheritance
import WebBindings.Script.Scope
/-!
# The place of a name

A name belongs to the innermost scope object that has it and does not hide it, and to the global
object if there is none. Reading and assigning agree on this place, an assignment leaves all else in
the heap as it was, and what it writes is read back.
-/

namespace WebBindings.Script.ScopeChain

open Heap (Finds Inherits SameBut)

variable {h h' : Heap} {chain : ScopeChain} {o s : ObjectId} {name : String} {key : PropertyKey}

/-- An object hides a key from scopes if it has a list of such keys, and the list says so. -/
def Hides (h : Heap) (o : ObjectId) (key : PropertyKey) : Prop :=
  ∃ list, (∃ property, h.Finds (.symbol .unscopables) o property ∧ property.value = .object list) ∧
    ∃ entry, h.Finds key list entry ∧ entry.value.toBoolean = true

/-- A key can be used through a scope object. -/
def Visible (h : Heap) (o : ObjectId) (key : PropertyKey) : Prop :=
  (∃ property, h.Finds key o property) ∧ ¬ Hides h o key

/-- The place of a key: the scope object that it can be used through and none further in, or the
global object if it can be used through none. -/
inductive Places (h : Heap) (chain : ScopeChain) (key : PropertyKey) : Binding → Prop
  | object {inner o outer} (cut : chain.objects = inner ++ o :: outer)
      (passed : ∀ s ∈ inner, ¬ Visible h s key) (visible : Visible h o key) :
      Places h chain key (.object o)
  | global (passed : ∀ s ∈ chain.objects, ¬ Visible h s key) : Places h chain key .global

/-- The object that a place is in. -/
def owner (chain : ScopeChain) : Binding → ObjectId
  | .object o => o
  | .global => chain.global

/-- The receiver of calls of what is found in a place. -/
def receiver : Binding → Value
  | .object o => .object o
  | .global => .undefined

theorem binds_iff : binds h o key = true ↔ Visible h o key := by
  rw [binds, Bool.and_eq_true, Heap.has_iff, Visible]
  refine and_congr_right fun _ => ?_
  simp only [Hides, ← Heap.get_eq_object, ← Heap.get_toBoolean]
  split
  · rename_i list found
    simp [found]
  · rename_i other
    simp only [true_iff]
    rintro ⟨list, found, -⟩
    exact other list found

theorem not_binds_iff : binds h o key = false ↔ ¬ Visible h o key := by
  rw [← binds_iff, Bool.not_eq_true]

theorem find?_of_passed (passed : ∀ s ∈ chain.objects, ¬ Visible h s key) :
    chain.objects.find? (fun o => binds h o key) = none :=
  List.find?_eq_none.2 fun s hs => by
    rw [binds_iff]
    exact passed s hs

theorem Places.search {b : Binding} (place : Places h chain key b) :
    (∃ o, chain.objects.find? (fun o => binds h o key) = some o ∧ b = .object o) ∨
      chain.objects.find? (fun o => binds h o key) = none ∧ b = .global := by
  obtain ⟨cut, passed, visible⟩ | passed := place
  · rename_i inner o outer
    refine .inl ⟨o, List.find?_eq_some_iff_append.2 ⟨binds_iff.2 visible, inner, outer, cut, ?_⟩, rfl⟩
    intro s hs
    rw [not_binds_iff.2 (passed s hs), Bool.not_false]
  · exact .inr ⟨find?_of_passed passed, rfl⟩

theorem places_iff {b : Binding} : Places h chain key b ↔
    (match chain.objects.find? fun o => binds h o key with
      | some o => Binding.object o
      | none => .global) = b := by
  constructor
  · intro place
    obtain ⟨o, found, rfl⟩ | ⟨found, rfl⟩ := place.search
    · rw [found]
    · rw [found]
  · rintro rfl
    split
    · rename_i o found
      obtain ⟨visible, inner, outer, cut, passed⟩ := List.find?_eq_some_iff_append.1 found
      refine .object cut (fun s hs => not_binds_iff.1 ?_) (binds_iff.1 visible)
      simpa using passed s hs
    · rename_i found
      exact .global fun s hs => by
        rw [← binds_iff]
        exact List.find?_eq_none.1 found s hs

theorem lookup_of_finds {b : Binding} {property : Property}
    (place : Places h chain (.ofText name) b)
    (finds : h.Finds (.ofText name) (chain.owner b) property) :
    lookup h chain name = .ok (property.value, receiver b) := by
  obtain ⟨o, found, rfl⟩ | ⟨found, rfl⟩ := place.search
  · rw [lookup, resolve?, found]
    exact congrArg (fun v => Except.ok (v, Value.object o)) (Heap.get_eq_of_finds finds)
  · rw [lookup, resolve?, found]
    dsimp only
    have present : h.has chain.global (.ofText name) = true := Heap.has_iff.2 ⟨property, finds⟩
    rw [if_pos present]
    exact congrArg (fun v => Except.ok (v, Value.undefined)) (Heap.get_eq_of_finds finds)

theorem lookup_of_missing {b : Binding} (place : Places h chain (.ofText name) b)
    (missing : ∀ property, ¬ h.Finds (.ofText name) (chain.owner b) property) :
    lookup h chain name = .error (.notDefined name) := by
  cases place with
  | object _ _ visible => exact absurd visible.1 (not_exists.2 missing)
  | global passed =>
    have absent : ¬ h.has chain.global (.ofText name) = true := by
      rw [Heap.has_iff]
      exact not_exists.2 missing
    rw [lookup, resolve?, find?_of_passed passed]
    dsimp only
    rw [if_neg absent]

theorem assign_eq {b : Binding} (place : Places h chain (.ofText name) b) (v : Value) :
    assign h chain name v = (h.set (chain.owner b) (.ofText name) v).2 := by
  obtain ⟨o, found, rfl⟩ | ⟨found, rfl⟩ := place.search
  · rw [assign, resolve?, found]
    rfl
  · rw [assign, resolve?, found]
    dsimp only
    cases h.has chain.global (.ofText name) <;> rfl

/-- A write to an object that no list of hidden keys inherits from leaves hidden what was hidden. -/
theorem hides_eq (same : h.SameBut h' o (.ofText name))
    (unlisted : ∀ property list, h.Finds (.symbol .unscopables) s property →
      property.value = .object list → ¬ h.Inherits list o) :
    Hides h' s (.ofText name) ↔ Hides h s (.ofText name) := by
  have lists : h'.get s (.symbol .unscopables) = h.get s (.symbol .unscopables) :=
    (same.reads_eq (.inr (by simp [PropertyKey.ofText]))).1
  simp only [Hides, ← Heap.get_eq_object, ← Heap.get_toBoolean, lists]
  refine exists_congr fun list => and_congr_right fun found => ?_
  obtain ⟨property, finds, value⟩ := Heap.get_eq_object.1 found
  rw [(same.reads_eq (.inl (unlisted property list finds value))).1]

/-- Behind a write, the name is read as it was written: a scope object that only now comes first has
the name from the written object. -/
theorem lookup_after_write {b : Binding} {property : Property}
    (place : Places h chain (.ofText name) b) (same : h.SameBut h' (chain.owner b) (.ofText name))
    (written : h'.own? (chain.owner b) (.ofText name) = some property)
    (unlisted : ∀ s ∈ chain.objects, ∀ listing list, h.Finds (.symbol .unscopables) s listing →
      listing.value = .object list → ¬ h.Inherits list (chain.owner b)) :
    ∃ r, lookup h' chain name = .ok (property.value, r) := by
  have here : h'.Finds (.ofText name) (chain.owner b) property := ⟨0, .own written⟩
  obtain ⟨b', place'⟩ : ∃ b', Places h' chain (.ofText name) b' := ⟨_, places_iff.2 rfl⟩
  have shown (s : ObjectId) (hs : s ∈ chain.objects) := hides_eq same (unlisted s hs)
  refine ⟨receiver b', lookup_of_finds place' ?_⟩
  cases place' with
  | @object inner o outer cut passed visible =>
    have ho : o ∈ chain.objects := by simp [cut]
    by_cases before : ∃ property, h.Finds (.ofText name) o property
    · -- The write reveals nothing further in, so the name was already found here.
      have found : Places h chain (.ofText name) (.object o) := by
        refine .object cut (fun s hs => ?_) ⟨before, fun hidden => visible.2 ?_⟩
        · rintro ⟨⟨property, finds⟩, notHidden⟩
          have inScope : s ∈ chain.objects := by simp [cut, hs]
          refine passed s hs ⟨same.finds_of_finds written finds, ?_⟩
          rwa [shown s inScope]
        · rwa [shown o ho]
      rw [places_iff] at place found
      rw [← place, found] at here
      exact here
    · obtain ⟨after, finds⟩ := visible.1
      rwa [same.finds_of_new written (not_exists.1 before) finds] at finds
  | global passed =>
    cases place with
    | @object inner o outer cut _ visible =>
      have ho : o ∈ chain.objects := by simp [cut]
      refine absurd ⟨⟨property, here⟩, ?_⟩ (passed o ho)
      rw [shown o ho]
      exact visible.2
    | global _ => exact here

theorem owner_housed {b : Binding} (place : Places h chain key b)
    (global : chain.global.index < h.objects.size) : (chain.owner b).index < h.objects.size := by
  cases place with
  | object _ _ visible =>
    obtain ⟨⟨property, passed, finds⟩, -⟩ := visible
    cases finds with
    | own found => exact Heap.housed_of_own? found
    | inherited _ prototype => exact Heap.housed_of_prototype prototype
  | global => exact global

/-- A name has one place: in the innermost scope object that has it, itself or by inheritance, and does
not hide it, else in the global object. Reading it gives what is found there, with the scope object for
a receiver, and is an error if nothing is. Assigning to it is a write to the object of this place and
changes no other property and no other object. A write that is accepted is read back, unless it went
to a list of hidden keys or to what such a list inherits from. -/
theorem names_have_one_place (h : Heap) (chain : ScopeChain) (name : String) (v : Value) :
    ∃ b : Binding, (∀ b', Places h chain (.ofText name) b' ↔ b' = b) ∧
      (∀ property, h.Finds (.ofText name) (chain.owner b) property →
        lookup h chain name = .ok (property.value, receiver b)) ∧
      ((∀ property, ¬ h.Finds (.ofText name) (chain.owner b) property) → b = .global ∧
        ∃ fault, lookup h chain name = .error fault ∧ fault.category = .native .reference ∧
          fault.message = name ++ " is not defined") ∧
      assign h chain name v = (h.set (chain.owner b) (.ofText name) v).2 ∧
      h.SameBut (assign h chain name v) (chain.owner b) (.ofText name) ∧
      ((h.set (chain.owner b) (.ofText name) v).1 = true → chain.global.index < h.objects.size →
        (∀ s ∈ chain.objects, ∀ listing list, h.Finds (.symbol .unscopables) s listing →
          listing.value = .object list → ¬ h.Inherits list (chain.owner b)) →
        ∃ r, lookup (assign h chain name v) chain name = .ok (v, r)) := by
  obtain ⟨b, place⟩ : ∃ b, Places h chain (.ofText name) b := ⟨_, places_iff.2 rfl⟩
  have same : h.SameBut (assign h chain name v) (chain.owner b) (.ofText name) := by
    rw [assign_eq place]
    exact h.sameBut_set _ _ v
  refine ⟨b, fun b' => ?_, fun _ => lookup_of_finds place, fun missing => ⟨?_, ?_⟩,
    assign_eq place v, same, fun accepted global unlisted => ?_⟩
  · rw [places_iff] at place ⊢
    rw [place]
    exact eq_comm
  · cases place with
    | object _ _ visible => exact absurd visible.1 (not_exists.2 missing)
    | global => rfl
  · exact ⟨_, lookup_of_missing place missing, rfl, rfl⟩
  · obtain ⟨property, rfl, written⟩ := Heap.own?_set_of_accepted accepted (owner_housed place global)
    rw [← assign_eq place] at written
    exact lookup_after_write place same written unlisted

/-- The element hides the name, and the document has it from its prototype: the assignment gives the
document a property of its own. -/
theorem hidden_name_is_written_further_out :
    let title (v : Value) := OrderedMap.ofList [(PropertyKey.ofText "title", Property.data v)]
    let listing := (PropertyKey.symbol .unscopables, Property.hidden (.object ⟨1⟩))
    let h : Heap := ⟨#[{ Object.blank .ordinary none with properties := title .undefined },
      { Object.blank .ordinary none with properties := title (.boolean true) },
      { Object.blank .ordinary none with properties := (title .undefined).insert listing.1 listing.2 },
      Object.blank .ordinary (some ⟨0⟩), Object.blank .ordinary none]⟩
    let chain : ScopeChain := ⟨[⟨2⟩, ⟨3⟩], ⟨4⟩⟩
    lookup h chain "title" = .ok (.undefined, .object ⟨3⟩) ∧
      assign h chain "title" .null = (h.set ⟨3⟩ (.ofText "title") .null).2 ∧
      ∃ r, lookup (assign h chain "title" .null) chain "title" = .ok (.null, r) := by
  intro title listing h chain
  have place : Places h chain (.ofText "title") (.object ⟨3⟩) := places_iff.2 (by decide +kernel)
  have finds : h.Finds (.ofText "title") ⟨3⟩ (.data .undefined) :=
    ⟨1, .inherited (by decide +kernel) rfl (.own (by decide +kernel))⟩
  obtain ⟨b, unique, reads, -, assigns, -, readBack⟩ := names_have_one_place h chain "title" .null
  obtain rfl := (unique _).1 place
  refine ⟨reads _ finds, assigns, readBack (by decide +kernel) (by decide) ?_⟩
  have apart : ¬ h.Inherits ⟨1⟩ ⟨3⟩ := by
    intro inherits
    obtain same | ⟨p, prototype, -⟩ := inherits.cases_head
    · cases same
    · cases prototype
  intro s hs property list found value
  have got : h.get s (.symbol .unscopables) = .object list :=
    Heap.get_eq_object.2 ⟨property, found, value⟩
  have lists : ∀ s ∈ chain.objects,
      h.get s (.symbol .unscopables) = if s = ⟨2⟩ then .object ⟨1⟩ else .undefined := by
    decide +kernel
  rw [lists s hs] at got
  split at got
  · cases got
    exact apart
  · cases got

end WebBindings.Script.ScopeChain
