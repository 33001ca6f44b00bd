import WebBindings.Proofs.Heap.Confinement
/-!
# Changes of the heap

All that is ever done to a heap, one change after the other, and what a run of changes makes of a single
object. No change takes an object away, or gives it another prototype.
-/

namespace WebBindings

/-- What comes of an assignment, and why. -/
inductive Object.Assigned (record : Object) (key : PropertyKey) (v : Value) : Option Object → Prop
  | readOnly {p : Property} (found : record.properties.get? key = some p) (fixed : p.writable = false) :
      Assigned record key v none
  | closed (missing : record.properties.get? key = none) (closed : record.extensible = false) :
      Assigned record key v none
  | replaced {p : Property} (found : record.properties.get? key = some p) (writable : p.writable = true) :
      Assigned record key v (some (record.define key { p with value := v }))
  | added (missing : record.properties.get? key = none) (extensible : record.extensible = true) :
      Assigned record key v (some (record.define key (.data v)))

theorem Object.assigned (record : Object) (key : PropertyKey) (v : Value) :
    record.Assigned key v (record.assign? key v) := by
  rw [assign?]
  cases found : record.properties.get? key with
  | some p =>
    cases writable : p.writable with
    | true =>
      dsimp only
      rw [if_pos writable]
      exact .replaced found writable
    | false =>
      dsimp only
      rw [if_neg (Bool.eq_false_iff.1 writable)]
      exact .readOnly found writable
  | none =>
    cases extensible : record.extensible with
    | true => exact .added found extensible
    | false => exact .closed found extensible

theorem Object.exists_assign (record : Object) (key : PropertyKey) (v : Value) :
    ∃ properties, (record.assign? key v).getD record = { record with properties } := by
  have assigned := record.assigned key v
  generalize record.assign? key v = made at assigned
  cases assigned <;> exact ⟨_, rfl⟩

namespace Heap

/-- What bindings and scripts do to a heap: they make objects, give and assign properties, freeze objects,
and step the functions that keep a position. -/
inductive Change
  | alloc (record : Object)
  | define (o : ObjectId) (key : PropertyKey) (property : Property)
  | set (o : ObjectId) (key : PropertyKey) (v : Value)
  | freeze (o : ObjectId)
  | behave (o : ObjectId) (b : Behavior)

def change (h : Heap) : Change → Heap
  | .alloc record => (h.alloc record).2
  | .define o key property => h.define o key property
  | .set o key v => (h.set o key v).2
  | .freeze o => h.freeze o
  | .behave o b => h.modify o fun record => { record with behavior := some b }

def changes (h : Heap) (cs : List Change) : Heap := cs.foldl change h

/-- What a change makes of an object. -/
def Change.on (o : ObjectId) (record : Object) : Change → Object
  | .alloc _ => record
  | .define p key property => if p = o then record.define key property else record
  | .set p key v => if p = o then (record.assign? key v).getD record else record
  | .freeze p => if p = o then record.freeze else record
  | .behave p b => if p = o then { record with behavior := some b } else record

/-- The object that is changed, unless one is made. -/
def Change.target? : Change → Option ObjectId
  | .alloc _ => none
  | .define o _ _ | .set o _ _ | .freeze o | .behave o _ => some o

variable {h h' : Heap} {o : ObjectId} {record : Object} {key : PropertyKey} {v : Value}

theorem Change.on_of_ne_target {c : Change} (other : c.target? ≠ some o) (record : Object) :
    c.on o record = record := by
  cases c with
  | alloc made => rfl
  | define p key property | set p key v | freeze p | behave p b =>
    exact if_neg fun same => other (congrArg some same)

theorem object_set (housed : o.index < h.objects.size) (p : ObjectId) : (h.set p key v).2.object o =
    if p = o then ((h.object o).assign? key v).getD (h.object o) else h.object o := by
  by_cases here : p = o
  · subst here
    rw [if_pos rfl, set]
    split
    · rename_i made accepted
      rw [object_modify, if_pos ⟨rfl, housed⟩, accepted]
      rfl
    · rename_i refused
      rw [refused]
      rfl
  · rw [if_neg here]
    exact (h.sameBut_set p key v).elsewhere o (Ne.symm here)

theorem object_change (housed : o.index < h.objects.size) (c : Change) :
    (h.change c).object o = c.on o (h.object o) := by
  have modified (p : ObjectId) (f : Object → Object) :
      (h.modify p f).object o = if p = o then f (h.object o) else h.object o := by
    rw [object_modify]
    by_cases here : p = o
    · rw [if_pos ⟨here, here ▸ housed⟩, if_pos here]
    · rw [if_neg fun same => here same.1, if_neg here]
  cases c with
  | alloc record =>
    change (h.alloc record).2.object o = h.object o
    rw [object_alloc, if_neg (Nat.ne_of_lt housed)]
  | define p key property => exact modified p _
  | set p key v => exact object_set housed p
  | freeze p => exact modified p _
  | behave p b => exact modified p _

theorem size_change (h : Heap) (c : Change) : h.objects.size ≤ (h.change c).objects.size := by
  cases c with
  | alloc record =>
    change h.objects.size ≤ (h.objects.push record).size
    rw [Array.size_push]
    exact Nat.le_succ _
  | set p key v => exact Nat.le_of_eq (h.sameBut_set p key v).size.symm
  | define p key property | freeze p | behave p b => exact Nat.le_of_eq Array.size_modify.symm

/-- A run of changes does to an object what the changes do to it one by one. -/
theorem object_changes (housed : o.index < h.objects.size) (cs : List Change) :
    (h.changes cs).object o = cs.foldl (Change.on o) (h.object o) := by
  induction cs generalizing h with
  | nil => rfl
  | cons c cs ih =>
    have still : o.index < (h.change c).objects.size := Nat.lt_of_lt_of_le housed (h.size_change c)
    have later : ((h.change c).changes cs).object o = cs.foldl (Change.on o) ((h.change c).object o) :=
      ih still
    rw [object_change housed] at later
    exact later

theorem object_changes_of_ne_target (housed : o.index < h.objects.size) {cs : List Change}
    (others : ∀ c ∈ cs, c.target? ≠ some o) : (h.changes cs).object o = h.object o := by
  rw [object_changes housed]
  generalize h.object o = record
  induction cs with
  | nil => rfl
  | cons c cs ih =>
    rw [List.forall_mem_cons] at others
    rw [List.foldl_cons, Change.on_of_ne_target others.1]
    exact ih others.2

theorem object_alloc_self (h : Heap) (record : Object) :
    (h.alloc record).2.object (h.alloc record).1 = record := by
  rw [object_alloc]
  exact if_pos rfl

theorem housed_alloc (h : Heap) (record : Object) :
    (h.alloc record).1.index < (h.alloc record).2.objects.size := by
  rw [alloc, Array.size_push]
  exact Nat.lt_succ_self _

theorem object_changes_alloc (h : Heap) (record : Object) (cs : List Change) :
    ((h.alloc record).2.changes cs).object (h.alloc record).1 =
      cs.foldl (Change.on (h.alloc record).1) record := by
  rw [object_changes (h.housed_alloc record), object_alloc_self]

end Heap

end WebBindings
