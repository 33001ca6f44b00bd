import Mathlib.Data.List.Nodup
import Mathlib.Data.List.Perm.Subperm
import Mathlib.Logic.Relation
import WebBindings.Proofs.Node.Events
/-!
# Inherited properties

A property is an object's own, or it is what the prototype has for the key. The search through the
lineage finds exactly these, in every heap: a search that goes on for longer than there are objects
has come back to an object that it had passed. A write to an object leaves all else in the heap as it
was, and is seen from wherever the object is the first to have the key.
-/

namespace WebBindings.Heap

/-- The property that an object has for a key behind a number of prototypes: its own one, or, if it
has none, the one of its prototype. -/
inductive FindsAfter (h : Heap) (key : PropertyKey) : (passed : Nat) → ObjectId → Property → Prop
  | own {o property} (found : h.own? o key = some property) : FindsAfter h key 0 o property
  | inherited {passed o p property} (missing : h.own? o key = none)
      (prototype : (h.object o).prototype = some p) (more : FindsAfter h key passed p property) :
      FindsAfter h key (passed + 1) o property

/-- The property that an object has for a key, its own or an inherited one. -/
def Finds (h : Heap) (key : PropertyKey) (o : ObjectId) (property : Property) : Prop :=
  ∃ passed, h.FindsAfter key passed o property

/-- An object is another one or has it among its prototypes. -/
def Inherits (h : Heap) : ObjectId → ObjectId → Prop :=
  Relation.ReflTransGen fun o p => (h.object o).prototype = some p

variable {h : Heap} {o p : ObjectId} {key : PropertyKey} {property : Property}

theorem housed_of_own? (found : h.own? o key = some property) : o.index < h.objects.size := by
  by_contra absent
  rw [own?, object, Array.getElem?_eq_none (Nat.le_of_not_lt absent)] at found
  cases found

theorem housed_of_prototype (found : (h.object o).prototype = some p) :
    o.index < h.objects.size := by
  by_contra absent
  rw [object, Array.getElem?_eq_none (Nat.le_of_not_lt absent)] at found
  cases found

namespace FindsAfter

theorem unique {m n : Nat} {other : Property} (left : h.FindsAfter key m o property)
    (right : h.FindsAfter key n o other) : m = n ∧ property = other := by
  induction left generalizing n with
  | own found =>
    cases right with
    | own again => exact ⟨rfl, Option.some.inj (found.symm.trans again)⟩
    | inherited missing => rw [found] at missing; cases missing
  | inherited missing prototype _ ih =>
    cases right with
    | own again => rw [missing] at again; cases again
    | inherited _ again more =>
      obtain rfl := Option.some.inj (prototype.symm.trans again)
      obtain ⟨rfl, rfl⟩ := ih more
      exact ⟨rfl, rfl⟩

/-- The objects that are passed are all different: from an object that comes twice, the property
would be at two distances. -/
theorem path {n : Nat} (finds : h.FindsAfter key n o property) : ∃ path : List ObjectId,
    path.length = n + 1 ∧ path.Nodup ∧ ∀ q ∈ path, q.index < h.objects.size ∧
      ∃ m ≤ n, h.FindsAfter key m q property := by
  induction finds with
  | @own o property found =>
    refine ⟨[o], rfl, List.nodup_singleton o, List.forall_mem_singleton.2 ?_⟩
    exact ⟨housed_of_own? found, 0, Nat.le_refl 0, .own found⟩
  | @inherited n o p property missing prototype more ih =>
    obtain ⟨path, length, nodup, within⟩ := ih
    have here : h.FindsAfter key (n + 1) o property := .inherited missing prototype more
    have fresh : o ∉ path := by
      intro again
      obtain ⟨-, m, le, nearer⟩ := within o again
      have := (nearer.unique here).1
      omega
    refine ⟨o :: path, by rw [List.length_cons, length], List.nodup_cons.2 ⟨fresh, nodup⟩, ?_⟩
    rw [List.forall_mem_cons]
    refine ⟨⟨housed_of_prototype prototype, n + 1, Nat.le_refl _, here⟩, fun q hq => ?_⟩
    obtain ⟨housed, m, le, nearer⟩ := within q hq
    exact ⟨housed, m, Nat.le_succ_of_le le, nearer⟩

theorem lt_size {n : Nat} (finds : h.FindsAfter key n o property) : n < h.objects.size := by
  obtain ⟨path, length, nodup, within⟩ := finds.path
  have distinct : (path.map ObjectId.index).Nodup :=
    nodup.map fun ⟨_⟩ ⟨_⟩ same => congrArg ObjectId.mk same
  have below : path.map ObjectId.index ⊆ List.range h.objects.size := by
    intro n hn
    obtain ⟨q, hq, rfl⟩ := List.mem_map.1 hn
    exact List.mem_range.2 (within q hq).1
  have le := (List.subperm_of_subset distinct below).length_le
  rw [List.length_map, List.length_range] at le
  omega

theorem findSome?_go {n bound : Nat} (finds : h.FindsAfter key n o property) (enough : n < bound) :
    (lineage.go h bound o).findSome? (fun q => h.own? q key) = some property := by
  induction finds generalizing bound with
  | own found =>
    obtain ⟨bound, rfl⟩ := Nat.exists_eq_succ_of_ne_zero (Nat.ne_of_gt enough)
    rw [lineage.go]
    split
    · rw [List.findSome?_cons, found]
    · rw [List.findSome?_cons, found]
  | inherited missing prototype _ ih =>
    obtain ⟨bound, rfl⟩ := Nat.exists_eq_succ_of_ne_zero (Nat.ne_of_gt (Nat.zero_lt_of_lt enough))
    rw [lineage.go, prototype]
    dsimp only
    rw [List.findSome?_cons, missing]
    exact ih (Nat.lt_of_succ_lt_succ enough)

end FindsAfter

theorem finds_of_go {bound : Nat}
    (found : (lineage.go h bound o).findSome? (fun q => h.own? q key) = some property) :
    h.Finds key o property := by
  induction bound generalizing o with
  | zero => cases found
  | succ bound ih =>
    cases own : h.own? o key with
    | some nearest =>
      refine ⟨0, .own ?_⟩
      rw [lineage.go] at found
      split at found
      all_goals simpa [own] using found
    | none =>
      rw [lineage.go] at found
      split at found
      · rw [List.findSome?_cons, own] at found
        cases found
      · rename_i p prototype
        rw [List.findSome?_cons, own] at found
        obtain ⟨passed, finds⟩ := ih found
        exact ⟨passed + 1, .inherited own prototype finds⟩

theorem findSome?_lineage : (h.lineage o).findSome? (fun q => h.own? q key) = some property ↔
    h.Finds key o property :=
  ⟨finds_of_go, fun ⟨_, finds⟩ => finds.findSome?_go finds.lt_size⟩

theorem has_eq_isSome (h : Heap) (o : ObjectId) (key : PropertyKey) :
    h.has o key = ((h.lineage o).findSome? fun q => h.own? q key).isSome := by
  rw [Bool.eq_iff_iff, List.findSome?_isSome_iff, has, List.any_eq_true]

theorem has_iff : h.has o key = true ↔ ∃ property, h.Finds key o property := by
  simp only [has_eq_isSome, Option.isSome_iff_exists, findSome?_lineage]

theorem get_eq_of_finds (finds : h.Finds key o property) : h.get o key = property.value := by
  rw [get, findSome?_lineage.2 finds]

theorem get_eq_of_missing (missing : ∀ property, ¬ h.Finds key o property) :
    h.get o key = .undefined := by
  cases found : (h.lineage o).findSome? fun q => h.own? q key with
  | none => rw [get, found]
  | some property => exact absurd (findSome?_lineage.1 found) (missing property)

theorem get_eq_object {v : ObjectId} : h.get o key = .object v ↔
    ∃ property, h.Finds key o property ∧ property.value = .object v := by
  constructor
  · intro got
    by_cases some : ∃ property, h.Finds key o property
    · obtain ⟨property, finds⟩ := some
      exact ⟨property, finds, get_eq_of_finds finds ▸ got⟩
    · rw [get_eq_of_missing (not_exists.1 some)] at got
      cases got
  · rintro ⟨property, finds, value⟩
    rw [get_eq_of_finds finds, value]

theorem get_toBoolean : (h.get o key).toBoolean = true ↔
    ∃ property, h.Finds key o property ∧ property.value.toBoolean = true := by
  constructor
  · intro truthy
    by_cases some : ∃ property, h.Finds key o property
    · obtain ⟨property, finds⟩ := some
      exact ⟨property, finds, get_eq_of_finds finds ▸ truthy⟩
    · rw [get_eq_of_missing (not_exists.1 some)] at truthy
      cases truthy
  · rintro ⟨property, finds, truthy⟩
    rw [get_eq_of_finds finds, truthy]

theorem inherits_of_mem_lineage {q : ObjectId} (mem : q ∈ h.lineage o) : h.Inherits o q := by
  have go : ∀ bound o, q ∈ lineage.go h bound o → h.Inherits o q := by
    intro bound
    induction bound with
    | zero => exact fun o mem => absurd mem List.not_mem_nil
    | succ bound ih =>
      intro o mem
      rw [lineage.go] at mem
      split at mem
      · rw [List.mem_singleton] at mem
        exact mem ▸ .refl
      · rename_i p prototype
        obtain rfl | mem := List.mem_cons.1 mem
        · exact .refl
        · exact .head prototype (ih p mem)
  exact go _ o mem

/-- Two heaps differ in no more than one own property of one object. -/
structure SameBut (h h' : Heap) (o : ObjectId) (key : PropertyKey) : Prop where
  size : h'.objects.size = h.objects.size
  elsewhere : ∀ p, p ≠ o → h'.object p = h.object p
  others : ∀ k, k ≠ key → h'.own? o k = h.own? o k
  keys : (h'.object o).properties.keys = (h.object o).properties.keys ∨
    (h'.object o).properties.keys = (h.object o).properties.keys ++ [key]
  kind : (h'.object o).kind = (h.object o).kind
  name : (h'.object o).name = (h.object o).name
  prototype : (h'.object o).prototype = (h.object o).prototype
  extensible : (h'.object o).extensible = (h.object o).extensible
  behavior : (h'.object o).behavior = (h.object o).behavior

variable {v : Value}

theorem assign?_eq_some {record : Object} (accepted : (h.object o).assign? key v = some record) :
    ∃ property : Property, property.value = v ∧ record = (h.object o).define key property := by
  unfold Object.assign? at accepted
  split at accepted
  · split at accepted
    · cases accepted
      exact ⟨_, rfl, rfl⟩
    · cases accepted
  · split at accepted
    · cases accepted
      exact ⟨_, rfl, rfl⟩
    · cases accepted

theorem set_cases (h : Heap) (o : ObjectId) (key : PropertyKey) (v : Value) :
    h.set o key v = (false, h) ∨ ∃ property : Property, property.value = v ∧
      h.set o key v = (true, h.define o key property) := by
  rw [set]
  split
  · rename_i record accepted
    obtain ⟨property, value, rfl⟩ := assign?_eq_some accepted
    refine .inr ⟨property, value, Prod.ext rfl (congrArg Heap.mk ?_)⟩
    refine Array.ext (by simp) fun n below _ => ?_
    rw [Array.size_modify] at below
    rw [Array.getElem_modify, Array.getElem_modify]
    split
    · rename_i here
      subst here
      rw [object, Array.getElem?_eq_getElem below, Option.getD_some]
    · rfl
  · exact .inl rfl

theorem object_define (property : Property) : (h.define o key property).object p =
    if o = p ∧ o.index < h.objects.size then (h.object p).define key property else h.object p :=
  h.object_modify o p _

theorem sameBut_define (property : Property) : h.SameBut (h.define o key property) o key := by
  by_cases housed : o.index < h.objects.size
  · have there : (h.define o key property).object o = (h.object o).define key property := by
      rw [object_define, if_pos ⟨rfl, housed⟩]
    refine ⟨by simp [define, modify], fun p other => ?_, fun k other => ?_, ?_, ?_, ?_, ?_, ?_, ?_⟩
    · rw [object_define, if_neg fun same => other same.1.symm]
    · rw [own?, there]
      exact OrderedMap.get?_insert_of_ne _ _ other
    · rw [there, Object.define, OrderedMap.keys_insert]
      split
      · exact .inl rfl
      · exact .inr rfl
    all_goals rw [there, Object.define]
  · have there (p : ObjectId) : (h.define o key property).object p = h.object p := by
      rw [object_define, if_neg fun same => housed same.2]
    refine ⟨by simp [define, modify], fun p _ => there p, fun k _ => ?_, .inl ?_, ?_, ?_, ?_, ?_, ?_⟩
    all_goals simp only [own?, there]

theorem sameBut_set (h : Heap) (o : ObjectId) (key : PropertyKey) (v : Value) :
    h.SameBut (h.set o key v).2 o key := by
  obtain refused | ⟨property, -, accepted⟩ := h.set_cases o key v
  · rw [refused]
    exact ⟨rfl, fun _ _ => rfl, fun _ _ => rfl, .inl rfl, rfl, rfl, rfl, rfl, rfl⟩
  · rw [accepted]
    exact sameBut_define property

namespace SameBut

variable {h' : Heap}

theorem prototype_eq (same : h.SameBut h' o key) (p : ObjectId) :
    (h'.object p).prototype = (h.object p).prototype := by
  by_cases other : p = o
  · rw [other, same.prototype]
  · rw [same.elsewhere p other]

theorem lineage_eq (same : h.SameBut h' o key) (p : ObjectId) : h'.lineage p = h.lineage p := by
  have go : ∀ bound p, lineage.go h' bound p = lineage.go h bound p := by
    intro bound
    induction bound with
    | zero => exact fun _ => rfl
    | succ bound ih =>
      intro p
      simp only [lineage.go, same.prototype_eq, ih]
  rw [lineage, lineage, same.size, go]

theorem own?_eq (same : h.SameBut h' o key) {k : PropertyKey} (other : p ≠ o ∨ k ≠ key) :
    h'.own? p k = h.own? p k := by
  by_cases elsewhere : p = o
  · subst elsewhere
    exact same.others k (other.resolve_left fun no => no rfl)
  · rw [own?, own?, same.elsewhere p elsewhere]

theorem reads_eq (same : h.SameBut h' o key) {k : PropertyKey} (other : ¬ h.Inherits p o ∨ k ≠ key) :
    h'.get p k = h.get p k ∧ h'.has p k = h.has p k := by
  have own (q : ObjectId) (mem : q ∈ h.lineage p) : h'.own? q k = h.own? q k := by
    refine same.own?_eq (other.imp_left fun apart same => apart ?_)
    exact same ▸ inherits_of_mem_lineage mem
  have found : (h.lineage p).findSome? (fun q => h'.own? q k) =
      (h.lineage p).findSome? (fun q => h.own? q k) := by
    rw [← List.head?_filterMap, ← List.head?_filterMap, List.filterMap_congr own]
  constructor
  · rw [get, get, same.lineage_eq, found]
  · rw [has_eq_isSome, has_eq_isSome, same.lineage_eq, found]

theorem finds_of_finds (same : h.SameBut h' o key) (written : h'.own? o key = some property)
    {before : Property} (finds : h.Finds key p before) : ∃ after, h'.Finds key p after := by
  rw [← has_iff, has, same.lineage_eq, List.any_eq_true]
  have present := has_iff.2 ⟨before, finds⟩
  rw [has, List.any_eq_true] at present
  obtain ⟨q, mem, own⟩ := present
  refine ⟨q, mem, ?_⟩
  by_cases here : q = o
  · rw [here, written]
    rfl
  · rwa [same.own?_eq (.inl here)]

theorem finds_of_new (same : h.SameBut h' o key) (written : h'.own? o key = some property)
    (missing : ∀ before, ¬ h.Finds key p before) {after : Property} (finds : h'.Finds key p after) :
    after = property := by
  rw [← findSome?_lineage, List.findSome?_eq_some_iff] at finds
  obtain ⟨before, q, rest, lineage, own, -⟩ := finds
  have none : h.own? q key = none := by
    have absent : h.has p key = false := by
      rw [← Bool.not_eq_true, has_iff]
      exact not_exists.2 missing
    rw [has, ← same.lineage_eq, lineage, List.any_eq_false] at absent
    simpa using absent q (by simp)
  have here : q = o := by
    by_contra other
    rw [same.own?_eq (.inl other), none] at own
    cases own
  rw [here, written] at own
  exact (Option.some.inj own).symm

end SameBut

theorem own?_set_of_accepted (accepted : (h.set o key v).1 = true)
    (housed : o.index < h.objects.size) :
    ∃ property : Property, property.value = v ∧ (h.set o key v).2.own? o key = some property := by
  obtain refused | ⟨property, value, eq⟩ := h.set_cases o key v
  · rw [refused] at accepted
    cases accepted
  · refine ⟨property, value, ?_⟩
    rw [eq, own?, object_define, if_pos ⟨rfl, housed⟩]
    exact OrderedMap.get?_insert_self _ _ _

end WebBindings.Heap
