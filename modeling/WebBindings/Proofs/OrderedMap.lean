import Mathlib.Data.List.Basic
import WebBindings.OrderedMap
/-!
# What ordered maps remember

The keys and values of a map, told by what was written to it: keys stand in the order in which they were
first written, and each has the value that was written last.
-/

namespace WebBindings.OrderedMap

variable {α : Type u} {β : Type v} {m : OrderedMap α β} {k : α} {v : β} {written : List α}
  {pairs : List (α × β)}

theorem keys_mapValues (m : OrderedMap α β) (f : β → β) : (m.mapValues f).keys = m.keys := by
  simp [keys, mapValues]

variable [DecidableEq α]

theorem mem_keys : k ∈ m.keys ↔ ∃ v, m.get? k = some v := by
  rw [← Option.isSome_iff_exists, get?, Option.isSome_map, List.find?_isSome, keys]
  simp

theorem get?_mapValues (m : OrderedMap α β) (f : β → β) (k : α) :
    (m.mapValues f).get? k = (m.get? k).map f := by
  rw [get?, get?, mapValues, List.find?_map, Option.map_map, Option.map_map]
  rfl

/-- The keys of a map are those of a list, in the order of their first places in it. -/
structure KeysFrom (m : OrderedMap α β) (written : List α) : Prop where
  mem : ∀ k, k ∈ m.keys ↔ k ∈ written
  ordered : m.keys.Pairwise fun a b => written.idxOf a < written.idxOf b

namespace KeysFrom

theorem self (m : OrderedMap α β) : m.KeysFrom m.keys where
  mem _ := Iff.rfl
  ordered := by
    rw [List.pairwise_iff_getElem]
    intro i j hi hj less
    rwa [List.Nodup.idxOf_getElem m.keys_nodup, List.Nodup.idxOf_getElem m.keys_nodup]

theorem of_keys {β' : Type v'} {m' : OrderedMap α β'} (given : m.KeysFrom written)
    (same : m'.keys = m.keys) : m'.KeysFrom written := by
  obtain ⟨mem, ordered⟩ := given
  rw [← same] at mem ordered
  exact ⟨mem, ordered⟩

theorem ordered_append (given : m.KeysFrom written) (more : List α) :
    m.keys.Pairwise fun a b => (written ++ more).idxOf a < (written ++ more).idxOf b := by
  refine given.ordered.imp_of_mem fun ha hb less => ?_
  rwa [List.idxOf_append_of_mem ((given.mem _).1 ha), List.idxOf_append_of_mem ((given.mem _).1 hb)]

theorem again (given : m.KeysFrom written) (known : k ∈ written) : m.KeysFrom (written ++ [k]) where
  mem j := by
    rw [given.mem, List.mem_append, List.mem_singleton]
    exact ⟨.inl, fun mem => mem.elim id fun same => same ▸ known⟩
  ordered := given.ordered_append [k]

theorem insert_known (given : m.KeysFrom written) (known : k ∈ written) (v : β) :
    (m.insert k v).KeysFrom written := by
  refine given.of_keys ?_
  rw [keys_insert, if_pos ((given.mem k).2 known)]

theorem insert (given : m.KeysFrom written) (k : α) (v : β) :
    (m.insert k v).KeysFrom (written ++ [k]) := by
  by_cases known : k ∈ written
  · exact (given.insert_known known v).again known
  · have fresh : k ∉ m.keys := fun mem => known ((given.mem k).1 mem)
    have keys : (m.insert k v).keys = m.keys ++ [k] := by rw [keys_insert, if_neg fresh]
    refine ⟨fun j => ?_, ?_⟩
    · rw [keys, List.mem_append, List.mem_append, given.mem]
    · rw [keys, List.pairwise_append]
      refine ⟨given.ordered_append [k], List.pairwise_singleton _ _, fun a ha b hb => ?_⟩
      rw [List.mem_singleton] at hb
      subst hb
      have old := (given.mem a).1 ha
      rw [List.idxOf_append_of_mem old, List.idxOf_append_of_notMem known]
      exact Nat.lt_of_lt_of_le (List.idxOf_lt_length_iff.2 old) (Nat.le_add_right _ _)

end KeysFrom

/-- A map remembers the first place of each key among pairs, and the value of its last one. -/
structure Remembers (m : OrderedMap α β) (pairs : List (α × β)) : Prop where
  keys : m.KeysFrom (pairs.map Prod.fst)
  last : ∀ before k v after, pairs = before ++ (k, v) :: after → k ∉ after.map Prod.fst → m.get? k = some v

namespace Remembers

theorem empty : (OrderedMap.empty : OrderedMap α β).Remembers [] where
  keys := ⟨fun _ => Iff.rfl, .nil⟩
  last before k v after split := by simp at split

theorem insert (given : m.Remembers pairs) (k : α) (v : β) :
    (m.insert k v).Remembers (pairs ++ [(k, v)]) where
  keys := by
    rw [List.map_append]
    exact given.keys.insert k v
  last before j x after split absent := by
    obtain rfl | ⟨front, last, rfl⟩ := List.eq_nil_or_concat after
    · obtain ⟨-, pair⟩ := List.append_inj' split rfl
      obtain ⟨rfl, rfl⟩ := Prod.mk.inj (List.cons.inj pair).1
      exact m.get?_insert_self k v
    · rw [List.concat_eq_append] at split absent
      have cut : pairs ++ [(k, v)] = (before ++ (j, x) :: front) ++ [last] := by simp [split]
      obtain ⟨here, pair⟩ := List.append_inj' cut rfl
      obtain rfl := (List.cons.inj pair).1
      rw [List.map_append, List.mem_append, not_or] at absent
      have other : j ≠ k := fun same => absent.2 (by simp [same])
      rw [m.get?_insert_of_ne v other]
      exact given.last before j x front here absent.1

theorem foldl_insert (given : m.Remembers pairs) (more : List (α × β)) :
    (more.foldl (fun m e => m.insert e.1 e.2) m).Remembers (pairs ++ more) := by
  induction more generalizing m pairs with
  | nil => rwa [List.append_nil]
  | cons e more ih =>
    have later := ih (given.insert e.1 e.2)
    rwa [List.append_assoc] at later

end Remembers

theorem remembers_ofList (pairs : List (α × β)) : (ofList pairs).Remembers pairs :=
  Remembers.empty.foldl_insert pairs

theorem get?_ofList (nodup : (pairs.map Prod.fst).Nodup) :
    (ofList pairs).get? k = some v ↔ (k, v) ∈ pairs := by
  have remembers := remembers_ofList pairs
  have found {w : β} (mem : (k, w) ∈ pairs) : (ofList pairs).get? k = some w := by
    obtain ⟨before, after, rfl⟩ := List.append_of_mem mem
    rw [List.map_append, List.map_cons, List.nodup_append, List.nodup_cons] at nodup
    exact remembers.last before k w after rfl nodup.2.1.1
  refine ⟨fun got => ?_, found⟩
  have key : k ∈ pairs.map Prod.fst := (remembers.keys.mem k).1 (mem_keys.2 ⟨v, got⟩)
  obtain ⟨⟨_, w⟩, mem, rfl⟩ := List.mem_map.1 key
  rw [found mem] at got
  exact Option.some.inj got ▸ mem

end WebBindings.OrderedMap
