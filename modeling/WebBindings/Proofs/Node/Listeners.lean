import WebBindings.Node.Element
import Mathlib.Data.List.Nodup
/-!
# Lists of listeners

The listeners of an element stand in the order of their numbers, and no number is given twice. A
listener that runs the callback of a handler was made by that handler.
-/

namespace WebBindings

/-- The handler whose callback a listener runs. -/
def ListenerAction.handler? : ListenerAction → Option HandlerId
  | .runCallback (.handler h) _ => some h
  | _ => none

namespace Element

/-- The listeners that a handler made. -/
def madeBy (e : Element) (h : HandlerId) : List Listener :=
  e.listeners.filter fun l => l.action.handler? = some h

/-- Later listeners have greater numbers, and the next number is greater than all. -/
structure Orderly (e : Element) : Prop where
  ascending : e.listeners.Pairwise fun l k => l.id.number < k.id.number
  bounded : ∀ l ∈ e.listeners, l.id.number < e.nextListener

theorem mem_madeBy (e : Element) (h : HandlerId) (l : Listener) :
    l ∈ e.madeBy h ↔ l ∈ e.listeners ∧ l.action.handler? = some h := by
  simp [madeBy]

section Adding

variable (e : Element) (type : String) (action : ListenerAction) (h : HandlerId)

theorem addListener_listeners : (e.addListener type action).2.listeners =
    e.listeners ++ [⟨⟨e.nextListener⟩, type, action⟩] := rfl

theorem madeBy_addListener : (e.addListener type action).2.madeBy h = e.madeBy h ++
    if action.handler? = some h then [⟨⟨e.nextListener⟩, type, action⟩] else [] := by
  rw [madeBy, addListener_listeners, List.filter_append, ← madeBy, List.filter_cons]
  simp

end Adding

section Removing

variable (e : Element) (type : String) (id : ListenerId) (h : HandlerId)

theorem mem_removeListener (l : Listener) : l ∈ (e.removeListener type id).listeners ↔
    l ∈ e.listeners ∧ (l.id = id → l.type ≠ type) := by
  simp [removeListener, imp_iff_not_or]

theorem madeBy_removeListener : (e.removeListener type id).madeBy h =
    (e.madeBy h).filter fun l => !(l.id = id && l.type = type) := by
  simp only [madeBy, removeListener, List.filter_filter]
  exact List.filter_congr fun l _ => Bool.and_comm _ _

theorem madeBy_removeListener_of_foreign
    (foreign : ∀ l ∈ e.listeners, l.id = id → l.type = type → l.action.handler? ≠ some h) :
    (e.removeListener type id).madeBy h = e.madeBy h := by
  rw [madeBy_removeListener, List.filter_eq_self]
  intro l hl
  have hmade := (e.mem_madeBy h l).1 hl
  have hne := foreign l hmade.1
  by_cases hid : l.id = id
  · by_cases htype : l.type = type
    · exact absurd hmade.2 (hne hid htype)
    · simp [htype]
  · simp [hid]

end Removing

namespace Orderly

variable {e : Element}

theorem default : Orderly default := ⟨.nil, fun _ hl => absurd hl List.not_mem_nil⟩

theorem addListener (orderly : e.Orderly) (type : String) (action : ListenerAction) :
    (e.addListener type action).2.Orderly := by
  refine ⟨?_, ?_⟩
  · rw [addListener_listeners, List.pairwise_append]
    refine ⟨orderly.ascending, List.pairwise_singleton _ _, ?_⟩
    intro l hl k hk
    rw [List.mem_singleton.1 hk]
    exact orderly.bounded l hl
  · intro l hl
    rw [addListener_listeners, List.mem_append, List.mem_singleton] at hl
    change l.id.number < e.nextListener + 1
    cases hl with
    | inl hold => exact Nat.lt_succ_of_lt (orderly.bounded l hold)
    | inr hnew => rw [hnew]; exact Nat.lt_succ_self _

theorem removeListener (orderly : e.Orderly) (type : String) (id : ListenerId) :
    (e.removeListener type id).Orderly where
  ascending := orderly.ascending.sublist List.filter_sublist
  bounded l hl := orderly.bounded l ((e.mem_removeListener type id l).1 hl).1

theorem ids_nodup (orderly : e.Orderly) : (e.listeners.map Listener.id).Nodup := by
  rw [List.Nodup, List.pairwise_map]
  exact orderly.ascending.imp fun hlt heq =>
    Nat.ne_of_lt hlt (congrArg ListenerId.number heq)

theorem eq_of_id (orderly : e.Orderly) {l k : Listener} (hl : l ∈ e.listeners)
    (hk : k ∈ e.listeners) (same : l.id = k.id) : l = k :=
  List.inj_on_of_nodup_map orderly.ids_nodup hl hk same

theorem around (orderly : e.Orderly) {before after : List Listener} {l : Listener}
    (place : e.listeners = before ++ l :: after) :
    (∀ k ∈ before, k.id.number < l.id.number) ∧ ∀ k ∈ after, l.id.number < k.id.number := by
  have hascending := orderly.ascending
  rw [place, List.pairwise_append, List.pairwise_cons] at hascending
  obtain ⟨-, ⟨hafter, -⟩, hbefore⟩ := hascending
  exact ⟨fun k hk => hbefore k hk l List.mem_cons_self, hafter⟩

end Orderly

end Element

end WebBindings
