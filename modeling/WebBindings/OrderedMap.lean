/-!
# Ordered maps

Finite maps that remember the order in which their keys were first given. Writing a key again
replaces the value where it stands, and erasing a key closes the gap.
-/

namespace WebBindings

/-- Pairs in order of first insertion, no key twice. -/
structure OrderedMap (α : Type u) (β : Type v) where
  entries : List (α × β)
  nodup : (entries.map Prod.fst).Nodup
deriving DecidableEq

namespace OrderedMap

variable {α : Type u} {β : Type v}

def empty : OrderedMap α β := ⟨[], .nil⟩

instance : Inhabited (OrderedMap α β) := ⟨empty⟩

def keys (m : OrderedMap α β) : List α := m.entries.map Prod.fst

def values (m : OrderedMap α β) : List β := m.entries.map Prod.snd

def size (m : OrderedMap α β) : Nat := m.entries.length

theorem keys_nodup (m : OrderedMap α β) : m.keys.Nodup := m.nodup

def mapValues (m : OrderedMap α β) (f : β → β) : OrderedMap α β :=
  ⟨m.entries.map fun e => (e.1, f e.2), by simpa [Function.comp_def] using m.nodup⟩

variable [DecidableEq α]

def get? (m : OrderedMap α β) (k : α) : Option β :=
  (m.entries.find? fun e => e.1 = k).map Prod.snd

def contains (m : OrderedMap α β) (k : α) : Bool := (m.get? k).isSome

private def replace (entries : List (α × β)) (k : α) (v : β) : List (α × β) :=
  entries.map fun e => if e.1 = k then (k, v) else e

private theorem replace_keys (entries : List (α × β)) (k : α) (v : β) :
    (replace entries k v).map Prod.fst = entries.map Prod.fst := by
  induction entries with
  | nil => rfl
  | cons e rest ih =>
    have hhead : (if e.1 = k then (k, v) else e).1 = e.1 := by split <;> simp_all
    simp only [replace, List.map_cons, hhead] at ih ⊢
    rw [ih]

/-- Write a key: a known key keeps its place, a new one goes last. -/
def insert (m : OrderedMap α β) (k : α) (v : β) : OrderedMap α β :=
  if h : k ∈ m.entries.map Prod.fst then
    ⟨replace m.entries k v, by rw [replace_keys]; exact m.nodup⟩
  else
    ⟨m.entries ++ [(k, v)], by
      rw [List.map_append, List.nodup_append]
      refine ⟨m.nodup, by simp, ?_⟩
      intro a ha b hb hab
      simp only [List.map_cons, List.map_nil, List.mem_singleton] at hb
      exact h (hb ▸ hab ▸ ha)⟩

def erase (m : OrderedMap α β) (k : α) : OrderedMap α β :=
  ⟨m.entries.filter fun e => e.1 ≠ k,
    (List.Sublist.map Prod.fst List.filter_sublist).nodup m.nodup⟩

def ofList (pairs : List (α × β)) : OrderedMap α β :=
  pairs.foldl (fun m e => m.insert e.1 e.2) empty

theorem keys_insert (m : OrderedMap α β) (k : α) (v : β) :
    (m.insert k v).keys = if k ∈ m.keys then m.keys else m.keys ++ [k] := by
  unfold insert keys
  by_cases h : k ∈ m.entries.map Prod.fst
  · simp only [dif_pos h, if_pos h]
    exact replace_keys m.entries k v
  · simp [h]

theorem get?_insert_self (m : OrderedMap α β) (k : α) (v : β) :
    (m.insert k v).get? k = some v := by
  unfold insert get?
  by_cases h : k ∈ m.entries.map Prod.fst
  · simp only [dif_pos h]
    have hfound : ∀ entries : List (α × β), k ∈ entries.map Prod.fst →
        (replace entries k v).find? (fun e => e.1 = k) = some (k, v) := by
      intro entries
      induction entries with
      | nil => simp
      | cons e rest ih =>
        intro hmem
        by_cases he : e.1 = k
        · simp [replace, he]
        · have hrest : k ∈ rest.map Prod.fst := by
            simp only [List.map_cons, List.mem_cons] at hmem
            exact hmem.resolve_left fun hk => he hk.symm
          simpa [replace, he] using ih hrest
    rw [hfound m.entries h]
    rfl
  · have hnone : m.entries.find? (fun e => decide (e.1 = k)) = none := by
      rw [List.find?_eq_none]
      intro e he
      simp only [decide_eq_true_eq]
      exact fun hk => h (List.mem_map.2 ⟨e, he, hk⟩)
    simp [dif_neg h, List.find?_append, hnone]

theorem get?_insert_of_ne (m : OrderedMap α β) {k j : α} (v : β) (hne : j ≠ k) :
    (m.insert k v).get? j = m.get? j := by
  unfold insert get?
  by_cases h : k ∈ m.entries.map Prod.fst
  · simp only [dif_pos h]
    have hsame : ∀ entries : List (α × β),
        (replace entries k v).find? (fun e => e.1 = j) = entries.find? (fun e => e.1 = j) := by
      intro entries
      induction entries with
      | nil => rfl
      | cons e rest ih =>
        by_cases he : e.1 = k
        · have hej : e.1 ≠ j := fun hj => hne (hj.symm.trans he)
          have hkj : k ≠ j := fun hk => hne hk.symm
          simpa [replace, he, hkj, hej] using ih
        · have hcons : replace (e :: rest) k v = e :: replace rest k v := by simp [replace, he]
          rw [hcons, List.find?_cons, List.find?_cons, ih]
    rw [hsame]
  · have hkj : k ≠ j := fun hk => hne hk.symm
    simp [dif_neg h, List.find?_append, hkj]

theorem get?_erase_self (m : OrderedMap α β) (k : α) : (m.erase k).get? k = none := by
  simp [erase, get?, List.find?_filter]

theorem get?_erase_of_ne (m : OrderedMap α β) {k j : α} (hne : j ≠ k) :
    (m.erase k).get? j = m.get? j := by
  unfold erase get?
  rw [List.find?_filter]
  congr 2
  funext e
  by_cases he : e.1 = j
  · simp [he, hne]
  · simp [he]

theorem erase_of_absent {m : OrderedMap α β} {k : α} (absent : m.get? k = none) : m.erase k = m := by
  obtain ⟨entries, nodup⟩ := m
  have missing : ∀ e ∈ entries, (decide (e.1 ≠ k)) = true := by simpa [get?] using absent
  simp only [erase, List.filter_eq_self.2 missing]

theorem erase_erase (m : OrderedMap α β) (k : α) : (m.erase k).erase k = m.erase k := by
  simp [erase, List.filter_filter]

theorem erase_insert (m : OrderedMap α β) (k : α) (v : β) : (m.insert k v).erase k = m.erase k := by
  unfold insert erase
  by_cases h : k ∈ m.entries.map Prod.fst
  · have hsame : ∀ entries : List (α × β),
        (replace entries k v).filter (fun e => e.1 ≠ k) = entries.filter (fun e => e.1 ≠ k) := by
      intro entries
      induction entries with
      | nil => rfl
      | cons e rest ih =>
        by_cases he : e.1 = k
        · simpa [replace, he] using ih
        · simpa [replace, he] using ih
    simp only [dif_pos h, hsame]
  · simp [dif_neg h]

end OrderedMap

end WebBindings
