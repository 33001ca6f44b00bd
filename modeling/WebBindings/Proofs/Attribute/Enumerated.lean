import WebBindings.Attribute.Enumerated
import WebBindings.Proofs.Script.Lexing
import WebBindings.Proofs.Text.Letters
/-!
# Enumerated attributes

Options are accepted just if the spellings of keywords differ in more than the case of ASCII letters, from
each other and from further spellings, and if only keywords are referred to. A value then gives the keyword
that it spells, in one way or another.
-/

namespace WebBindings

theorem OrderedMap.contains_eq_false_iff {α : Type u} {β : Type v} [DecidableEq α] {m : OrderedMap α β}
    {k : α} : m.contains k = false ↔ m.get? k = none := by
  rw [contains, Option.isSome_eq_false_iff, Option.isNone_iff_eq_none]

namespace Enumerated

open Ascii (lower Variants)

/-- Options in which no spelling of a keyword is also another one, and which refer to nothing but keywords. -/
structure Valid (o : Options) : Prop where
  distinct : o.keywords.Pairwise fun k k' => ¬ Variants k k'
  apart : ∀ entry ∈ o.aliases, ∀ k ∈ o.keywords, ¬ Variants entry.1 k
  targets : ∀ entry ∈ o.aliases, entry.2 ∈ o.keywords
  missing : ∀ k, o.missing = some k → k ∈ o.keywords
  invalid : ∀ k, o.invalid = some k → k ∈ o.keywords

/-- What a value gives: the keyword that it spells; else the target of the last further spelling that it
spells; else the keyword of unknown values, if there is one. -/
structure Finds (o : Options) (s : String) (found : Option String) : Prop where
  keyword : ∀ k ∈ o.keywords, Variants s k → found = some k
  further : (∀ k ∈ o.keywords, ¬ Variants s k) → ∀ front back spelling target,
    o.aliases = front ++ (spelling, target) :: back → Variants s spelling →
    (∀ later ∈ back, ¬ Variants s later.1) → found = some target
  unknown : (∀ k ∈ o.keywords, ¬ Variants s k) → (∀ entry ∈ o.aliases, ¬ Variants s entry.1) →
    found = o.invalid

variable {o : Options} {e : Enumerated} {keywords front rest : List String} {key s k : String}
  {known known' : OrderedMap String Nat} {place : Nat}

/-- A table has the places of keywords under their spellings in lower case, and nothing else. -/
def Indexes (known : OrderedMap String Nat) (keywords : List String) : Prop :=
  ∀ key place, known.get? key = some place ↔ ∃ k, keywords[place]? = some k ∧ lower k = key

theorem indexes_empty : Indexes .empty [] := by
  intro key place
  constructor
  · intro found
    cases found
  · rintro ⟨k, hk, -⟩
    cases hk

theorem getElem?_append_singleton_eq_some_iff {k' : String} :
    (front ++ [k])[place]? = some k' ↔ front[place]? = some k' ∨ place = front.length ∧ k = k' := by
  rcases Nat.lt_trichotomy place front.length with less | here | more
  · rw [List.getElem?_append_left less]
    simp [Nat.ne_of_lt less]
  · subst here
    simp
  · rw [List.getElem?_eq_none (by simp; omega), List.getElem?_eq_none (Nat.le_of_lt more)]
    simp [Nat.ne_of_gt more]

namespace Indexes

theorem get?_eq_none_iff (indexes : Indexes known keywords) :
    known.get? key = none ↔ ∀ k ∈ keywords, lower k ≠ key := by
  rw [Option.eq_none_iff_forall_ne_some]
  constructor
  · intro none k mem same
    obtain ⟨place, bound, hk⟩ := List.getElem_of_mem mem
    exact none place ((indexes key place).2 ⟨k, List.getElem?_eq_some_iff.2 ⟨bound, hk⟩, same⟩)
  · intro other place found
    obtain ⟨k, hk, same⟩ := (indexes key place).1 found
    exact other k (List.mem_of_getElem? hk) same

theorem insert (indexes : Indexes known front) (new : known.get? (lower k) = none) :
    Indexes (known.insert (lower k) front.length) (front ++ [k]) := by
  intro key place
  simp only [getElem?_append_singleton_eq_some_iff]
  by_cases same : key = lower k
  · subst same
    rw [OrderedMap.get?_insert_self]
    constructor
    · intro here
      obtain rfl := Option.some.inj here
      exact ⟨k, .inr ⟨rfl, rfl⟩, rfl⟩
    · rintro ⟨k', hk' | ⟨rfl, -⟩, same⟩
      · exact absurd same (indexes.get?_eq_none_iff.1 new k' (List.mem_of_getElem? hk'))
      · rfl
  · rw [OrderedMap.get?_insert_of_ne _ _ same, indexes]
    constructor
    · rintro ⟨k', hk', hkey⟩
      exact ⟨k', .inl hk', hkey⟩
    · rintro ⟨k', hk' | ⟨-, rfl⟩, hkey⟩
      · exact ⟨k', hk', hkey⟩
      · exact absurd hkey.symm same

theorem addKeywords (indexes : Indexes known front)
    (added : Enumerated.addKeywords known front.length rest = .ok known') :
    Indexes known' (front ++ rest) := by
  induction rest generalizing known front with
  | nil =>
    obtain rfl := Except.ok.inj added
    rwa [List.append_nil]
  | cons k rest ih =>
    rw [Enumerated.addKeywords] at added
    split at added
    · cases added
    · rename_i new
      rw [Bool.not_eq_true, OrderedMap.contains_eq_false_iff] at new
      have step := indexes.insert new
      rw [List.append_cons]
      apply ih step
      rwa [List.length_append]

theorem exists_addKeywords_iff (indexes : Indexes known front) :
    (∃ known', Enumerated.addKeywords known front.length rest = .ok known') ↔
      (∀ k ∈ front, ∀ k' ∈ rest, lower k ≠ lower k') ∧
        rest.Pairwise fun k k' => lower k ≠ lower k' := by
  induction rest generalizing known front with
  | nil => simp [Enumerated.addKeywords]
  | cons k rest ih =>
    rw [Enumerated.addKeywords]
    by_cases new : known.get? (lower k) = none
    · have others := indexes.get?_eq_none_iff.1 new
      have step := ih (indexes.insert new)
      rw [List.length_append, List.length_singleton] at step
      rw [OrderedMap.contains_eq_false_iff.2 new, if_neg Bool.false_ne_true, step]
      simp only [List.forall_mem_append, List.forall_mem_singleton, List.forall_mem_cons,
        List.pairwise_cons]
      constructor
      · rintro ⟨⟨hfront, hk⟩, hrest⟩
        exact ⟨fun k' mem => ⟨others k' mem, hfront k' mem⟩, hk, hrest⟩
      · rintro ⟨hfront, hk, hrest⟩
        exact ⟨⟨fun k' mem => (hfront k' mem).2, hk⟩, hrest⟩
    · have old : known.contains (lower k) = true := by
        rwa [← Bool.not_eq_false, OrderedMap.contains_eq_false_iff]
      rw [old, if_pos rfl]
      constructor
      · rintro ⟨known', ⟨⟩⟩
      · rintro ⟨hfront, -⟩
        refine absurd (indexes.get?_eq_none_iff.2 ?_) new
        intro k' mem
        exact hfront k' mem k List.mem_cons_self

end Indexes

theorem idxOf?_of_mem (mem : k ∈ keywords) : keywords.idxOf? k = some (keywords.idxOf k) := by
  cases found : keywords.idxOf? k with
  | none => exact absurd mem (List.idxOf?_eq_none_iff.1 found)
  | some place => rw [List.idxOf_eq_getD_idxOf?, found, Option.getD_some]

theorem aliasPlaces_eq_ok_iff {aliases : List (String × String)} {places : List (String × Nat)} :
    aliasPlaces keywords known aliases = .ok places ↔
      (∀ entry ∈ aliases, known.get? (lower entry.1) = none ∧ entry.2 ∈ keywords) ∧
        places = aliases.map fun entry => (lower entry.1, keywords.idxOf entry.2) := by
  induction aliases generalizing places with
  | nil => simp [aliasPlaces, eq_comm]
  | cons entry rest ih =>
    obtain ⟨spelling, target⟩ := entry
    rw [aliasPlaces, List.forall_mem_cons, List.map_cons]
    by_cases proper : known.get? (lower spelling) = none ∧ target ∈ keywords
    · rw [OrderedMap.contains_eq_false_iff.2 proper.1, if_neg Bool.false_ne_true, idxOf?_of_mem proper.2]
      simp only [proper, and_self, true_and]
      rw [Script.bind_eq_ok_iff]
      constructor
      · rintro ⟨more, added, same⟩
        obtain ⟨all, rfl⟩ := ih.1 added
        exact ⟨all, (Except.ok.inj same).symm⟩
      · rintro ⟨all, rfl⟩
        exact ⟨_, ih.2 ⟨all, rfl⟩, rfl⟩
    · constructor
      · intro added
        split at added
        · cases added
        · rename_i new
          rw [Bool.not_eq_true, OrderedMap.contains_eq_false_iff] at new
          rw [List.idxOf?_eq_none_iff.2 fun mem => proper ⟨new, mem⟩] at added
          cases added
      · rintro ⟨⟨proper', -⟩, -⟩
        exact absurd proper' proper

theorem defaultPlace_eq_ok_iff {fault : String → Fault} {keyword : Option String} {place : Option Nat} :
    defaultPlace keywords fault keyword = .ok place ↔
      (∀ k, keyword = some k → k ∈ keywords) ∧ place = keyword.map keywords.idxOf := by
  cases keyword with
  | none => simp [defaultPlace, eq_comm]
  | some k =>
    by_cases mem : k ∈ keywords
    · simp [defaultPlace, idxOf?_of_mem mem, mem, eq_comm]
    · simp [defaultPlace, List.idxOf?_eq_none_iff.2 mem, mem]

theorem bind_place {keyword : Option String} (given : ∀ k, keyword = some k → k ∈ keywords) :
    ((keyword.map keywords.idxOf).bind fun place => keywords[place]?) = keyword := by
  cases keyword with
  | none => rfl
  | some k => exact List.getElem?_idxOf (given k rfl)

section Extending

variable {places back : List (String × Nat)}

theorem get?_extend_of_absent (absent : ∀ entry ∈ places, entry.1 ≠ key) :
    (extend known places).get? key = known.get? key := by
  induction places generalizing known with
  | nil => rfl
  | cons entry places ih =>
    rw [List.forall_mem_cons] at absent
    rw [extend, List.foldl_cons]
    exact (ih absent.2).trans (OrderedMap.get?_insert_of_ne _ _ (Ne.symm absent.1))

theorem get?_extend_of_last (last : ∀ entry ∈ back, entry.1 ≠ key) :
    (extend known (places ++ (key, place) :: back)).get? key = some place := by
  rw [extend, List.foldl_append, List.foldl_cons]
  exact (get?_extend_of_absent last).trans (OrderedMap.get?_insert_self _ _ _)

end Extending

theorem ofOptions?_eq_ok_iff :
    ofOptions? o = .ok e ↔ ∃ known, Enumerated.addKeywords .empty 0 o.keywords = .ok known ∧
      (∀ entry ∈ o.aliases, known.get? (lower entry.1) = none ∧ entry.2 ∈ o.keywords) ∧
      (∀ k, o.missing = some k → k ∈ o.keywords) ∧ (∀ k, o.invalid = some k → k ∈ o.keywords) ∧
      e = ⟨o.keywords,
        extend known (o.aliases.map fun entry => (lower entry.1, o.keywords.idxOf entry.2)),
        o.missing.map o.keywords.idxOf, o.invalid.map o.keywords.idxOf⟩ := by
  simp only [ofOptions?, Script.bind_eq_ok_iff, aliasPlaces_eq_ok_iff, defaultPlace_eq_ok_iff]
  constructor
  · rintro ⟨known, added, -, ⟨apart, rfl⟩, -, ⟨missing, rfl⟩, -, ⟨invalid, rfl⟩, same⟩
    exact ⟨known, added, apart, missing, invalid, (Except.ok.inj same).symm⟩
  · rintro ⟨known, added, apart, missing, invalid, rfl⟩
    exact ⟨known, added, _, ⟨apart, rfl⟩, _, ⟨missing, rfl⟩, _, ⟨invalid, rfl⟩, rfl⟩

theorem exists_ofOptions?_iff : (∃ e, ofOptions? o = .ok e) ↔ Valid o := by
  simp only [ofOptions?_eq_ok_iff]
  constructor
  · rintro ⟨e, known, added, apart, missing, invalid, -⟩
    have indexes := indexes_empty.addKeywords added
    obtain ⟨-, distinct⟩ := (indexes_empty.exists_addKeywords_iff).1 ⟨known, added⟩
    refine ⟨?_, ?_, fun entry mem => (apart entry mem).2, missing, invalid⟩
    · simpa only [ne_eq, Ascii.lower_eq_iff] using distinct
    · intro entry mem k hk variants
      exact indexes.get?_eq_none_iff.1 (apart entry mem).1 k hk (Ascii.lower_eq_iff.2 variants).symm
  · intro valid
    have distinct : o.keywords.Pairwise fun k k' => lower k ≠ lower k' := by
      simpa only [ne_eq, Ascii.lower_eq_iff] using valid.distinct
    obtain ⟨known, added⟩ := (indexes_empty.exists_addKeywords_iff).2 ⟨List.forall_mem_nil _, distinct⟩
    have indexes := indexes_empty.addKeywords added
    refine ⟨_, known, added, ?_, valid.missing, valid.invalid, rfl⟩
    intro entry mem
    refine ⟨indexes.get?_eq_none_iff.2 ?_, valid.targets entry mem⟩
    intro k hk same
    exact valid.apart entry mem k hk (Ascii.lower_eq_iff.1 same.symm)

theorem lookup_some (e : Enumerated) (s : String) :
    e.lookup (some s) = ((e.spellings.get? (lower s)).or e.invalid).bind fun place => e.keywords[place]? :=
  rfl

section Accepted

variable (accepted : ofOptions? o = .ok e)
include accepted

theorem keywords_eq : e.keywords = o.keywords := by
  obtain ⟨known, -, -, -, -, rfl⟩ := ofOptions?_eq_ok_iff.1 accepted
  rfl

theorem lookup_none : e.lookup none = o.missing := by
  obtain ⟨known, -, -, missing, -, rfl⟩ := ofOptions?_eq_ok_iff.1 accepted
  exact bind_place missing

theorem lookup_finds (s : String) : Finds o s (e.lookup (some s)) := by
  obtain ⟨known, added, apart, missing, invalid, rfl⟩ := ofOptions?_eq_ok_iff.1 accepted
  have indexes : Indexes known o.keywords := indexes_empty.addKeywords added
  have others (entries : List (String × String)) (other : ∀ entry ∈ entries, ¬ Variants s entry.1) :
      ∀ entry ∈ entries.map fun entry => (lower entry.1, o.keywords.idxOf entry.2),
        entry.1 ≠ lower s := by
    rw [List.forall_mem_map]
    intro entry mem same
    exact other entry mem (Ascii.lower_eq_iff.1 same.symm)
  refine ⟨?_, ?_, ?_⟩
  · intro k mem variants
    obtain ⟨place, bound, hk⟩ := List.getElem_of_mem mem
    have there : o.keywords[place]? = some k := List.getElem?_eq_some_iff.2 ⟨bound, hk⟩
    have found : known.get? (lower s) = some place :=
      (indexes _ _).2 ⟨k, there, (Ascii.lower_eq_iff.2 variants).symm⟩
    have other : ∀ entry ∈ o.aliases, ¬ Variants s entry.1 := by
      intro entry hentry variants'
      have none := (apart entry hentry).1
      rw [← Ascii.lower_eq_iff.2 variants', found] at none
      cases none
    rw [lookup_some, get?_extend_of_absent (others _ other), found]
    exact there
  · intro unknown front back spelling target split variants last
    have mem : (spelling, target) ∈ o.aliases := by simp [split]
    rw [lookup_some, split, List.map_append, List.map_cons, ← Ascii.lower_eq_iff.2 variants,
      get?_extend_of_last (others back last)]
    exact List.getElem?_idxOf (apart _ mem).2
  · intro unknown other
    have none : known.get? (lower s) = none := by
      rw [indexes.get?_eq_none_iff]
      intro k mem same
      exact unknown k mem (Ascii.lower_eq_iff.1 same.symm)
    rw [lookup_some, get?_extend_of_absent (others _ other), none, Option.none_or]
    exact bind_place invalid

end Accepted

theorem mem_of_lookup {text : Option String} (found : e.lookup text = some k) : k ∈ e.keywords := by
  simp only [lookup, Option.bind_eq_some_iff] at found
  obtain ⟨place, -, there⟩ := found
  exact List.mem_of_getElem? there

theorem lookup_congr {t : String} (variants : Variants s t) : e.lookup (some s) = e.lookup (some t) := by
  rw [lookup_some, lookup_some, Ascii.lower_eq_iff.2 variants]

section Refused

variable {fault : Fault} {aliases : List (String × String)}

/-- What a fault says about the options that are refused with it. -/
def Fault.Explains (o : Options) : Fault → Prop
  | .duplicateKeyword k => ∃ front back, o.keywords = front ++ k :: back ∧ ∃ k' ∈ front, Variants k k'
  | .aliasIsKeyword spelling =>
    (∃ target, (spelling, target) ∈ o.aliases) ∧ ∃ k ∈ o.keywords, Variants spelling k
  | .unknownTarget spelling target => (spelling, target) ∈ o.aliases ∧ target ∉ o.keywords
  | .unknownMissing k => o.missing = some k ∧ k ∉ o.keywords
  | .unknownInvalid k => o.invalid = some k ∧ k ∉ o.keywords

theorem bind_eq_error_iff {ε α β : Type} {x : Except ε α} {f : α → Except ε β} {fault : ε} :
    x >>= f = .error fault ↔ x = .error fault ∨ ∃ a, x = .ok a ∧ f a = .error fault := by
  cases x with
  | error other => simp [bind, Except.bind]
  | ok a => simp [bind, Except.bind]

theorem Indexes.exists_variant (indexes : Indexes known keywords)
    (there : known.contains (lower s) = true) : ∃ k ∈ keywords, Variants s k := by
  obtain ⟨place, found⟩ := Option.isSome_iff_exists.1 there
  obtain ⟨k, hk, same⟩ := (indexes _ _).1 found
  exact ⟨k, List.mem_of_getElem? hk, Ascii.lower_eq_iff.1 same.symm⟩

theorem addKeywords_error (indexes : Indexes known front)
    (refused : addKeywords known front.length rest = .error fault) :
    ∃ k added back, rest = added ++ k :: back ∧ fault = .duplicateKeyword k ∧
      ∃ k' ∈ front ++ added, Variants k k' := by
  induction rest generalizing known front with
  | nil => cases refused
  | cons k rest ih =>
    rw [addKeywords] at refused
    split at refused
    · rename_i there
      obtain rfl := Except.error.inj refused
      refine ⟨k, [], rest, rfl, rfl, ?_⟩
      rw [List.append_nil]
      exact indexes.exists_variant there
    · rename_i new
      rw [Bool.not_eq_true, OrderedMap.contains_eq_false_iff] at new
      have refused' : addKeywords (known.insert (lower k) front.length) (front ++ [k]).length rest =
          .error fault := by
        rwa [List.length_append]
      obtain ⟨k', added, back, rfl, named, earlier⟩ := ih (indexes.insert new) refused'
      rw [← List.append_cons] at earlier
      exact ⟨k', k :: added, back, rfl, named, earlier⟩

theorem aliasPlaces_error (indexes : Indexes known keywords)
    (refused : aliasPlaces keywords known aliases = .error fault) :
    ∃ spelling target, (spelling, target) ∈ aliases ∧
      ((fault = .aliasIsKeyword spelling ∧ ∃ k ∈ keywords, Variants spelling k) ∨
        (fault = .unknownTarget spelling target ∧ target ∉ keywords)) := by
  induction aliases with
  | nil => cases refused
  | cons entry rest ih =>
    obtain ⟨spelling, target⟩ := entry
    rw [aliasPlaces] at refused
    split at refused
    · rename_i there
      obtain rfl := Except.error.inj refused
      exact ⟨spelling, target, List.mem_cons_self, .inl ⟨rfl, indexes.exists_variant there⟩⟩
    · split at refused
      · rename_i absent
        obtain rfl := Except.error.inj refused
        exact ⟨spelling, target, List.mem_cons_self, .inr ⟨rfl, List.idxOf?_eq_none_iff.1 absent⟩⟩
      · rcases bind_eq_error_iff.1 refused with refused' | ⟨more, -, ⟨⟩⟩
        obtain ⟨spelling', target', mem, explained⟩ := ih refused'
        exact ⟨spelling', target', List.mem_cons_of_mem _ mem, explained⟩

theorem defaultPlace_error {named : String → Fault} {keyword : Option String}
    (refused : defaultPlace keywords named keyword = .error fault) :
    ∃ k, keyword = some k ∧ fault = named k ∧ k ∉ keywords := by
  cases keyword with
  | none => cases refused
  | some k =>
    rw [defaultPlace] at refused
    split at refused
    · rename_i absent
      exact ⟨k, rfl, (Except.error.inj refused).symm, List.idxOf?_eq_none_iff.1 absent⟩
    · cases refused

/-- Options are refused with a fault that holds of them. -/
theorem fault_explains (refused : ofOptions? o = .error fault) : fault.Explains o := by
  rcases bind_eq_error_iff.1 refused with refused | ⟨known, added, refused⟩
  · obtain ⟨k, front, back, split, rfl, earlier⟩ := addKeywords_error indexes_empty refused
    exact ⟨front, back, split, earlier⟩
  have indexes : Indexes known o.keywords := indexes_empty.addKeywords added
  rcases bind_eq_error_iff.1 refused with refused | ⟨places, -, refused⟩
  · obtain ⟨spelling, target, mem, ⟨rfl, collides⟩ | ⟨rfl, absent⟩⟩ := aliasPlaces_error indexes refused
    · exact ⟨⟨target, mem⟩, collides⟩
    · exact ⟨mem, absent⟩
  rcases bind_eq_error_iff.1 refused with refused | ⟨missing, -, refused⟩
  · obtain ⟨k, set, rfl, absent⟩ := defaultPlace_error refused
    exact ⟨set, absent⟩
  rcases bind_eq_error_iff.1 refused with refused | ⟨invalid, -, ⟨⟩⟩
  obtain ⟨k, set, rfl, absent⟩ := defaultPlace_error refused
  exact ⟨set, absent⟩

end Refused

end Enumerated

/-- Options are accepted just if they are valid. A value then gives the keyword that it spells, directly or by
the last further spelling, or that of unknown values, and an absent attribute gives the one that is set for
it. Only keywords are given, the case of ASCII letters does not matter, and a keyword that is given gives
itself. A character outside ASCII is the same letter as none but itself. -/
theorem enumerated_values_are_canonical (o : Enumerated.Options) :
    ((∃ e, Enumerated.ofOptions? o = .ok e) ↔ Enumerated.Valid o) ∧
      ∀ e, Enumerated.ofOptions? o = .ok e →
        e.keywords = o.keywords ∧
        (∀ s, Enumerated.Finds o s (e.lookup (some s))) ∧
        e.lookup none = o.missing ∧
        (∀ text k, e.lookup text = some k → k ∈ e.keywords) ∧
        (∀ s t, Ascii.Variants s t → e.lookup (some s) = e.lookup (some t)) ∧
        (∀ c d, Ascii.SameLetter c d → 128 ≤ c.toNat → c = d) ∧
        ∀ s k, e.lookup (some s) = some k → e.lookup (some k) = some k := by
  refine ⟨Enumerated.exists_ofOptions?_iff, ?_⟩
  intro e accepted
  refine ⟨Enumerated.keywords_eq accepted, Enumerated.lookup_finds accepted,
    Enumerated.lookup_none accepted, fun text k => Enumerated.mem_of_lookup,
    fun s t => Enumerated.lookup_congr, fun c d => Ascii.SameLetter.eq_of_large, ?_⟩
  intro s k found
  have mem : k ∈ o.keywords := Enumerated.keywords_eq accepted ▸ Enumerated.mem_of_lookup found
  exact (Enumerated.lookup_finds accepted k).keyword k mem (Ascii.lower_eq_iff.1 rfl)

/-- Of two further spellings that are the same, the last one counts. A letter outside ASCII in the other case
is unknown. -/
theorem last_spelling_counts :
    let o : Enumerated.Options :=
      ⟨["on", "off"], [("\u00c9", "off"), ("oui", "on"), ("OUI", "off")], none, some "on"⟩
    ∃ e, Enumerated.ofOptions? o = .ok e ∧ e.lookup (some "Oui") = some "off" ∧
      e.lookup (some "oN") = some "on" ∧ e.lookup (some "\u00e9") = some "on" := by
  intro o
  obtain ⟨accepted_iff, canonical⟩ := enumerated_values_are_canonical o
  have invalid : ∀ k, o.invalid = some k → k ∈ o.keywords := by
    rintro k ⟨⟩
    decide
  have valid : Enumerated.Valid o :=
    ⟨by decide +kernel, by decide +kernel, by decide +kernel, nofun, invalid⟩
  obtain ⟨e, accepted⟩ := accepted_iff.2 valid
  obtain ⟨-, finds, -⟩ := canonical e accepted
  refine ⟨e, accepted, ?_, ?_, ?_⟩
  · exact (finds "Oui").further (by decide +kernel) [("\u00c9", "off"), ("oui", "on")] [] "OUI" "off" rfl
      (by decide +kernel) (List.forall_mem_nil _)
  · exact (finds "oN").keyword "on" (by decide) (by decide +kernel)
  · exact (finds "\u00e9").unknown (by decide +kernel) (by decide +kernel)

end WebBindings
