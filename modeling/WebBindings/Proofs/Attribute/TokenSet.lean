import Mathlib.Data.List.TakeWhile
import WebBindings.Attribute.TokenSet
/-!
# Token sets as text

Token sets written with single spaces are read back as they were. The operations on token sets are those
on lists without duplicates.
-/

namespace WebBindings

namespace Ascii

variable {p : Char → Bool} {piece rest : List Char}

theorem splitOn_eq_singleton (free : ∀ c ∈ piece, p c = false) : splitOn p piece = [piece] := by
  induction piece with
  | nil => rfl
  | cons c cs ih =>
    rw [List.forall_mem_cons] at free
    simp only [splitOn, free.1, Bool.false_eq_true, if_false]
    rw [ih free.2]

theorem splitOn_append_cons {c : Char} (free : ∀ c ∈ piece, p c = false) (cut : p c = true) :
    splitOn p (piece ++ c :: rest) = piece :: splitOn p rest := by
  induction piece with
  | nil =>
    rw [List.nil_append, splitOn, if_pos cut]
  | cons d ds ih =>
    rw [List.forall_mem_cons] at free
    simp only [List.cons_append, splitOn, free.1, Bool.false_eq_true, if_false]
    rw [ih free.2]

theorem splitOn_free {cs : List Char} (mem : piece ∈ splitOn p cs) : ∀ c ∈ piece, p c = false := by
  induction cs generalizing piece with
  | nil =>
    obtain rfl := List.mem_singleton.1 mem
    exact nofun
  | cons c cs ih =>
    rw [splitOn] at mem
    by_cases cut : p c = true
    · rw [if_pos cut] at mem
      rcases List.mem_cons.1 mem with rfl | later
      · exact nofun
      · exact ih later
    · rw [if_neg cut] at mem
      have hc : p c = false := by simpa using cut
      cases hsplit : splitOn p cs with
      | nil =>
        rw [hsplit] at mem
        obtain rfl := List.mem_singleton.1 mem
        simpa using hc
      | cons first others =>
        rw [hsplit] at mem ih
        rcases List.mem_cons.1 mem with rfl | later
        · rw [List.forall_mem_cons]
          exact ⟨hc, ih List.mem_cons_self⟩
        · exact ih (List.mem_cons_of_mem _ later)

end Ascii

/-- A text that can stand between white space. -/
def IsToken (t : String) : Prop := t ≠ "" ∧ ∀ c ∈ t.toList, Ascii.isWhitespace c = false

instance (t : String) : Decidable (IsToken t) :=
  decidable_of_iff (t ≠ "" ∧ t.toList.any Ascii.isWhitespace = false) (by simp [IsToken])

theorem isToken_of_mem_runs {t text : String} (mem : t ∈ Ascii.runs Ascii.isWhitespace text) :
    IsToken t := by
  obtain ⟨piece, hpiece, rfl⟩ := List.mem_map.1 mem
  obtain ⟨hsplit, hsome⟩ := List.mem_filter.1 hpiece
  constructor
  · intro empty
    have : piece = [] := by simpa using congrArg String.toList empty
    simp [this] at hsome
  · simpa using Ascii.splitOn_free hsplit

theorem runs_intercalate {ts : List String} (tokens : ∀ t ∈ ts, IsToken t) :
    Ascii.runs Ascii.isWhitespace (" ".intercalate ts) = ts := by
  induction ts with
  | nil => rfl
  | cons t rest ih =>
    rw [List.forall_mem_cons] at tokens
    obtain ⟨⟨hsome, free⟩, others⟩ := tokens
    have kept : t.toList.isEmpty = false := by simpa using hsome
    cases rest with
    | nil =>
      rw [String.intercalate_singleton, Ascii.runs, Ascii.splitOn_eq_singleton free]
      simp [kept]
    | cons u us =>
      have htext : (" ".intercalate (t :: u :: us)).toList =
          t.toList ++ ' ' :: (" ".intercalate (u :: us)).toList := by
        rw [String.intercalate_cons_cons, String.toList_append, String.toList_append,
          List.append_assoc]
        rfl
      rw [Ascii.runs, htext, Ascii.splitOn_append_cons free rfl, List.filter_cons, kept]
      simp only [Bool.not_false, if_true, List.map_cons, String.ofList_toList]
      exact congrArg (t :: ·) (ih others)

namespace OrderedSet

def append (s : List String) (t : String) : List String := if t ∈ s then s else s ++ [t]

/-- The distinct tokens of a text, in the order in which they first occur. -/
def ofText (text : String) : List String := (Ascii.runs Ascii.isWhitespace text).foldl append []

/-- Put a token in the place of the first of two, and leave both out behind it. -/
def replace (old new : String) (s : List String) : List String :=
  s.takeWhile (fun u => u ≠ old ∧ u ≠ new) ++
    new :: (s.dropWhile fun u => u ≠ old ∧ u ≠ new).filter fun u => u ≠ old ∧ u ≠ new

theorem mem_append {s : List String} {t u : String} : u ∈ append s t ↔ u ∈ s ∨ u = t := by
  rw [append]
  split
  · rename_i old
    exact ⟨.inl, fun mem => mem.elim id fun same => same ▸ old⟩
  · simp

theorem mem_foldl_append {s ts : List String} {u : String} :
    u ∈ ts.foldl append s ↔ u ∈ s ∨ u ∈ ts := by
  induction ts generalizing s with
  | nil => simp
  | cons t rest ih => rw [List.foldl_cons, ih, mem_append, or_assoc, List.mem_cons]

theorem foldl_append_of_nodup {s ts : List String} (distinct : (s ++ ts).Nodup) :
    ts.foldl append s = s ++ ts := by
  induction ts generalizing s with
  | nil => simp
  | cons t rest ih =>
    have fresh : t ∉ s := by
      intro mem
      exact (List.nodup_append.1 distinct).2.2 t mem t List.mem_cons_self rfl
    rw [List.foldl_cons, append, if_neg fresh, ih]
    · simp
    · simpa using distinct

theorem isToken_of_mem_ofText {t text : String} (mem : t ∈ ofText text) : IsToken t :=
  isToken_of_mem_runs ((mem_foldl_append.1 mem).resolve_left List.not_mem_nil)

theorem mem_replace {old new u : String} {s : List String} (mem : u ∈ replace old new s) :
    u ∈ s ∨ u = new := by
  rw [replace, List.mem_append, List.mem_cons] at mem
  rcases mem with before | rfl | behind
  · exact .inl (List.takeWhile_subset _ before)
  · exact .inr rfl
  · exact .inl (List.dropWhile_subset _ (List.mem_filter.1 behind).1)

end OrderedSet

namespace TokenSet

theorem add_tokens (s : TokenSet) (t : String) : (s.add t).tokens = OrderedSet.append s.tokens t := by
  rw [add, OrderedSet.append]
  split <;> rfl

theorem foldl_add_tokens (ts : List String) (s : TokenSet) :
    (ts.foldl add s).tokens = ts.foldl OrderedSet.append s.tokens := by
  induction ts generalizing s with
  | nil => rfl
  | cons t rest ih => rw [List.foldl_cons, List.foldl_cons, ih, add_tokens]

theorem ofText_tokens (text : String) : (ofText text).tokens = OrderedSet.ofText text :=
  foldl_add_tokens _ _

theorem ofText_text {s : TokenSet} (tokens : ∀ t ∈ s.tokens, IsToken t) :
    (ofText s.text).tokens = s.tokens := by
  rw [ofText_tokens, OrderedSet.ofText, text, runs_intercalate tokens]
  exact OrderedSet.foldl_append_of_nodup s.nodup

theorem remove_tokens (s : TokenSet) (gone : List String) :
    (s.remove gone).tokens = s.tokens.filter (· ∉ gone) := by
  simp [remove]

theorem replaceFirst_eq {old new : String} {ts : List String} (present : old ∈ ts) :
    replaceFirst old new ts = OrderedSet.replace old new ts := by
  induction ts with
  | nil => cases present
  | cons t rest ih =>
    rw [replaceFirst]
    by_cases here : t = old ∨ t = new
    · have hit : ¬ (t ≠ old ∧ t ≠ new) := fun apart => here.elim apart.1 apart.2
      rw [if_pos here, OrderedSet.replace]
      simp [hit]
    · have miss : t ≠ old ∧ t ≠ new := not_or.1 here
      have later : old ∈ rest := (List.mem_cons.1 present).resolve_left miss.1.symm
      rw [if_neg here, ih later, OrderedSet.replace, OrderedSet.replace]
      simp [miss]

end TokenSet

end WebBindings
