import Mathlib.Data.List.Induction
import WebBindings.Proofs.Attribute.TokenSet
/-!
# Texts of token sets

The tokens of a text are its maximal runs between white space, each listed where it first occurs. Sets of
tokens and their texts are read and written without loss.
-/

namespace WebBindings

namespace Ascii

variable {p : Char → Bool} {text piece rest run : List Char}

/-- Characters outside a class that stand at a place of a text, between characters of the class or the
ends of the text. -/
structure RunAt (p : Char → Bool) (text : List Char) (start : Nat) (run : List Char) : Prop where
  nonempty : run ≠ []
  free : ∀ c ∈ run, p c = false
  bounded : ∃ before after, text = before ++ (run ++ after) ∧ before.length = start ∧
    (∀ c ∈ before.getLast?, p c = true) ∧ ∀ c ∈ after.head?, p c = true

/-- A text is a piece without characters of a class, or one that such a character cuts off. -/
theorem pieces_induction {motive : List Char → Prop}
    (last : ∀ piece, (∀ c ∈ piece, p c = false) → motive piece)
    (cut : ∀ piece c rest, (∀ c ∈ piece, p c = false) → p c = true → motive rest →
      motive (piece ++ c :: rest)) (text : List Char) : motive text := by
  -- The piece that the text goes on with grows until the next cut.
  suffices grown : ∀ piece, (∀ c ∈ piece, p c = false) → motive (piece ++ text) from
    grown [] (by simp)
  induction text with
  | nil =>
    intro piece free
    rw [List.append_nil]
    exact last piece free
  | cons c rest ih =>
    intro piece free
    cases stop : p c with
    | true => exact cut piece c rest free stop (ih [] (by simp))
    | false =>
      rw [List.append_cons]
      refine ih _ fun d mem => ?_
      rcases List.mem_append.1 mem with old | new
      · exact free d old
      · rw [List.mem_singleton.1 new, stop]

theorem eq_of_front {run after piece rest : List Char} (split : run ++ after = piece ++ rest)
    (free : ∀ c ∈ run, p c = false) (free' : ∀ c ∈ piece, p c = false)
    (stop : ∀ c ∈ after.head?, p c = true) (stop' : ∀ c ∈ rest.head?, p c = true) : run = piece := by
  have front {front behind : List Char} (free : ∀ c ∈ front, p c = false)
      (stop : ∀ c ∈ behind.head?, p c = true) : (front ++ behind).takeWhile (!p ·) = front := by
    rw [List.takeWhile_append_of_pos fun c mem => by simp [free c mem]]
    cases behind with
    | nil => simp
    | cons c cs => simp [stop c rfl]
  rw [← front free stop, split, front free' stop']

theorem RunAt.of_piece (nonempty : piece ≠ []) (free : ∀ c ∈ piece, p c = false)
    (stop : ∀ c ∈ rest.head?, p c = true) : RunAt p (piece ++ rest) 0 piece :=
  ⟨nonempty, free, [], rest, rfl, rfl, by simp, stop⟩

theorem RunAt.behind {c : Char} {start : Nat} (cut : p c = true) (piece : List Char)
    (later : RunAt p rest start run) : RunAt p (piece ++ c :: rest) (piece.length + 1 + start) run := by
  obtain ⟨nonempty, free, before, after, rfl, rfl, last, first⟩ := later
  refine ⟨nonempty, free, piece ++ c :: before, after, by simp, ?_, ?_, first⟩
  · rw [List.length_append, List.length_cons, Nat.add_right_comm, Nat.add_assoc]
  · intro d mem
    rw [List.getLast?_append, List.getLast?_cons, Option.some_or, Option.mem_some_iff] at mem
    cases hlast : before.getLast? with
    | none =>
      rw [hlast, Option.getD_none] at mem
      rwa [← mem]
    | some e =>
      rw [hlast, Option.getD_some] at mem
      exact mem ▸ last e hlast

theorem RunAt.cases {start : Nat} (standing : RunAt p (piece ++ rest) start run)
    (free : ∀ c ∈ piece, p c = false) (stop : ∀ c ∈ rest.head?, p c = true) :
    (start = 0 ∧ run = piece) ∨
      ∃ c rest' start', rest = c :: rest' ∧ start = piece.length + 1 + start' ∧
        RunAt p rest' start' run := by
  obtain ⟨nonempty, inside, before, after, split, rfl, last, first⟩ := standing
  rcases List.append_eq_append_iff.1 split with ⟨between, rfl, hrest⟩ | ⟨between, rfl, hrun⟩
  · cases between with
    | nil =>
      obtain ⟨c, cs, rfl⟩ := List.exists_cons_of_ne_nil nonempty
      have cut : p c = true := stop c (by rw [hrest]; rfl)
      rw [inside c List.mem_cons_self] at cut
      cases cut
    | cons c between =>
      refine .inr ⟨c, _, between.length, hrest, ?_, nonempty, inside, between, after, rfl, rfl, ?_, first⟩
      · rw [List.length_append, List.length_cons, Nat.add_right_comm, Nat.add_assoc]
      · intro d mem
        refine last d ?_
        rw [List.getLast?_append, List.getLast?_cons, mem]
        rfl
  · have start : before = [] := by
      by_contra some
      have cut := last _ (List.getLast?_eq_some_getLast some)
      rw [free _ (List.mem_append_left _ (List.getLast_mem some))] at cut
      cases cut
    subst start
    exact .inl ⟨rfl, eq_of_front hrun inside free first stop⟩

/-- The place of a piece that a text begins with, if there is a run in it. -/
def front (piece : List Char) : List (Nat × List Char) := if piece.isEmpty then [] else [(0, piece)]

theorem mem_front {q : Nat × List Char} : q ∈ front piece ↔ q.1 = 0 ∧ q.2 = piece ∧ piece ≠ [] := by
  rw [front]
  cases piece with
  | nil => simp
  | cons c cs => simp [Prod.ext_iff]

theorem front_ascending (piece : List Char) : (front piece).Pairwise fun q r => q.1 < r.1 := by
  rw [front]
  split
  · exact .nil
  · exact List.pairwise_singleton _ _

/-- The pieces of a text that are not empty are its maximal runs, in the order of their places. -/
theorem exists_places (p : Char → Bool) (text : List Char) : ∃ places : List (Nat × List Char),
    (splitOn p text).filter (fun piece => !piece.isEmpty) = places.map Prod.snd ∧
      places.Pairwise (fun q r => q.1 < r.1) ∧
      ∀ start run, (start, run) ∈ places ↔ RunAt p text start run := by
  induction text using pieces_induction (p := p) with
  | last piece free =>
    refine ⟨front piece, ?_, front_ascending piece, fun start run => ?_⟩
    · rw [splitOn_eq_singleton free]
      cases piece <;> rfl
    · rw [mem_front]
      constructor
      · rintro ⟨rfl, rfl, nonempty⟩
        have standing : RunAt p (run ++ []) 0 run := .of_piece nonempty free nofun
        rwa [List.append_nil] at standing
      · intro standing
        rw [← List.append_nil piece] at standing
        obtain ⟨rfl, rfl⟩ | ⟨c, rest, start, absurd, -⟩ := standing.cases free nofun
        · exact ⟨rfl, rfl, standing.nonempty⟩
        · cases absurd
  | cut piece c rest free cut ih =>
    obtain ⟨later, pieces, ascending, mem⟩ := ih
    have stop : ∀ d ∈ (c :: rest).head?, p d = true := by simpa using cut
    refine ⟨front piece ++ later.map fun q => (piece.length + 1 + q.1, q.2), ?_, ?_, fun start run => ?_⟩
    · rw [splitOn_append_cons free cut, List.map_append, List.map_map]
      change _ = _ ++ later.map Prod.snd
      rw [← pieces]
      cases piece <;> rfl
    · refine List.pairwise_append.2 ⟨front_ascending piece, ?_, ?_⟩
      · exact List.pairwise_map.2 (ascending.imp fun lt => Nat.add_lt_add_left lt _)
      · intro q hq r hr
        obtain ⟨r, -, rfl⟩ := List.mem_map.1 hr
        rw [(mem_front.1 hq).1]
        omega
    · rw [List.mem_append, mem_front, List.mem_map]
      constructor
      · rintro (⟨rfl, rfl, nonempty⟩ | ⟨⟨start', run'⟩, place, same⟩)
        · exact .of_piece nonempty free stop
        · cases same
          exact ((mem _ _).1 place).behind cut piece
      · intro standing
        obtain ⟨rfl, rfl⟩ | ⟨d, rest', start', hrest, rfl, later'⟩ := standing.cases free stop
        · exact .inl ⟨rfl, rfl, standing.nonempty⟩
        · cases hrest
          exact .inr ⟨(start', run), (mem _ _).2 later', rfl⟩

end Ascii

namespace OrderedSet

/-- Wherever the second of two tokens stands in a list, the first one stands before. -/
def Precedes (ts : List String) (t u : String) : Prop :=
  ∀ before after, ts = before ++ u :: after → t ∈ before

theorem Precedes.append_singleton {ts : List String} {t u : String} (first : Precedes ts t u)
    (known : t ∈ ts) (v : String) : Precedes (ts ++ [v]) t u := by
  intro before after split
  rcases List.eq_nil_or_concat after with rfl | ⟨after, w, rfl⟩
  · rwa [← List.append_inj_left' split rfl]
  · rw [List.concat_eq_append, ← List.cons_append, ← List.append_assoc] at split
    exact first before after (List.append_inj_left' split rfl)

theorem foldl_append_pairwise (ts : List String) : (ts.foldl append []).Pairwise (Precedes ts) := by
  induction ts using List.reverseRecOn with
  | nil => exact .nil
  | append_singleton ts v ih =>
    have known {t : String} (mem : t ∈ ts.foldl append []) : t ∈ ts :=
      (mem_foldl_append.1 mem).resolve_left List.not_mem_nil
    have ordered : (ts.foldl append []).Pairwise (Precedes (ts ++ [v])) :=
      ih.imp_of_mem fun mem _ first => first.append_singleton (known mem) v
    rw [List.foldl_append, List.foldl_cons, List.foldl_nil, append]
    split
    · exact ordered
    · rename_i fresh
      refine List.pairwise_append.2 ⟨ordered, List.pairwise_singleton _ _, fun t mem u last => ?_⟩
      obtain rfl := List.mem_singleton.1 last
      -- Nothing stands before an occurrence of a new token that is not the last one.
      have first : Precedes ts t u := fun before after split =>
        absurd (mem_foldl_append.2 (.inr (by simp [split]))) fresh
      exact first.append_singleton (known mem) u

end OrderedSet

/-- A token that stands at a place of a text, between white space or the ends of the text. -/
def TokenAt (text : String) (start : Nat) (t : String) : Prop :=
  Ascii.RunAt Ascii.isWhitespace text.toList start t.toList

theorem exists_token_places (text : String) : ∃ places : List (Nat × String),
    Ascii.runs Ascii.isWhitespace text = places.map Prod.snd ∧
      places.Pairwise (fun q r => q.1 < r.1) ∧
      ∀ start t, (start, t) ∈ places ↔ TokenAt text start t := by
  obtain ⟨places, runs, ascending, mem⟩ := Ascii.exists_places Ascii.isWhitespace text.toList
  refine ⟨places.map fun q => (q.1, String.ofList q.2), ?_, ?_, fun start t => ?_⟩
  · rw [Ascii.runs, runs, List.map_map, List.map_map]
    rfl
  · exact List.pairwise_map.2 ascending
  · rw [TokenAt, ← mem, List.mem_map]
    constructor
    · rintro ⟨q, place, same⟩
      cases same
      rwa [String.toList_ofList]
    · exact fun place => ⟨_, place, by rw [String.ofList_toList]⟩

theorem OrderedSet.mem_ofText {t text : String} : t ∈ ofText text ↔ ∃ start, TokenAt text start t := by
  obtain ⟨places, runs, -, mem⟩ := exists_token_places text
  rw [ofText, mem_foldl_append, runs, List.mem_map]
  constructor
  · rintro (absurd | ⟨⟨start, t⟩, place, rfl⟩)
    · cases absurd
    · exact ⟨start, (mem start t).1 place⟩
  · rintro ⟨start, standing⟩
    exact .inr ⟨(start, t), (mem start t).2 standing, rfl⟩

/-- Of two tokens of a text, the one that is listed first stands before every place of the other. -/
theorem OrderedSet.ofText_pairwise (text : String) :
    (ofText text).Pairwise fun t u => ∀ later, TokenAt text later u →
      ∃ earlier, earlier < later ∧ TokenAt text earlier t := by
  obtain ⟨places, runs, ascending, mem⟩ := exists_token_places text
  refine (foldl_append_pairwise _).imp fun {t u} first later standing => ?_
  obtain ⟨before, after, rfl⟩ := List.append_of_mem ((mem later u).2 standing)
  obtain ⟨q, place, rfl⟩ := List.mem_map.1
    (first (before.map Prod.snd) (after.map Prod.snd) (by rw [runs, List.map_append, List.map_cons]))
  have lt := (List.pairwise_append.1 ascending).2.2 q place (later, u) List.mem_cons_self
  exact ⟨q.1, lt, (mem q.1 q.2).1 (List.mem_append_left _ place)⟩

/-- A text is read as the set of the maximal runs between its white space, in the order in which they
first occur. Reading and writing again changes no set that was read from a text, and no set of tokens. -/
theorem texts_and_token_sets_agree :
    (∀ text, let s := TokenSet.ofText text
      (∀ t, t ∈ s.tokens ↔ ∃ start, TokenAt text start t) ∧ s.tokens.Nodup ∧ "" ∉ s.tokens ∧
        (s.tokens.Pairwise fun t u => ∀ later, TokenAt text later u →
          ∃ earlier, earlier < later ∧ TokenAt text earlier t) ∧
        (TokenSet.ofText s.text).tokens = s.tokens ∧ (TokenSet.ofText s.text).text = s.text) ∧
    ∀ (ts : List String) (distinct : ts.Nodup), (∀ t ∈ ts, IsToken t) →
      (TokenSet.ofText (TokenSet.mk ts distinct).text).tokens = ts := by
  refine ⟨fun text => ?_, fun ts distinct tokens => TokenSet.ofText_text (s := ⟨ts, distinct⟩) tokens⟩
  intro s
  have list : s.tokens = OrderedSet.ofText text := TokenSet.ofText_tokens text
  have tokens : ∀ t ∈ s.tokens, IsToken t := fun t mem =>
    OrderedSet.isToken_of_mem_ofText (list ▸ mem)
  have again : (TokenSet.ofText s.text).tokens = s.tokens := TokenSet.ofText_text tokens
  refine ⟨fun t => ?_, s.nodup, fun empty => (tokens "" empty).1 rfl, ?_, again, ?_⟩
  · rw [list]
    exact OrderedSet.mem_ofText
  · rw [list]
    exact OrderedSet.ofText_pairwise text
  · rw [TokenSet.text, again]
    rfl

/-- White space beyond ASCII is part of a token. -/
theorem wide_space_is_read_back :
    ["dark\u00a0tall", "wide"].Nodup ∧ (∀ t ∈ ["dark\u00a0tall", "wide"], IsToken t) ∧
      (TokenSet.ofText "dark\u00a0tall wide").tokens = ["dark\u00a0tall", "wide"] := by
  have distinct : ["dark\u00a0tall", "wide"].Nodup := by decide
  have tokens : ∀ t ∈ ["dark\u00a0tall", "wide"], IsToken t := by decide +kernel
  exact ⟨distinct, tokens, texts_and_token_sets_agree.2 _ distinct tokens⟩

end WebBindings
