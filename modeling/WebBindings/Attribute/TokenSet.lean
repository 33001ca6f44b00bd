import WebBindings.Text.Ascii
/-!
# Token sets

The distinct tokens of an attribute value in order, read between white space and written with single
spaces.
-/

namespace WebBindings

/-- Tokens in order, none twice. -/
structure TokenSet where
  tokens : List String
  nodup : tokens.Nodup
deriving DecidableEq

namespace TokenSet

def empty : TokenSet := ⟨[], .nil⟩

instance : Inhabited TokenSet := ⟨empty⟩

def isEmpty (s : TokenSet) : Bool := s.tokens.isEmpty

def contains (s : TokenSet) (token : String) : Bool := s.tokens.contains token

/-- Append a token unless it is there. -/
def add (s : TokenSet) (token : String) : TokenSet :=
  if h : token ∈ s.tokens then s
  else
    ⟨s.tokens ++ [token], by
      rw [List.nodup_append]
      refine ⟨s.nodup, by simp, ?_⟩
      intro a ha b hb hab
      rw [List.mem_singleton] at hb
      exact h (hb ▸ hab ▸ ha)⟩

def remove (s : TokenSet) (gone : List String) : TokenSet :=
  ⟨s.tokens.filter fun t => !gone.contains t, s.nodup.sublist List.filter_sublist⟩

/-- Write a token in the place of the first of two, and leave out the other. -/
def replaceFirst (old new : String) : List String → List String
  | [] => []
  | t :: rest =>
    if t = old ∨ t = new then new :: rest.filter fun u => u ≠ old ∧ u ≠ new
    else t :: replaceFirst old new rest

theorem mem_replaceFirst {old new u : String} {ts : List String}
    (h : u ∈ replaceFirst old new ts) : u = new ∨ u ∈ ts := by
  induction ts with
  | nil => simp [replaceFirst] at h
  | cons t rest ih =>
    unfold replaceFirst at h
    split at h
    · rcases List.mem_cons.1 h with hu | hu
      · exact .inl hu
      · exact .inr (List.mem_cons_of_mem _ (List.mem_filter.1 hu).1)
    · rcases List.mem_cons.1 h with hu | hu
      · exact .inr (hu ▸ List.mem_cons_self)
      · exact (ih hu).imp id (List.mem_cons_of_mem _)

theorem nodup_replaceFirst (old new : String) {ts : List String} (h : ts.Nodup) :
    (replaceFirst old new ts).Nodup := by
  induction ts with
  | nil => exact .nil
  | cons t rest ih =>
    obtain ⟨hfresh, hrest⟩ := List.nodup_cons.1 h
    unfold replaceFirst
    split
    · refine List.nodup_cons.2 ⟨?_, hrest.sublist List.filter_sublist⟩
      simp
    · rename_i hne
      refine List.nodup_cons.2 ⟨?_, ih hrest⟩
      intro hmem
      rcases mem_replaceFirst hmem with hnew | hold
      · exact hne (.inr hnew)
      · exact hfresh hold

def replace (s : TokenSet) (old new : String) : TokenSet :=
  ⟨replaceFirst old new s.tokens, nodup_replaceFirst old new s.nodup⟩

def ofText (text : String) : TokenSet := (Ascii.runs Ascii.isWhitespace text).foldl add empty

def text (s : TokenSet) : String := String.intercalate " " s.tokens

end TokenSet

end WebBindings
