import WebBindings.Attribute.TokenList
import WebBindings.Proofs.Attribute.TokenSet
import WebBindings.Proofs.Node.Attributes
import WebBindings.Proofs.Script.Freezing
/-!
# Token lists as ordered sets

A token list keeps nothing but the text of its attribute, and yet shows after any operations the list of
distinct tokens that the same operations lead to.
-/

namespace WebBindings

variable {σ : Type}

/-- An operation on a token list, or one on the attributes of elements beside it. -/
inductive TokenOperation
  | add (tokens : List String)
  | remove (tokens : List String)
  | toggle (token : String) (force : Option Bool)
  | replace (token new : String)
  | setValue (text : String)
  | write (target : ElementId) (name text : String)
  | erase (target : ElementId) (name : String)

namespace TokenOperation

/-- What an operation does; some answer with a truth value. -/
def perform (l : TokenList) : TokenOperation → Script σ (Option Bool)
  | add tokens => do
    l.add tokens
    return none
  | remove tokens => do
    l.remove tokens
    return none
  | toggle token force => return some (← l.toggle token force)
  | replace token new => return some (← l.replace token new)
  | setValue text => do
    l.setValue text
    return none
  | write target name text => do
    setAttribute target name text
    return none
  | erase target name => do
    WebBindings.perform (removeAttribute target name)
    return none

/-- Why a text is no token. -/
def tokenFault? (token : String) : Option Fault :=
  if token = "" then some .emptyToken
  else if token.toList.any Ascii.isWhitespace then some (.tokenWithSpace token)
  else none

/-- A check that fails if there is something to object. -/
def objection : Option Fault → Except Fault Unit
  | some fault => .error fault
  | none => .ok ()

/-- Why an operation is refused: it names something that is no token, or no attribute. -/
def fault? : TokenOperation → Option Fault
  | add tokens | remove tokens => tokens.findSome? tokenFault?
  | toggle token _ => tokenFault? token
  | replace token new => (tokenFault? token).or (tokenFault? new)
  | setValue _ | erase .. => none
  | write _ name _ =>
    if Element.isValidAttributeName name then none else some (.invalidAttributeName name)

/-- Whether an attribute is the one that a token list shows. -/
def IsShown (l : TokenList) (target : ElementId) (name : String) : Prop :=
  target = l.element ∧ Ascii.lower name = Ascii.lower l.attributeName

instance (l : TokenList) (target : ElementId) (name : String) : Decidable (IsShown l target name) :=
  inferInstanceAs (Decidable (_ ∧ _))

/-- What an operation that is not refused makes of the tokens. -/
def advance (l : TokenList) (s : List String) : TokenOperation → List String
  | add tokens => tokens.foldl OrderedSet.append s
  | remove tokens => s.filter (· ∉ tokens)
  | toggle token force =>
    if token ∈ s then if force = some true then s else s.filter (· ≠ token)
    else if force = some false then s else s ++ [token]
  | replace token new => if token ∈ s then OrderedSet.replace token new s else s
  | setValue text => OrderedSet.ofText text
  | write target name text => if IsShown l target name then OrderedSet.ofText text else s
  | erase target name => if IsShown l target name then [] else s

/-- What it answers: whether the token is there now, or whether it was. -/
def answer (s : List String) : TokenOperation → Option Bool
  | toggle token force => some (force.getD (token ∉ s))
  | replace token _ => some (token ∈ s)
  | _ => none

/-- The attribute that an operation may write. -/
def place (l : TokenList) : TokenOperation → ElementId × String
  | write target name _ | erase target name => (target, name)
  | _ => (l.element, l.attributeName)

/-- Whether an operation writes the attribute by its tokens. -/
def isEdit : TokenOperation → Bool
  | add _ | remove _ | toggle .. | replace .. => true
  | _ => false

end TokenOperation

namespace TokenList

variable {host : Host σ} {l : TokenList} {w w' : World σ}

/-- The tokens of the text of an attribute, if there is one. -/
def tokensOf (text : Option String) : List String := (text.map OrderedSet.ofText).getD []

theorem tokens_eq (l : TokenList) (w : World σ) :
    (l.tokens w).tokens = tokensOf (w.attribute? l.element l.attributeName) := by
  rw [tokens, tokensOf]
  cases w.attribute? l.element l.attributeName with
  | none => rfl
  | some text => exact TokenSet.ofText_tokens text

theorem isToken_of_mem {t : String} (mem : t ∈ (l.tokens w).tokens) : IsToken t := by
  rw [tokens_eq, tokensOf] at mem
  cases htext : w.attribute? l.element l.attributeName with
  | none =>
    rw [htext] at mem
    cases mem
  | some text =>
    rw [htext] at mem
    exact OrderedSet.isToken_of_mem_ofText mem

theorem validate_eq (token : String) :
    validate token = TokenOperation.objection (TokenOperation.tokenFault? token) := by
  simp only [validate, TokenOperation.tokenFault?, String.isEmpty_iff]
  split
  · rfl
  · split <;> rfl

theorem forM_validate (tokens : List String) :
    tokens.forM validate =
      TokenOperation.objection (tokens.findSome? TokenOperation.tokenFault?) := by
  induction tokens with
  | nil => rfl
  | cons t rest ih =>
    change (validate t >>= fun _ => rest.forM validate) = _
    rw [List.findSome?_cons, validate_eq, ih]
    cases TokenOperation.tokenFault? t <;> rfl

theorem tokenFault?_eq_none_iff {t : String} : TokenOperation.tokenFault? t = none ↔ IsToken t := by
  rw [TokenOperation.tokenFault?, IsToken]
  by_cases empty : t = ""
  · simp [empty]
  · rw [if_neg empty, ite_eq_right_iff]
    simp [empty]

/-- The attribute shows a list of tokens now, nothing else was changed, and it was not made for no
tokens. -/
structure Updates (l : TokenList) (s : List String) (w w' : World σ) : Prop
    extends World.RewritesOnly l.element l.attributeName w w' where
  tokens : (l.tokens w').tokens = s
  uncreated : w.attribute? l.element l.attributeName = none → s = [] →
    w'.attribute? l.element l.attributeName = none

theorem Updates.same {s : List String} (same : (l.tokens w).tokens = s) : l.Updates s w w where
  toRewritesOnly := .of_elements rfl
  tokens := same
  uncreated := fun absent _ => absent

theorem outcome_update (host : Host σ) (l : TokenList) (set : TokenSet) (w : World σ) :
    outcome host (l.update set).run w =
      if w.attribute? l.element l.attributeName = none ∧ set.tokens = [] then (.ok ⟨⟩, w)
      else outcome host (setAttribute l.element l.attributeName set.text).run w := by
  change outcome host (if (w.attribute? l.element l.attributeName).isNone && set.isEmpty then pure ⟨⟩
    else setAttribute l.element l.attributeName set.text : Script σ Unit).run w = _
  simp only [TokenSet.isEmpty, Bool.and_eq_true, Option.isNone_iff_eq_none, List.isEmpty_iff]
  split <;> rfl

theorem outcome_toggle (host : Host σ) {token : String}
    (sound : TokenOperation.tokenFault? token = none) (force : Option Bool) (w : World σ) :
    outcome host (l.toggle token force).run w =
      if token ∈ (l.tokens w).tokens then
        if force = some true then (.ok true, w)
        else outcome host (l.update ((l.tokens w).remove [token]) >>= fun _ => pure false).run w
      else if force = some false then (.ok false, w)
      else outcome host (l.update ((l.tokens w).add token) >>= fun _ => pure true).run w := by
  rw [toggle, validate_eq, sound]
  change outcome host (if (l.tokens w).contains token then
      if force = some true then pure true
      else l.update ((l.tokens w).remove [token]) >>= fun _ => pure false
    else if force = some false then pure false
    else l.update ((l.tokens w).add token) >>= fun _ => pure true : Script σ Bool).run w = _
  simp only [TokenSet.contains, List.contains_iff_mem]
  split_ifs <;> rfl

theorem outcome_replace_of_fault (host : Host σ) (l : TokenList) {token new : String} {fault : Fault}
    (refused : (TokenOperation.tokenFault? token).or (TokenOperation.tokenFault? new) = some fault)
    (w : World σ) : outcome host (l.replace token new).run w = (.error (.fault fault), w) := by
  rw [replace, validate_eq, validate_eq]
  cases htoken : TokenOperation.tokenFault? token with
  | some first =>
    rw [htoken] at refused
    cases refused
    rfl
  | none =>
    rw [htoken, Option.none_or] at refused
    rw [refused]
    rfl

theorem outcome_replace (host : Host σ) {token new : String}
    (sound : TokenOperation.tokenFault? token = none) (sound' : TokenOperation.tokenFault? new = none)
    (w : World σ) : outcome host (l.replace token new).run w =
      if token ∈ (l.tokens w).tokens then
        outcome host (l.update ((l.tokens w).replace token new) >>= fun _ => pure true).run w
      else (.ok false, w) := by
  rw [replace, validate_eq, validate_eq, sound, sound']
  change outcome host (if (l.tokens w).contains token then
      l.update ((l.tokens w).replace token new) >>= fun _ => pure true
    else pure false : Script σ Bool).run w = _
  simp only [TokenSet.contains, List.contains_iff_mem]
  split_ifs <;> rfl

section Calls

variable (host : Host σ) (valid : Element.isValidAttributeName l.attributeName = true)
  (housed : l.element.index < w.elements.size)

include valid housed

theorem update_updates {set : TokenSet} (tokens : ∀ t ∈ set.tokens, IsToken t) :
    ∃ w', outcome host (l.update set).run w = (.ok ⟨⟩, w') ∧ l.Updates set.tokens w w' := by
  rw [outcome_update]
  by_cases idle : w.attribute? l.element l.attributeName = none ∧ set.tokens = []
  · -- Nothing is written, but an absent attribute already shows no tokens.
    rw [if_pos idle]
    refine ⟨w, rfl, .same ?_⟩
    rw [tokens_eq, idle.1, idle.2]
    rfl
  · rw [if_neg idle]
    obtain ⟨w', hset, writes⟩ := setAttribute_writes host l.element valid set.text w
    refine ⟨w', hset, writes.toRewritesOnly, ?_, fun absent empty => absurd ⟨absent, empty⟩ idle⟩
    rw [tokens_eq, writes.written housed]
    exact (TokenSet.ofText_tokens set.text).symm.trans (TokenSet.ofText_text tokens)

theorem add_updates {tokens : List String}
    (sound : tokens.findSome? TokenOperation.tokenFault? = none) :
    ∃ w', outcome host (l.add tokens).run w = (.ok ⟨⟩, w') ∧
      l.Updates (tokens.foldl OrderedSet.append (l.tokens w).tokens) w w' := by
  have new : ∀ t ∈ tokens, IsToken t := fun t mem =>
    tokenFault?_eq_none_iff.1 (List.findSome?_eq_none_iff.1 sound t mem)
  have proper : ∀ t ∈ (tokens.foldl TokenSet.add (l.tokens w)).tokens, IsToken t := by
    intro t mem
    rw [TokenSet.foldl_add_tokens] at mem
    exact (OrderedSet.mem_foldl_append.1 mem).elim isToken_of_mem (new t)
  rw [← TokenSet.foldl_add_tokens, add, forM_validate, sound]
  exact update_updates host valid housed proper

theorem update_remove (gone : List String) :
    ∃ w', outcome host (l.update ((l.tokens w).remove gone)).run w = (.ok ⟨⟩, w') ∧
      l.Updates ((l.tokens w).tokens.filter (· ∉ gone)) w w' := by
  have proper : ∀ t ∈ ((l.tokens w).remove gone).tokens, IsToken t := by
    intro t mem
    rw [TokenSet.remove_tokens] at mem
    exact isToken_of_mem (List.mem_filter.1 mem).1
  rw [← TokenSet.remove_tokens]
  exact update_updates host valid housed proper

theorem remove_updates {tokens : List String}
    (sound : tokens.findSome? TokenOperation.tokenFault? = none) :
    ∃ w', outcome host (l.remove tokens).run w = (.ok ⟨⟩, w') ∧
      l.Updates ((l.tokens w).tokens.filter (· ∉ tokens)) w w' := by
  rw [remove, forM_validate, sound]
  exact update_remove host valid housed tokens

theorem toggle_updates {token : String} (sound : TokenOperation.tokenFault? token = none)
    (force : Option Bool) :
    ∃ w', outcome host (l.toggle token force).run w =
        (.ok (force.getD (token ∉ (l.tokens w).tokens)), w') ∧
      l.Updates ((TokenOperation.toggle token force).advance l (l.tokens w).tokens) w w' := by
  rw [outcome_toggle host sound, TokenOperation.advance]
  by_cases present : token ∈ (l.tokens w).tokens
  · rw [if_pos present, if_pos present]
    by_cases forced : force = some true
    · rw [if_pos forced, if_pos forced, forced]
      exact ⟨w, rfl, .same rfl⟩
    · have gone : force.getD (token ∉ (l.tokens w).tokens) = false := by
        rcases force with - | - | -
        · simpa using present
        · rfl
        · exact absurd rfl forced
      obtain ⟨w', hupdate, updates⟩ := update_remove host valid housed [token]
      rw [if_neg forced, if_neg forced, gone, outcome_run_bind host _ hupdate]
      exact ⟨w', rfl, by simpa using updates⟩
  · rw [if_neg present, if_neg present]
    by_cases forced : force = some false
    · rw [if_pos forced, if_pos forced, forced]
      exact ⟨w, rfl, .same rfl⟩
    · have there : force.getD (token ∉ (l.tokens w).tokens) = true := by
        rcases force with - | - | -
        · simpa using present
        · exact absurd rfl forced
        · rfl
      have added : ((l.tokens w).add token).tokens = (l.tokens w).tokens ++ [token] := by
        rw [TokenSet.add_tokens, OrderedSet.append, if_neg present]
      have proper : ∀ t ∈ ((l.tokens w).add token).tokens, IsToken t := by
        intro t mem
        rw [added, List.mem_append, List.mem_singleton] at mem
        rcases mem with old | rfl
        · exact isToken_of_mem old
        · exact tokenFault?_eq_none_iff.1 sound
      obtain ⟨w', hupdate, updates⟩ := update_updates host valid housed proper
      rw [if_neg forced, if_neg forced, there, outcome_run_bind host _ hupdate, ← added]
      exact ⟨w', rfl, updates⟩

theorem replace_updates {token new : String} (sound : TokenOperation.tokenFault? token = none)
    (sound' : TokenOperation.tokenFault? new = none) :
    ∃ w', outcome host (l.replace token new).run w = (.ok (token ∈ (l.tokens w).tokens), w') ∧
      l.Updates ((TokenOperation.replace token new).advance l (l.tokens w).tokens) w w' := by
  rw [outcome_replace host sound sound', TokenOperation.advance]
  by_cases present : token ∈ (l.tokens w).tokens
  · have replaced : ((l.tokens w).replace token new).tokens =
        OrderedSet.replace token new (l.tokens w).tokens := TokenSet.replaceFirst_eq present
    have proper : ∀ t ∈ ((l.tokens w).replace token new).tokens, IsToken t := by
      intro t mem
      rw [replaced] at mem
      rcases OrderedSet.mem_replace mem with old | rfl
      · exact isToken_of_mem old
      · exact tokenFault?_eq_none_iff.1 sound'
    obtain ⟨w', hupdate, updates⟩ := update_updates host valid housed proper
    rw [if_pos present, if_pos present, outcome_run_bind host _ hupdate, ← replaced]
    exact ⟨w', by simp [present], updates⟩
  · rw [if_neg present, if_neg present]
    exact ⟨w, by simp [present], .same rfl⟩

end Calls

end TokenList

namespace TokenOperation

variable {host : Host σ} {l : TokenList} {w : World σ}

theorem outcome_of_fault (op : TokenOperation) {fault : Fault} (refused : op.fault? = some fault) :
    outcome host (op.perform l).run w = (.error (.fault fault), w) := by
  cases op with
  | add tokens =>
    rw [fault?] at refused
    rw [perform, TokenList.add, TokenList.forM_validate, refused]
    rfl
  | remove tokens =>
    rw [fault?] at refused
    rw [perform, TokenList.remove, TokenList.forM_validate, refused]
    rfl
  | toggle token force =>
    rw [fault?] at refused
    rw [perform, TokenList.toggle, TokenList.validate_eq, refused]
    rfl
  | replace token new =>
    have failed := TokenList.outcome_replace_of_fault host l refused w
    rw [perform, outcome_run_bind_of_error host _ failed]
  | setValue text => cases refused
  | erase target name => cases refused
  | write target name text =>
    rw [fault?] at refused
    split at refused
    · cases refused
    · rename_i invalid
      cases refused
      have failed := outcome_setAttribute_of_invalid host w target (by simpa using invalid) text
      rw [perform, outcome_run_bind_of_error host _ failed]

theorem edit_updates (host : Host σ) (valid : Element.isValidAttributeName l.attributeName = true)
    (housed : l.element.index < w.elements.size) {op : TokenOperation} (edit : op.isEdit = true)
    (sound : op.fault? = none) :
    ∃ w', outcome host (op.perform l).run w = (.ok (op.answer (l.tokens w).tokens), w') ∧
      l.Updates (op.advance l (l.tokens w).tokens) w w' := by
  cases op with
  | add tokens =>
    obtain ⟨w', hadd, updates⟩ := TokenList.add_updates host valid housed sound
    exact ⟨w', outcome_run_bind host _ hadd, updates⟩
  | remove tokens =>
    obtain ⟨w', hremove, updates⟩ := TokenList.remove_updates host valid housed sound
    exact ⟨w', outcome_run_bind host _ hremove, updates⟩
  | toggle token force =>
    obtain ⟨w', htoggle, updates⟩ := TokenList.toggle_updates host valid housed sound force
    exact ⟨w', outcome_run_bind host _ htoggle, updates⟩
  | replace token new =>
    obtain ⟨htoken, hnew⟩ := Option.or_eq_none_iff.1 sound
    obtain ⟨w', hreplace, updates⟩ := TokenList.replace_updates host valid housed htoken hnew
    exact ⟨w', outcome_run_bind host _ hreplace, updates⟩
  | setValue text => cases edit
  | write target name text => cases edit
  | erase target name => cases edit

/-- What an operation leads to from a list of tokens: the tokens that it leads to, while no attribute
but the one it is for is touched, and an edit that ends without tokens makes no attribute. -/
structure Follows (l : TokenList) (op : TokenOperation) (s : List String) (w w' : World σ) : Prop where
  tokens : (l.tokens w').tokens = op.advance l s
  only : w.RewritesOnly (op.place l).1 (op.place l).2 w'
  uncreated : op.isEdit = true → w.attribute? l.element l.attributeName = none →
    op.advance l s = [] → w'.attribute? l.element l.attributeName = none

theorem Follows.of_updates {op : TokenOperation} {s : List String} {w' : World σ}
    (edit : op.isEdit = true) (updates : l.Updates (op.advance l s) w w') :
    Follows l op s w w' where
  tokens := updates.tokens
  only := by
    cases op with
    | add | remove | toggle | replace => exact updates.toRewritesOnly
    | setValue | write | erase => cases edit
  uncreated := fun _ => updates.uncreated

theorem tokens_of_writes {target : ElementId} {name : String} {text : Option String} {w' : World σ}
    (housed : l.element.index < w.elements.size) (writes : w.Writes target name text w') :
    (l.tokens w').tokens =
      if IsShown l target name then TokenList.tokensOf text else (l.tokens w).tokens := by
  rw [TokenList.tokens_eq, TokenList.tokens_eq, writes.attribute?_eq housed]
  exact apply_ite TokenList.tokensOf _ _ _

/-- An operation that is not refused answers and leads on as the operation on lists does. -/
theorem step_follows (host : Host σ) (valid : Element.isValidAttributeName l.attributeName = true)
    (housed : l.element.index < w.elements.size) {op : TokenOperation} (sound : op.fault? = none) :
    ∃ w', outcome host (op.perform l).run w = (.ok (op.answer (l.tokens w).tokens), w') ∧
      Follows l op (l.tokens w).tokens w w' := by
  by_cases edit : op.isEdit = true
  · obtain ⟨w', hperform, updates⟩ := edit_updates host valid housed edit sound
    exact ⟨w', hperform, .of_updates edit updates⟩
  cases op with
  | add | remove | toggle | replace => exact absurd rfl edit
  | setValue text =>
    obtain ⟨w', hset, writes⟩ := setAttribute_writes host l.element valid text w
    refine ⟨w', outcome_run_bind host _ hset, ?_, writes.toRewritesOnly, nofun⟩
    exact (tokens_of_writes housed writes).trans (if_pos ⟨rfl, rfl⟩)
  | write target name text =>
    have validName : Element.isValidAttributeName name = true := by
      by_contra invalid
      rw [fault?, if_neg invalid] at sound
      cases sound
    obtain ⟨w', hset, writes⟩ := setAttribute_writes host target validName text w
    refine ⟨w', outcome_run_bind host _ hset, ?_, writes.toRewritesOnly, nofun⟩
    exact tokens_of_writes housed writes
  | erase target name =>
    obtain ⟨w', hremove, writes⟩ := removeAttribute_writes host target name w
    refine ⟨w', ?_, ?_, writes.toRewritesOnly, nofun⟩
    · rw [perform, outcome_run_bind host _ (outcome_perform host w _), hremove]
      rfl
    · exact tokens_of_writes housed writes

/-- The world after operations, whether or not they were refused. -/
def run (host : Host σ) (l : TokenList) (operations : List TokenOperation) (w : World σ) : World σ :=
  operations.foldl (fun w op => after host (op.perform l).run w) w

/-- The tokens after an operation; a refused one leaves them. -/
def next (l : TokenList) (s : List String) (op : TokenOperation) : List String :=
  if op.fault? = none then op.advance l s else s

theorem after_next (host : Host σ) (valid : Element.isValidAttributeName l.attributeName = true)
    (housed : l.element.index < w.elements.size) (op : TokenOperation) :
    (l.tokens (after host (op.perform l).run w)).tokens = next l (l.tokens w).tokens op ∧
      l.element.index < (after host (op.perform l).run w).elements.size := by
  rw [after, next]
  cases hfault : op.fault? with
  | some fault =>
    rw [outcome_of_fault op hfault, if_neg nofun]
    exact ⟨rfl, housed⟩
  | none =>
    obtain ⟨w', hperform, follows⟩ := step_follows host valid housed hfault
    rw [hperform, if_pos rfl]
    exact ⟨follows.tokens, follows.only.size ▸ housed⟩

theorem run_next (host : Host σ) (valid : Element.isValidAttributeName l.attributeName = true)
    (housed : l.element.index < w.elements.size) (operations : List TokenOperation) :
    (l.tokens (run host l operations w)).tokens = operations.foldl (next l) (l.tokens w).tokens ∧
      l.element.index < (run host l operations w).elements.size := by
  -- No operation takes the element away, so that each of them finds it in the world before.
  induction operations generalizing w with
  | nil => exact ⟨rfl, housed⟩
  | cons op rest ih =>
    obtain ⟨tokens, housed'⟩ := after_next host valid housed op
    rw [List.foldl_cons, ← tokens]
    exact ih housed'

end TokenOperation

/-- A token list shows after any operations the list of distinct tokens that they lead to, from those in
the text of the attribute. An operation that names something that is no token, or writes an attribute
that cannot be, is refused and changes nothing. Any other one answers and leads on as the operation on
lists does, touches no attribute but the one it is for, and does not make an attribute for no tokens. -/
theorem token_lists_are_ordered_sets (host : Host σ) {l : TokenList} {w : World σ}
    (valid : Element.isValidAttributeName l.attributeName = true)
    (housed : l.element.index < w.elements.size) (operations : List TokenOperation) :
    let reached := TokenOperation.run host l operations w
    let s := operations.foldl (TokenOperation.next l)
      (TokenList.tokensOf (w.attribute? l.element l.attributeName))
    (l.tokens reached).tokens = s ∧ s.Nodup ∧ l.length reached = s.length ∧
      (∀ i, l.item? reached i = s[i]?) ∧ (∀ t, l.contains reached t = decide (t ∈ s)) ∧
      ∀ op : TokenOperation,
        (∀ fault, op.fault? = some fault →
          outcome host (op.perform l).run reached = (.error (.fault fault), reached)) ∧
        (op.fault? = none → ∃ w', outcome host (op.perform l).run reached = (.ok (op.answer s), w') ∧
          TokenOperation.Follows l op s reached w') := by
  intro reached s
  obtain ⟨tokens, housed'⟩ := TokenOperation.run_next host valid housed operations
  rw [TokenList.tokens_eq l w] at tokens
  change (l.tokens reached).tokens = s at tokens
  refine ⟨tokens, ?_, ?_, ?_, ?_, fun op => ⟨?_, ?_⟩⟩
  · rw [← tokens]
    exact (l.tokens reached).nodup
  · rw [TokenList.length, tokens]
  · intro i
    rw [TokenList.item?, tokens]
  · intro t
    rw [TokenList.contains, TokenSet.contains, tokens, List.contains_eq_mem]
  · exact fun fault refused => op.outcome_of_fault refused
  · intro sound
    rw [← tokens]
    exact TokenOperation.step_follows host valid housed' sound

/-- Words with a space between them are refused, and a replacement comes first where it already was
before. -/
theorem classes_after_operations :
    let l := TokenList.new ⟨0⟩ "Class" none
    let reached := TokenOperation.run Embedder.mute.host l
      [.add ["tall"], .replace "dark" "wide", .toggle "two words" none] labeledWorld
    (l.tokens reached).tokens = ["wide", "tall"] := by
  intro l reached
  have valid : Element.isValidAttributeName l.attributeName = true := by decide +kernel
  have housed : l.element.index < labeledWorld.elements.size := by decide
  have shown := (token_lists_are_ordered_sets Embedder.mute.host valid housed
    [.add ["tall"], .replace "dark" "wide", .toggle "two words" none]).1
  rw [shown]
  decide +kernel

end WebBindings
