import WebBindings.Attribute.TokenSet
import WebBindings.Node.Element
/-!
# Token lists

An attribute as a list of tokens. The list is read from the attribute whenever it is used, so it
always shows what the attribute holds.
-/

namespace WebBindings

variable {σ : Type}

/-- The tokens of an attribute of an element, and those that it supports, in lower case. -/
structure TokenList where
  element : ElementId
  attributeName : String
  supported : Option (List String)

namespace TokenList

/-- A list; without supported tokens, support cannot be asked for. -/
def new (element : ElementId) (attributeName : String) (supported : Option (List String)) :
    TokenList :=
  ⟨element, attributeName, supported.map fun tokens => tokens.map Ascii.lower⟩

def value (l : TokenList) (w : World σ) : String := (w.attribute? l.element l.attributeName).getD ""

def tokens (l : TokenList) (w : World σ) : TokenSet :=
  ((w.attribute? l.element l.attributeName).map TokenSet.ofText).getD .empty

def length (l : TokenList) (w : World σ) : Nat := (l.tokens w).tokens.length

def item? (l : TokenList) (w : World σ) (index : Nat) : Option String := (l.tokens w).tokens[index]?

def contains (l : TokenList) (w : World σ) (token : String) : Bool := (l.tokens w).contains token

def setValue (l : TokenList) (text : String) : Script σ Unit :=
  setAttribute l.element l.attributeName text

/-- Write tokens to the attribute; an absent one is not made for no tokens. -/
def update (l : TokenList) (set : TokenSet) : Script σ Unit := do
  if ((← get).attribute? l.element l.attributeName).isNone && set.isEmpty then return
  else l.setValue set.text

def validate (token : String) : Except Fault Unit :=
  if token.isEmpty then .error .emptyToken
  else if token.toList.any Ascii.isWhitespace then .error (.tokenWithSpace token)
  else .ok ()

def add (l : TokenList) (tokens : List String) : Script σ Unit := do
  settle (tokens.forM validate)
  l.update (tokens.foldl TokenSet.add (l.tokens (← get)))

def remove (l : TokenList) (tokens : List String) : Script σ Unit := do
  settle (tokens.forM validate)
  l.update ((l.tokens (← get)).remove tokens)

/-- Add a token that is absent and remove one that is present, if that is not against `force`; the
answer tells whether it is present afterwards. -/
def toggle (l : TokenList) (token : String) (force : Option Bool) : Script σ Bool := do
  settle (validate token)
  let set := l.tokens (← get)
  if set.contains token then
    if force = some true then return true
    else
      l.update (set.remove [token])
      return false
  else if force = some false then return false
  else
    l.update (set.add token)
    return true

/-- Replace a token by another; the answer tells whether it was present. -/
def replace (l : TokenList) (token new : String) : Script σ Bool := do
  settle (validate token)
  settle (validate new)
  let set := l.tokens (← get)
  if set.contains token then
    l.update (set.replace token new)
    return true
  else return false

/-- Whether a token is supported; letter case does not matter. -/
def supports (l : TokenList) (token : String) : Except Fault Bool :=
  match l.supported with
  | none => .error (.noSupportedTokens l.attributeName)
  | some tokens => .ok (tokens.contains (Ascii.lower token))

end TokenList

end WebBindings
