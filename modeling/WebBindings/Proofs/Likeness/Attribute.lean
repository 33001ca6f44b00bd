import WebBindings.Attribute.Reflection
import WebBindings.Attribute.TokenList
import WebBindings.Proofs.Likeness.Handler
import WebBindings.Proofs.Text.Letters
/-!
# Agreement on attributes

All ways to read and write an attribute agree if they are given the same name in letter cases of their
own: the element itself, the reflectors, the token lists and the handler maps.
-/

namespace WebBindings

variable {σ : Type} {o : Observer σ} {host host' : Host σ}

namespace Element

theorem isForbiddenInName_toLower (c : Char) : isForbiddenInName c.toLower = isForbiddenInName c := by
  have table : ∀ pair ∈ Ascii.letters,
      isForbiddenInName pair.1 = false ∧ isForbiddenInName pair.2 = false := by
    decide +kernel
  rcases Ascii.mem_letters_or_toLower_eq c with pair | same
  · exact (table _ pair).2.trans (table _ pair).1.symm
  · rw [same]

theorem isValidAttributeName_lower (name : String) :
    isValidAttributeName (Ascii.lower name) = isValidAttributeName name := by
  have forbidden : isForbiddenInName ∘ Char.toLower = isForbiddenInName :=
    funext isForbiddenInName_toLower
  have empty : (Ascii.lower name).isEmpty = name.isEmpty := by
    rw [Bool.eq_iff_iff, String.isEmpty_iff, String.isEmpty_iff, ← String.toList_eq_nil_iff,
      ← String.toList_eq_nil_iff, Ascii.lower, String.toList_map, List.map_eq_nil_iff]
  rw [isValidAttributeName, isValidAttributeName, empty, Ascii.lower, String.toList_map, List.any_map,
    forbidden]

end Element

section Names

variable {name name' : String} (same : Ascii.lower name' = Ascii.lower name)

include same

theorem Element.isValidAttributeName_congr :
    isValidAttributeName name' = isValidAttributeName name := by
  rw [← isValidAttributeName_lower name', same, isValidAttributeName_lower]

namespace World.Alike

variable {w w' : World σ} (alike : w.Alike o w') (id : ElementId)

include alike

theorem attribute? : w'.attribute? id name' = w.attribute? id name := by
  rw [World.attribute?, World.attribute?, alike.element, Element.attribute?, Element.attribute?, same]

theorem attributeView : w'.attributeView id name' = w.attributeView id name := by
  have others : (w'.baseUrl? id, w'.objectById? id) = (w.baseUrl? id, w.objectById? id) :=
    alike.reads (fun w => (w.baseUrl? id, w.objectById? id)) fun _ _ _ => rfl
  obtain ⟨base, find⟩ := Prod.mk.inj others
  rw [World.attributeView, World.attributeView, alike.attribute? same, base, find]

end World.Alike

theorem removeAttribute_agree (id : ElementId) :
    Agree o host host' Eq (removeAttribute id name) (removeAttribute id name') := by
  rw [removeAttribute, removeAttribute, same]
  exact .modify fun _ _ alike => alike.modifyElement id _

variable [agreeing : Agreeing o host host']

theorem setAttribute_agree (id : ElementId) (value : String) :
    ScriptAgree o host host' Eq (setAttribute id name value) (setAttribute id name' value) := by
  rw [setAttribute, setAttribute, same, Element.isValidAttributeName_congr same]
  refine .ite (ScriptAgree.get.bind_of fun w w' _ => ?_) (.raise_of rfl)
  refine (ScriptAgree.perform (.log _ _ _)).bind fun _ => ?_
  exact fun w w' alike => ⟨.ok rfl, alike.modifyElement id _⟩

/-- Writes that do the same to an attribute, and note both something or both nothing. -/
structure AttributeWrite.Alike (a a' : AttributeWrite) : Prop where
  note : a'.note.isSome = a.note.isSome
  change : a'.change = a.change

omit [Agreeing o host host'] same in
theorem AttributeWrite.Alike.refl (a : AttributeWrite) : a.Alike a := ⟨rfl, rfl⟩

theorem AttributeWrite.apply_agree {a a' : AttributeWrite} (alike : a.Alike a') (id : ElementId) :
    ScriptAgree o host host' Eq (a.apply id name) (a'.apply id name') := by
  have unnoted (change : AttributeChange) : ScriptAgree o host host' Eq
      (AttributeWrite.apply ⟨none, change⟩ id name) (AttributeWrite.apply ⟨none, change⟩ id name') := by
    cases change with
    | set text => exact setAttribute_agree same id text
    | remove => exact .perform (removeAttribute_agree same id)
    | keep => exact .pure rfl
  obtain ⟨note, change⟩ := a
  obtain ⟨note', change'⟩ := a'
  have noted := alike.note
  have changed : change' = change := alike.change
  subst changed
  cases note with
  | none =>
    cases note' with
    | none => exact unnoted _
    | some text' => cases noted
  | some text =>
    cases note' with
    | none => cases noted
    | some text' => exact (ScriptAgree.perform (.log _ _ _)).bind fun _ => unnoted _

end Names

namespace Reflector

theorem writeUnsigned_alike (name name' : String) (default n : Int) :
    (writeUnsigned name default n).Alike (writeUnsigned name' default n) := by
  rw [writeUnsigned, writeUnsigned]
  split
  · exact ⟨rfl, rfl⟩
  · exact .refl _

/-- The name of an attribute only matters to the messages of a write. -/
theorem writing_alike (r : Reflector) (name name' : String) (content : r.Content) :
    ResultAlike AttributeWrite.Alike ((r.writing name content).mapError .fault)
      ((r.writing name' content).mapError .fault) := by
  cases r with
  | string | url | enumerated | nullableString | nullableEnumerated | boolean | int | double =>
    exact .ok (.refl _)
  | nonNegativeInt default =>
    dsimp only [writing]
    split
    · exact .error ⟨rfl, rfl⟩
    · exact .ok (.refl _)
  | unsignedInt | clampedInt => exact .ok (writeUnsigned_alike name name' _ _)
  | positiveInt default =>
    dsimp only [writing]
    split
    · exact .error ⟨rfl, rfl⟩
    · exact .ok (writeUnsigned_alike name name' _ _)
  | positiveIntOrDefault default =>
    dsimp only [writing]
    split
    · exact .ok ⟨rfl, rfl⟩
    · exact .ok (writeUnsigned_alike name name' _ _)
  | positiveDouble default =>
    dsimp only [writing]
    split
    · exact .ok (.refl _)
    · exact .ok ⟨rfl, rfl⟩

variable [agreeing : Agreeing o host host']

theorem nullableText_agrees (value : Value) : ScriptAgrees o host host' (nullableText value) :=
  .ite (.pure rfl) ((toText_agrees value).bind fun _ => .pure rfl)

theorem coerce_agrees (r : Reflector) (value : Value) :
    ScriptAgrees o host host' (r.coerce value) := by
  have integer (t : IntegerType) (mode : IntegerMode) :
      ScriptAgrees o host host' (toInteger t mode value) :=
    (toNumber_agrees value).bind fun _ => .settle _
  have double : ScriptAgrees o host host' (toDouble value) :=
    (toNumber_agrees value).bind fun _ => .settle _
  cases r with
  | string | enumerated => exact (toText_agrees value).bind fun _ => .pure rfl
  | url =>
    have text : ScriptAgrees o host host' (toUSVString value) :=
      (toText_agrees value).bind fun _ => .pure rfl
    exact text.bind fun _ => .pure rfl
  | nullableString | nullableEnumerated => exact nullableText_agrees value
  | boolean => exact .pure rfl
  | int | nonNegativeInt | unsignedInt | positiveInt | positiveIntOrDefault | clampedInt =>
    exact integer _ _
  | double | positiveDouble => exact double

variable {name name' : String} (same : Ascii.lower name' = Ascii.lower name)

include same

theorem write_agree (r : Reflector) (id : ElementId) (content : r.Content) :
    ScriptAgree o host host' Eq (r.write id name content) (r.write id name' content) := by
  refine (ScriptAgree.settle_of (r.writing_alike name name' content)).bind_of fun _ _ alike => ?_
  exact AttributeWrite.apply_agree same alike id

theorem set_agree (r : Reflector) (id : ElementId) (value : Value) :
    ScriptAgree o host host' Eq (r.set id name value) (r.set id name' value) :=
  (r.coerce_agrees value).bind fun content => r.write_agree same id content

end Reflector

/-- Attempts that end alike and keep the same. -/
structure AttemptAlike {ρ : Type} (a a' : Except ScriptError Unit × ρ) : Prop where
  result : ResultAlike Eq a.1 a'.1
  kept : a'.2 = a.2

theorem Agree.aside_bind {α : Type} {s s' : Script σ α} {f f' : α → Remembering σ Unit} {r : ElementReference}
    (first : ScriptAgree o host host' Eq s s')
    (next : ∀ a, Agree o host host' AttemptAlike ((f a).run.run r) ((f' a).run.run r)) :
    Agree o host host' AttemptAlike ((aside s >>= f).run.run r) ((aside s' >>= f').run.run r) := by
  change Agree o host host' AttemptAlike (s.run >>= fun result => ExceptT.bindCont f result r)
    (s'.run >>= fun result => ExceptT.bindCont f' result r)
  refine Agree.bind_of first fun result result' same => ?_
  cases same with
  | ok same =>
    subst same
    exact next _
  | error alike => exact .pure ⟨.error alike, rfl⟩

section References

variable [agreeing : Agreeing o host host'] {name name' : String}
  (same : Ascii.lower name' = Ascii.lower name)

include same

theorem ElementReference.set_agree (r : ElementReference) (id : ElementId) (value : Value) :
    Agree o host host' AttemptAlike ((ElementReference.set id name value).run.run r)
      ((ElementReference.set id name' value).run.run r) := by
  refine Agree.aside_bind (ScriptAgree.settle _) fun content => ?_
  cases content with
  | none =>
    intro w w' alike
    obtain ⟨-, worlds⟩ := (removeAttribute_agree same id : Agree o host host' Eq _ _) w w' alike
    exact ⟨⟨.ok rfl, rfl⟩, worlds⟩
  | some object =>
    exact Agree.aside_bind (setAttribute_agree same id "") fun _ => Agree.pure ⟨.ok rfl, rfl⟩

theorem Reflection.set_agree (r : Reflection) (id : ElementId) (value : Value) :
    Agree o host host' AttemptAlike (r.set id name value) (r.set id name' value) := by
  cases r with
  | plain r =>
    refine Agree.bind_of (r.set_agree same id value) fun result result' alike => ?_
    exact .pure ⟨alike, rfl⟩
  | reference r =>
    refine Agree.bind_of (ElementReference.set_agree same r id value) fun attempt attempt' alike => ?_
    exact .pure ⟨alike.result, congrArg reference alike.kept⟩

omit agreeing in
theorem World.Alike.reflected {w w' : World σ} (alike : w.Alike o w') (r : Reflection) (id : ElementId) :
    r.get w' id name' = r.get w id name := by
  rw [Reflection.get, Reflection.get, alike.attributeView same]

end References

/-- Lists of the same attribute, which they name in letter cases of their own. -/
structure TokenList.Alike (l l' : TokenList) : Prop where
  element : l'.element = l.element
  name : Ascii.lower l'.attributeName = Ascii.lower l.attributeName
  supported : l'.supported = l.supported

namespace TokenList.Alike

variable {l l' : TokenList} (lists : l.Alike l')

include lists

theorem attribute? {w w' : World σ} (alike : w.Alike o w') :
    w'.attribute? l'.element l'.attributeName = w.attribute? l.element l.attributeName := by
  rw [lists.element]
  exact alike.attribute? lists.name l.element

theorem tokens {w w' : World σ} (alike : w.Alike o w') : l'.tokens w' = l.tokens w := by
  rw [TokenList.tokens, TokenList.tokens, lists.attribute? alike]

theorem value {w w' : World σ} (alike : w.Alike o w') : l'.value w' = l.value w := by
  rw [TokenList.value, TokenList.value, lists.attribute? alike]

theorem supports_agree (token : String) :
    ScriptAgree o host host' Eq (settle (l.supports token)) (settle (l'.supports token)) := by
  rw [TokenList.supports, TokenList.supports, lists.supported]
  cases l.supported with
  | none => exact .raise_of rfl
  | some tokens => exact .pure rfl

variable [agreeing : Agreeing o host host']

theorem setValue_agree (text : String) :
    ScriptAgree o host host' Eq (l.setValue text) (l'.setValue text) := by
  rw [TokenList.setValue, TokenList.setValue, lists.element]
  exact setAttribute_agree lists.name l.element text

theorem update_agree (set : TokenSet) :
    ScriptAgree o host host' Eq (l.update set) (l'.update set) := by
  refine ScriptAgree.get.bind_of fun w w' alike => ?_
  rw [lists.attribute? alike]
  exact .ite (.pure rfl) (lists.setValue_agree _)

theorem revise_agree (change : TokenSet → TokenSet) :
    ScriptAgree o host host' Eq (do l.update (change (l.tokens (← MonadState.get))))
      (do l'.update (change (l'.tokens (← MonadState.get)))) := by
  refine ScriptAgree.get.bind_of fun w w' alike => ?_
  rw [lists.tokens alike]
  exact lists.update_agree _

theorem add_agree (tokens : List String) :
    ScriptAgree o host host' Eq (l.add tokens) (l'.add tokens) :=
  (ScriptAgree.settle _).bind fun _ => lists.revise_agree (tokens.foldl TokenSet.add)

theorem remove_agree (tokens : List String) :
    ScriptAgree o host host' Eq (l.remove tokens) (l'.remove tokens) :=
  (ScriptAgree.settle _).bind fun _ => lists.revise_agree (·.remove tokens)

theorem toggle_agree (token : String) (force : Option Bool) :
    ScriptAgree o host host' Eq (l.toggle token force) (l'.toggle token force) := by
  refine (ScriptAgree.settle _).bind fun _ => ScriptAgree.get.bind_of fun w w' alike => ?_
  dsimp only
  rw [lists.tokens alike]
  refine .ite (.ite (.pure rfl) ?_) (.ite (.pure rfl) ?_)
  · exact (lists.update_agree _).bind fun _ => .pure rfl
  · exact (lists.update_agree _).bind fun _ => .pure rfl

theorem replace_agree (token new : String) :
    ScriptAgree o host host' Eq (l.replace token new) (l'.replace token new) := by
  refine (ScriptAgree.settle _).bind fun _ => (ScriptAgree.settle _).bind fun _ =>
    ScriptAgree.get.bind_of fun w w' alike => ?_
  dsimp only
  rw [lists.tokens alike]
  exact .ite ((lists.update_agree _).bind fun _ => .pure rfl) (.pure rfl)

end TokenList.Alike

namespace HandlerMapId

variable [agreeing : Agreeing o host host'] (m : HandlerMapId) {name name' : String}
  (same : Ascii.lower name' = Ascii.lower name)

include same

theorem setAttribute_agree {text : String} (followed : o.FollowsText text) :
    ScriptAgree o host host' Eq (m.setAttribute name text) (m.setAttribute name' text) := by
  refine ScriptAgree.get.bind_of fun w w' alike => ?_
  rw [alike.map?]
  cases w.map? m with
  | none => exact .pure rfl
  | some record =>
    have texts : ∀ source ∈ some text, o.FollowsText source :=
      fun source mem => Option.some.inj mem ▸ followed
    refine (WebBindings.setAttribute_agree same record.target text).bind fun _ => ?_
    refine (ScriptAgree.perform (m.followAttribute_agree same texts)).bind fun _ => ?_
    exact .pure rfl

theorem removeAttribute_agree :
    Agree o host host' Eq (m.removeAttribute name) (m.removeAttribute name') := by
  refine Agree.get.bind_of fun w w' alike => ?_
  rw [alike.map?]
  cases w.map? m with
  | none => exact .pure rfl
  | some record =>
    have none : ∀ source ∈ (none : Option String), o.FollowsText source :=
      fun _ mem => absurd mem (Option.not_mem_none _)
    refine (WebBindings.removeAttribute_agree same record.target).bind fun _ => ?_
    refine (m.followAttribute_agree same none).bind fun _ => ?_
    exact .pure rfl

end HandlerMapId

end WebBindings
