import WebBindings.Node.Element
import WebBindings.Proofs.Handler.Handling
/-!
# Writing attributes

What setting and removing an attribute does to the elements of a world: one attribute of one element is
written, all others stay as they are and in order, and a refused name leaves everything alone.
-/

namespace WebBindings

variable {σ : Type}

/-- Elements are the same but for one attribute of one of them, beside which its attributes are the same
and in the same order. -/
structure World.RewritesOnly (id : ElementId) (name : String) (w w' : World σ) : Prop where
  size : w'.elements.size = w.elements.size
  elsewhere : ∀ e, e ≠ id → w'.element e = w.element e
  others : (w'.element id).attributes.erase (Ascii.lower name) =
    (w.element id).attributes.erase (Ascii.lower name)

namespace World.RewritesOnly

variable {id : ElementId} {name : String} {w w' : World σ}

theorem of_elements (same : w'.elements = w.elements) : w.RewritesOnly id name w' := by
  have element (e : ElementId) : w'.element e = w.element e := by rw [World.element, World.element, same]
  exact ⟨by rw [same], fun e _ => element e, by rw [element]⟩

theorem trans {w'' : World σ} (first : w.RewritesOnly id name w') (second : w'.RewritesOnly id name w'') :
    w.RewritesOnly id name w'' where
  size := second.size.trans first.size
  elsewhere := fun e other => (second.elsewhere e other).trans (first.elsewhere e other)
  others := second.others.trans first.others

theorem attribute?_other (only : w.RewritesOnly id name w') {e : ElementId} {other : String}
    (apart : e ≠ id ∨ Ascii.lower other ≠ Ascii.lower name) :
    w'.attribute? e other = w.attribute? e other := by
  rw [attribute?, attribute?]
  by_cases here : e = id
  · subst here
    have different := apart.resolve_left (not_not_intro rfl)
    rw [Element.attribute?, Element.attribute?, ← OrderedMap.get?_erase_of_ne _ different, only.others,
      OrderedMap.get?_erase_of_ne _ different]
  · rw [only.elsewhere e here]

end World.RewritesOnly

/-- One attribute is written, to a text or to nothing, if the element is there. -/
structure World.Writes (id : ElementId) (name : String) (text : Option String) (w w' : World σ) : Prop
    extends World.RewritesOnly id name w w' where
  written : id.index < w.elements.size → w'.attribute? id name = text

namespace World.Writes

variable {id : ElementId} {name : String} {text : Option String} {w w' : World σ}

theorem of_elements (same : w'.elements = w.elements) :
    w.Writes id name (w.attribute? id name) w' where
  toRewritesOnly := .of_elements same
  written := fun _ => by rw [attribute?, attribute?, element, element, same]

theorem attribute?_eq (writes : w.Writes id name text w') {e : ElementId}
    (housed : e.index < w.elements.size) (other : String) :
    w'.attribute? e other =
      if id = e ∧ Ascii.lower name = Ascii.lower other then text else w.attribute? e other := by
  split
  · rename_i here
    obtain ⟨rfl, same⟩ := here
    rw [← writes.written housed, attribute?, attribute?, Element.attribute?, Element.attribute?, same]
  · rename_i apart
    refine writes.attribute?_other ?_
    by_cases here : e = id
    · exact .inr fun same => apart ⟨here.symm, same.symm⟩
    · exact .inl here

theorem of_elements_trans {w₀ : World σ} (same : w.elements = w₀.elements)
    (writes : w.Writes id name text w') : w₀.Writes id name text w' where
  toRewritesOnly := (RewritesOnly.of_elements same).trans writes.toRewritesOnly
  written := fun housed => writes.written (same ▸ housed)

theorem of_modify {f : OrderedMap String String → OrderedMap String String}
    (elements : w'.elements = w.elements.modify id.index fun e => { e with attributes := f e.attributes })
    (others : ∀ m, (f m).erase (Ascii.lower name) = m.erase (Ascii.lower name))
    (written : ∀ m, (f m).get? (Ascii.lower name) = text) : w.Writes id name text w' := by
  have element (e : ElementId) : w'.element e =
      if id = e ∧ id.index < w.elements.size then
        { w.element e with attributes := f (w.element e).attributes } else w.element e := by
    rw [← World.element_modifyElement w id e fun e => { e with attributes := f e.attributes }]
    rw [World.element, elements]
    rfl
  constructor
  · constructor
    · rw [elements, Array.size_modify]
    · intro e other
      rw [element, if_neg fun here => other here.1.symm]
    · rw [element]
      split
      · exact others _
      · rfl
  · intro housed
    rw [World.attribute?, Element.attribute?, element, if_pos ⟨rfl, housed⟩]
    exact written _

end World.Writes

theorem setAttribute_writes (host : Host σ) (id : ElementId) {name : String}
    (valid : Element.isValidAttributeName name = true) (text : String) (w : World σ) :
    ∃ w', outcome host (setAttribute id name text).run w = (.ok ⟨⟩, w') ∧
      w.Writes id name (some text) w' := by
  simp only [setAttribute, valid, if_true]
  exact ⟨_, rfl, .of_modify rfl (fun m => m.erase_insert _ _) fun m => m.get?_insert_self _ _⟩

theorem outcome_setAttribute_of_invalid (host : Host σ) (w : World σ) (id : ElementId)
    {name : String} (invalid : Element.isValidAttributeName name = false) (text : String) :
    outcome host (setAttribute id name text).run w =
      (.error (.fault (.invalidAttributeName name)), w) := by
  rw [setAttribute, invalid]
  rfl

theorem removeAttribute_writes (host : Host σ) (id : ElementId) (name : String) (w : World σ) :
    ∃ w', outcome host (removeAttribute id name) w = (⟨⟩, w') ∧ w.Writes id name none w' :=
  ⟨_, rfl, .of_modify rfl (fun m => m.erase_erase _) fun m => m.get?_erase_self _⟩

/-- A world with one element that has two attributes. -/
def labeledWorld : World Unit :=
  { World.initial ⟨⟩ with
    elements :=
      #[⟨"div", ⟨0⟩, .ofList [("id", "menu"), ("class", " wide dark\twide ")], [], 0, none, none⟩] }

end WebBindings
