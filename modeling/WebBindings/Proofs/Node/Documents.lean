import WebBindings.Proofs.Node.Attributes
/-!
# Elements of documents

A document lists the elements that belong to it, in the order of their making. So what is found by an id
is the first element in use that bears the id, whatever was written to attributes before.
-/

namespace WebBindings

variable {σ : Type} {w w' : World σ} {d : DocumentId}

/-- A document that is there lists the elements that belong to it, the older ones first. -/
structure World.Lists (w : World σ) (d : DocumentId) : Prop where
  made : d.index < w.documents.size
  ascending : (w.document d).elements.Pairwise fun e e' => e.index < e'.index
  mem_iff : ∀ e, e ∈ (w.document d).elements ↔
    e.index < w.elements.size ∧ (w.element e).document = some d

/-- The documents are the same, and the same elements belong to them. -/
structure World.SameHomes (w w' : World σ) : Prop where
  documents : w'.documents = w.documents
  size : w'.elements.size = w.elements.size
  home : ∀ e, (w'.element e).document = (w.element e).document

instance : IsPreorder (World σ) World.SameHomes where
  refl _ := ⟨rfl, rfl, fun _ => rfl⟩
  trans _ _ _ first second :=
    ⟨second.documents.trans first.documents, second.size.trans first.size,
      fun e => (second.home e).trans (first.home e)⟩

namespace World.SameHomes

theorem of_modifyElement (id : ElementId) {f : Element → Element}
    (home : ∀ e, (f e).document = e.document) : w.SameHomes (w.modifyElement id f) where
  documents := rfl
  size := Array.size_modify
  home := fun e => by
    rw [World.element_modifyElement]
    split
    · exact home _
    · rfl

theorem document (same : w.SameHomes w') (d : DocumentId) : w'.document d = w.document d := by
  rw [World.document, World.document, same.documents]

theorem lists (same : w.SameHomes w') (lists : w.Lists d) : w'.Lists d where
  made := by rw [same.documents]; exact lists.made
  ascending := by rw [same.document]; exact lists.ascending
  mem_iff := fun e => by rw [same.document, same.size, same.home]; exact lists.mem_iff e

end World.SameHomes

section Writing

variable (host : Host σ) (id : ElementId) (name : String)

theorem setAttribute_keeps_homes (text : String) :
    ScriptMoves host World.SameHomes (setAttribute id name text) := by
  rw [setAttribute]
  split
  · have noted (level : LogLevel) (message : String) :
        Moves host World.SameHomes (log level message) := fun _ => ⟨rfl, rfl, fun _ => rfl⟩
    have written : ScriptMoves host World.SameHomes (modify fun w => w.modifyElement id fun e =>
        { e with attributes := e.attributes.insert (Ascii.lower name) text }) :=
      fun w => .of_modifyElement id fun _ => rfl
    refine ScriptMoves.get.bind fun w => ?_
    refine (ScriptMoves.perform (noted _ _)).bind fun _ => ?_
    exact written
  · exact ScriptMoves.raise _

theorem removeAttribute_keeps_homes : Moves host World.SameHomes (removeAttribute id name) :=
  fun _ => .of_modifyElement id fun _ => rfl

end Writing

section Making

variable (w : World σ)

theorem World.size_createElement (name : String) (document : Option DocumentId) :
    (w.createElement name document).2.elements.size = w.elements.size + 1 := by
  cases document <;> exact Array.size_push _

theorem World.documents_size_createElement (name : String) (document : Option DocumentId) :
    (w.createElement name document).2.documents.size = w.documents.size := by
  cases document with
  | none => rfl
  | some d => exact Array.size_modify

theorem World.document_createElement (name : String) (document : Option DocumentId) {d : DocumentId}
    (made : d.index < w.documents.size) :
    ((w.createElement name document).2.document d).elements =
      (w.document d).elements ++ if document = some d then [⟨w.elements.size⟩] else [] := by
  cases document with
  | none => rw [if_neg (by simp), List.append_nil]; rfl
  | some d' =>
    have hindex : d'.index = d.index ↔ d' = d := by cases d; cases d'; simp
    simp only [createElement, modifyDocument, World.document, Array.getElem?_modify, hindex,
      Option.some.injEq]
    by_cases here : d' = d
    · simp [here, made]
    · simp [here]

theorem World.element_createElement_of_lt (name : String) (document : Option DocumentId)
    {e : ElementId} (old : e.index < w.elements.size) :
    (w.createElement name document).2.element e = w.element e := by
  have pushed (record : Element) : (w.elements.push record)[e.index]? = w.elements[e.index]? := by
    rw [Array.getElem?_push, if_neg (Nat.ne_of_lt old)]
  cases document <;> exact congrArg (·.getD default) (pushed _)

theorem World.document_of_created (name : String) (document : Option DocumentId) :
    ((w.createElement name document).2.element ⟨w.elements.size⟩).document = document := by
  cases document <;> simp [createElement, modifyDocument, element]

end Making

theorem World.mem_document_createElement (w : World σ) (name : String) (document : Option DocumentId)
    (made : d.index < w.documents.size) {e : ElementId} :
    e ∈ ((w.createElement name document).2.document d).elements ↔
      e ∈ (w.document d).elements ∨ document = some d ∧ e = ⟨w.elements.size⟩ := by
  rw [document_createElement w name document made, List.mem_append]
  split <;> simp [*]

theorem World.createDocument_lists (w : World σ)
    (unborn : ∀ e, (w.element e).document ≠ some w.createDocument.1) :
    w.createDocument.2.Lists w.createDocument.1 := by
  have fresh : (w.createDocument.2.document w.createDocument.1).elements = [] := by
    simp [createDocument, document]
  refine ⟨by simp [createDocument], ?_, fun e => ?_⟩
  · rw [fresh]
    exact .nil
  · rw [fresh]
    exact ⟨nofun, fun h => (unborn e h.2).elim⟩

theorem World.Lists.createElement (lists : w.Lists d) (name : String) (document : Option DocumentId) :
    (w.createElement name document).2.Lists d := by
  have older {e : ElementId} (listed : e ∈ (w.document d).elements) : e.index < w.elements.size :=
    ((lists.mem_iff e).1 listed).1
  refine ⟨by rw [documents_size_createElement]; exact lists.made, ?_, fun e => ?_⟩
  · rw [document_createElement w name document lists.made]
    split
    · refine List.pairwise_append.2 ⟨lists.ascending, List.pairwise_singleton _ _, ?_⟩
      intro e listed new isNew
      rw [List.mem_singleton.1 isNew]
      exact older listed
    · rw [List.append_nil]
      exact lists.ascending
  · rw [mem_document_createElement w name document lists.made, size_createElement]
    -- Only the new element may change sides: older ones stay as they were, and younger ones are not there.
    obtain old | new | beyond := Nat.lt_trichotomy e.index w.elements.size
    · have other : e ≠ ⟨w.elements.size⟩ := by rintro rfl; exact Nat.lt_irrefl _ old
      rw [element_createElement_of_lt w name document old, lists.mem_iff]
      simp [other, old, Nat.lt_succ_of_lt old]
    · obtain rfl : e = ⟨w.elements.size⟩ := by cases e; simpa using new
      have fresh : ⟨w.elements.size⟩ ∉ (w.document d).elements := fun listed =>
        Nat.lt_irrefl _ (older listed)
      rw [document_of_created]
      simp [fresh]
    · have other : e ≠ ⟨w.elements.size⟩ := by rintro rfl; exact Nat.lt_irrefl _ beyond
      have unlisted : e ∉ (w.document d).elements := fun listed => Nat.lt_asymm (older listed) beyond
      have outside : ¬ e.index < w.elements.size + 1 := Nat.not_lt.2 beyond
      simp [other, unlisted, outside]

/-- An element in use that belongs to a document and bears an id. -/
structure World.Bears (w : World σ) (d : DocumentId) (id : String) (e : ElementId) : Prop where
  nonempty : id ≠ ""
  housed : e.index < w.elements.size
  home : (w.element e).document = some d
  live : w.isElementLive e = true
  bears : w.attribute? e "id" = some id

/-- The oldest of the elements that bear an id. -/
structure World.BearsFirst (w : World σ) (d : DocumentId) (id : String) (e : ElementId) : Prop
    extends World.Bears w d id e where
  first : ∀ e', w.Bears d id e' → e.index ≤ e'.index

theorem World.Lists.bears_iff (lists : w.Lists d) {id : String} (nonempty : id ≠ "") {e : ElementId} :
    w.Bears d id e ↔ e ∈ (w.document d).elements ∧
      (w.isElementLive e && w.attribute? e "id" = some id) = true := by
  rw [lists.mem_iff, Bool.and_eq_true, decide_eq_true_iff]
  exact ⟨fun h => ⟨⟨h.housed, h.home⟩, h.live, h.bears⟩, fun h => ⟨nonempty, h.1.1, h.1.2, h.2.1, h.2.2⟩⟩

theorem World.Lists.elementById?_eq_some_iff (lists : w.Lists d) {id : String} {e : ElementId} :
    w.elementById? d id = some e ↔ w.BearsFirst d id e := by
  rw [elementById?]
  by_cases empty : id = ""
  · rw [if_pos (by simp [empty])]
    exact ⟨nofun, fun first => (first.nonempty empty).elim⟩
  · rw [if_neg (by simpa using empty), List.find?_eq_some_iff_append]
    constructor
    · rintro ⟨bearing, older, younger, cut, passed⟩
      have listed : e ∈ (w.document d).elements := by simp [cut]
      refine ⟨(lists.bears_iff empty).2 ⟨listed, bearing⟩, fun e' bears => ?_⟩
      obtain ⟨listed', bearing'⟩ := (lists.bears_iff empty).1 bears
      have ascending := lists.ascending
      rw [cut] at listed' ascending
      obtain before | same | behind := by simpa using listed'
      · have passed' := passed e' before
        rw [bearing'] at passed'
        cases passed'
      · exact Nat.le_of_eq (congrArg _ same.symm)
      · exact Nat.le_of_lt (List.rel_of_pairwise_cons (List.pairwise_append.1 ascending).2.1 behind)
    · intro first
      obtain ⟨listed, bearing⟩ := (lists.bears_iff empty).1 first.toBears
      obtain ⟨older, younger, cut⟩ := List.append_of_mem listed
      refine ⟨bearing, older, younger, cut, fun e' before => ?_⟩
      have ascending := lists.ascending
      rw [cut] at ascending
      have less := (List.pairwise_append.1 ascending).2.2 e' before e (List.mem_cons_self ..)
      by_contra bears
      have bearing' : w.Bears d id e' :=
        (lists.bears_iff empty).2 ⟨by simp [cut, before], by simpa using bears⟩
      exact Nat.lt_irrefl _ (Nat.lt_of_lt_of_le less (first.first e' bearing'))

theorem World.Lists.elementById?_eq_none_iff (lists : w.Lists d) {id : String} :
    w.elementById? d id = none ↔ ∀ e, ¬ w.Bears d id e := by
  rw [elementById?]
  by_cases empty : id = ""
  · rw [if_pos (by simp [empty])]
    exact ⟨fun _ e bears => bears.nonempty empty, fun _ => rfl⟩
  · rw [if_neg (by simpa using empty), List.find?_eq_none]
    exact ⟨fun passed e bears => (passed e ((lists.bears_iff empty).1 bears).1)
        ((lists.bears_iff empty).1 bears).2,
      fun none e listed bearing => none e ((lists.bears_iff empty).2 ⟨listed, bearing⟩)⟩

end WebBindings
