import WebBindings.Proofs.Handler.Consistency
/-!
# Positions of listeners

Listeners are only added at the end of a list and removed from it, so those that stay keep their
order. A handler keeps its listener, and with it its place, until it is deactivated.
-/

namespace WebBindings

variable {σ τ : Type} {observe : σ → τ}

namespace Element

/-- The listeners of an element after others were removed and new ones were added behind. -/
def Continues (e₀ e : Element) : Prop :=
  e₀.nextListener ≤ e.nextListener ∧ ∃ kept added, e.listeners = kept ++ added ∧
    kept.Sublist e₀.listeners ∧ ∀ l ∈ added, e₀.nextListener ≤ l.id.number

namespace Continues

variable {e₀ e e' : Element}

theorem refl (e : Element) : e.Continues e :=
  ⟨Nat.le_refl _, e.listeners, [], by simp, List.Sublist.refl _, by simp⟩

theorem of_eq (listeners : e.listeners = e₀.listeners) (next : e.nextListener = e₀.nextListener) :
    e₀.Continues e :=
  ⟨Nat.le_of_eq next.symm, e.listeners, [], by simp, by rw [listeners], by simp⟩

theorem trans (first : e₀.Continues e) (second : e.Continues e') : e₀.Continues e' := by
  obtain ⟨hle, kept, added, hlisteners, hkept, hadded⟩ := first
  obtain ⟨hle', kept', added', hlisteners', hkept', hadded'⟩ := second
  rw [hlisteners, List.sublist_append_iff] at hkept'
  obtain ⟨old, new, rfl, hold, hnew⟩ := hkept'
  refine ⟨Nat.le_trans hle hle', old, new ++ added', by rw [hlisteners', List.append_assoc],
    hold.trans hkept, fun l hl => ?_⟩
  obtain hl | hl := List.mem_append.1 hl
  · exact hadded l (hnew.subset hl)
  · exact Nat.le_trans hle (hadded' l hl)

theorem addListener (e : Element) (type : String) (action : ListenerAction) :
    e.Continues (e.addListener type action).2 := by
  refine ⟨Nat.le_succ _, e.listeners, [⟨⟨e.nextListener⟩, type, action⟩], rfl, List.Sublist.refl _, ?_⟩
  intro l hl
  obtain rfl := List.mem_singleton.1 hl
  exact Nat.le_refl _

theorem removeListener (e : Element) (type : String) (id : ListenerId) :
    e.Continues (e.removeListener type id) :=
  ⟨Nat.le_refl _, _, [], (List.append_nil _).symm, List.filter_sublist, by simp⟩

theorem revised (s : EventHandler) (h : HandlerId) (e : Element) (effect : HandlerEffect) :
    e.Continues (s.revised h e effect).2 := by
  obtain hsame | hadded | ⟨id, -, hremoved⟩ := s.revised_element h e effect
  · rw [hsame]
    exact refl e
  · rw [hadded]
    exact addListener e _ _
  · rw [hremoved]
    exact removeListener e _ _

theorem split (continues : e₀.Continues e) (orderly : e₀.Orderly) {before after : List Listener}
    {l : Listener} (place : e₀.listeners = before ++ l :: after) (stays : l ∈ e.listeners) :
    ∃ before' after' added, e.listeners = before' ++ l :: (after' ++ added) ∧
      before'.Sublist before ∧ after'.Sublist after ∧
      ∀ k ∈ added, e₀.nextListener ≤ k.id.number := by
  obtain ⟨-, kept, added, hlisteners, hkept, hadded⟩ := continues
  have hl : l ∈ e₀.listeners := by simp [place]
  have hnodup : (before ++ l :: after).Nodup := place ▸ orderly.ids_nodup.of_map _
  rw [List.nodup_append, List.nodup_cons] at hnodup
  obtain ⟨-, ⟨hafter, -⟩, hbefore⟩ := hnodup
  -- It is none of the new ones, whose numbers were not given yet.
  have hstays : l ∈ kept := by
    rw [hlisteners, List.mem_append] at stays
    refine stays.resolve_right fun hmem => ?_
    exact Nat.not_le_of_lt (orderly.bounded l hl) (hadded l hmem)
  rw [place, List.sublist_append_iff] at hkept
  obtain ⟨early, late, rfl, hearly, hlate⟩ := hkept
  -- It is kept once, between what is kept of the two sides.
  have hnear : l ∈ late := (List.mem_append.1 hstays).resolve_left fun hmem =>
    hbefore l (hearly.subset hmem) l List.mem_cons_self rfl
  obtain hlost | ⟨rest, rfl, hrest⟩ := List.sublist_cons_iff.1 hlate
  · exact absurd (hlost.subset hnear) hafter
  · exact ⟨early, rest, added, by rw [hlisteners]; simp, hearly, hrest, hadded⟩

end Continues

end Element

/-- Whatever happens, lists of listeners are only edited in these ways. -/
theorem Change.continues {w w' : World σ} {a : Happening} (change : Change w a w')
    (t : ElementId) : (w.element t).Continues (w'.element t) := by
  have edited {u : ElementId} {f : Element → Element} (step : ∀ e : Element, e.Continues (f e))
      (same : (w.modifyElement u f).SameRecords w') : (w.element t).Continues (w'.element t) := by
    rw [same.element, World.element_modifyElement]
    split
    · exact step _
    · exact .refl _
  cases change with
  | other _ same => exact .of_eq (same.listeners t) (same.nextListener t)
  | listen _ same => exact edited (fun e => .addListener e _ _) same
  | unlisten _ same => exact edited (fun e => .removeListener e _ _) same
  | create _ same =>
    rw [same.element]
    exact .refl _
  | createMap _ same =>
    rw [same.element]
    exact .refl _
  | touch _ _ _ same =>
    rw [same.element]
    exact .refl _
  | @revise _ h effect s _ _ found _ same =>
    have helement : (w.revise h s effect).element t = (w.modifyElement s.target fun _ =>
        (s.revised h (w.element s.target) effect).2).element t := rfl
    rw [same.element, helement, World.element_modifyElement]
    split
    · rename_i ht
      rw [← ht.1]
      exact .revised s h _ effect
    · exact .refl _

theorem History.continues {w w' : World σ} {history : List Happening}
    (run : History observe w history w') (t : ElementId) : (w.element t).Continues (w'.element t) := by
  induction run with
  | nil => exact .refl _
  | cons happens _ ih => exact (happens.change.continues t).trans ih

/-- Whether a happening deactivates a handler: a script sets no object, or the content attribute is
removed or blocked. -/
def Happening.deactivates (h : HandlerId) : Happening → Bool
  | .set k value => k = h && value.object?.isNone
  | .follow k text blocked => k = h && (text.isNone || blocked)
  | _ => false

theorem Happening.deactivates_of_clear {h : HandlerId} {a : Happening}
    (named : a.effect? = some (h, .clear)) : a.deactivates h = true := by
  cases a with
  | set k value =>
    simp only [effect?, Option.some.injEq, Prod.mk.injEq, HandlerEffect.ofSetting] at named
    obtain ⟨rfl, hclear⟩ := named
    cases hobject : value.object? with
    | none => simp [deactivates, hobject]
    | some callback => simp [hobject] at hclear
  | follow k text blocked =>
    simp only [effect?, Option.some.injEq, Prod.mk.injEq] at named
    obtain ⟨rfl, hclear⟩ := named
    cases text <;> cases blocked <;> simp_all [deactivates, HandlerEffect.ofAttribute]
  | compile k source result =>
    cases result <;> simp [effect?, HandlerEffect.ofCompilation] at named
  | _ => simp [effect?] at named

theorem Change.of_found {w w' : World σ} {a : Happening} {h : HandlerId} {s : EventHandler}
    (change : Change w a w') (found : w.handler? h = some s) : w'.handler? h = some s ∨
      ∃ effect, a.effect? = some (h, effect) ∧ (w.revise h s effect).SameRecords w' := by
  have hne : h ≠ ⟨w.handlers.size⟩ := fun hh => by simp [hh, w.handler?_size] at found
  cases change with
  | other _ same => exact .inl ((same.handler? h).trans found)
  | listen _ same => exact .inl ((same.handler? h).trans found)
  | unlisten _ same => exact .inl ((same.handler? h).trans found)
  | create _ same =>
    refine .inl ((same.handler? h).trans ?_)
    rw [World.handler?_addHandler, if_neg hne, found]
  | createMap _ same => exact .inl ((same.handler? h).trans found)
  | touch _ _ _ same =>
    refine .inl ((same.handler? h).trans ?_)
    exact (World.handler?_addHandler w _ _ _ h).trans ((if_neg hne).trans found)
  | @revise _ k effect s₁ _ named found₁ _ same =>
    by_cases hk : k = h
    · subst k
      rw [found] at found₁
      cases found₁
      exact .inr ⟨effect, named, same⟩
    · rw [same.handler?, World.handler?_revise effect found₁, if_neg hk]
      exact .inl found

theorem Change.registration {w w' : World σ} {a : Happening} {h : HandlerId} {s : EventHandler}
    {id : ListenerId} (change : Change w a w') (found : w.handler? h = some s)
    (active : s.activation.registration = some id) (stays : a.deactivates h = false) :
    ∃ s', w'.handler? h = some s' ∧ s'.activation.registration = some id := by
  obtain found' | ⟨effect, named, same⟩ := change.of_found found
  · exact ⟨s, found', active⟩
  · rw [same.handler?, World.handler?_revise effect found]
    refine ⟨_, if_pos rfl, ?_⟩
    cases effect with
    | keep value => exact active
    | take value => simp [EventHandler.revised, active]
    | clear => exact absurd (Happening.deactivates_of_clear named) (by simp [stays])

theorem History.registration {w w' : World σ} {history : List Happening} {h : HandlerId}
    {s : EventHandler} {id : ListenerId} (run : History observe w history w')
    (found : w.handler? h = some s) (active : s.activation.registration = some id)
    (stays : ∀ a ∈ history, a.deactivates h = false) :
    ∃ s', w'.handler? h = some s' ∧ s'.activation.registration = some id := by
  induction run generalizing s with
  | nil => exact ⟨s, found, active⟩
  | @cons _ _ _ a later happens _ ih =>
    obtain ⟨s₁, found₁, active₁⟩ :=
      happens.change.registration found active (stays a List.mem_cons_self)
    exact ih found₁ active₁ fun b hb => stays b (List.mem_cons_of_mem a hb)

theorem Change.activation {w w' : World σ} {a : Happening} {h : HandlerId} {s s' : EventHandler}
    (linked : w.Linked) (change : Change w a w') (found : w.handler? h = some s)
    (inactive : s.activation.registration = none) (found' : w'.handler? h = some s')
    (active : s'.activation.isActive = true) :
    s'.activation.registration = some ⟨(w.element s.target).nextListener⟩ ∧
      (w'.element s.target).listeners = (w.element s.target).listeners ++
        [s'.listener h ⟨(w.element s.target).nextListener⟩] := by
  have hinactive : s.activation.isActive = false := by simp [Activation.isActive, inactive]
  obtain hsame | ⟨effect, -, same⟩ := change.of_found found
  · rw [found'] at hsame
    cases hsame
    exact absurd active (by simp [hinactive])
  · rw [same.handler?, World.handler?_revise effect found, if_pos rfl] at found'
    cases found'
    rw [EventHandler.revised_isActive, hinactive] at active
    rw [same.element, World.element_revise effect (linked.present found), if_pos rfl]
    cases effect with
    | keep value => exact absurd active Bool.false_ne_true
    | clear => exact absurd active Bool.false_ne_true
    | take value =>
      simp only [EventHandler.revised, inactive, EventHandler.listener]
      rw [(linked.linked found).type]
      exact ⟨rfl, rfl⟩

end WebBindings
