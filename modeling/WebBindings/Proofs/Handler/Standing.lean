import WebBindings.Proofs.Handler.Properties
/-!
# The standing of a handler

What the writes and compilations of a history make of a handler, without the world: cleared, given a
callback, or in one of three stages of a text. The value of the handler and whether it is active are
those of its standing.
-/

namespace WebBindings

variable {σ τ : Type} {observe : σ → τ}

/-- What became of the last write to a handler. -/
inductive Standing
  | cleared
  | given (callback : ObjectId)
  | pending (source : String)
  | compiled (source : String) (function : ObjectId)
  | failed (source : String) (error : CompileError)

namespace Standing

def value : Standing → HandlerValue
  | .cleared => .none
  | .given callback => .compiled callback
  | .pending source => .uncompiled source
  | .compiled _ function => .compiled function
  | .failed _ _ => .none

/-- Only a cleared handler has no listener. -/
def isActive : Standing → Bool
  | .cleared => false
  | _ => true

def ofSetting (value : Value) : Standing :=
  match value.object? with
  | some callback => .given callback
  | none => .cleared

def ofAttribute (text : Option String) (blocked : Bool) : Standing :=
  match text, blocked with
  | some source, false => .pending source
  | _, _ => .cleared

def ofCompilation (source : String) : Except CompileError ObjectId → Standing
  | .ok function => .compiled source function
  | .error error => .failed source error

/-- The standing of a handler after one more happening. -/
def next (h : HandlerId) (standing : Standing) : Happening → Standing
  | .set k value => if k = h then ofSetting value else standing
  | .follow k text blocked => if k = h then ofAttribute text blocked else standing
  | .compile k source result => if k = h then ofCompilation source result else standing
  | _ => standing

variable {h : HandlerId} {standing : Standing} {a : Happening}

theorem next_of_effect_none (plain : a.effect? = none) : standing.next h a = standing := by
  cases a <;> first | rfl | simp [Happening.effect?] at plain

theorem next_of_effect_ne {k : HandlerId} {effect : HandlerEffect}
    (named : a.effect? = some (k, effect)) (hne : k ≠ h) : standing.next h a = standing := by
  cases a <;> simp only [Happening.effect?, reduceCtorEq, Option.some.injEq, Prod.mk.injEq] at named
  all_goals simp [next, named.1, hne]

theorem next_of_effect (standing : Standing) {effect : HandlerEffect} (named : a.effect? = some (h, effect))
    (pending : ∀ k source result, a = .compile k source result →
      standing.value = .uncompiled source) :
    (standing.next h a).value = effect.value ∧
      (standing.next h a).isActive = effect.isActive standing.isActive := by
  cases a with
  | set k value =>
    simp only [Happening.effect?, Option.some.injEq, Prod.mk.injEq] at named
    obtain ⟨rfl, rfl⟩ := named
    simp only [next, if_true, ofSetting, HandlerEffect.ofSetting]
    cases value.object? <;> exact ⟨rfl, rfl⟩
  | follow k text blocked =>
    simp only [Happening.effect?, Option.some.injEq, Prod.mk.injEq] at named
    obtain ⟨rfl, rfl⟩ := named
    simp only [next, if_true, ofAttribute, HandlerEffect.ofAttribute]
    cases text <;> cases blocked <;> exact ⟨rfl, rfl⟩
  | compile k source result =>
    simp only [Happening.effect?, Option.some.injEq, Prod.mk.injEq] at named
    obtain ⟨rfl, rfl⟩ := named
    have hvalue := pending k source result rfl
    have hactive : standing.isActive = true := by
      cases standing <;> first | rfl | simp [value] at hvalue
    simp only [next, if_true, hactive]
    cases result <;> exact ⟨rfl, rfl⟩
  | _ => simp [Happening.effect?] at named

end Standing

/-- A handler that exists has the value and activity of a standing, and another was never written. -/
def World.Stands (w : World σ) (h : HandlerId) (standing : Standing) : Prop :=
  match w.handler? h with
  | some s => s.value = standing.value ∧ s.activation.isActive = standing.isActive
  | none => standing = .cleared

namespace World.Stands

variable {w w' : World σ} {h : HandlerId} {standing : Standing}

theorem initial (x : σ) (h : HandlerId) : (World.initial x).Stands h .cleared := by
  simp [World.Stands, World.handler?, World.initial]

theorem of_found {s : EventHandler} (stands : w.Stands h standing) (found : w.handler? h = some s) :
    s.value = standing.value ∧ s.activation.isActive = standing.isActive := by
  rw [World.Stands, found] at stands
  exact stands

theorem congr (stands : w.Stands h standing) (same : w'.handler? h = w.handler? h) :
    w'.Stands h standing := by
  rw [World.Stands, same]
  exact stands

theorem addHandler (stands : w.Stands h standing) (target : ElementId) (type : String)
    (environment : HandlerEnvironment) : (w.addHandler target type environment).Stands h standing := by
  rw [World.Stands, World.handler?_addHandler]
  by_cases hh : h = ⟨w.handlers.size⟩
  · have hcleared : standing = .cleared := by
      rw [World.Stands, hh, w.handler?_size] at stands
      exact stands
    rw [if_pos hh, hcleared]
    exact ⟨rfl, rfl⟩
  · rw [if_neg hh]
    exact stands

theorem change {a : Happening} (stands : w.Stands h standing) (change : Change w a w') :
    w'.Stands h (standing.next h a) := by
  cases change with
  | other plain same =>
    rw [Standing.next_of_effect_none plain]
    exact stands.congr (same.handler? h)
  | listen _ same => exact stands.congr (same.handler? h)
  | unlisten _ same => exact stands.congr (same.handler? h)
  | create _ same => exact (stands.addHandler _ _ _).congr (same.handler? h)
  | createMap _ same => exact stands.congr (same.handler? h)
  | touch _ _ _ same => exact (stands.addHandler _ _ _).congr (same.handler? h)
  | @revise _ k effect s _ named found pending same =>
    refine World.Stands.congr ?_ (same.handler? h)
    rw [World.Stands, World.handler?_revise effect found]
    by_cases hk : k = h
    · subst k
      have hs := stands.of_found found
      have hnext := standing.next_of_effect named fun k source result ha =>
        hs.1.symm.trans (pending k source result ha)
      rw [if_pos rfl, hnext.1, hnext.2, ← hs.2]
      exact ⟨s.revised_value .., s.revised_isActive ..⟩
    · rw [if_neg hk, Standing.next_of_effect_ne named hk]
      exact stands

/-- Handlers stand after a history as its happenings tell. -/
theorem history {history : List Happening} (stands : w.Stands h standing)
    (run : History observe w history w') : w'.Stands h (history.foldl (Standing.next h) standing) := by
  induction run generalizing standing with
  | nil => exact stands
  | cons happens _ ih => exact ih (stands.change happens.change)

end World.Stands

theorem Standing.next_of_idle {h : HandlerId} (standing : Standing) {a : Happening}
    (unwritten : a.writes h = false) (uncompiled : a.compiles h = false) :
    standing.next h a = standing := by
  cases a with
  | set k value =>
    have hk : k ≠ h := by simpa [Happening.writes] using unwritten
    simp [next, hk]
  | follow k text blocked =>
    have hk : k ≠ h := by simpa [Happening.writes] using unwritten
    simp [next, hk]
  | compile k source result =>
    have hk : k ≠ h := by simpa [Happening.compiles] using uncompiled
    simp [next, hk]
  | _ => rfl

theorem World.Stands.of_compiles {w w' : World σ} {h : HandlerId} {standing : Standing}
    {a : Happening} (stands : w.Stands h standing) (happens : Happens observe w a w')
    (compiles : a.compiles h = true) : ∃ source result, a = .compile h source result ∧
      standing = .pending source ∧ standing.next h a = .ofCompilation source result := by
  cases happens with
  | @compile host engines k source s found pending =>
    have hk : k = h := by simpa [Happening.compiles] using compiles
    subst k
    have hvalue := (stands.of_found found).1.symm.trans pending
    refine ⟨source, _, rfl, ?_, by simp [Standing.next]⟩
    cases standing <;> simp_all [Standing.value]
  | _ => simp [Happening.compiles] at compiles

theorem World.Stands.uncompiled {w w' : World σ} {h : HandlerId} {standing : Standing}
    {a : Happening} (stands : w.Stands h standing) (settled : ∀ source, standing ≠ .pending source)
    (happens : Happens observe w a w') : a.compiles h = false := by
  by_contra hcompiles
  obtain ⟨source, _, _, hpending, _⟩ := stands.of_compiles happens (eq_true_of_ne_false hcompiles)
  exact settled source hpending

theorem World.Stands.of_settled {w w' : World σ} {h : HandlerId} {standing : Standing}
    {later : List Happening} (stands : w.Stands h standing)
    (settled : ∀ source, standing ≠ .pending source) (run : History observe w later w')
    (unwritten : ∀ a ∈ later, a.writes h = false) :
    w'.Stands h standing ∧ ∀ a ∈ later, a.compiles h = false := by
  induction run with
  | nil => exact ⟨stands, fun a ha => absurd ha List.not_mem_nil⟩
  | @cons w w₁ w' a later happens _ ih =>
    have huncompiled := stands.uncompiled settled happens
    have hnext := standing.next_of_idle (unwritten a List.mem_cons_self) huncompiled
    have stands₁ := stands.change happens.change
    rw [hnext] at stands₁
    obtain ⟨hstands, hlater⟩ := ih stands₁ fun b hb => unwritten b (List.mem_cons_of_mem a hb)
    exact ⟨hstands, List.forall_mem_cons.2 ⟨huncompiled, hlater⟩⟩

/-- Until it is written, a handler keeps its standing, except that its text is compiled once. -/
theorem World.Stands.until_written {w w' : World σ} {h : HandlerId} {standing : Standing}
    {later : List Happening} (stands : w.Stands h standing) (run : History observe w later w')
    (unwritten : ∀ a ∈ later, a.writes h = false) :
    (w'.Stands h standing ∧ ∀ a ∈ later, a.compiles h = false) ∨
      ∃ source before result rest, standing = .pending source ∧
        later = before ++ .compile h source result :: rest ∧
        (∀ a ∈ before ++ rest, a.compiles h = false) ∧
        w'.Stands h (.ofCompilation source result) := by
  induction run with
  | nil => exact .inl ⟨stands, fun a ha => absurd ha List.not_mem_nil⟩
  | @cons w w₁ w' a later happens rest ih =>
    have hunwritten : ∀ b ∈ later, b.writes h = false := fun b hb =>
      unwritten b (List.mem_cons_of_mem a hb)
    have stands₁ := stands.change happens.change
    cases hcompiles : a.compiles h with
    | true =>
      -- Nothing is pending after a compilation, so that no other one follows.
      obtain ⟨source, result, rfl, hpending, hnext⟩ := stands.of_compiles happens hcompiles
      rw [hnext] at stands₁
      have settled : ∀ source', Standing.ofCompilation source result ≠ .pending source' := by
        intro source'
        cases result <;> exact Standing.noConfusion
      obtain ⟨hstands, hlater⟩ := stands₁.of_settled settled rest hunwritten
      exact .inr ⟨source, [], result, later, hpending, rfl, hlater, hstands⟩
    | false =>
      rw [standing.next_of_idle (unwritten a List.mem_cons_self) hcompiles] at stands₁
      obtain ⟨hstands, hlater⟩ | ⟨source, before, result, after, hpending, rfl, hlater, hstands⟩ :=
        ih stands₁ hunwritten
      · exact .inl ⟨hstands, List.forall_mem_cons.2 ⟨hcompiles, hlater⟩⟩
      · exact .inr ⟨source, a :: before, result, after, hpending, rfl,
          List.forall_mem_cons.2 ⟨hcompiles, hlater⟩, hstands⟩

end WebBindings
