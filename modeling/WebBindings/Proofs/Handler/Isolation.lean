import WebBindings.Proofs.Handler.Routing
/-!
# Properties do not interfere

A run of operations on a handler map is, as far as one property goes, the run of the operations that are
routed to this property. What is routed to another property may be left out of it.
-/

namespace WebBindings

variable {σ τ : Type}

theorem eventTypeOf?_inj {p q type : String} (first : eventTypeOf? p = some type)
    (second : eventTypeOf? q = some type) : p = q := by
  unfold eventTypeOf? at first second
  split at first
  · rename_i c rest hp
    split at second
    · rename_i d rest' hq
      have same := congrArg String.toList (Option.some.inj (first.trans second.symm))
      rw [String.toList_ofList, String.toList_ofList] at same
      exact String.toList_inj.1 (by rw [hp, hq, same])
    · cases second
  · cases first

namespace MapOperation

/-- The world that operations leave, one after the other. -/
def performAll (host : Host σ) (m : HandlerMapId) : List MapOperation → World σ → World σ
  | [], w => w
  | op :: ops, w => performAll host m ops (after host (op.perform m).run w)

/-- What can be seen of an operation. -/
def exchange (host : Host σ) (noted : σ → List τ) (m : HandlerMapId) (op : MapOperation) (w : World σ) :
    Exchange τ :=
  let (answer, w') := outcome host (op.perform m).run w
  ⟨answer, op.compiled? (w.stored m op.property) (w'.stored m op.property),
    (noted w'.embedder).drop (noted w.embedder).length⟩

/-- What can be seen of the operations that are routed to one property. -/
def exchanges (host : Host σ) (noted : σ → List τ) (m : HandlerMapId) (property : String) :
    List MapOperation → World σ → List (Exchange τ)
  | [], _ => []
  | op :: ops, w =>
    (if op.property = property then [op.exchange host noted m w] else []) ++
      exchanges host noted m property ops (after host (op.perform m).run w)

end MapOperation

/-- A function that an operation gives to a handler, or that the handler had from the start. -/
def Given (v : Stored) (ops : List MapOperation) (f : ObjectId) : Prop :=
  v.callback? = some f ∨ ∃ op ∈ ops, op.given? = some f

/-- Functions of two runs count as the same if they are one and were given, or if they were made of the
same text in the same place. -/
def SameFunction (v : Stored) (ops : List MapOperation) (exchanges exchanges' : List (Exchange τ))
    (f g : ObjectId) : Prop :=
  f = g ∧ Given v ops f ∨ Counterparts exchanges exchanges' f g

section Runs

variable {host : Host σ} {noted : σ → List τ} {entry : Sink → CompileError → τ} {w w₀ : World σ}
  {m : HandlerMapId} {target : ElementId} {environment : HandlerEnvironment} {property type : String}

namespace MapOperation

theorem Routed.exchange {op : MapOperation} {blocked : Bool} {result : Except CompileError ObjectId}
    (routed : op.Routed host noted entry m target environment blocked result w) :
    op.exchange host noted m w =
      let v := w.stored m op.property
      let v' := op.next v blocked result
      ⟨op.answer v', op.compiled? v v',
        (op.failures v result).map (entry (environment.reporter.sink? w.sharedSink))⟩ := by
  have seen : op.exchange host noted m w = ⟨(outcome host (op.perform m).run w).1,
      op.compiled? (w.stored m op.property) ((after host (op.perform m).run w).stored m op.property),
      (noted (after host (op.perform m).run w).embedder).drop (noted w.embedder).length⟩ := rfl
  rw [seen, routed.answer, routed.updates.stored, routed.reported.noted, List.drop_left]

variable (impartial : host.Impartial) (notes : host.Notes noted entry)

include impartial notes

theorem moves (houses : w.Houses m target environment) (op : MapOperation) :
    (after host (op.perform m).run w).Houses m target environment ∧
      w.SamePlaces (after host (op.perform m).run w) := by
  cases named : eventTypeOf? op.property with
  | none =>
    obtain ⟨same, setting⟩ := unrouted houses notes named
    exact ⟨houses.of_sameHandling same, setting.toSamePlaces⟩
  | some type =>
    obtain ⟨result, -, routed⟩ := routed w houses impartial notes named rfl
    exact ⟨routed.updates.houses, routed.reported.toSamePlaces⟩

theorem elsewhere (houses : w.Houses m target environment) (named : eventTypeOf? property = some type)
    {op : MapOperation} (apart : op.property ≠ property) :
    (after host (op.perform m).run w).stored m property = w.stored m property ∧
      (((after host (op.perform m).run w).element target).listenersOf type).length =
        ((w.element target).listenersOf type).length := by
  cases other : eventTypeOf? op.property with
  | none =>
    obtain ⟨same, -⟩ := unrouted houses notes other
    have unchanged : w.Updates m target environment property _ _ := houses.unchanged same
    exact ⟨unchanged.stored, Nat.add_right_cancel (unchanged.listeners type)⟩
  | some otherType =>
    obtain ⟨result, -, routed⟩ := routed w houses impartial notes other rfl
    refine ⟨routed.updates.others property (Ne.symm apart), ?_⟩
    have distinct : otherType ≠ type := by
      rintro rfl
      exact apart (eventTypeOf?_inj other named)
    simpa [Stored.share, other, distinct] using routed.updates.listeners type

/-- As far as a property goes, a run is the run of what is routed to it, on its handler by itself. -/
theorem solo (named : eventTypeOf? property = some type) (ops : List MapOperation)
    (houses : w.Houses m target environment) (places : w₀.SamePlaces w) :
    Solo (environment.blocksAt host type w₀) (environment.compilesAt host type target w₀)
        (entry (environment.reporter.sink? w₀.sharedSink)) (w.stored m property)
        (ops.filter fun op => op.property = property) (exchanges host noted m property ops w)
        ((performAll host m ops w).stored m property) ∧
      (((performAll host m ops w).element target).listenersOf type).length +
          (w.stored m property).active.toNat =
        ((w.element target).listenersOf type).length +
          ((performAll host m ops w).stored m property).active.toNat := by
  induction ops generalizing w with
  | nil => exact ⟨.nil, rfl⟩
  | cons op ops ih =>
    obtain ⟨houses', places'⟩ := op.moves impartial notes houses
    obtain ⟨rest, counted⟩ := ih houses' (places.trans places')
    -- An operation of the property is the next one of its handler; all others change nothing of it.
    by_cases own : op.property = property
    · subst own
      obtain ⟨result, outcomes, routed⟩ :=
        routed w₀ houses impartial notes named (places.scope target environment.global)
      have listeners := routed.updates.listeners type
      have exchanged := routed.exchange
      rw [places.sharedSink] at exchanged
      rw [routed.updates.stored] at rest counted
      refine ⟨?_, ?_⟩
      · simp only [exchanges, performAll, List.filter_cons, decide_true, if_true, exchanged]
        exact .cons outcomes rfl rest
      · simp only [Stored.share, named, if_true] at listeners
        simp only [performAll]
        omega
    · obtain ⟨stored, listeners⟩ := elsewhere impartial notes houses named own
      rw [stored] at rest counted
      rw [listeners] at counted
      simpa [exchanges, performAll, own] using And.intro rest counted

end MapOperation

end Runs

theorem Stored.Alike.functions {same : ObjectId → ObjectId → Prop} {v v' : Stored} {f g : ObjectId}
    {active active' : Bool} (alike : Stored.Alike same v v') (compiled : v = ⟨.compiled f, active⟩)
    (compiled' : v' = ⟨.compiled g, active'⟩) : same f g := by
  subst compiled compiled'
  cases alike.value with
  | compiled same => exact same

theorem MapOperation.filter_kept {p q : String} (apart : p ≠ q) (ops : List MapOperation) :
    (ops.filter fun op => op.property ≠ q).filter (fun op => op.property = p) =
      ops.filter fun op => op.property = p := by
  rw [List.filter_filter]
  refine List.filter_congr fun op _ => ?_
  by_cases own : op.property = p
  · simp [own, apart]
  · simp [own]

/-- Handlers of different properties do not interfere: when all that is routed to one property is left
out of a run, what is routed to another answers and reports the same, and its handler has the same value,
is as active as before, and its event type has as many listeners. Only the functions that were made of
the same texts may be others. -/
theorem properties_do_not_interfere {υ : Type} {observe : σ → υ} {x : σ} {host : Host σ}
    {noted : σ → List τ} {entry : Sink → CompileError → τ} (impartial : host.Impartial)
    (notes : host.Notes noted entry) {w : World σ} (reached : w.Reached observe x) {m : HandlerMapId}
    {record : HandlerMap} (found : w.map? m = some record) {p q type : String}
    (named : eventTypeOf? p = some type) (apart : p ≠ q) (ops : List MapOperation) :
    let kept := ops.filter fun op => op.property ≠ q
    let all := MapOperation.exchanges host noted m p ops w
    let rest := MapOperation.exchanges host noted m p kept w
    let w₁ := MapOperation.performAll host m ops w
    let w₂ := MapOperation.performAll host m kept w
    let same := SameFunction (w.stored m p) (ops.filter fun op => op.property = p) all rest
    List.Forall₂ (Exchange.Alike same) all rest ∧ Stored.Alike same (w₁.stored m p) (w₂.stored m p) ∧
      ((w₂.element record.target).listenersOf type).length =
        ((w₁.element record.target).listenersOf type).length := by
  intro kept all rest w₁ w₂ same
  obtain ⟨history, run⟩ := reached
  obtain ⟨linked, mapped⟩ := run.linked (.initial x) (.initial x)
  have houses : w.Houses m record.target record.environment := ⟨linked, mapped, record.states, found⟩
  obtain ⟨solo, counted⟩ := MapOperation.solo impartial notes named ops houses (.refl w)
  obtain ⟨solo', counted'⟩ := MapOperation.solo impartial notes named kept houses (.refl w)
  rw [MapOperation.filter_kept apart ops] at solo'
  have start : Stored.Alike same (w.stored m p) (w.stored m p) := by
    refine ⟨.self fun f compiled => .inl ⟨rfl, .inl ?_⟩, rfl⟩
    rw [Stored.callback?, compiled]
  obtain ⟨exchanged, ended⟩ := solo.alike solo' start
    (fun op mem f given => .inl ⟨rfl, .inr ⟨op, mem, given⟩⟩) fun f g made => .inr made
  refine ⟨exchanged, ended, ?_⟩
  rw [ended.active] at counted'
  exact Nat.add_right_cancel (counted'.trans counted.symm)

/-- An embedder that writes down what is reported. Its engine makes a new object of every text that has
an end. -/
def Embedder.scribe : Embedder (List String) where
  record level message s := if level = .error then s ++ [message] else s
  hostLog _ _ message s := s ++ [message]
  report _ heap error s := s ++ [error.shown heap]
  blocks _ _ s := (false, s)
  checkSyntax _ body s := (if body = "f(" then .error (.reported .syntactic "no end") else .ok ⟨⟩, s)
  compile _ _ _ _ heap s :=
    let (function, heap) := heap.newObject
    (.ok function, heap, s)
  callback _ s := (none, s)
  call _ _ _ w := (.ok .undefined, w)
  listen _ _ w := w

/-- How an error is written down. -/
def Sink.written (error : CompileError) : Sink → String
  | .console => LogLevel.exceptionLine ("Uncaught " ++ error.toScriptError.shown .initial) none
  | .logger .console => LogLevel.consoleLine ("Uncaught " ++ error.toScriptError.shown .initial)
  | .logger (.external _) => "Uncaught " ++ error.toScriptError.shown .initial
  | .external _ => error.toScriptError.shown .initial

theorem Embedder.scribe_impartial : Embedder.scribe.host.Impartial :=
  ⟨fun _ _ _ _ => rfl, fun _ _ _ _ => rfl, fun _ _ _ _ _ _ _ _ => rfl⟩

theorem Embedder.scribe_notes :
    Embedder.scribe.host.Notes id fun sink error => sink.written error where
  report sink error w := by
    cases sink with
    | logger l => cases l <;> rfl
    | _ => rfl
  react _ _ w := ⟨refl_of World.SameRecords w, refl_of (World.SameSetting id) w⟩
  record _ plain _ _ := if_neg plain
  blocks _ _ _ := rfl
  checkSyntax _ _ _ := rfl
  compile _ _ _ _ _ _ := rfl

/-- An element with a map of handlers. -/
def World.furnished : World (List String) :=
  ((World.initial []).createElement "div" none).2.addMap ⟨0⟩ .idle

theorem World.furnished_reached : World.furnished.Reached (fun _ => ()) [] :=
  ⟨[.other, .createMap ⟨0⟩ .idle],
    .cons (.other ⟨World.createElement_sameHandling _ "div" none, rfl⟩)
      (.single (.createMap Embedder.scribe.host Nat.zero_lt_one))⟩

/-- Two handlers follow their attributes and are read. -/
def loadAndClick : List MapOperation :=
  [.setAttribute "onLoad" "g()", .get "onload", .setAttribute "onClick" "f()", .get "onclick"]

/-- Without the other handler, the engine makes another object of the same text. -/
theorem click_without_load :
    let host := Embedder.scribe.host
    let kept := loadAndClick.filter fun op => op.property ≠ "onload"
    ((MapOperation.performAll host ⟨0⟩ loadAndClick World.furnished).stored ⟨0⟩ "onclick" =
        ⟨.compiled ⟨10⟩, true⟩ ∧
      (MapOperation.performAll host ⟨0⟩ kept World.furnished).stored ⟨0⟩ "onclick" =
        ⟨.compiled ⟨9⟩, true⟩) ∧
    Counterparts (MapOperation.exchanges host id ⟨0⟩ "onclick" loadAndClick World.furnished)
      (MapOperation.exchanges host id ⟨0⟩ "onclick" kept World.furnished) ⟨10⟩ ⟨9⟩ := by
  intro host kept
  have stored : (MapOperation.performAll host ⟨0⟩ loadAndClick World.furnished).stored ⟨0⟩ "onclick" =
      ⟨.compiled ⟨10⟩, true⟩ := by decide +kernel
  have stored' : (MapOperation.performAll host ⟨0⟩ kept World.furnished).stored ⟨0⟩ "onclick" =
      ⟨.compiled ⟨9⟩, true⟩ := by decide +kernel
  have named : eventTypeOf? "onclick" = some "click" := by decide +kernel
  have found : World.furnished.map? ⟨0⟩ = some ⟨⟨0⟩, .idle, .empty⟩ := rfl
  have apart : "onclick" ≠ "onload" := by decide
  obtain ⟨-, alike, -⟩ := properties_do_not_interfere Embedder.scribe_impartial Embedder.scribe_notes
    World.furnished_reached found named apart loadAndClick
  refine ⟨⟨stored, stored'⟩, ?_⟩
  obtain ⟨equal, -⟩ | counterparts := alike.functions stored stored'
  · exact absurd equal (by decide)
  · exact counterparts

end WebBindings
