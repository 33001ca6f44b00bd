import WebBindings.Invocation
import WebBindings.Proofs.Likeness.Script
/-!
# Agreement of calls

Calls on two embedders agree if the functions of the embedders do, however deeply the calls are nested.
-/

namespace WebBindings

variable {σ : Type} {o : Observer σ}

namespace World.Alike

variable {w w' : World σ} (alike : w.Alike o w') (id : EventId)

include alike

theorem event : w'.event id = w.event id := alike.reads (·.event id) fun _ _ _ => rfl

theorem modifyEvent (f : Event → Event) : (w.modifyEvent id f).Alike o (w'.modifyEvent id f) :=
  alike.revise (·.modifyEvent id f) (fun _ _ _ => rfl) alike.pending

theorem cancelEvent : (w.cancelEvent id).Alike o (w'.cancelEvent id) := by
  simp only [World.cancelEvent, alike.event]
  split
  · exact (alike.modifyEvent id _).modifyHeap (alike.heap.set _ _ _).2
  · exact alike

end World.Alike

theorem Object.Alike.behave {a a' : Object} (alike : a.Alike o a') {b : Behavior}
    (followed : o.FollowsBehavior b) :
    Object.Alike o { a with behavior := some b } { a' with behavior := some b } where
  record := by
    conv_lhs => rw [alike.record]
  keys := alike.keys
  seen := alike.seen
  present := alike.present
  followed b' same := Option.some.inj same ▸ followed

section Behaviors

variable {host host' : Host σ}

theorem newArrayIterator_agrees (array : ObjectId) :
    ScriptAgrees o host host' (newArrayIterator array) := by
  have next : Agrees o host host' (allocate fun h => h.newFunction "next" (.arrayNext array 0)) :=
    .allocate fun _ _ alike => alike.newFunction "next" trivial
  refine (ScriptAgree.perform (.allocate fun _ _ alike => alike.newObject)).bind fun iterator => ?_
  refine (ScriptAgree.perform next).bind fun _ => ?_
  refine (ScriptAgree.modifyHeap fun _ _ alike => alike.define iterator _ _).bind fun _ => ?_
  exact .pure rfl

theorem newIterationResult_agrees (value : Value) (done : Bool) :
    ScriptAgrees o host host' (newIterationResult value done) := by
  refine (ScriptAgree.perform (.allocate fun _ _ alike => alike.newObject)).bind fun result => ?_
  refine (ScriptAgree.modifyHeap fun _ _ alike => (alike.set result _ value).2).bind fun _ => ?_
  refine (ScriptAgree.modifyHeap fun _ _ alike => (alike.set result _ (.boolean done)).2).bind fun _ => ?_
  exact .pure rfl

theorem stepArrayIterator_agrees (next array : ObjectId) (position : Nat) :
    ScriptAgrees o host host' (stepArrayIterator next array position) := by
  refine ScriptAgree.getHeap.bind_of fun h h' alike => ?_
  rw [alike.arrayLength, alike.get (o.sees_ofIndex position)]
  refine .ite ?_ (newIterationResult_agrees _ _)
  have step : ScriptAgrees o host host' (modifyHeap fun h => h.modify next fun record =>
      { record with behavior := some (.arrayNext array (position + 1)) }) :=
    .modifyHeap fun _ _ heaps => heaps.modify next fun _ _ same => same.behave trivial
  exact step.bind fun _ => newIterationResult_agrees _ _

variable [agreeing : Agreeing o host host']

theorem Behavior.run_agrees (callee : ObjectId) (receiver : Value) (arguments : List Value)
    {behavior : Behavior} (followed : o.FollowsBehavior behavior) :
    ScriptAgrees o host host' (behavior.run callee receiver arguments) := by
  cases behavior with
  | objectToString =>
    refine ScriptAgree.getHeap.bind_of fun h h' alike => .pure ?_
    rw [funext alike.tag]
  | objectValueOf => exact .pure rfl
  | arrayToString =>
    rw [Behavior.run]
    cases receiver.object? with
    | some array => exact (joinElements_agrees array).bind fun _ => .pure rfl
    | none => exact .raise _
  | arrayValues =>
    rw [Behavior.run]
    cases receiver.object? with
    | some array => exact (newArrayIterator_agrees array).bind fun _ => .pure rfl
    | none => exact .raise _
  | functionToString =>
    refine ScriptAgree.getHeap.bind_of fun h h' alike => .pure ?_
    cases receiver.object? with
    | some id => exact congrArg (fun name => Value.ofText (functionText name)) (alike.object id).name.symm
    | none => rfl
  | arrayNext array position => exact stepArrayIterator_agrees _ _ _
  | preventDefault event =>
    refine ScriptAgree.bind (fun w w' alike => ⟨.ok rfl, ?_⟩) fun _ => .pure rfl
    have live : w'.isEventLive event = w.isEventLive event :=
      alike.reads (·.isEventLive event) fun _ _ _ => rfl
    change World.Alike o (if w.isEventLive event then w.cancelEvent event else w)
      (if w'.isEventLive event then w'.cancelEvent event else w')
    rw [live]
    split
    · exact alike.cancelEvent event
    · exact alike
  | handler program scope => exact Script.Program.run_agrees followed _ _ _
  | external index => exact fun w w' alike => agreeing.embedders.call index receiver arguments alike

theorem callObject_agrees (callee : ObjectId) (receiver : Value) (arguments : List Value) :
    ScriptAgrees o host host' (callObject callee receiver arguments) := by
  refine ScriptAgree.getHeap.bind_of fun h h' alike => ?_
  rw [(alike.object callee).behavior, alike.tag]
  cases known : (h.object callee).behavior with
  | some behavior =>
    exact Behavior.run_agrees callee receiver arguments ((alike.object callee).followed _ known)
  | none => exact .raise _

end Behaviors

namespace Embedder

variable {e e' : Embedder σ} (embedders : e.Alike o e')

include embedders

theorem invoke_alike (depth : Nat) (callee : ObjectId) (receiver : Value) (arguments : List Value)
    {w w' : World σ} (alike : w.Alike o w') :
    ResultAlike Eq (e.invoke depth callee receiver arguments w).1
        (e'.invoke depth callee receiver arguments w').1 ∧
      (e.invoke depth callee receiver arguments w).2.Alike o
        (e'.invoke depth callee receiver arguments w').2 := by
  induction depth generalizing callee receiver arguments w w' with
  | zero => exact ⟨.refl _, alike⟩
  | succ depth ih =>
    let inner : Host σ := { e with invoke := e.invoke depth }
    let inner' : Host σ := { e' with invoke := e'.invoke depth }
    have : Agreeing o inner inner' := ⟨embedders, ih⟩
    have agrees : ScriptAgrees o inner inner' (callObject callee receiver arguments) :=
      callObject_agrees callee receiver arguments
    exact agrees w w' alike

theorem host_agreeing : Agreeing o e.host e'.host := ⟨embedders, invoke_alike embedders maxCallDepth⟩

end Embedder

end WebBindings
