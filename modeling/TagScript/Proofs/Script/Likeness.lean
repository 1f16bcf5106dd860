import TagScript.Proofs.Script.Comparison

/-!
# Runs compared on one machine

Where two runs are compared on one machine, both see the same state and fail with the same faults,
and of values something is known as well.
-/

namespace TagScript.Script

open Markup

structure Likeness (World : Type) [Preorder World] extends Basis World where
  Holds (w : World) (value : Value) : Prop
  kept {w v value} (held : Holds w value) (after : w ≤ v) : Holds v value
  leaf {w value} (bare : value.ref? = none) : Holds w value
  throw {α} {V : World → α → Prop} {w} (raised : Raised) : Runs V w (throw raised) (throw raised)
  ask {α} {V : World → α → Prop} {w} {k l : Machine → Run α} (rest : ∀ m, Runs V w (k m) (l m)) :
    Runs V w (get >>= k) (get >>= l)
  recover {α} {V : World → α → Prop} {w} {c d : Run α} {handle handle' : Raised → Run α} (body : Runs V w c d)
    (handlers : ∀ v raised, w ≤ v → Runs V v (handle raised) (handle' raised)) :
    Runs V w (recover c handle) (recover d handle')
  copy {w} (id : NodeId) : Runs Placed w (Script.cloneTree id) (Script.cloneTree id)
  evaluate {w} (text : Option String) : Runs Holds w (evaluate text) (evaluate text)
  buildValue {w} (d : Datum) : Runs Holds w (buildValue d) (buildValue d)
  bindName {w value} (name : String) (held : Holds w value) : toBasis.Agrees w (bindName name value)
  showText {w id} (placed : Placed w id) (text : String) : toBasis.Agrees w (showText id text)
  emit {w} (topic : Topic) (message : String) : toBasis.Agrees w (emit topic message)
  diagnose {w} (parts : List String) : toBasis.Agrees w (diagnose parts)
  recordWith {w} (host : HostId) (value : Value) : toBasis.Agrees w (recordWith host value)
  outside {α} {w} {f : Script.World → α × Script.World} (files : ∀ world, (f world).2.files = world.files) :
    toBasis.Agrees w (modifyGet fun m => ((f m.world).1, { m with world := (f m.world).2 }))

lemma World.files_readLine (w : World) : w.readLine.2.files = w.files := by
  unfold World.readLine
  split <;> rfl

lemma World.files_prompt (w : World) (text : String) : (w.prompt text).2.files = w.files := by
  unfold World.prompt
  split
  · split <;> rfl
  · rw [World.files_readLine]
    split <;> rfl
  · exact World.files_readLine _

lemma World.files_readFile (w : World) (path : String) : (w.readFile path).2.files = w.files := by
  unfold World.readFile
  split
  · split <;> rfl
  · rfl

namespace Likeness

variable {World : Type} [Preorder World] (L : Likeness World) {w : World} {α β : Type}

/-! ## Variables -/

lemma textOf (value : Value) : L.Agrees w (textOf value) :=
  L.ask fun _ => L.settle _

lemma wireOf (value : Value) : L.Agrees w (wireOf value) :=
  L.ask fun _ => L.settle _

lemma runStatement (text : String) : L.Agrees w (runStatement text) := by
  unfold Script.runStatement
  split
  · refine L.next (L.evaluate _) fun _ _ _ held => ?_
    exact L.next (L.bindName _ held) fun _ _ _ _ => L.done trivial
  · exact L.imp (L.evaluate _) fun _ _ _ => trivial

/-- Elements that run others are compared in the same way. -/
def comparison : Comparison World :=
  { L.toBasis with
    Like := Eq
    record := congrArg Raised.record
    throw := fun same => same ▸ L.throw _
    attempt := fun {_ _ V _ _ _ _ _ _} body ended failed => by
      refine L.next (V := fun v x => (∃ a, x = .ok a ∧ V v a) ∨ ∃ raised, x = .error raised)
        (L.recover ?_ fun _ raised _ => L.done (.inr ⟨raised, rfl⟩)) ?_
      · exact L.imp body fun _ _ => .inl
      · rintro v x later (⟨a, rfl, known⟩ | ⟨raised, rfl⟩)
        · exact ended v a later known
        · exact failed v raised raised later rfl
    limited := fun rest => L.ask fun _ => rest _
    caught := fun same rest => same ▸ L.ask fun _ => L.next (L.diagnose _) fun v _ later _ => rest v later
    holds := fun _ => L.next (L.evaluate _) fun _ _ _ _ => L.ask fun _ => L.done trivial
    statement := fun _ => L.option_forM fun _ _ => L.next (L.runStatement _) fun _ _ _ _ => L.done trivial
    bindError := fun _ _ => L.bindName _ (L.leaf rfl) }

variable {id : NodeId} (placed : L.Placed w id)

section

include placed

lemma runCalc : L.Agrees w (runCalc id) := by
  refine L.next (L.nodeOf placed) fun v node first _ => ?_
  have shown : L.Agrees v (calcText node) :=
    L.next (L.evaluate _) fun _ _ _ _ => L.next (L.settle _) fun _ _ _ _ => L.textOf _
  exact L.next shown fun u _ second _ => L.showText (L.later placed (le_trans first second)) _

lemma runOutput : L.Agrees w (runOutput id) := by
  refine L.next (L.nodeOf placed) fun v node first _ => ?_
  have shown : L.Agrees v (outputText node) := by
    unfold outputText
    split
    · refine L.next (V := Untold) (L.ask fun _ => ?_) fun _ _ _ _ => L.settle _
      exact L.next (L.settle _) fun _ _ _ _ => L.done trivial
    · exact L.next (L.evaluate _) fun _ _ _ _ => L.textOf _
  exact L.next shown fun u _ second _ => L.showText (L.later placed (le_trans first second)) _

omit placed in
lemma returned {result : Value} (held : L.Holds w result) {ids : List NodeId} (among : ∀ id ∈ ids, L.Placed w id) :
    L.Runs L.Holds w (returned result ids) (returned result ids) := by
  induction ids generalizing w result with
  | nil => exact L.done held
  | cons id rest ih =>
    refine L.next (L.nodeOf (among id List.mem_cons_self)) fun v node first _ => ?_
    have value : L.Runs L.Holds v (returnValue node) (returnValue node) := by
      unfold returnValue
      split
      · exact L.evaluate _
      · exact L.done (L.leaf rfl)
    refine L.next value fun u a second held => ?_
    have among : ∀ other ∈ id :: rest, L.Placed u other :=
      fun other mem => L.later (among other mem) (le_trans first second)
    refine L.next (L.removeNode (among id List.mem_cons_self)) fun x _ third _ => ?_
    exact ih (L.kept held third) fun other mem => L.later (among other (List.mem_cons_of_mem _ mem)) third

/-! ## The outside -/

lemma contain (label : String) (raised : Raised) : L.Agrees w (contain id label raised) := by
  refine L.next (L.emit _ _) fun v _ first _ => L.next (L.nodeOf (L.later placed first)) fun u node second _ => ?_
  have here := L.later placed (le_trans first second)
  split
  · exact L.next (L.bindName _ (L.leaf rfl)) fun _ _ third _ => L.removeNode (L.later here third)
  · exact L.showText here _

lemma deliver {value : Value} (held : L.Holds w value) {text : Value → Run String}
    (shown : ∀ v, L.Agrees v (text value)) : L.Agrees w (deliver id value text) := by
  refine L.next (L.nodeOf placed) fun v node first _ => ?_
  split
  · exact L.next (L.bindName _ (L.kept held first)) fun _ _ second _ => L.removeNode (L.later placed (le_trans first second))
  · exact L.next (shown v) fun _ _ second _ => L.showText (L.later placed (le_trans first second)) _

lemma runInput : L.Agrees w (runInput id) := by
  refine L.next (L.nodeOf placed) fun v node first _ => ?_
  split
  · exact L.raise _
  · refine L.next (L.outside fun world => world.files_prompt _) fun u answer second _ => ?_
    refine L.next (L.bindName _ (L.leaf rfl)) fun _ _ third _ => ?_
    exact L.removeNode (L.later placed (le_trans first (le_trans second third)))

lemma runDebug : L.Agrees w (runDebug id) := by
  refine L.ask fun m => L.next (L.nodeOf placed) fun v node first _ => ?_
  have report : ∀ u message, v ≤ u → L.Agrees u (do
      Script.emit .debug message
      Script.removeNode id) := fun u message second =>
    L.next (L.emit _ _) fun _ _ third _ => L.removeNode (L.later placed (le_trans first (le_trans second third)))
  split
  · exact report v _ (le_refl v)
  split
  · exact report v _ (le_refl v)
  · exact L.next (L.ask fun _ => L.settle _) fun u _ second _ => report u _ second

omit placed

lemma jsonText (value : Value) : L.Agrees w (jsonText value) :=
  L.next (L.wireOf _) fun _ _ _ _ => L.settle _

lemma sendRequest (r : Request) : L.Agrees w (sendRequest r) :=
  L.next (L.outside (f := fun world => ((r.send world.network).1, { world with network := (r.send world.network).2 }))
    fun _ => rfl) fun _ _ _ _ => L.settle _

lemma requestHeaders (node : Node) : L.Agrees w (requestHeaders node) := by
  unfold Script.requestHeaders
  split
  · exact L.done trivial
  · refine L.next (L.evaluate _) fun v value _ _ => ?_
    split
    · exact L.ask fun _ => L.mapM fun _ _ => L.next (L.textOf _) fun _ _ _ _ => L.done trivial
    · exact L.raise _

lemma requestResult (node : Node) (url : String) : L.Agrees w (requestResult node url) := by
  refine L.next (L.requestHeaders node) fun v headers _ _ => ?_
  extract_lets standard send typed
  have sent : ∀ v pair, L.Agrees v (send pair) := by
    rintro v ⟨headers, data⟩
    refine L.next (L.settle _) fun v timeout _ _ => L.next (L.settle _) fun v retries _ _ => ?_
    exact L.next (L.diagnose _) fun v _ _ _ => L.next (L.sendRequest _) fun _ _ _ _ => L.settle _
  split
  · exact L.next (L.done (V := Untold) trivial) fun u pair _ _ => sent u pair
  · refine L.next (L.evaluate _) fun v _ _ _ => L.next (L.jsonText _) fun v _ _ _ => ?_
    exact L.next (L.done (V := Untold) trivial) fun u pair _ _ => sent u pair

include placed

lemma runRequest : L.Agrees w (runRequest id) := by
  refine L.next (L.nodeOf placed) fun v node first _ => ?_
  refine L.comparison.attempt (V := L.Holds) ?_ (fun u value second held => ?_) fun u raised _ second same => ?_
  · split
    · exact L.raise _
    · refine L.next (L.requestResult _ _) fun _ _ _ _ => L.next (L.buildValue _) fun _ value _ held => ?_
      exact L.done ⟨value, rfl, held⟩
  · exact L.deliver (L.later placed (le_trans first second)) held fun _ => L.jsonText _
  · subst same
    exact L.contain (L.later placed (le_trans first second)) _ _

lemma runCodec (format : Format) : L.Agrees w (runCodec format id) := by
  refine L.next (L.nodeOf placed) fun v node first _ => ?_
  have source : L.Agrees v (codecSource id format) := by
    refine L.next (L.nodeOf (L.later placed first)) fun u node _ _ => ?_
    split
    · exact L.done trivial
    · exact L.askForest _
  refine L.next source fun u text second _ => ?_
  have result : L.Runs L.Holds u (codecResult node format text) (codecResult node format text) := by
    unfold codecResult
    split
    · exact L.ask fun _ => L.next (L.settle _) fun _ _ _ _ => L.buildValue _
    · refine L.next (L.evaluate _) fun _ _ _ _ => L.next (L.wireOf _) fun _ _ _ _ => L.ask fun _ => ?_
      exact L.next (L.settle _) fun _ _ _ _ => L.done (L.leaf rfl)
    · exact L.raise _
  refine L.comparison.attempt (V := L.Holds) ?_ (fun x value third held => ?_) fun x raised _ third same => ?_
  · exact L.next result fun _ value _ held => L.done ⟨value, rfl, held⟩
  · exact L.deliver (L.later placed (le_trans first (le_trans second third))) held fun _ => L.textOf _
  · subst same
    exact L.contain (L.later placed (le_trans first (le_trans second third))) _ _

omit placed in
lemma fetch (locator : String) : L.Agrees w (fetch locator) := by
  unfold Script.fetch
  split
  · refine L.next (L.sendRequest _) fun _ _ _ _ => L.next (L.buildValue _) fun _ _ _ _ => ?_
    exact L.next (L.textOf _) fun _ _ _ _ => L.done trivial
  · refine L.next (V := Untold) (L.ask fun _ => L.done trivial) fun v path _ _ => ?_
    refine L.next (V := Untold) ?_ fun _ _ _ _ => L.done trivial
    exact L.next (L.outside fun world => world.files_readFile path) fun _ _ _ _ => L.settle _

lemma runHostAction (host : HostId) (action : HostAction) : L.Agrees w (runHostAction host action id) := by
  refine L.next (L.nodeOf placed) fun v node first _ => ?_
  have here := L.later placed first
  cases action with
  | capitalise =>
    refine L.next (L.askForest _) fun u text second _ => ?_
    exact L.next (L.showText (L.later here second) _) fun _ _ _ _ => L.done trivial
  | recordVariable =>
    refine L.ask fun _ => L.next (L.recordWith _ _) fun u _ second _ => ?_
    exact L.next (L.removeNode (L.later here second)) fun _ _ _ _ => L.done trivial
  | fail otherwise => exact L.raise _
  | breakOut => exact L.done trivial
  | recordAttribute name shown =>
    refine L.next (L.recordWith _ _) fun u _ second _ => ?_
    exact L.next (L.showText (L.later here second) _) fun _ _ _ _ => L.done trivial

omit placed

/-! ## Events -/

lemma rejectSignal (signal : Option Signal) : L.Agrees w (rejectSignal signal) := by
  cases signal with
  | none => exact L.done trivial
  | some signal => exact L.raise _

lemma fire {walk walk' : Walk} (walks : L.Walks walk walk') (target : NodeId) (event : String) (detail : Datum)
    (listener : Listener) :
    L.Runs Untold w (fire walk target event detail listener) (fire walk' target event detail listener) := by
  refine L.recover (L.inScope (fun v _ => ?_) fun _ signal _ => L.rejectSignal signal) fun _ _ _ => L.emit _ _
  refine L.next (V := L.Holds) ?_ fun u value _ held => L.next (L.bindName _ held) fun _ _ _ _ => ?_
  · exact L.next (L.askForest _) fun _ _ _ _ => L.next (L.settle _) fun _ _ _ _ => L.buildValue _
  · exact L.next (L.copy _) fun x body _ placed => walks x body placed

lemma dispatch {walk walk' : Walk} (walks : L.Walks walk walk') (event : String) (detail : Datum)
    (targets : List NodeId) :
    L.Runs Untold w (dispatch walk event detail targets) (dispatch walk' event detail targets) := by
  induction targets generalizing w with
  | nil => exact L.done trivial
  | cons target rest ih =>
    refine L.next (L.askForest _) fun v node _ _ => L.next (V := Untold) ?_ fun _ _ _ _ => ?_
    · exact L.forM fun _ listener _ _ => L.fire walks target event detail listener
    · exact L.next ih fun _ _ _ _ => L.done trivial

end

end Likeness

end TagScript.Script
