import TagScript.Proofs.Script.Restoration

/-!
# Dispatching an event

What is to run is settled before the first of it runs. All of it runs, once and in order, each in a
scope of its own; what fails, or ends with a signal, adds one message.
-/

namespace TagScript.Script

open Markup

/-- What runs for an event, once it has a scope. -/
def handle (target : NodeId) (detail : Datum) (listener : Listener) : Run (Option Signal) := do
  bindName "event" (← eventValue target listener.event detail)
  walkChildren (← cloneTree listener.body)

/-- A message says that what was to run for an event failed. -/
def Machine.told (m : Machine) (event : String) (raised : Raised) : Machine :=
  m.mapSession fun s =>
    { s with effects := ⟨.failure, "Event handler for '" ++ event ++ "' failed: " ++ raised.report⟩ :: s.effects }

/-- What is to run for an event has run in a scope of its own, and one message tells of its failure.
-/
inductive Handled (target : NodeId) (event : String) (detail : Datum) (listener : Listener) (m : Machine) :
    Machine → Prop where
  | done {after : Machine} (ran : handle target detail listener m.opened = (.ok none, after)) :
    Handled target event detail listener m after.shut
  | stray {signal : Signal} {after : Machine}
    (ran : handle target detail listener m.opened = (.ok (some signal), after)) :
    Handled target event detail listener m (after.shut.told event ⟨.straySignal signal, []⟩)
  | failed {raised : Raised} {after : Machine} (ran : handle target detail listener m.opened = (.error raised, after)) :
    Handled target event detail listener m (after.shut.told event raised)

def Machine.listeners (m : Machine) (event : String) (target : NodeId) : List Listener :=
  (Assoc.get? event (m.forest.node target).listeners).getD []

/-- Steps of one kind, one for each item, have led from one machine to another. -/
inductive Chain {α : Type} (step : α → Machine → Machine → Prop) : List α → Machine → Machine → Prop where
  | nil (m : Machine) : Chain step [] m m
  | cons {a : α} {rest : List α} {m between after : Machine} (first : step a m between)
    (others : Chain step rest between after) : Chain step (a :: rest) m after

/-- An event has reached some nodes: for each, what was to run for it when its turn came has run. -/
inductive Dispatched (event : String) (detail : Datum) : List NodeId → Machine → List (NodeId × Listener) → Machine →
    Prop where
  | nil (m : Machine) : Dispatched event detail [] m [] m
  | cons {target : NodeId} {rest : List NodeId} {ran : List (NodeId × Listener)} {m between after : Machine}
    (first : Chain (Handled target event detail) (m.listeners event target) m between)
    (others : Dispatched event detail rest between ran after) :
    Dispatched event detail (target :: rest) m ((m.listeners event target).map (target, ·) ++ ran) after

variable (event : String) (detail : Datum)

lemma fire_handled (target : NodeId) (listener : Listener) (m : Machine) :
    ∃ after, fire walkChildren target event detail listener m = (.ok (), after) ∧
      Handled target event detail listener m after := by
  have ran : runListener walkChildren target detail listener =
      inScope (handle target detail listener) >>= fun ended => rejectSignal ended.1 := rfl
  unfold fire recover
  rw [ran, run_bind, inScope_apply, always]
  rcases ended : handle target detail listener m.opened with ⟨raised | _ | signal, after⟩
  · exact ⟨_, rfl, .failed ended⟩
  · exact ⟨_, rfl, .done ended⟩
  · exact ⟨_, rfl, .stray ended⟩

omit event detail in
lemma chain_of_forM {α : Type} {step : α → Machine → Machine → Prop} {c : α → Run PUnit}
    (each : ∀ a m, ∃ after, c a m = (.ok ⟨⟩, after) ∧ step a m after) (items : List α) (m : Machine) :
    ∃ after, items.forM c m = (.ok ⟨⟩, after) ∧ Chain step items m after := by
  induction items generalizing m with
  | nil => exact ⟨m, rfl, .nil m⟩
  | cons a rest ih =>
    obtain ⟨between, first, stepped⟩ := each a m
    obtain ⟨after, others, chain⟩ := ih between
    refine ⟨after, ?_, .cons stepped chain⟩
    rw [List.forM, run_bind, first]
    exact others

lemma dispatch_dispatched (targets : List NodeId) (m : Machine) :
    ∃ ran after, dispatch walkChildren event detail targets m = (.ok ran.length, after) ∧
      Dispatched event detail targets m ran after := by
  induction targets generalizing m with
  | nil => exact ⟨[], m, rfl, .nil m⟩
  | cons target rest ih =>
    obtain ⟨between, fired, chain⟩ := chain_of_forM (fire_handled event detail target) (m.listeners event target) m
    obtain ⟨ran, after, others, dispatched⟩ := ih between
    refine ⟨_, after, ?_, .cons chain dispatched⟩
    rw [dispatch, run_nodeOf_bind, run_bind]
    rw [Machine.listeners] at fired
    rw [fired]
    simp only []
    rw [run_bind, others, List.length_append, List.length_map]
    rfl

/-- The nodes that an event reaches: one, or all that a selector finds in the document. -/
def Machine.targets (m : Machine) : NodeId ⊕ String → List NodeId
  | .inl target => [target]
  | .inr selector => m.session.document.elim [] fun document => m.forest.select document selector

/-- An event is dispatched to a node, or to all nodes that a selector finds. This never fails,
counts all that was to run, in order, and leaves the scopes and the elements around as they were. -/
theorem dispatch_runs_all_handlers (m : Machine) (stacked : m.session.env.stack ≠ []) (target : NodeId ⊕ String)
    (event : String) (detail : Datum) :
    ∃ ran after, target.elim (dispatchAt · event detail) (dispatchTo · event detail) m = (.ok ran.length, after) ∧
      Dispatched event detail (m.targets target) m ran after ∧
      after.session.env.stack = m.session.env.stack ∧ after.session.callStack = m.session.callStack := by
  obtain ⟨ran, after, ended, dispatched⟩ := dispatch_dispatched event detail (m.targets target) m
  obtain ⟨_, kept, _⟩ := Steady.dispatch stacked event detail (m.targets target) m (at_any rfl)
  rw [ended] at kept
  refine ⟨ran, after, ?_, dispatched, congrArg Outline.stack kept.1, congrArg Outline.callStack kept.1⟩
  cases target with
  | inl target => exact ended
  | inr selector =>
    rw [Sum.elim_inr, dispatchTo, run_get_bind, ← ended, Machine.targets]
    cases m.session.document <;> rfl

/-- A machine with a node for which a signal, an element that fails and nothing are to run. -/
def ringing : Machine :=
  { Machine.new ⟨none, false⟩ (.new ⟨⟨"/", "/"⟩, [], [], []⟩ ⟨[], []⟩ .input [] true) none with
    forest := ⟨#[
      ⟨"p", [], #[], none, "", [("click", [⟨"click", 1⟩, ⟨"click", 3⟩, ⟨"click", 0⟩])]⟩,
      ⟨"on", [], #[2], none, "", []⟩, ⟨"break", [], #[], some 1, "", []⟩,
      ⟨"on", [], #[4], none, "", []⟩, ⟨"calc", [], #[], some 3, "", []⟩]⟩ }

/-- All three run, and the first two are reported. -/
theorem dispatch_runs_each_handler :
    ringing.session.env.stack ≠ [] ∧ ∃ after, dispatchAt 0 "click" .none ringing = (.ok 3, after) ∧
      after.session.env.stack = ringing.session.env.stack ∧
      after.session.effects.map (·.message) =
        ["Event handler for 'click' failed: LexError: Empty expression\nHScript stacktrace: calc",
          "Event handler for 'click' failed: HScriptError: 'break' outside of a for/while loop"] := by
  have stacked : ringing.session.env.stack ≠ [] := List.cons_ne_nil _ _
  obtain ⟨ran, after, ended, dispatched, kept, _⟩ :=
    dispatch_runs_all_handlers ringing stacked (.inl 0) "click" .none
  have count : ran.length = 3 := by
    obtain _ | ⟨_, ⟨⟩⟩ := dispatched
    rfl
  rw [Sum.elim_inl, count] at ended
  refine ⟨stacked, after, ended, kept, ?_⟩
  rw [show after = (dispatchAt 0 "click" .none ringing).2 by rw [ended]]
  decide +kernel

end TagScript.Script
