import TagScript.Proofs.Script.Watch

/-!
# Functions and handlers are permanent

A run is compared with one that looks ahead: at each element it makes sure that all functions and
handlers are what they will be at the end.
-/

namespace TagScript.Script

open Markup Environment

/-- The functions and the handlers of one state are in another one what they are in the first: the
functions are the same, the templates of their bodies look the same, and the containers in their
closures hold the same. -/
structure Machine.Preserved (m last : Machine) : Prop where
  functions : ∀ (i : Nat) f, m.functions[i]? = some f → last.functions[i]? = some f
  bodies : ∀ f ∈ m.functions, last.forest.markup f.body = m.forest.markup f.body
  closures : ∀ f ∈ m.functions, ∀ entry ∈ f.closure, ∀ r, m.store.Leads entry.2 r →
    last.store.cell r = m.store.cell r
  handlers : ∀ id, ∀ entry ∈ (m.forest.node id).listeners, ∀ listener ∈ entry.2,
    last.forest.markup listener.body = m.forest.markup listener.body

/-- The body of a function is about to be run: in the only scope that is visible the parameters
stand over what the closure holds in another state, and the body looks as the template does there.
-/
structure Machine.Starts (m : Machine) (f : Function) (args : List Value) (body : NodeId) (last : Machine) : Prop where
  known : f ∈ last.functions
  alone : m.session.env.stack = [m.session.env.currentId]
  frame : ∃ copies, last.store.Replica f.closure m.store copies ∧
    m.session.env.current = (f.params.zip args).foldl (fun bindings pair => Assoc.set pair.1 pair.2 bindings) copies
  looks : m.forest.markup body = last.forest.markup f.body

/-- Runs an element that means something by itself, and makes sure that functions and handlers are,
and will be started from, what they are in a last state. -/
noncomputable def watchTemplates (alarm : Run Unit) (last : Machine) : Deed := fun walk run tag id => do
  ensure alarm fun m => m.Preserved last
  match tag with
  | .function => do
    let before ← get
    runFunction id
    ensure alarm fun m => before.Defines id m last
    return none
  | .call =>
    runCallBy (fun f args => applyFunction (fun body => do
      ensure alarm fun m => m.Starts f args body last
      walk body) f args) id
  | .listen => do
    let before ← get
    runListenBy (fun body => ensure alarm fun _ => last.forest.markup body = before.forest.markup id) id
    return none
  | tag => runBuiltin walk run tag id

variable {w v : Moment} {last : Machine}

namespace Moment

lemma Sound.preserved (sound : w.Sound) (later : w.Until last) : w.machine.Preserved last := by
  obtain ⟨vault, later⟩ := later
  refine ⟨later.functions, fun f mem => ?_, fun f mem entry among r leads => ?_, ?_⟩
  · exact sound.markup_eq later (sound.functions f mem).1
  · have within := (sound.functions f mem).2 entry among
    exact (later.refs r (Store.Encloses.of_leads sound.store.kept within leads)).2
  · intro id entry mem listener among
    exact sound.markup_eq later ((sound.forest.fits id).listeners entry mem listener among)

end Moment

lemma foldl_bind {id : ScopeId} (pairs : List (String × Value)) (env : Environment) (alone : env.stack = [id])
    (there : id < env.scopes.size) :
    (pairs.foldl (fun env pair => env.bind pair.1 pair.2) env).stack = [id] ∧
      (pairs.foldl (fun env pair => env.bind pair.1 pair.2) env).scope id =
        pairs.foldl (fun bindings pair => Assoc.set pair.1 pair.2 bindings) (env.scope id) := by
  induction pairs generalizing env with
  | nil => exact ⟨alone, rfl⟩
  | cons pair rest ih =>
    have current : env.currentId = id := currentId_of_cons alone
    obtain ⟨stack, scope⟩ := ih (env.bind pair.1 pair.2) alone (by rwa [Environment.bind, size_bindIn])
    refine ⟨stack, scope.trans ?_⟩
    rw [Environment.bind, scope_bindIn, current, if_pos ⟨rfl, there⟩]
    rfl

lemma Moment.Sound.starts (sound : w.Sound) (later : w.Until last) {f : Function} (known : f ∈ w.machine.functions)
    (args : List Value) :
    (w.machine.calling f args).Starts f args (w.machine.forest.clone f.body).1 last := by
  obtain ⟨vault, later⟩ := later
  obtain ⟨set, within⟩ := sound.functions f known
  obtain ⟨i, found⟩ := Array.mem_iff_getElem?.mp known
  have bound := foldl_bind (f.params.zip args)
    (w.machine.session.env.enterFrame w.machine.store f.closure).2.1 rfl
    (by simp [Environment.enterFrame, Environment.newScope])
  have current : (w.machine.calling f args).session.env.currentId = w.machine.session.env.scopes.size :=
    currentId_of_cons bound.1
  refine ⟨Array.mem_of_getElem? (later.functions i f found), ?_, ⟨(w.machine.store.copyEntries f.closure).1, ?_, ?_⟩, ?_⟩
  · rw [current]
    exact bound.1
  · exact sound.replica_of_source later (w.machine.store.replica_copyEntries _) within
  · rw [Environment.current, current]
    have started : (w.machine.session.env.enterFrame w.machine.store f.closure).2.1.scope
        w.machine.session.env.scopes.size = (w.machine.store.copyEntries f.closure).1 :=
      (scope_newScope _ _ _).trans (if_pos rfl)
    exact started ▸ bound.2
  · exact (sound.forest.markup_clone _).trans (sound.markup_eq later set).symm

lemma deeds_watchTemplates (alarm : Run Unit) (last : Machine) :
    Deeds (.full last) runBuiltin (watchTemplates alarm last) := by
  intro w walk walk' run run' tag id walks runs works
  refine Guarded.ensure (fun stands later => stands.sound.preserved later) ?_
  split
  · refine Guarded.askAhead ((Tame.runFunction works (Licence.allows_full _ _ _)).bind fun v _ _ defines => ?_)
    refine Guarded.ensure (fun stands later => ?_) (Guarded.pure trivial)
    obtain ⟨vault, later⟩ := later
    exact defines.later stands.sound later
  · refine Guarded.runCallBy (fun v f args known held => ?_) works
    refine Guarded.of_sound fun sound => Guarded.applyFunction f held fun u later young calling => ?_
    refine Guarded.ensure (fun _ after => ?_) (walks u _ young.works)
    rw [calling]
    exact sound.starts (after.back later) known args
  · refine Guarded.askAhead (Guarded.withoutSignal ?_)
    refine Guarded.runListenBy works fun v body _ set looks => Guarded.check fun stands later => ?_
    obtain ⟨vault, later⟩ := later
    exact (stands.sound.markup_eq later set).trans looks
  · exact Guarded.runBuiltin walks runs works (Licence.allows_full _ _ _)

/-- Once a function or a handler is registered, its parameters, the template of its body and its
closure never change. Let anything be asked of a reachable machine, and then anything else until a
last state. The run is the same as one that makes sure at each element that every function and
handler is already what it is at the end, that a definition and a registration make it what the
element and all that is bound then say, and that a call starts from the parameters over a copy of
the closure and from a copy of the template, as they are at the end; so this is always the case. -/
theorem templates_never_change {m last : Machine} {errand : Errand} (reachable : Reachable m)
    (later : Later (errand.run m).2 last) (alarm : Run Unit) :
    errand.runBy (watchTemplates alarm last) m = errand.run m ∧ (errand.run m).2.Preserved last := by
  refine ⟨runBy_eq_run reachable later (deeds_watchTemplates alarm last), ?_⟩
  obtain ⟨vault, sound⟩ := exists_sound_of_reachable reachable
  obtain ⟨v, _, kept, here⟩ := sound.errand errand
  rw [← here] at later ⊢
  exact kept.preserved (kept.later later)

def capturing : Errand :=
  .source "<store name='xs' value='[1]'><func name='f'><man name='xs' operation='.push(2)'></func><call func='f'></call>"

def callingAgain : Errand := .source "<man name='xs' operation='.push(3)'><call func='f'></call>"

theorem templates_never_change_capturing :
    Reachable blank ∧ Later (capturing.run blank).2 (callingAgain.run (capturing.run blank).2).2 ∧
      (capturing.run blank).2.Preserved (callingAgain.run (capturing.run blank).2).2 := by
  have reachable : Reachable blank := .new _ _ _
  -- from here on the machine is any that is reachable, so that nothing runs it
  generalize blank = m at reachable ⊢
  have later : Later (capturing.run m).2 (callingAgain.run (capturing.run m).2).2 := .single ⟨callingAgain, rfl⟩
  exact ⟨reachable, later, (templates_never_change reachable later (pure ())).2⟩

end TagScript.Script
