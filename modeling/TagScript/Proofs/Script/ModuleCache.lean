import TagScript.Proofs.Script.Watch

/-!
# Modules are run once

What is kept of a module never changes, and nothing is run for a module that is kept. A run is
compared with one that makes sure at each import that what is kept is what will be kept at the end.
-/

namespace TagScript.Script

open Markup

/-! ## Imports that are watched -/

/-- What is kept of modules in one state is in another one what it is in the first. -/
structure Machine.KeepsModules (m last : Machine) : Prop where
  kept : ∀ key module, Assoc.get? key m.modules = some module → Assoc.get? key last.modules = some module
  contents : ∀ key module, Assoc.get? key m.modules = some module → ∀ entry ∈ module.bindings, ∀ r,
    m.store.Leads entry.2 r → last.store.cell r = m.store.cell r

/-- The module of a key. Where it is run, it makes sure that nothing is kept of it when it has come
to its end, and that a last state keeps what it bound then. -/
noncomputable def watchedModule (alarm : Run Unit) (last : Machine) (run : RunDocument) (key src : String) :
    Run Module := do
  match Assoc.get? key (← get).modules with
  | some module => return module
  | none =>
    let child ← executeModule run key src
    ensure alarm fun m => Assoc.get? key m.modules = none
    let before ← get
    let module ← keepModule key child
    ensure alarm fun _ => before.store.Replica child.env.globals last.store module.bindings
    return module

/-- Imports a module, and makes sure that what is bound is a mapping with what a last state keeps of
it. -/
noncomputable def watchedImport (alarm : Run Unit) (last : Machine) (run : RunDocument) (src space : String) :
    Run Unit := do
  let key := (← get).moduleKey src
  let module ← watchedModule alarm last run key src
  ensure alarm fun _ => Assoc.get? key last.modules = some module
  let value ← newMapping (← copyBindings module.bindings)
  ensure alarm fun m => ∃ r copies, value = .map r ∧ m.store.cell r = .map copies ∧
    last.store.Replica module.bindings m.store copies
  bindName space value
  changeSession fun s => { s with functions := loaned module.functions space s.functions }

/-- Runs an element that means something by itself, and makes sure that modules are what they are in
a last state. -/
noncomputable def watchModules (alarm : Run Unit) (last : Machine) : Deed := fun walk run tag id => do
  ensure alarm fun m => m.KeepsModules last
  match tag with
  | .load => do
    runImportBy (importSourceBy (watchedImport alarm last run) walk) id
    return none
  | tag => runBuiltin walk run tag id

variable {w : Moment} {last : Machine} {run run' : RunDocument} {alarm : Run Unit}

lemma Moment.Sound.keepsModules (sound : w.Sound) (later : w.Until last) : w.machine.KeepsModules last := by
  obtain ⟨vault, later⟩ := later
  refine ⟨later.modules, fun key module found entry mem r leads => ?_⟩
  have within := (sound.modules _ (Assoc.mem_of_get? found)).bound entry mem
  exact (later.refs r (Store.Encloses.of_leads sound.store.kept within leads)).2

namespace Guarded

lemma watchedModule (runs : Guards (Rule.full last).abroad run run') (key src : String) :
    Guarded (.full last) (fun v module => v.Keeps module ∧ Assoc.get? key v.machine.modules = some module) w
      (Script.moduleOf run key src) (watchedModule alarm last run' key src) := by
  refine ask fun sound => ?_
  cases found : Assoc.get? key w.machine.modules with
  | some module => exact pure ⟨sound.modules _ (Assoc.mem_of_get? found), found⟩
  | none =>
    refine (executeModule runs found src).bind fun v child _ ⟨hosts, absent, idle⟩ => ?_
    rw [← bind_pure (Script.keepModule key child)]
    refine ensure (fun _ _ => absent) (askAhead ?_)
    refine (keepModule hosts absent idle).bind fun u module _ ⟨keeps, kept, replica⟩ => ?_
    refine ensure (fun stands later => ?_) (pure ⟨keeps, kept⟩)
    obtain ⟨vault, later⟩ := later
    exact stands.sound.replica_later later replica keeps.bound

lemma watchedMapping {bindings : Bindings} (within : ∀ entry ∈ bindings, entry.2.Within w.vault.refs) {c d : Value → Run Unit}
    (rest : ∀ v value, w ≤ v → v.Holds value → Guarded (.full last) Unsaid v (c value) (d value)) :
    Guarded (.full last) Unsaid w (do c (← newMapping (← copyBindings bindings)))
      (do
        let value ← newMapping (← copyBindings bindings)
        Script.ensure alarm fun m => ∃ r copies, value = .map r ∧ m.store.cell r = .map copies ∧
          last.store.Replica bindings m.store copies
        d value) := by
  refine of_sound fun before => ?_
  refine (Tame.copyBindings bindings).exact.bind fun u copies first ⟨held, copied, _⟩ => ?_
  refine of_sound fun middle => (Tame.newMapping held).exact.bind fun x value second ⟨bound, made, _⟩ => ?_
  refine ensure (fun _ later => ?_) (rest x value (le_trans first second) bound)
  obtain ⟨vault, later⟩ := later.back (le_trans first second)
  have store : (w.machine.store.copyEntries bindings).2 = u.machine.store := congrArg (fun y => y.2.store) copied
  have same : (w.machine.store.copyEntries bindings).1 = copies := by
    have same := congrArg (fun y => y.1.toOption) copied
    exact Option.some.inj same
  have mapping : Value.map u.machine.store.cells.size = value := by
    have same := congrArg (fun y => y.1.toOption) made
    exact Option.some.inj same
  have grown : { u.machine.store with cells := u.machine.store.cells.push (.map copies) } = x.machine.store :=
    congrArg (fun y => y.2.store) made
  refine ⟨_, copies, mapping.symm, ?_, ?_⟩
  · rw [← grown, Store.cell_push, if_pos rfl]
  · have replica := w.machine.store.replica_copyEntries bindings
    rw [store, same] at replica
    refine Store.Replica.later (P := (· < u.machine.store.cells.size)) ?_ (fun entry mem => (held entry mem).bounded)
      (fun r _ => middle.store.closed r) fun r old => ?_
    · exact before.replica_of_source later replica within
    · rw [← grown, Store.cell_push, if_neg (Nat.ne_of_lt old)]

lemma watchedImport (runs : Guards (Rule.full last).abroad run run') (src space : String) :
    Guarded (.full last) Unsaid w (Script.importModule run src space) (watchedImport alarm last run' src space) := by
  refine ask fun _ => (watchedModule runs _ src).bind fun v module _ ⟨keeps, kept⟩ => ?_
  refine ensure (fun _ later => ?_) ?_
  · obtain ⟨vault, later⟩ := later
    exact later.modules _ _ kept
  · exact watchedMapping keeps.bound fun u value later held => lendModule (fun _ => trivial) (keeps.later later) held

end Guarded

lemma deeds_watchModules (alarm : Run Unit) (last : Machine) :
    Deeds (.full last) runBuiltin (watchModules alarm last) := by
  intro w walk walk' run run' tag id walks runs works
  refine Guarded.ensure (fun stands later => stands.sound.keepsModules later) ?_
  split
  · have imports : Guarded (.full last) Unsaid w (runImportBy (importSource walk run) id)
        (runImportBy (importSourceBy (watchedImport alarm last run') walk') id) := by
      refine Guarded.runImportBy works ?_
      exact Guarded.importSourceBy walks (fun v src space _ => Guarded.watchedImport runs src space) fun _ _ _ => trivial
    exact imports.withoutSignal
  · exact Guarded.runBuiltin walks runs works (Licence.allows_full _ _ _)

/-- Each module is run to its end once, and what is kept of it never changes. Let anything be asked
of a reachable machine, and then anything else until a last state. The run is the same as one that
makes sure of the following, so this is always the case. At each element, what is kept of modules is
already what is kept of them at the end. A module is run only if nothing is kept of it; when it has
come to its end nothing has been kept of it meanwhile, and what is kept of it at the end is what it
bound globally. Every import of a module, however many there are and whatever has been changed since
then, binds a mapping with exactly what is kept of it at the end. -/
theorem modules_run_once {m last : Machine} {errand : Errand} (reachable : Reachable m)
    (later : Later (errand.run m).2 last) (alarm : Run Unit) :
    errand.runBy (watchModules alarm last) m = errand.run m ∧ (errand.run m).2.KeepsModules last := by
  refine ⟨runBy_eq_run reachable later (deeds_watchModules alarm last), ?_⟩
  obtain ⟨vault, sound⟩ := exists_sound_of_reachable reachable
  obtain ⟨v, _, kept, here⟩ := sound.errand errand
  rw [← here] at later ⊢
  exact kept.keepsModules (kept.later later)

def providing : Machine := unused (oneFile "<store name='xs' value='[1]'>")

def importing : Errand := .source "<import src='/m' type='module' namespace='a'>"

def importingAgain : Errand :=
  .source "<store name='ys' value='a.xs'><man name='ys' operation='.push(2)'><import src='/m' type='module'>"

theorem modules_run_once_providing :
    Reachable providing ∧ Later (importing.run providing).2 (importingAgain.run (importing.run providing).2).2 ∧
      ∀ alarm, importing.runBy (watchModules alarm (importingAgain.run (importing.run providing).2).2) providing =
        importing.run providing := by
  have reachable : Reachable providing := .new _ _ _
  -- from here on the machine is any that is reachable, so that nothing runs it
  generalize providing = m at reachable ⊢
  have later : Later (importing.run m).2 (importingAgain.run (importing.run m).2).2 := .single ⟨importingAgain, rfl⟩
  exact ⟨reachable, later, fun alarm => (modules_run_once reachable later alarm).1⟩

end TagScript.Script
