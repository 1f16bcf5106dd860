import TagScript.Proofs.Script.Modules
import TagScript.Proofs.Script.Restoration

/-!
# Runs that are watched

What is done for the elements that mean something is a parameter of the walk, so that a run can be
compared with one that also makes sure of something at each element.
-/

namespace TagScript.Script

open Markup

variable {m : Machine}

/-! ## Errands -/

/-- What is asked of a machine between runs. -/
inductive Errand where
  | source (text : String)
  | part (text : String)
  | dispatch (selector event : String) (detail : Datum)
  | dispatchAt (target : NodeId) (event : String) (detail : Datum)
  | host (actions : Option (List (String × HostAction)))

namespace Errand

def runBy (deed : Deed) : Errand → Run Unit
  | source text => do let _ ← documentBy deed (moduleNesting + 1) (← parseSource text)
  | part text => do let _ ← walkBy deed (← parseSource text)
  | dispatch selector event detail => do
    match (← get).session.document with
    | none => return
    | some document =>
      let _ ← Script.dispatch (walkBy deed) event detail (← askForest (·.select document selector))
  | dispatchAt target event detail => do let _ ← Script.dispatch (walkBy deed) event detail [target]
  | host actions => changeHost actions

def run : Errand → Run Unit
  | source text => do let _ ← runSource text
  | part text => do let _ ← runPart text
  | dispatch selector event detail => do let _ ← dispatchTo selector event detail
  | dispatchAt target event detail => do let _ ← Script.dispatchAt target event detail
  | host actions => changeHost actions

lemma runBy_runBuiltin (errand : Errand) : errand.runBy runBuiltin = errand.run := by
  cases errand with
  | source text => simp only [runBy, run, runSource, runDocument, bind_assoc, pure_bind]
  | part text => simp only [runBy, run, runPart, walkChildren, bind_assoc, pure_bind]
  | dispatch selector event detail =>
    simp only [runBy, run, dispatchTo, walkChildren, bind_assoc]
    refine bind_congr fun m => ?_
    cases m.session.document with
    | none => rfl
    | some document => simp only [bind_assoc]
  | dispatchAt | host => rfl

end Errand

/-- What a machine may be like after some errands more. -/
def Later : Machine → Machine → Prop :=
  Relation.ReflTransGen fun m m' => ∃ errand : Errand, m' = (errand.run m).2

lemma state_discard {α : Type} (c : Run α) (m : Machine) : ((do let _ ← c : Run Unit) m).2 = (c m).2 := by
  rw [run_bind]
  rcases c m with ⟨result, after⟩
  cases result <;> rfl

lemma reachable_induction {P : Machine → Prop} (reachable : Reachable m)
    (new : ∀ settings world dir, P (.new settings world dir)) (run : ∀ m (errand : Errand), P m → P (errand.run m).2) :
    P m := by
  induction reachable with
  | new settings world dir => exact new settings world dir
  | @runSource m text _ ih => exact state_discard (runSource text) m ▸ run m (.source text) ih
  | @runPart m text _ ih => exact state_discard (runPart text) m ▸ run m (.part text) ih
  | @dispatchTo m selector event detail _ ih =>
    exact state_discard (dispatchTo selector event detail) m ▸ run m (.dispatch selector event detail) ih
  | @dispatchAt m target event detail _ ih =>
    exact state_discard (dispatchAt target event detail) m ▸ run m (.dispatchAt target event detail) ih
  | @changeHost m actions _ ih => exact run m (.host actions) ih

/-! ## Guarded walks -/

variable {g : Rule} {w : Moment} {walk walk' : Walk} {run run' : RunDocument} {deed deed' : Deed} {id : NodeId}

def Deeds (g : Rule) (deed deed' : Deed) : Prop :=
  ∀ (w : Moment) (walk walk' : Walk) (run run' : RunDocument) (tag : Builtin) (id : NodeId),
    Guards g walk walk' → Guards g.abroad run run' → w.Works id →
      Guarded g Unsaid w (deed walk run tag id) (deed' walk' run' tag id)

namespace Guarded

lemma withoutSignal {c d : Run Unit} (body : Guarded g Unsaid w c d) :
    Guarded g Unsaid w (withoutSignal c) (withoutSignal d) :=
  body.bind fun _ _ _ _ => pure trivial

lemma runBuiltin (walks : Guards g walk walk') (runs : Guards g.abroad run run') (works : w.Works id) {tag : Builtin}
    (allows : g.licence.Allows tag id w.machine) :
    Guarded g Unsaid w (runBuiltin walk run tag id) (runBuiltin walk' run' tag id) := by
  match tag with
  | .store => exact withoutSignal (Tame.runStore works allows)
  | .man => exact withoutSignal (Tame.runMan works allows)
  | .calc => exact withoutSignal (g.likeness.runCalc works)
  | .output => exact withoutSignal (g.likeness.runOutput works)
  | .condition => exact g.likeness.comparison.runCondition walks works
  | .countedLoop => exact withoutSignal (g.likeness.comparison.runCountedLoop walks works)
  | .loop => exact withoutSignal (g.likeness.comparison.runLoop walks works)
  | .function => exact withoutSignal (Tame.runFunction works allows).unsaid
  | .call => exact runCall walks works
  | .scope => exact g.likeness.comparison.runScope walks works
  | .attempt => exact g.likeness.comparison.runAttempt walks works
  | .signal signal => exact pure trivial
  | .input => exact withoutSignal (g.likeness.runInput works)
  | .debug => exact withoutSignal (g.likeness.runDebug works)
  | .request => exact withoutSignal (g.likeness.runRequest works)
  | .codec format => exact withoutSignal (g.likeness.runCodec works format)
  | .load => exact withoutSignal (runImport runs walks works allows)
  | .listen => exact withoutSignal (runListen works)

lemma within (tag : String) {c d : Run (Option Signal)} (body : ∀ v, w ≤ v → Guarded g Unsaid v c d) :
    Guarded g Unsaid w (within tag c) (within tag d) := by
  refine around (fun m => m.enter tag) _ (V := Unsaid) rfl (fun sound => ?_) (fun _ v _ sound => ?_)
    fun _ => .element tag
  · obtain ⟨later, kept⟩ := sound.resume (t := { w.machine.session with
      callStack := tag :: w.machine.session.callStack }) { sound.session with }
    refine ⟨_, later, kept, rfl, .refl _, (body _ later).recover fun v raised _ =>
      bind (V := Unsaid) ?_ fun _ _ _ _ => throw _⟩
    unfold blamed
    split
    · exact pure trivial
    · exact ask fun _ => (Tame.diagnose _).bind fun _ _ _ _ => pure trivial
  · obtain ⟨after, kept⟩ := sound.resume (t := { v.machine.session with
      callStack := v.machine.session.callStack.drop 1 }) { sound.session with }
    exact ⟨_, after, kept, rfl, fun _ _ => trivial⟩

lemma visitChildren {visit visit' : NodeId → Run (Option Signal)} (visits : Guards g visit visit') :
    Guards g (visitChildren visit) (visitChildren visit') :=
  g.likeness.comparison.visitChildren visits

lemma visitBy (deeds : Deeds g deed deed') (runs : Guards g.abroad run run') (depth : Nat) :
    Guards g (visitBy deed run depth) (visitBy deed' run' depth) := by
  induction depth with
  | zero =>
    intro w id works
    refine nodeOf fun _ => ?_
    split
    · exact within _ fun _ _ => raise _
    · exact pure trivial
  | succ depth ih =>
    intro w id works
    refine nodeOf fun _ => ?_
    split
    · refine within _ fun v later => ask fun _ => ?_
      have works := works.later later
      split
      · exact visitChildren ih v id works
      · exact deeds v _ _ _ _ _ id (visitChildren ih) runs works
      · exact g.likeness.runHostAction works _ _
    · exact pure trivial

/-! ## Documents -/

lemma runDocumentBy (walks : Guards g walk walk') (starts : g.licence.start) :
    Guards g (runDocumentBy walk) (runDocumentBy walk') := by
  intro w document works
  refine Guarded.bind (V := Unsaid) (change fun sound => ?_) fun v _ later _ => ?_
  · have hosts : w.Hosts (w.machine.entered document).session := by
      refine ⟨?_, ?_, ?_, ?_, ?_, ?_⟩
      · rw [Course.env_entered]
        exact sound.session.bound
      · intro id here
        cases here
        exact works
      · rw [Course.functions_entered]
        exact sound.session.named
      · rw [Course.env_entered]
        exact sound.session.stacked
      · rw [Course.env_entered]
        exact sound.session.global
      · rw [Course.functions_entered]
        exact sound.session.nodup
    obtain ⟨later, kept⟩ := sound.resume hosts
    exact ⟨_, ⟨later, kept, .start document starts⟩, rfl⟩
  · refine recover ?_ fun u raised _ => ?_
    · refine (walks v document (works.later later)).bind fun u signal _ _ => ?_
      exact Guarded.bind (V := Unsaid) (g.likeness.rejectSignal signal) fun _ _ _ _ => pure trivial
    · exact (Tame.emit _ _).bind fun _ _ _ _ => (Tame.diagnose _).bind fun _ _ _ _ => pure trivial

lemma documentBy (deeds : Deeds g.abroad deed deed') (nesting : Nat) :
    Guards g.abroad (documentBy deed nesting) (documentBy deed' nesting) := by
  induction nesting with
  | zero => exact fun _ _ _ => raise _
  | succ nesting ih => exact runDocumentBy (visitChildren (visitBy deeds ih maxDepth)) trivial

lemma walkBy (deeds : Deeds g.abroad deed deed') : Guards g.abroad (walkBy deed) (walkBy deed') :=
  visitChildren (visitBy deeds (documentBy deeds moduleNesting) maxDepth)

lemma changeHost (actions : Option (List (String × HostAction))) : Tame g Unsaid w (changeHost actions) := by
  cases actions with
  | none =>
    refine change fun sound => ?_
    obtain ⟨later, kept⟩ := sound.resume (t := { w.machine.session with host := none }) { sound.session with }
    exact ⟨_, ⟨later, kept, .host _ _ none⟩, rfl⟩
  | some actions =>
    refine change fun sound => ?_
    have added := sound.elsewhere (l := g.licence) w.machine.world (w.machine.hosts.push ⟨actions, []⟩)
    obtain ⟨later, kept⟩ := added.sound.resume (t := { w.machine.session with
      host := some w.machine.hosts.size }) { added.sound.session with }
    exact ⟨_, added.trans ⟨later, kept, .host _ _ _⟩, rfl⟩

lemma errand (deeds : Deeds g.abroad deed deed') (errand : Errand) :
    Guarded g.abroad Unsaid w (errand.runBy deed) (errand.runBy deed') := by
  cases errand with
  | source text =>
    refine (Tame.parseSource text).bind fun v document _ young => ?_
    exact (documentBy deeds _ v document young.works).bind fun _ _ _ _ => pure trivial
  | part text =>
    refine (Tame.parseSource text).bind fun v root _ young => ?_
    exact (walkBy deeds v root young.works).bind fun _ _ _ _ => pure trivial
  | dispatch selector event detail =>
    refine ask fun _ => ?_
    split
    · exact pure trivial
    · refine askForest fun _ => ?_
      exact g.abroad.likeness.next (g.abroad.likeness.dispatch (walkBy deeds) event detail _) fun _ _ _ _ => pure trivial
  | dispatchAt target event detail =>
    exact g.abroad.likeness.next (g.abroad.likeness.dispatch (walkBy deeds) event detail [target]) fun _ _ _ _ => pure trivial
  | host actions => exact changeHost actions

end Guarded

/-! ## Machines that are used -/

def unused (files : Files) : Machine :=
  .new ⟨some 3, false⟩ (World.new files ⟨[], []⟩ .input [] true) none

def blank : Machine := unused ⟨⟨"/", "/"⟩, [], [], []⟩

def oneFile (text : String) : Files :=
  ⟨⟨"/", "/"⟩, [("/m", text.toList.map fun c => c.toNat.toUInt8)], [], []⟩

def Machine.holding (files : Files) (source : String) : Machine :=
  { unused files with forest := (Forest.empty.parse source).toOption.elim .empty Prod.snd }

lemma text_oneFile {text : String}
    (decoded : (Utf8.read (text.toList.map fun c => c.toNat.toUInt8)).map (fun chars => String.ofList (unifiedLines chars)) =
      .ok text) : (oneFile text).text "/m" = .ok text := by
  have segments : Locator.segmentsOf "/m" = ["", "m"] := by decide
  have path : (oneFile text).absolute "/m" = "/m" := by
    rw [Files.absolute, if_pos (by decide +kernel), Locator.simplified, segments]
    rfl
  rw [Files.text, Files.isDirectory, Files.bytes?, path, ← decoded]
  rfl

lemma fetch_oneFile {text : String} (files : m.world.files = oneFile text)
    (found : (oneFile text).text "/m" = .ok text) (dir : m.session.sourceDir = none) :
    fetch "/m" m = (.ok (text, "/m"), m) := by
  have read : m.world.readFile "/m" = (.ok text, m.world) := by rw [World.readFile, files, found]
  have path : Locator.resolve m.world.files.places m.session.sourceDir "/m" = "/m" := by
    rw [files, dir]
    rfl
  unfold fetch
  rw [if_neg (by decide), resolved, bind_assoc, run_get_bind, path, run_pure_bind, readFile, bind_assoc,
    run_modifyGet_bind, read]
  rfl

def Rule.full (last : Machine) : Rule := ⟨last, .full, fun _ => True, fun _ _ _ => trivial⟩

lemma Licence.allows_full (tag : Builtin) (id : NodeId) (m : Machine) : Licence.full.Allows tag id m := by
  cases tag with
  | store => exact fun _ _ => trivial
  | man => exact ⟨fun _ _ => trivial, fun _ _ _ _ _ _ => trivial⟩
  | function => exact fun _ _ => trivial
  | load => exact fun _ _ _ => trivial
  | _ => trivial

lemma deeds_full (last : Machine) : Deeds (.full last) runBuiltin runBuiltin :=
  fun _ _ _ _ _ _ _ walks runs works => Guarded.runBuiltin walks runs works (Licence.allows_full _ _ _)

lemma guards_runDocument (last : Machine) (nesting : Nat) :
    Guards (.full last) (runDocument nesting) (runDocument nesting) :=
  Guarded.documentBy (g := .full last) (deeds_full last) nesting

lemma Moment.sound_new (settings : Settings) (world : World) (dir : Option String) :
    Moment.Sound ⟨⟨fun _ => False, fun _ => False⟩, Machine.new settings world dir⟩ where
  marked := show Num.constantMark < Num.firstFreshMark by decide
  store := {
    there := fun _ never => never.elim
    kept := fun _ never => never.elim
    loose := fun r _ v mem => by
      cases mem }
  forest := {
    there := fun _ never => never.elim
    fits := fun x => by
      exact ⟨fun _ mem => (nomatch mem), fun _ never => (nomatch never), fun _ mem => (nomatch mem)⟩ }
  functions _ never := by simp [Machine.new] at never
  modules _ never := nomatch never
  session := .new _ none dir []

lemma Moment.Sound.errand (sound : w.Sound) (errand : Errand) :
    ∃ v, w ≤ v ∧ v.Sound ∧ v.machine = (errand.run w.machine).2 := by
  obtain ⟨v, arrives⟩ := Guarded.errand (g := .full w.machine) (deeds_full _) errand ⟨sound, trivial⟩
  refine ⟨v, arrives.later, arrives.sound, ?_⟩
  rw [arrives.machine, errand.runBy_runBuiltin]

lemma Moment.Sound.later (sound : w.Sound) {last : Machine} (later : Later w.machine last) : w.Until last := by
  generalize here : w.machine = m at later
  induction later using Relation.ReflTransGen.head_induction_on generalizing w with
  | refl => exact ⟨w.vault, here ▸ le_refl w⟩
  | head step _ ih =>
    obtain ⟨errand, rfl⟩ := step
    obtain ⟨v, first, kept, there⟩ := sound.errand errand
    exact (ih kept (here ▸ there)).back first

lemma exists_sound_of_reachable (reachable : Reachable m) : ∃ vault, Moment.Sound ⟨vault, m⟩ := by
  refine reachable_induction (P := fun m => ∃ vault, Moment.Sound ⟨vault, m⟩) reachable
    (fun settings world dir => ⟨_, Moment.sound_new settings world dir⟩) ?_
  rintro m errand ⟨vault, sound⟩
  obtain ⟨v, _, kept, here⟩ := sound.errand errand
  exact ⟨v.vault, here ▸ kept⟩

lemma runBy_eq_run {last : Machine} {errand : Errand} (reachable : Reachable m)
    (later : Later (errand.run m).2 last) (deeds : Deeds (.full last) runBuiltin deed) :
    errand.runBy deed m = errand.run m := by
  obtain ⟨vault, sound⟩ := exists_sound_of_reachable reachable
  obtain ⟨v, arrives⟩ := Guarded.errand (g := .full last) deeds errand ⟨sound, trivial⟩
  have here : v.machine = (errand.run m).2 := by rw [arrives.machine, errand.runBy_runBuiltin]
  rw [arrives.alike (arrives.sound.later (here ▸ later)), errand.runBy_runBuiltin]

/-- A state in which an element is run: something is set aside, and the element is at work. -/
def Machine.Steady (m : Machine) (id : NodeId) : Prop :=
  ∃ vault, Moment.Sound ⟨vault, m⟩ ∧ Moment.Works ⟨vault, m⟩ id

/-- Makes sure that the state is one in which an element is run. -/
noncomputable def watchSteady (alarm : Run Unit) : Deed := fun walk run tag id => do
  ensure alarm fun m => m.Steady id
  runBuiltin walk run tag id

lemma steady_holding {files : Files} {source : String} {forest : Forest} (parsed : Forest.empty.parse source = .ok (0, forest))
    (child : 1 ∈ (forest.node 0).childList) : (Machine.holding files source).Steady 1 := by
  have sound := Moment.sound_new ⟨some 3, false⟩ (World.new files ⟨[], []⟩ .input [] true) none
  obtain ⟨v, arrives⟩ := Tame.parseSource (g := .full blank) source ⟨sound, trivial⟩
  have made : Script.parseSource source (unused files) = (.ok 0, Machine.holding files source) := by
    rw [parseSource_apply, show (unused files).forest = .empty from rfl, Machine.holding, parsed]
    rfl
  have here : v.machine = Machine.holding files source := arrives.machine.trans (congrArg Prod.snd made)
  have young := arrives.known 0 (congrArg Prod.fst made)
  have works : v.Works 1 := by
    refine (arrives.sound.forest.keeps.child young.works.2 ?_).2
    rw [here, Machine.holding, parsed]
    exact child
  obtain ⟨vault, m⟩ := v
  cases here
  exact ⟨vault, arrives.sound, works⟩

lemma runBy_watchSteady (reachable : Reachable m) (errand : Errand) (alarm : Run Unit) :
    errand.runBy (watchSteady alarm) m = errand.run m := by
  have later : Later (errand.run m).2 (errand.run m).2 := .refl
  refine runBy_eq_run reachable later fun w walk walk' run run' tag id walks runs works => ?_
  exact Guarded.ensure (fun stands _ => ⟨w.vault, stands.sound, works⟩)
    (Guarded.runBuiltin walks runs works (Licence.allows_full tag id w.machine))

end TagScript.Script
