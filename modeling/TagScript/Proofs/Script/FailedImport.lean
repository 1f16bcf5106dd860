import TagScript.Proofs.Script.Watch

/-!
# Imports that fail

If a script or markup with a namespace fails, nothing has been bound in the scopes of the importer
except by stores that are global. But a function is in the table as soon as it is defined, and stays
there. So what can be said of names is said of those that the source leaves alone.
-/

namespace TagScript.Script

open Markup Assoc

/-! ## Sources in a scope of their own -/

/-- What a source that has not come to its end can have done: nothing, or something in a scope of
its own. -/
inductive Machine.Apart (l : Licence) (m : Machine) : Machine → Prop where
  | idle {after : Machine} (same : after.session = m.session) : m.Apart l after
  | inside {before after : Machine} (same : before.session = m.session)
    (course : Course l before.opened after) :
    m.Apart l after.shut

lemma Machine.Apart.of_session {l : Licence} {m before after : Machine} (apart : before.Apart l after)
    (same : before.session = m.session) : m.Apart l after := by
  cases apart with
  | idle here => exact .idle (here.trans same)
  | inside here course => exact .inside (here.trans same) course

lemma scope_pop (m : Machine) (id : ScopeId) : m.shut.session.env.scope id = m.session.env.scope id := by
  show (m.session.env.pop?.elim m.session.env Prod.snd).scope id = _
  unfold Environment.pop?
  split <;> rfl

namespace Machine.Apart

variable {l : Licence} {m after : Machine} (apart : m.Apart l after)
include apart

lemma effects (still : ¬ l.start) : ∃ sent, after.session.effects = sent ++ m.session.effects := by
  cases apart with
  | idle same => exact ⟨[], by rw [same]; rfl⟩
  | inside same course => exact same ▸ course.effects still

variable {name : String}

lemma named (held : has name m.session.functions) : has name after.session.functions := by
  cases apart with
  | idle same => exact same ▸ held
  | @inside before _ same course =>
    have held : has name before.session.functions := same ▸ held
    exact course.named held

lemma meaning_eq (nodup : (Assoc.names m.session.functions).Nodup) (kept : ¬ l.define name) :
    get? name after.session.functions = get? name m.session.functions := by
  cases apart with
  | idle same => rw [same]
  | @inside before _ same course =>
    have nodup : (Assoc.names before.session.functions).Nodup := same ▸ nodup
    exact (course.meaning_eq nodup kept).trans (congrArg (fun s => get? name s.functions) same)

lemma stack (stacked : m.session.env.stack ≠ []) : after.session.env.stack = m.session.env.stack := by
  cases apart with
  | idle same => rw [same]
  | @inside before inner same course =>
    have stacked : before.session.env.stack ≠ [] := same ▸ stacked
    show (inner.session.env.pop?.elim inner.session.env Prod.snd).stack = m.session.env.stack
    rw [Course.pop_of_settled (course.settled (List.cons_ne_nil _ _)) stacked, same]

lemma rebound {id : ScopeId} (there : id < m.session.env.scopes.size) :
    Course.Rebound l (id = m.session.env.globalId) (m.session.env.scope id) (after.session.env.scope id) := by
  cases apart with
  | idle same =>
    rw [same]
    exact .refl
  | @inside before inner same course =>
    rw [← same] at there ⊢
    have later : id < (before.session.env.scopes.push []).size := by simpa using Nat.lt_succ_of_lt there
    rw [scope_pop, ← Course.scope_push before.session.env there []]
    exact course.rebound (List.cons_ne_nil _ _) later (Nat.ne_of_lt there)

end Machine.Apart

lemma session_parseSource (text : String) (m : Machine) : (parseSource text m).2.session = m.session := by
  rw [parseSource_apply]
  split <;> rfl

section

variable {g : Rule} {w : Moment} (stands : w.Stands g) {walk : Walk} (walks : Guards g walk walk) {space : String}
  {raised : Raised} {after : Machine}
include stands walks

lemma Moment.Stands.apart_runFragmentIn {fragment : NodeId} (works : w.Works fragment) {location : String}
    (failed : runFragmentIn walk (some space) fragment location w.machine = (.error raised, after)) :
    w.machine.Apart g.licence after := by
  obtain ⟨later, sound⟩ := stands.sound.push
  obtain ⟨v, arrives⟩ := Guarded.runFragment walks (works.later later) location ⟨sound, stands.holds⟩
  unfold runFragmentIn at failed
  simp only [] at failed
  rw [run_get_bind] at failed
  -- once the source has run, nothing can fail
  obtain failed | ⟨_, _, _, never⟩ := failed_of_bind failed
  · rw [inScope_apply, always] at failed
    rcases found : runFragment walk fragment location w.machine.opened with ⟨_ | _, m⟩
    · rw [found] at failed
      obtain rfl : v.machine = m := arrives.machine.trans (congrArg Prod.snd found)
      cases failed
      exact .inside rfl arrives.course
    · rw [found] at failed
      cases failed
  · cases never

lemma Moment.Stands.apart_importSource {run : RunDocument} {node : Node} (named : given? node "namespace" = some space)
    {kind : ImportKind} (known : get? (setting node "type" "script") ImportKind.names = some kind)
    (plain : kind ≠ .module) (failed : importSource walk run node w.machine = (.error raised, after)) :
    w.machine.Apart g.licence after := by
  have ran : ∀ src (answer : NodeId → Option NodeId), (fetch src >>= fun found =>
      parseSource found.1 >>= fun fragment => runFragmentIn walk (some space) fragment found.2 >>= fun _ =>
      pure (answer fragment)) w.machine = (.error raised, after) → w.machine.Apart g.licence after := by
    intro src answer failed
    obtain ⟨v, fetched⟩ := g.likeness.fetch src stands
    obtain ⟨session, _⟩ := fetch_keeps src w.machine
    obtain failed | ⟨⟨text, location⟩, m, found, failed⟩ := failed_of_bind failed
    · rw [failed] at session
      exact .idle session
    rw [found] at session
    obtain rfl : v.machine = m := fetched.machine.trans (congrArg Prod.snd found)
    have stands := stands.reach fetched.toReaches
    obtain ⟨u, parsed⟩ := Tame.parseSource text stands
    have again := session_parseSource text v.machine
    obtain failed | ⟨fragment, m, found, failed⟩ := failed_of_bind failed
    · rw [failed] at again
      exact .idle (again.trans session)
    rw [found] at again
    obtain rfl : u.machine = m := parsed.machine.trans (congrArg Prod.snd found)
    obtain failed | ⟨_, _, _, never⟩ := failed_of_bind failed
    · have young := parsed.known fragment (congrArg Prod.fst found)
      exact ((stands.reach parsed.toReaches).apart_runFragmentIn walks young.works failed).of_session
        (again.trans session)
    · cases never
  unfold importSource importSourceBy at failed
  generalize given? node "src" = src at failed
  cases src with
  | none =>
    cases failed
    exact .idle rfl
  | some src =>
    simp only [known, named] at failed
    cases kind with
    | module => exact absurd rfl plain
    | script => exact ran src (fun _ => none) failed
    | markup => exact ran src some failed

end

/-! ## Names that a source leaves alone -/

/-- Some names may be bound to something else where they are bound, some may be bound globally, and
some may be given to functions. -/
def Licence.naming (changed bound defined : String → Prop) : Licence :=
  ⟨fun _ _ _ => True, changed, bound, defined, False⟩

/-- Runs an element that means something by itself, if it may do what it is about to do. -/
noncomputable def keepTo (l : Licence) : Deed := fun walk run tag id => do
  ensure (raise .exhausted) fun m => l.Allows tag id m
  runBuiltin walk run tag id

/-- What was bound and defined in one state is so in another, as far as there was no licence. -/
structure Machine.SparesNames (l : Licence) (m last : Machine) : Prop where
  gained : ∀ scope < m.session.env.scopes.size, ∀ name, has name (last.session.env.scope scope) →
    has name (m.session.env.scope scope) ∨ scope = m.session.env.globalId ∧ l.global name
  bound : ∀ scope < m.session.env.scopes.size, ∀ name, ¬ l.rebind name → ¬ l.global name →
    get? name (last.session.env.scope scope) = get? name (m.session.env.scope scope)
  defined : ∀ name, ¬ l.define name → get? name last.session.functions = get? name m.session.functions

variable {changed bound defined : String → Prop}

def Rule.naming (last : Machine) (changed bound defined : String → Prop) : Rule :=
  ⟨last, .naming changed bound defined, fun _ => True, fun _ _ _ => trivial⟩

lemma deeds_keepTo (last : Machine) : Deeds (.naming last changed bound defined)
    (keepTo (.naming changed bound defined)) (keepTo (.naming changed bound defined)) := by
  intro w walk walk' run run' tag id walks runs works
  exact Guarded.refuse fun allows => Guarded.runBuiltin walks runs works allows

lemma guards_visitBy {last : Machine} {deed : Deed}
    (deeds : Deeds (.naming last changed bound defined) deed deed) (nesting depth : Nat) :
    Guards (.naming last changed bound defined) (visitChildren (visitBy deed (runDocument nesting) depth))
      (visitChildren (visitBy deed (runDocument nesting) depth)) :=
  Guarded.visitChildren (Guarded.visitBy deeds (guards_runDocument last nesting) depth)

lemma Machine.Apart.spares {l : Licence} {m after last : Machine} (apart : m.Apart l after)
    (nodup : (Assoc.names m.session.functions).Nodup) (env : last.session.env = after.session.env)
    (functions : last.session.functions = after.session.functions) : m.SparesNames l last where
  gained scope there name held := (apart.rebound there).gained (env ▸ held)
  bound scope there name rebound global := by rw [env, (apart.rebound there).bound_eq rebound global]
  defined name kept := by rw [functions, apart.meaning_eq nodup kept]

/-- What becomes of a machine when an import has failed. -/
def Machine.reporting (m : Machine) (id : NodeId) (report : String) : Machine :=
  { m with
    forest := m.forest.remove id
    session := { m.session with effects := ⟨.failure, report⟩ :: m.session.effects } }

lemma runImport_failed {walk : Walk} {run : RunDocument} {id : NodeId} {m after : Machine} {raised : Raised}
    (failed : importSource walk run (m.forest.node id) m = (.error raised, after)) :
    runImport walk run id m =
      (.ok (), after.reporting id (importReport ((m.forest.node id).attr? "src") raised.fault)) := by
  unfold runImport runImportBy
  rw [run_nodeOf_bind, run_bind, recover, run_bind, failed]
  rfl

/-- Every element of every run is run in a steady state. From such a state let an import of a script
or markup with a namespace fail, at whatever point. Then its element is taken out, and it is
reported once, after what the source itself has sent; the scopes are those that were open; no
function has lost its name, and the table of functions is as the source left it; no scope but the
global one has gained a binding. If the source keeps to some names in what it stores globally,
changes and defines, the global scope has gained no other name, and the other names, that of the
namespace among them, are bound to what they were and mean the functions that they did. -/
theorem failed_import_spares_names (m : Machine) :
    (∀ (errand : Errand) alarm, Reachable m → errand.runBy (watchSteady alarm) m = errand.run m) ∧
    ∀ id nesting depth space kind raised after, m.Steady id →
      given? (m.forest.node id) "namespace" = some space →
      Assoc.get? (setting (m.forest.node id) "type" "script") ImportKind.names = some kind → kind ≠ .module →
      importSource (visitChildren (visitNode (runDocument nesting) depth)) (runDocument nesting) (m.forest.node id) m =
        (.error raised, after) →
      ∃ last, runImport (visitChildren (visitNode (runDocument nesting) depth)) (runDocument nesting) id m =
          (.ok (), last) ∧
        (last.forest = after.forest.remove id ∧ (last.forest.node id).parent = none) ∧
        (∃ sent, after.session.effects = sent ++ m.session.effects ∧
          last.session.effects = ⟨.failure, importReport ((m.forest.node id).attr? "src") raised.fault⟩ ::
            (sent ++ m.session.effects)) ∧
        last.session.env.stack = m.session.env.stack ∧
        (last.session.functions = after.session.functions ∧
          ∀ name, Assoc.has name m.session.functions → Assoc.has name last.session.functions) ∧
        (∀ scope < m.session.env.scopes.size, scope ≠ m.session.env.globalId →
          ∀ name, Assoc.has name (last.session.env.scope scope) → Assoc.has name (m.session.env.scope scope)) ∧
        ∀ changed bound defined,
          importSource (visitChildren (visitBy (keepTo (.naming changed bound defined)) (runDocument nesting) depth))
            (runDocument nesting) (m.forest.node id) m = (.error raised, after) →
          m.SparesNames (.naming changed bound defined) last := by
  refine ⟨fun errand alarm reachable => runBy_watchSteady reachable errand alarm, ?_⟩
  · rintro id nesting depth space kind raised after ⟨vault, sound, works⟩ named known plain failed
    have deeds : Deeds (.naming m (fun _ => True) (fun _ => True) fun _ => True) runBuiltin runBuiltin := by
      intro w walk walk' run run' tag id walks runs works
      exact Guarded.runBuiltin walks runs works (Licence.allows_full tag id w.machine)
    have apart : m.Apart _ after := Moment.Stands.apart_importSource ⟨sound, trivial⟩
      (guards_visitBy deeds nesting depth) named known plain failed
    obtain ⟨sent, effects⟩ := apart.effects not_false
    refine ⟨_, runImport_failed failed, ⟨rfl, after.forest.parent_remove_self id⟩, ⟨sent, effects, ?_⟩,
      apart.stack sound.session.stacked, ⟨rfl, fun name => apart.named⟩, fun scope there outer name held => ?_, ?_⟩
    · rw [← effects]
      rfl
    · exact ((apart.rebound there).gained held).resolve_right fun global => outer global.1
    · intro changed bound defined kept
      have apart : m.Apart _ after := Moment.Stands.apart_importSource ⟨sound, trivial⟩
        (guards_visitBy (deeds_keepTo m) nesting depth) named known plain kept
      exact apart.spares sound.session.nodup rfl rfl

/-! ## A source that breaks off -/

def breaking : String := "<func name='g'></func><break>"

def importer : Machine := .holding (oneFile breaking) "<import src='/m' namespace='n'>"

lemma fetch_importer : fetch "/m" importer = (.ok (breaking, "/m"), importer) :=
  fetch_oneFile rfl (text_oneFile rfl) rfl

lemma known_importer : given? (importer.forest.node 1) "namespace" = some "n" ∧
    get? (setting (importer.forest.node 1) "type" "script") ImportKind.names = some .script := by decide +kernel

lemma importSource_importer : ∃ raised after,
    importSource (visitChildren (visitNode (runDocument 0) 1)) (runDocument 0) (importer.forest.node 1) importer =
      (.error raised, after) ∧ has "g" after.session.functions := by
  obtain ⟨forest, parsed, ends, left⟩ : ∃ forest, importer.forest.parse breaking = .ok (2, forest) ∧
      (runFragmentIn (visitChildren (visitNode (runDocument 0) 1)) (some "n") 2 "/m"
        { importer with forest := forest }).1.toOption = none ∧
      has "g" (runFragmentIn (visitChildren (visitNode (runDocument 0) 1)) (some "n") 2 "/m"
        { importer with forest := forest }).2.session.functions :=
    ⟨_, rfl, by decide +kernel, by decide +kernel⟩
  have src : given? (importer.forest.node 1) "src" = some "/m" := by decide +kernel
  unfold importSource importSourceBy
  simp only [src, known_importer]
  rw [run_bind, fetch_importer]
  simp only [run_bind, parseSource_apply, parsed]
  generalize runFragmentIn _ _ _ _ _ = ran at ends left ⊢
  rcases ran with ⟨raised | done, after⟩
  · exact ⟨raised, after, rfl, left⟩
  · cases ends

lemma steady_importer : importer.Steady 1 := by
  obtain ⟨forest, parsed, child⟩ : ∃ forest, Forest.empty.parse "<import src='/m' namespace='n'>" = .ok (0, forest) ∧
      1 ∈ (forest.node 0).childList := ⟨_, rfl, by decide +kernel⟩
  exact steady_holding parsed child

/-- The source has failed, its element is taken out, and the function that it defined is there,
under the name it has in the source. -/
theorem failed_import_spares_names_breaking : ∃ raised after last,
    importer.Steady 1 ∧ given? (importer.forest.node 1) "namespace" = some "n" ∧
    importSource (visitChildren (visitNode (runDocument 0) 1)) (runDocument 0) (importer.forest.node 1) importer =
      (.error raised, after) ∧
    runImport (visitChildren (visitNode (runDocument 0) 1)) (runDocument 0) 1 importer = (.ok (), last) ∧
    (last.forest.node 1).parent = none ∧
    ¬ Assoc.has "g" importer.session.functions ∧ Assoc.has "g" last.session.functions := by
  obtain ⟨raised, after, failed, left⟩ := importSource_importer
  obtain ⟨last, ran, ⟨_, root⟩, _, _, ⟨table, _⟩, _⟩ := (failed_import_spares_names importer).2 1 0 1 "n" .script raised after
    steady_importer known_importer.1 known_importer.2 (by decide) failed
  exact ⟨raised, after, last, steady_importer, known_importer.1, failed, ran, root, by decide, table ▸ left⟩

end TagScript.Script
