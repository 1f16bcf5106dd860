import TagScript.Proofs.Script.Alike
import TagScript.Script.Interpreter

/-!
# Runs that have to do with no nodes

A run is quiet if it neither looks at nodes and functions nor changes them, and calm if it also
leaves the outline of the machine as it was. The runs that evaluate expressions and change variables
are calm.
-/

namespace TagScript.Script

open Markup

def Machine.furnished (m : Machine) (f : Forest) (functions : Array Function) : Machine :=
  { m with forest := f, functions := functions }

/-- A machine without nodes and functions. -/
def Machine.bare (m : Machine) : Machine := m.furnished .empty #[]

def Session.charter (s : Session) : Assoc FunctionId × Assoc Handler := (s.functions, s.handlers)

/-- The parts of a machine that have to do with its nodes, with functions and with what is run. -/
structure Fittings where
  forest : Forest
  functions : Array Function
  document : Option NodeId
  effects : List Effect
  handlers : Assoc Handler
  hostTags : List String
  host : Option HostId
  hosts : Array Host

def Machine.fitted (m : Machine) (f : Fittings) : Machine :=
  { m with
    forest := f.forest
    functions := f.functions
    hosts := f.hosts
    session := { m.session with
      document := f.document
      effects := f.effects
      handlers := f.handlers
      hostTags := f.hostTags
      host := f.host } }

def Machine.fittings (m : Machine) : Fittings where
  forest := m.forest
  functions := m.functions
  document := m.session.document
  effects := m.session.effects
  handlers := m.session.handlers
  hostTags := m.session.hostTags
  host := m.session.host
  hosts := m.hosts

/-- A run does the same whatever nodes and functions there are and whatever is run, and changes none
of this. -/
structure Quiet {α : Type} (c : Run α) : Prop where
  fitted : ∀ m f, c (m.fitted f) = ((c m).1, (c m).2.fitted f)
  charter : ∀ m, (c m).2.session.charter = m.session.charter

namespace Quiet

variable {α : Type}

lemma furnished {c : Run α} (quiet : Quiet c) (m : Machine) (f : Forest) (fs : Array Function) :
    c (m.furnished f fs) = ((c m).1, (c m).2.furnished f fs) := by
  have same : c m = ((c m).1, (c m).2.fitted m.fittings) := quiet.fitted m m.fittings
  rw [show m.furnished f fs = m.fitted { m.fittings with forest := f, functions := fs } from rfl, quiet.fitted, same]
  rfl

lemma change {f : Machine → Machine} (fitted : ∀ m g, f (m.fitted g) = (f m).fitted g)
    (charter : ∀ m, (f m).session.charter = m.session.charter) : Quiet (modify f : Run PUnit) where
  fitted m g := by
    show (Except.ok PUnit.unit, f (m.fitted g)) = _
    rw [fitted]
    rfl
  charter := charter

lemma changeEnv (f : Environment → Environment) : Quiet (modify fun m => m.mapEnv f : Run PUnit) :=
  Quiet.change (fun _ _ => rfl) fun _ => rfl

end Quiet

/-- The part of the state that is the same before and after an element. -/
structure Outline where
  settings : Settings
  files : Files
  callStack : List String
  globalId : ScopeId
  stack : List ScopeId
  sourceDir : Option String
  loading : List String
  handlers : Assoc Handler
  hostTags : List String

def Machine.outline (m : Machine) : Outline :=
  { settings := m.settings
    files := m.world.files
    callStack := m.session.callStack
    globalId := m.session.env.globalId
    stack := m.session.env.stack
    sourceDir := m.session.sourceDir
    loading := m.session.loading
    handlers := m.session.handlers
    hostTags := m.session.hostTags }

def Machine.bearing (m : Machine) : Assoc FunctionId × Outline := (m.session.functions, m.outline)

/-- A quiet run that leaves the outline as it was. -/
structure Calm {α : Type} (c : Run α) : Prop where
  fitted : ∀ m f, c (m.fitted f) = ((c m).1, (c m).2.fitted f)
  kept : ∀ m, (c m).2.bearing = m.bearing

namespace Calm

variable {α β : Type}

lemma quiet {c : Run α} (calm : Calm c) : Quiet c where
  fitted := calm.fitted
  charter m := congrArg (fun bearing => (bearing.1, bearing.2.handlers)) (calm.kept m)

lemma pure (a : α) : Calm (Pure.pure a) := ⟨fun _ _ => rfl, fun _ => rfl⟩

lemma throw (raised : Raised) : Calm (throw raised : Run α) := ⟨fun _ _ => rfl, fun _ => rfl⟩

lemma raise (fault : Fault) : Calm (raise fault : Run α) := Calm.throw _

lemma settle (result : Except Fault α) : Calm (settle result) := by
  cases result with
  | ok a => exact Calm.pure a
  | error fault => exact Calm.raise fault

lemma bind {c : Run α} {k : α → Run β} (first : Calm c) (after : ∀ a, Calm (k a)) : Calm (c >>= k) where
  fitted m f := by
    rw [run_bind, run_bind, first.fitted]
    rcases c m with ⟨result, m'⟩
    cases result with
    | error raised => rfl
    | ok a => exact (after a).fitted m' f
  kept m := by
    have kept := first.kept m
    rw [run_bind]
    rcases found : c m with ⟨result, m'⟩
    rw [found] at kept
    cases result with
    | error raised => exact kept
    | ok a => exact ((after a).kept m').trans kept

lemma ask {k : Machine → Run β} (blind : ∀ m f, k (m.fitted f) = k m) (after : ∀ m, Calm (k m)) :
    Calm (get >>= k) where
  fitted m f := by
    rw [run_get_bind, run_get_bind, blind]
    exact (after m).fitted m f
  kept m := (after m).kept m

lemma changeGet {f : Machine → α × Machine} (fitted : ∀ m g, f (m.fitted g) = ((f m).1, (f m).2.fitted g))
    (kept : ∀ m, (f m).2.bearing = m.bearing) : Calm (modifyGet f : Run α) where
  fitted m g := by
    show (Except.ok (f (m.fitted g)).1, (f (m.fitted g)).2) = _
    rw [fitted]
    rfl
  kept := kept

lemma change {f : Machine → Machine} (fitted : ∀ m g, f (m.fitted g) = (f m).fitted g)
    (kept : ∀ m, (f m).bearing = m.bearing) : Calm (modify f : Run PUnit) :=
  Calm.changeGet (fun m g => by rw [fitted]) kept

lemma forM {c : α → Run PUnit} {items : List α} (each : ∀ a, Calm (c a)) : Calm (items.forM c) := by
  induction items with
  | nil => exact Calm.pure _
  | cons a rest ih => exact (each a).bind fun _ => ih

lemma option_forM {c : α → Run PUnit} {item : Option α} (each : ∀ a, Calm (c a)) : Calm (item.forM c) := by
  cases item with
  | none => exact Calm.pure _
  | some a => exact each a

/-! ## Expressions -/

lemma computed (result : Environment → Store → Except Fault (Value × Store)) : Calm (compute result) where
  fitted m f := by
    simp only [compute, run_get_bind]
    show ((Script.settle (result m.session.env m.store) >>= _) (m.fitted f)) = _
    cases result m.session.env m.store with
    | error | ok => rfl
  kept m := by
    simp only [compute, run_get_bind]
    cases result m.session.env m.store with
    | error | ok => rfl

lemma evaluate (text : Option String) : Calm (evaluate text) := Calm.computed _

lemma evaluateList (text : Option String) : Calm (evaluateList text) := Calm.computed _

lemma datumOf (v : Value) : Calm (datumOf v) :=
  Calm.ask (fun _ _ => rfl) fun _ => Calm.settle _

lemma textOf (v : Value) : Calm (textOf v) :=
  Calm.ask (fun _ _ => rfl) fun _ => Calm.settle _

lemma isTrue (v : Value) : Calm (isTrue v) :=
  Calm.ask (fun _ _ => rfl) fun _ => Calm.pure _

lemma bindName (name : String) (value : Value) : Calm (bindName name value) :=
  Calm.change (fun _ _ => rfl) fun _ => rfl

lemma diagnose (parts : List String) : Calm (diagnose parts) := by
  refine Calm.ask (fun _ _ => rfl) fun m => ?_
  split
  · exact Calm.change (fun _ _ => rfl) fun _ => rfl
  · exact Calm.pure _

lemma checkDeclared (value : Value) (declared : Option String) (what : String) :
    Calm (checkDeclared value declared what) :=
  Calm.settle _

lemma required (node : Node) (name : String) : Calm (required node name) := by
  unfold Script.required
  split
  · exact Calm.raise _
  · split
    · exact Calm.raise _
    · exact Calm.pure _

lemma holds (condition : String) : Calm (holds condition) :=
  (Calm.evaluate _).bind fun value => Calm.isTrue value

/-! ## Variables -/

lemma runStatement (text : String) : Calm (runStatement text) := by
  unfold Script.runStatement
  split
  · refine (Calm.evaluate _).bind fun value => ?_
    exact (Calm.bindName _ _).bind fun _ => Calm.pure _
  · exact Calm.evaluate _

lemma statement (text : Option String) :
    Calm (text.forM fun text => do
      let _ ← Script.runStatement text : Run PUnit) :=
  Calm.option_forM fun text => (Calm.runStatement text).bind fun _ => Calm.pure _

lemma storeVariable (node : Node) : Calm (storeVariable node) := by
  refine (Calm.required _ _).bind fun name => ?_
  refine (Calm.evaluate _).bind fun value => ?_
  refine (Calm.checkDeclared _ _ _).bind fun _ => ?_
  split
  · exact Calm.bindName _ _
  · exact Calm.change (fun _ _ => rfl) fun _ => rfl

lemma applyMethod (name : String) (value : Value) (operation : String) : Calm (applyMethod name value operation) := by
  unfold Script.applyMethod
  split
  · exact Calm.raise _
  · split
    · exact Calm.raise _
    · refine (Calm.evaluateList _).bind fun args => ?_
      refine Calm.ask (fun _ _ => rfl) fun m => ?_
      split
      · exact Calm.raise _
      · refine Calm.bind (Calm.changeGet (fun _ _ => rfl) fun _ => rfl) fun outcome => ?_
        split
        · exact Calm.pure _
        · exact Calm.raise _
        · exact Calm.raise _

lemma applyOperation (name : String) (value : Value) (operation : String) :
    Calm (applyOperation name value operation) := by
  refine (Calm.datumOf _).bind fun d => ?_
  split
  · exact Calm.raise _
  · exact Calm.evaluate _

lemma changeVariable (node : Node) : Calm (changeVariable node) := by
  refine (Calm.required _ _).bind fun name => ?_
  refine (Calm.required _ _).bind fun operation => ?_
  refine Calm.ask (fun _ _ => rfl) fun m => ?_
  simp only []
  cases m.session.env.owner? name with
  | none => exact Calm.raise _
  | some owner =>
    have assign : ∀ changed, Calm (do
        Script.checkDeclared changed (node.attr? "type") name
        modify fun m => m.mapEnv fun env => env.bindIn owner name changed) := by
      intro changed
      exact (Calm.checkDeclared _ _ _).bind fun _ => Calm.change (fun _ _ => rfl) fun _ => rfl
    simp only []
    split
    · exact (Calm.applyMethod _ _ _).bind fun changed => assign changed
    · exact (Calm.applyOperation _ _ _).bind fun changed => assign changed

lemma calcText (node : Node) : Calm (calcText node) := by
  refine (Calm.evaluate _).bind fun value => ?_
  exact (Calm.checkDeclared _ _ _).bind fun _ => Calm.textOf _

lemma visibleData : Calm visibleData :=
  Calm.ask (fun _ _ => rfl) fun _ => (Calm.settle _).bind fun _ => Calm.pure _

lemma outputText (node : Node) : Calm (outputText node) := by
  unfold Script.outputText
  split
  · exact Calm.visibleData.bind fun data => Calm.settle _
  · exact (Calm.evaluate _).bind fun value => Calm.textOf _

/-! ## Functions and faults -/

lemma takeSnapshot : Calm takeSnapshot :=
  Calm.changeGet (fun _ _ => rfl) fun _ => rfl

lemma arguments (text : Option String) : Calm (arguments text) := by
  refine (Calm.evaluateList _).bind fun value => ?_
  refine Calm.ask (fun _ _ => rfl) fun m => ?_
  split
  · exact Calm.pure _
  · exact Calm.raise _

lemma returnValue (node : Node) : Calm (returnValue node) := by
  unfold Script.returnValue
  split
  · exact Calm.evaluate _
  · exact Calm.pure _

lemma blamed (tag : String) (raised : Raised) : Calm (blamed tag raised) := by
  unfold Script.blamed
  split
  · exact Calm.pure _
  · refine Calm.ask (fun _ _ => rfl) fun m => ?_
    exact (Calm.diagnose _).bind fun _ => Calm.pure _

end Calm

end TagScript.Script
