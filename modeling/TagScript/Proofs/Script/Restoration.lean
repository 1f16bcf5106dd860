import TagScript.Proofs.Script.Visit

/-!
# What an element leaves as it was

However an element ends, the elements around it, the stack of scopes, the global scope and the
directory of the source are what they were before. So between runs a session has the global scope
alone on its stack.
-/

namespace TagScript.Script

open Markup

variable {m : Machine} {o : Outline}

def Realm.any : Realm := ⟨fun _ _ => True, fun _ => True, fun _ => True⟩

lemma Realm.closed_any (files : Files) : Realm.any.Closed files :=
  ⟨trivial, trivial, fun _ _ _ _ _ => ⟨trivial, trivial, fun _ _ _ _ _ _ => trivial⟩⟩

lemma Outline.sound_any (stacked : o.stack ≠ []) : o.Sound Realm.any :=
  ⟨stacked, trivial, Realm.closed_any _, fun _ _ _ _ => trivial⟩

lemma at_any (outline : m.outline = o) : At Realm.any.label o m :=
  ⟨outline, fun _ => trivial⟩

/-! ## The elements around an element -/

/-- Runs something as part of an element among others, innermost first. A fault that has left no
element yet was raised here, while this element and those around it were being run. -/
def amid (around : List String) (tag : String) (body : Run (Option Signal)) : Run (Option Signal) := do
  modify (·.enter tag)
  let failed (raised : Raised) : Run (Option Signal) := do
    match raised.trail with
    | _ :: _ => throw raised
    | [] =>
      let trail := (tag :: around).reverse
      diagnose ["Error processing node:", tag, raised.fault.diagnostic, "Stack:", trailText trail]
      throw { raised with trail := trail }
  always (recover body failed) Machine.leave

/-- Runs a node among the given elements. Faults are told the elements around them by the recursion
alone: no stack is read, so what was run, caught or taken down before has no part in it. -/
def visitAmid (run : RunDocument) : Nat → List String → NodeId → Run (Option Signal)
  | 0, around, id => do
    let node ← nodeOf id
    if node.isElement then amid around node.tag (raise (.recursionLimit maxDepth node.tag)) else return none
  | depth + 1, around, id => do
    let node ← nodeOf id
    if node.isElement then
      let walk := visitChildren (visitAmid run depth (node.tag :: around))
      amid around node.tag (elementBy walk (runBuiltin walk run) node.tag id)
    else return none

lemma within_amid {p : String → Assoc String → Prop} {tag : String} {c d : Run (Option Signal)}
    (body : AlikeAt (m.enter tag) (At p (o.enter tag)) Any c d) :
    AlikeAt m (At p o) Any (within tag c) (amid o.callStack tag d) := by
  refine AlikeAt.change_bind (AlikeAt.always (AlikeAt.recover body fun raised m inside => ?_) fun _ => At.leave)
  refine ⟨?_, ((Calm.blamed tag raised).steady.bind (fun _ _ => Alike.throw _) m inside).2⟩
  have trail : m.session.trail = (tag :: o.callStack).reverse := congrArg (·.callStack.reverse) inside.1
  rcases raised with ⟨fault, _ | ⟨first, rest⟩⟩
  · simp only [blamed, bind_assoc, pure_bind, run_get_bind, trail]
  · rfl

section

variable {run : RunDocument} {o : Outline}

section

variable (runs : ∀ o, Runs Realm.any o run run)
include runs

/-- The stack is at each element what the recursion says, if the modules that are loaded keep what
they share. -/
lemma visitNode_amid (stacked : o.stack ≠ []) (depth : Nat) (id : NodeId) :
    Alike (At Realm.any.label o) Any (visitNode run depth id) (visitAmid run depth o.callStack id) := by
  induction depth generalizing o id with
  | zero =>
    intro m holds
    refine AlikeAt.nodeOf_bind ?_
    split
    · exact within_amid (Alike.raise _ _ (holds.enter _))
    · exact Alike.pure trivial m holds
  | succ depth ih =>
    intro m holds
    refine AlikeAt.nodeOf_bind ?_
    split
    · generalize here : (m.forest.node id).tag = tag
      have inside := holds.enter tag
      have sound : (o.enter tag).Sound Realm.any := Outline.sound_any stacked
      have walks : Walks Realm.any (o.enter tag)
          (visitChildren (visitNode run depth)) (visitChildren (visitAmid run depth (tag :: o.callStack))) :=
        Walks.children (fun stack dir id some _ =>
          ih (o := { o.enter tag with stack := stack, sourceDir := dir }) some id) trivial
      refine within_amid ?_
      exact elementBy_alike sound walks inside here fun b loads =>
        runBuiltin_alike sound walks (runs _) inside loads
    · exact Alike.pure trivial m holds

lemma Steady.visitNode (stacked : o.stack ≠ []) (depth : Nat) (id : NodeId) :
    Steady Realm.any.label o (visitNode run depth id) := by
  intro m holds
  obtain ⟨_, kept, known⟩ := visitNode_amid runs stacked depth id m holds
  exact ⟨rfl, kept, known⟩

lemma Steady.visitChildren (stacked : o.stack ≠ []) (depth : Nat) (id : NodeId) :
    Steady Realm.any.label o (visitChildren (Script.visitNode run depth) id) :=
  (Walks.children (fun stack dir child some _ =>
    Steady.visitNode runs (o := { o with stack := stack, sourceDir := dir }) some depth child) trivial).here stacked trivial id

lemma outline_runDocumentBy (stacked : m.session.env.stack ≠ []) (depth : Nat) (document : NodeId) :
    (runDocumentBy (visitChildren (visitNode run depth)) document m).2.outline =
      { m.outline with
        callStack := []
        handlers := (m.entered document).session.handlers
        hostTags := (m.entered document).session.hostTags } := by
  have entered := at_any (outline_entered m document)
  obtain ⟨_, kept, _⟩ := runDocumentBy_alike entered (Steady.visitChildren runs stacked depth document)
  exact kept.1

end

lemma runDocument_runs (nesting : Nat) (o : Outline) :
    Runs Realm.any o (runDocument nesting) (runDocument nesting) := by
  induction nesting generalizing o with
  | zero => exact fun _ _ _ _ _ _ _ _ _ shared => ⟨rfl, shared⟩
  | succ nesting ih =>
    intro host dir key document m _ _ _ session shared
    have stacked : m.session.env.stack ≠ [] := by simp [session, Session.new, Environment.empty]
    have outline := outline_runDocumentBy ih stacked maxDepth document
    refine ⟨rfl, ?_, ?_, fun _ => trivial⟩
    · exact (congrArg Outline.settings outline).trans shared.settings
    · exact (congrArg Outline.files outline).trans shared.files

lemma Steady.walkChildren (stacked : o.stack ≠ []) (id : NodeId) : Steady Realm.any.label o (walkChildren id) :=
  Steady.visitChildren (runDocument_runs moduleNesting) stacked maxDepth id

/-! ## Events -/

lemma Steady.dispatch (stacked : o.stack ≠ []) (event : String) (detail : Datum)
    (targets : List NodeId) : Steady Realm.any.label o (dispatch Script.walkChildren event detail targets) := by
  have walks : (Realm.any.likeness o trivial).Walks Script.walkChildren Script.walkChildren :=
    fun _ id _ _ _ some _ => Steady.walkChildren some id
  exact Realm.alike trivial stacked trivial ((Realm.any.likeness o trivial).dispatch walks event detail targets)

lemma Steady.dispatchTo (stacked : o.stack ≠ []) (selector event : String) (detail : Datum) :
    Steady Realm.any.label o (dispatchTo selector event detail) := by
  refine Alike.read.bind fun m _ => ?_
  split
  · exact Alike.pure trivial
  · exact (Steady.askForest _).bind fun targets _ => Steady.dispatch stacked event detail targets

/-! ## Between runs -/

/-- The states between runs: sources are run, events are dispatched and hosts are changed, in any
order and whether they fail or not. -/
inductive Reachable : Machine → Prop where
  | new (settings : Settings) (world : World) (sourceDir : Option String) :
    Reachable (Machine.new settings world sourceDir)
  | runSource {m : Machine} (source : String) : Reachable m → Reachable (runSource source m).2
  | runPart {m : Machine} (source : String) : Reachable m → Reachable (runPart source m).2
  | dispatchTo {m : Machine} (selector event : String) (detail : Datum) :
    Reachable m → Reachable (dispatchTo selector event detail m).2
  | dispatchAt {m : Machine} (target : NodeId) (event : String) (detail : Datum) :
    Reachable m → Reachable (dispatchAt target event detail m).2
  | changeHost {m : Machine} (actions : Option (List (String × HostAction))) :
    Reachable m → Reachable (changeHost actions m).2

/-- What holds between runs: no element is being run, no module is being loaded, the stack has the
global scope alone, and only imports import something. -/
structure Outline.Idle (o : Outline) : Prop where
  callStack : o.callStack = []
  loading : o.loading = []
  stack : o.stack = [o.globalId]
  loads : ∀ tag, (tag, Handler.builtin .load) ∈ o.handlers → tag = "import"

lemma Outline.Idle.stacked (idle : o.Idle) : o.stack ≠ [] := by
  rw [idle.stack]
  exact List.cons_ne_nil _ _

lemma Steady.parseSource (source : String) : Steady Realm.any.label o (parseSource source) :=
  parseSource_alike (Realm.closed_any _) fun _ _ _ _ _ _ => trivial

lemma Steady.runPart (stacked : o.stack ≠ []) (source : String) : Steady Realm.any.label o (runPart source) := by
  refine (Steady.parseSource source).bind fun root _ => ?_
  exact (Steady.walkChildren stacked root).bind fun signal _ => Alike.pure trivial

lemma idle_runDocument (idle : m.outline.Idle) (nesting : Nat) (document : NodeId) :
    (runDocument (nesting + 1) document m).2.outline.Idle := by
  have outline : (runDocument (nesting + 1) document m).2.outline = _ :=
    outline_runDocumentBy (runDocument_runs nesting) idle.stacked maxDepth document
  rw [outline]
  exact ⟨rfl, idle.loading, idle.stack, bindHostTags_loads idle.loads⟩

lemma idle_runSource (idle : m.outline.Idle) (source : String) : (runSource source m).2.outline.Idle := by
  unfold runSource
  rw [run_bind, parseSource_apply]
  rcases m.forest.parse source with fault | ⟨document, forest⟩
  · exact idle
  · have done := idle_runDocument (m := { m with forest := forest }) idle moduleNesting document
    simp only []
    rw [run_bind]
    rcases ended : runDocument (moduleNesting + 1) document { m with forest := forest } with ⟨result, after⟩
    rw [ended] at done
    cases result <;> exact done

lemma idle_of_reachable (reachable : Reachable m) : m.outline.Idle := by
  induction reachable with
  | new settings world sourceDir => exact ⟨rfl, rfl, rfl, builtinHandlers_loads⟩
  | runSource source _ idle => exact idle_runSource idle source
  | runPart source _ idle =>
    obtain ⟨_, kept, _⟩ := Steady.runPart idle.stacked source _ (at_any rfl)
    exact kept.1 ▸ idle
  | dispatchTo selector event detail _ idle =>
    obtain ⟨_, kept, _⟩ := Steady.dispatchTo idle.stacked selector event detail _ (at_any rfl)
    exact kept.1 ▸ idle
  | dispatchAt target event detail _ idle =>
    obtain ⟨_, kept, _⟩ := Steady.dispatch idle.stacked event detail [target] _ (at_any rfl)
    exact kept.1 ▸ idle
  | changeHost actions _ idle =>
    cases actions with
    | none | some => exact ⟨idle.callStack, idle.loading, idle.stack, idle.loads⟩

/-- An element may return, give a signal or fail: the elements around it, the stack of scopes, the
global scope and the directory of the source are what they were. Between runs the stack has the
global scope alone and no element is being run. -/
theorem visitNode_restores_and_idle_of_reachable :
    (∀ (nesting depth : Nat) (id : NodeId) (m after : Machine) (outcome : Except Raised (Option Signal)),
      m.session.env.stack ≠ [] → visitNode (runDocument nesting) depth id m = (outcome, after) →
        after.session.callStack = m.session.callStack ∧
        after.session.env.stack = m.session.env.stack ∧
        after.session.env.globalId = m.session.env.globalId ∧
        after.session.sourceDir = m.session.sourceDir) ∧
    ∀ m, Reachable m →
      m.session.env.stack = [m.session.env.globalId] ∧ m.session.callStack = [] := by
  constructor
  · intro nesting depth id m after outcome stacked ended
    obtain ⟨_, kept, _⟩ := Steady.visitNode (runDocument_runs nesting) stacked depth id m (at_any rfl)
    rw [ended] at kept
    exact ⟨congrArg Outline.callStack kept.1, congrArg Outline.stack kept.1, congrArg Outline.globalId kept.1,
      congrArg Outline.sourceDir kept.1⟩
  · intro m reachable
    have idle := idle_of_reachable reachable
    exact ⟨idle.stack, idle.callStack⟩

/-- A machine without files or input on which a source has failed inside a scope. -/
def failedOnce : Machine :=
  let world := World.new ⟨⟨"/", "/"⟩, [], [], []⟩ ⟨[], []⟩ .input [] true
  (runSource "<scope><store name='a' value='1'><call name='b'></scope>" (.new ⟨some 3, false⟩ world none)).2

/-- Both statements at a machine on which a source has failed: it is idle again, and its nodes can
be run as before. -/
theorem visitNode_restores_failedOnce :
    Reachable failedOnce ∧ failedOnce.session.env.stack = [failedOnce.session.env.globalId] ∧
      (visitNode (runDocument 1) 50 1 failedOnce).2.session.callStack = failedOnce.session.callStack := by
  have reachable : Reachable failedOnce := .runSource _ (.new _ _ _)
  have idle := (visitNode_restores_and_idle_of_reachable.2 failedOnce reachable).1
  -- from here on the machine is any in such a state, so that nothing runs it
  generalize failedOnce = m at reachable idle ⊢
  have stacked : m.session.env.stack ≠ [] := by simp [idle]
  have kept := visitNode_restores_and_idle_of_reachable.1 1 50 1 m _ _ stacked (Prod.eta _).symm
  exact ⟨reachable, idle, kept.1⟩

end

end TagScript.Script
