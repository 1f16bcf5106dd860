import TagScript.Proofs.Script.Element

/-!
# Walks that do the same

From elements to whole documents: two walks that run elements alike are alike. What is done for an
element is taken apart along the table that says what its tag does.
-/

namespace TagScript.Script

open Markup

variable {m : Machine}

/-- What holds of a session that runs elements: there is a scope, what is known of sources is known
of the one at hand and of those it imports, and an element that imports is labelled as imports are.
-/
structure Outline.Sound (r : Realm) (o : Outline) : Prop where
  stacked : o.stack ≠ []
  based : r.base o.sourceDir
  closed : r.Closed o.files
  loads : ∀ tag attrs, (tag, Handler.builtin .load) ∈ o.handlers → r.label tag attrs → r.label "import" attrs

section

variable {r : Realm} {o : Outline} {walk walk' : Walk} {run run' : RunDocument}
  {p : String → Assoc String → Prop}

/-! ## Elements -/

lemma Steady.runListen (id : NodeId) : Steady p o (runListen id) := by
  refine (Steady.nodeOf id).bind fun node _ => ?_
  split
  · exact Alike.raise _
  · exact Alike.raise _
  · refine (Steady.cloneTree id).bind fun body _ => Alike.bind (Q := Any) (Alike.pure trivial) fun _ _ => ?_
    refine (Steady.removeNode id).bind fun _ _ => ?_
    refine Alike.read.bind fun m _ => ?_
    split
    · exact Alike.pure trivial
    · refine (Steady.askForest _).bind fun targets _ => ?_
      refine (Calm.diagnose _).steady.bind fun _ _ => ?_
      exact Alike.forM fun target _ => Steady.changeForest fun _ keeps => keeps.modify trivial (keeps.fits target)

lemma withoutSignal_alike {I : Machine → Prop} {c d : Run Unit}
    (body : AlikeAt m I Any c d) : AlikeAt m I Any (withoutSignal c) (withoutSignal d) :=
  body.bind fun _ _ => Alike.pure trivial

/-- An element that means something by itself does the same with walks and ways of running modules
that are alike. -/
lemma runBuiltin_alike (sound : o.Sound r) (walks : Walks r o walk walk') (runs : Runs r o run run')
    (holds : At r.label o m) {tag : Builtin} {id : NodeId}
    (loads : tag = .load → r.label "import" (m.forest.node id).attrs) :
    AlikeAt m (At r.label o) Any (runBuiltin walk run tag id) (runBuiltin walk' run' tag id) := by
  let L := r.likeness o sound.closed.text
  have walk := walks.compared sound.closed.text
  have here : ∀ {α : Type} {c d : Run α}, L.Runs Untold () c d → AlikeAt m (At r.label o) Any c d :=
    fun runs => Realm.alike sound.closed.text sound.stacked sound.based runs m holds
  match tag with
  | .store => exact withoutSignal_alike (Steady.runStore id m holds)
  | .man => exact withoutSignal_alike (Steady.runMan id m holds)
  | .calc => exact withoutSignal_alike (here (L.runCalc trivial))
  | .output => exact withoutSignal_alike (here (L.runOutput trivial))
  | .condition => exact here (L.comparison.runCondition walk trivial)
  | .countedLoop => exact withoutSignal_alike (here (L.comparison.runCountedLoop walk trivial))
  | .loop => exact withoutSignal_alike (here (L.comparison.runLoop walk trivial))
  | .function => exact withoutSignal_alike (Steady.runFunction id m holds)
  | .call => exact runCall_alike sound.closed.text sound.based walks id m holds
  | .scope => exact here (L.comparison.runScope walk trivial)
  | .attempt => exact here (L.comparison.runAttempt walk trivial)
  | .signal signal => exact Alike.pure trivial m holds
  | .input => exact withoutSignal_alike (here (L.runInput trivial))
  | .debug => exact withoutSignal_alike (here (L.runDebug trivial))
  | .request => exact withoutSignal_alike (here (L.runRequest trivial))
  | .codec format => exact withoutSignal_alike (here (L.runCodec trivial format))
  | .load => exact withoutSignal_alike (runImport_alike sound.stacked sound.based walks sound.closed runs holds (loads rfl))
  | .listen => exact withoutSignal_alike (Steady.runListen id m holds)

lemma elementBy_alike {builtin builtin' : Builtin → NodeId → Run (Option Signal)} (sound : o.Sound r)
    (walks : Walks r o walk walk') (holds : At r.label o m) {id : NodeId} {tag : String}
    (here : (m.forest.node id).tag = tag)
    (builtins : ∀ b, (b = .load → r.label "import" (m.forest.node id).attrs) →
      AlikeAt m (At r.label o) Any (builtin b id) (builtin' b id)) :
    AlikeAt m (At r.label o) Any (elementBy walk builtin tag id) (elementBy walk' builtin' tag id) := by
  have handlers : m.session.handlers = o.handlers := congrArg Outline.handlers holds.1
  unfold elementBy AlikeAt
  rw [run_get_bind, run_get_bind, handlers]
  rcases found : Assoc.get? tag o.handlers with _ | ⟨b⟩ | ⟨host, action⟩
  · exact walks.here sound.stacked sound.based id m holds
  · refine builtins b ?_
    rintro rfl
    exact sound.loads tag _ (Assoc.mem_of_get? found) (here ▸ holds.2 id)
  · have text := sound.closed.text
    exact Realm.alike text sound.stacked sound.based ((r.likeness o text).runHostAction trivial host action) m holds

/-! ## Children -/

lemma Walks.children (visits : Walks r o walk walk') (text : r.label textTag []) :
    Walks r o (visitChildren walk) (visitChildren walk') :=
  fun stack dir id => (r.likeness o text).comparison.visitChildren (visits.compared text) () id trivial stack dir

/-! ## Documents -/

/-- The table of a new session, and every change of hosts, lets only imports import something. -/
lemma bindHostTags_loads {hosts : Array Host} {s : Session}
    (loads : ∀ tag, (tag, Handler.builtin .load) ∈ s.handlers → tag = "import") :
    ∀ tag, (tag, Handler.builtin .load) ∈ (bindHostTags hosts s).handlers → tag = "import" := by
  have cleared : ∀ (tags : List String) (table : Assoc Handler),
      (∀ tag, (tag, Handler.builtin .load) ∈ table → tag = "import") → ∀ tag,
        (tag, Handler.builtin .load) ∈ tags.foldl (fun table tag => Assoc.erase tag table) table →
          tag = "import" := by
    intro tags
    induction tags with
    | nil => exact fun table known => known
    | cons first rest ih =>
      intro table known
      exact ih _ fun tag mem => known tag (Assoc.mem_of_mem_erase mem)
  have added : ∀ (id : HostId) (actions : List (String × HostAction)) (table : Assoc Handler),
      (∀ tag, (tag, Handler.builtin .load) ∈ table → tag = "import") → ∀ tag,
        (tag, Handler.builtin .load) ∈
            actions.foldl (fun table action => Assoc.set action.1 (.host id action.2) table) table →
          tag = "import" := by
    intro id actions
    induction actions with
    | nil => exact fun table known => known
    | cons first rest ih =>
      intro table known
      refine ih _ fun tag mem => ?_
      rcases Assoc.mem_set mem with old | new
      · exact known tag old
      · cases new
  unfold bindHostTags
  split
  · exact cleared _ _ loads
  · exact added _ _ _ (cleared _ _ loads)

lemma builtinHandlers_loads :
    ∀ tag, (tag, Handler.builtin .load) ∈ builtinHandlers → tag = "import" := by
  intro tag mem
  simpa [builtinHandlers, builtins] using mem

/-- The machine when a document begins to run. -/
def Machine.entered (m : Machine) (document : NodeId) : Machine :=
  m.mapSession fun s =>
    { bindHostTags m.hosts { s with effects := [], callStack := [] } with document := some document }

lemma runDocumentBy_alike {document : NodeId} (holds : At p o (m.entered document))
    (walks : Alike (At p o) Any (walk document) (walk' document)) :
    AlikeAt m (At p o) Any (runDocumentBy walk document) (runDocumentBy walk' document) := by
  refine AlikeAt.change_bind (AlikeAt.recover (walks _ holds |>.bind fun signal _ => ?_) fun raised => ?_)
  · exact (Steady.rejectSignal signal).bind fun _ _ => Alike.pure trivial
  · refine (Steady.emit _ _).bind fun _ _ => ?_
    exact (Calm.diagnose _).steady.bind fun _ _ => Alike.pure trivial

lemma outline_entered (m : Machine) (document : NodeId) :
    (m.entered document).outline =
      { m.outline with
        callStack := []
        handlers := (m.entered document).session.handlers
        hostTags := (m.entered document).session.hostTags } := by
  unfold Machine.entered bindHostTags
  simp only [Machine.mapSession, Machine.outline]
  cases m.session.host <;> rfl

end

end TagScript.Script
