import TagScript.Proofs.Script.HostTags
import TagScript.Proofs.Script.Lockstep
import TagScript.Proofs.Script.Refinement
import TagScript.Proofs.Script.Sequence

/-!
# One document after another

A document that shows the trees of two documents is run as these are run one after the other.
-/

namespace TagScript.Script

open Markup Meaning

/-! ## Documents -/

/-- A document of its own, and the trees that it holds. -/
structure Document (P : Plot) (p : NodeId) (h : Hedge NodeId) : Prop extends Owns P p h where
  tag : (P.node p).tag = documentTag
  root : (P.node p).parent = none

lemma Document.aside {P Q : Plot} {p q : NodeId} {h k : Hedge NodeId} (document : Document P q k)
    (spoils : Spoils P Q p h) (apart : ∀ x ∈ p :: h.places, x ∉ q :: k.places) : Document Q q k := by
  have same : ∀ x ∈ q :: k.places, Q.node x = P.node x := fun x among =>
    spoils.frame x (document.toHolds.lt_size among) fun other => apart x other among
  have here := same q List.mem_cons_self
  have root : (Q.node q).parent = none := here ▸ document.root
  exact
    { toHolds := document.toHolds.congr spoils.grows same
      free := fun x among => spoils.not_kept (document.toHolds.lt_size among) (document.free x among)
      path := ⟨[], root, nofun⟩
      tag := here ▸ document.tag
      root := root }

def outcome : Except Raised (Except Signal Trees) → Except Raised (Option Signal)
  | .ok (.ok _) => .ok none
  | .ok (.error signal) => .ok (some signal)
  | .error raised => .error raised

lemma Mirrors.outcome {table : Assoc Handler} {base : Plot} {p : NodeId} {h : Hedge NodeId}
    {x : Except Raised (Option Signal) × Machine} {y : Except Raised (Except Signal Trees) × Scene}
    (mirrors : Mirrors (Abandoned table base p h) (Signals (Abandoned table base p h) fun shown m s =>
      ∃ k, k.shape = shown ∧ Working table base p h k m s) x y) :
    x.1 = outcome y.1 ∧ (∃ kept, Tracks table kept x.2 y.2) ∧
      ∀ shown, y.1 = .ok (.ok shown) → ∃ k, k.shape = shown ∧ Working table base p h k x.2 y.2 := by
  cases mirrors with
  | failed known =>
    obtain ⟨kept, tracks, _⟩ := known
    exact ⟨rfl, ⟨kept, tracks⟩, nofun⟩
  | ended known =>
    obtain ⟨shown, rfl, rfl, k, shape, kept, tracks, reworks⟩ | ⟨signal, rfl, rfl, kept, tracks, _⟩ := known.cases
    · refine ⟨rfl, ⟨kept, tracks⟩, fun other same => ?_⟩
      cases same
      exact ⟨k, shape, kept, tracks, reworks⟩
    · exact ⟨rfl, ⟨kept, tracks⟩, nofun⟩

def failure : Except Raised (Option Signal) → Option Raised
  | .ok none => none
  | .ok (some signal) => some ⟨.straySignal signal, []⟩
  | .error raised => some raised

lemma runDocumentBy_apply (walk : Walk) (document : NodeId) (m : Machine) :
    ∃ world,
      runDocumentBy walk document m =
        (.ok ((failure (walk document (m.entered document)).1).map Raised.report),
          { (walk document (m.entered document)).2.mapSession fun s =>
            { s with effects := ((failure (walk document (m.entered document)).1).map fun raised =>
              ⟨.failure, raised.report⟩).toList ++ s.effects } with
            world := world }) ∧
      (failure (walk document (m.entered document)).1 = none →
        runDocumentBy walk document m = (.ok none, (walk document (m.entered document)).2)) := by
  have entered : runDocumentBy walk document m =
      recover (do rejectSignal (← walk document); return none) (fun raised => do
        emit .failure raised.report
        diagnose [raised.report]
        return some raised.report) (m.entered document) := rfl
  rw [entered, recover, run_bind]
  rcases walk document (m.entered document) with ⟨result, after⟩
  have reported : ∀ raised : Raised, ∃ world, (do
      emit .failure raised.report
      diagnose [raised.report]
      return some raised.report : Run (Option String)) after =
        (.ok (some raised.report),
          { after.mapSession fun s => { s with effects := ⟨.failure, raised.report⟩ :: s.effects } with world := world }) := by
    intro raised
    rw [emit, changeSession, run_modify_bind, run_bind]
    obtain ⟨world, written⟩ := diagnose_apply [raised.report]
      (after.mapSession fun s => { s with effects := ⟨.failure, raised.report⟩ :: s.effects })
    rw [written]
    exact ⟨world, rfl⟩
  rcases result with raised | (_ | signal)
  · obtain ⟨world, done⟩ := reported raised
    exact ⟨world, done, fun never => by cases never⟩
  · exact ⟨after.world, rfl, fun _ => rfl⟩
  · obtain ⟨world, done⟩ := reported ⟨.straySignal signal, []⟩
    exact ⟨world, done, fun never => by cases never⟩

lemma bare_entered (m : Machine) (document other : NodeId) :
    (m.entered document).bare = (m.entered other).bare.fitted (m.entered document).bare.fittings := by
  unfold Machine.entered bindHostTags
  cases m.session.host <;> rfl

lemma bare_entered_of_idle {m : Machine} (idle : m.session.callStack = []) (document : NodeId) :
    (m.entered document).bare = m.bare.fitted (m.entered document).bare.fittings := by
  have same : m = m.mapSession fun s => { s with callStack := [] } := by
    rw [← idle]
    rfl
  rw [same]
  simp only [Machine.mapSession]
  cases m.session.host <;> rfl

variable {m n : Machine}

lemma sameTags_entered {first : NodeId} (nodup : (Assoc.names m.session.handlers).Nodup)
    (fittings : n.bare.fittings = (m.entered first).bare.fittings) (second : NodeId) :
    SameTags (n.entered second).session.handlers (m.entered first).session.handlers := by
  intro tag
  obtain ⟨handlers, hostTags⟩ := handlers_entered m first
  have table : n.session.handlers = (m.entered first).session.handlers := congrArg Fittings.handlers fittings
  have tags : n.session.hostTags = m.hostActions.map Prod.fst := (congrArg Fittings.hostTags fittings).trans hostTags
  have host : n.session.host = m.session.host :=
    (congrArg Fittings.host fittings).trans (by
      unfold Machine.entered bindHostTags
      cases found : m.session.host <;> simp [Machine.mapSession, Machine.bare, Machine.furnished, Machine.fittings, found])
  have hosts : n.hosts = m.hosts := congrArg Fittings.hosts fittings
  have actions : n.hostActions = m.hostActions := by rw [Machine.hostActions, host, hosts, Machine.hostActions]
  rw [(handlers_entered n second).1, Machine.overridden, host, actions, tags, table, handlers, Machine.overridden]
  by_cases own : tag ∈ m.hostActions.map Prod.fst
  · exact get?_withActions_congr fun other => absurd own other
  · rw [get?_withActions_other own, get?_withoutTags (nodup_withActions (nodup_withoutTags nodup _) _), if_neg own]

lemma Realises.retable {table table' : Assoc Handler} {P : Plot} {f : Function} {d : Definition}
    (realises : Realises table P f d) (same : SameTags table' table) : Realises table' P f d where
  params := realises.params
  closure := realises.closure
  body := realises.body
  covered := AllTags.retable same realises.covered

/-! ## Runs of documents -/

/-- The walk of a document in which modules may import each other so many deep. -/
def walkAt (nesting : Nat) : Walk := visitChildren (visitNode (runDocument nesting) maxDepth)

lemma runDocument_succ (nesting : Nat) (document : NodeId) (m : Machine) :
    runDocument (nesting + 1) document m = runDocumentBy (walkAt nesting) document m := rfl

lemma faithful_walkAt (table : Assoc Handler) (nesting : Nat) :
    Faithful table (walkAt nesting) (row (element maxDepth) none) :=
  (visitNode_visits table (runDocument nesting) maxDepth).faithful

/-- Two machines know the same: the same is bound, and functions of the same names have the same
definitions. -/
structure Machine.SameKnowledge (m n : Machine) : Prop where
  store : m.store = n.store
  env : m.session.env = n.session.env
  named : m.session.functions = n.session.functions
  size : m.functions.size = n.functions.size
  functions : ∀ name i, Assoc.get? name m.session.functions = some i →
    ∃ d table table' kept kept', Realises table ⟨m.forest, kept⟩ (m.functions.getD i default) d ∧
      Realises table' ⟨n.forest, kept'⟩ (n.functions.getD i default) d

lemma Tracks.sameKnowledge {table table' : Assoc Handler} {kept kept' : NodeId → Prop} {s : Scene}
    {f g : Fittings} (tracks : Tracks table kept m (s.fitted f)) (tracks' : Tracks table' kept' n (s.fitted g)) :
    m.SameKnowledge n := by
  have machine : s.machine.fitted f = m.bare := tracks.machine
  have machine' : s.machine.fitted g = n.bare := tracks'.machine
  have size : m.functions.size = n.functions.size := tracks.size.symm.trans tracks'.size
  have named : m.session.functions = n.session.functions := by
    have here : s.machine.session.functions = m.session.functions := congrArg (·.session.functions) machine
    exact here.symm.trans (congrArg (·.session.functions) machine')
  refine ⟨?_, ?_, named, size, fun name i found => ?_⟩
  · have store : s.machine.store = m.store := congrArg (·.store) machine
    exact store.symm.trans (congrArg (·.store) machine')
  · have env : s.machine.session.env = m.session.env := congrArg (·.session.env) machine
    exact env.symm.trans (congrArg (·.session.env) machine')
  · exact ⟨_, _, _, _, _, (tracks.known name i found).2, (tracks'.known name i (named ▸ found)).2⟩

lemma outcome_map (result : Except Raised (Except Signal Trees)) (f : Trees → Trees) :
    outcome (result.map (Except.map f)) = outcome result := by
  rcases result with raised | (signal | shown) <;> rfl

lemma markup_of_reworks {P : Plot} {f : Forest} {kept : NodeId → Prop} {p : NodeId} {h k : Hedge NodeId}
    (document : Document P p h) (reworks : Reworks P ⟨f, kept⟩ p h k) :
    f.markup p = k.shape.markup := by
  rw [Hedge.markup_shape]
  refine reworks.holds.markup ?_
  have crown : f.node p = (P.node p).holding (f.node p).childList := reworks.crown
  rw [crown]
  exact document.tag

/-- A scene tracks a machine as before when another document is begun and tags do the same. -/
lemma Tracks.moved {table : Assoc Handler} {kept : NodeId → Prop} {s : Scene}
    (tracks : Tracks table kept m s) (forest : n.forest = m.forest) (functions : n.functions = m.functions)
    (named : n.session.functions = m.session.functions) (same : SameTags n.session.handlers table) :
    Tracks n.session.handlers kept n ⟨n.bare, s.definitions⟩ where
  machine := rfl
  handlers := rfl
  size := functions ▸ tracks.size
  known name i found := by
    rw [functions, forest]
    exact (tracks.known name i (named ▸ found)).imp_right fun realises => realises.retable same
  bounded := forest ▸ tracks.bounded

/-- What tags do when a document is begun. -/
abbrev Machine.table (m : Machine) (document : NodeId) : Assoc Handler := (m.entered document).session.handlers

/-- Three documents of a machine: one holds the trees of the two others, those of the first one
before those of the second one, and no element at the end of the first one has its partner in the
second one. All elements, those of functions that names lead to included, are of the core. -/
structure Machine.Divided (m : Machine) (kept : NodeId → Prop) (definitions : Array Definition)
    (whole first second : NodeId) (h h₁ h₂ : Hedge NodeId) : Prop where
  stacked : m.session.env.stack ≠ []
  nodup : (Assoc.names m.session.handlers).Nodup
  tracks : Tracks (m.table first) kept (m.entered first) ⟨(m.entered first).bare, definitions⟩
  entire : Document ⟨m.forest, kept⟩ whole h
  before : Document ⟨m.forest, kept⟩ first h₁
  behind : Document ⟨m.forest, kept⟩ second h₂
  apart : ∀ x ∈ first :: h₁.places, x ∉ second :: h₂.places
  shape : h.shape = h₁.shape ++ h₂.shape
  covered : h.AllTags (Covered (m.table first))
  separate : ¬ Straddles (m.table first) h₁.shape h₂.shape

namespace Machine.Divided

variable {m n : Machine} {kept : NodeId → Prop} {definitions : Array Definition} {whole first second : NodeId}
  {h h₁ h₂ : Hedge NodeId} {nesting : Nat} (divided : m.Divided kept definitions whole first second h h₁ h₂)

include divided in
lemma parts : h₁.AllTags (Covered (m.table first)) ∧ h₂.AllTags (Covered (m.table first)) := by
  have covered := (Hedge.allTags_shape _ h).mpr divided.covered
  rw [divided.shape, Hedge.allTags_append, Hedge.allTags_shape, Hedge.allTags_shape] at covered
  exact covered

lemma ended_of_succeeded {document : NodeId} (succeeded : runDocument (nesting + 1) document m = (.ok none, n)) :
    walkAt nesting document (m.entered document) = (.ok none, n) := by
  obtain ⟨world, done, ended⟩ := runDocumentBy_apply (walkAt nesting) document m
  rw [runDocument_succ] at succeeded
  generalize walkAt nesting document (m.entered document) = x at done ended ⊢
  obtain ⟨result, after⟩ := x
  rcases result with raised | (_ | signal)
  · rw [done] at succeeded
    cases succeeded
  · rw [ended rfl] at succeeded
    cases succeeded
    rfl
  · rw [done] at succeeded
    cases succeeded

variable (succeeded : runDocument (nesting + 1) first m = (.ok none, n))
include divided succeeded

lemma reworks :
    ∃ k s kept', row (element maxDepth) none h₁.shape ⟨(m.entered first).bare, definitions⟩ =
        (.ok (.ok k.shape), s) ∧ Tracks (m.table first) kept' n s ∧
      Reworks ⟨m.forest, kept⟩ ⟨n.forest, kept'⟩ first h₁ k := by
  have mirrors := faithful_walkAt _ nesting kept _ _ first h₁ divided.tracks divided.before.toOwns divided.parts.1
  rw [ended_of_succeeded succeeded] at mirrors
  obtain ⟨same, _, shows⟩ := mirrors.outcome
  rcases found : row (element maxDepth) none h₁.shape ⟨(m.entered first).bare, definitions⟩ with ⟨result, s⟩
  rw [found] at same shows
  rcases result with raised | (signal | shown)
  · cases same
  · cases same
  · obtain ⟨k, rfl, kept', tracks, reworks⟩ := shows shown rfl
    exact ⟨k, s, kept', rfl, tracks, reworks⟩

lemma idle : n.session.callStack = [] := by
  have outline : (runDocument (nesting + 1) first m).2.outline = _ :=
    outline_runDocumentBy (runDocument_runs nesting) divided.stacked maxDepth first
  rw [succeeded] at outline
  exact congrArg Outline.callStack outline

lemma walks :
    ∃ x y, walkAt nesting whole (m.entered whole) = x ∧
      walkAt nesting second (n.entered second) = y ∧
      x.1 = y.1 ∧ x.2.SameKnowledge y.2 ∧
      (y.1 = .ok none → x.2.forest.markup whole = n.forest.markup first ++ y.2.forest.markup second) := by
  obtain ⟨k₁, s, kept₁, evaluated, tracks₁, reworks₁⟩ := divided.reworks succeeded
  have idle := divided.idle succeeded
  have tags : SameTags (m.table first) (m.table first) := fun _ => rfl
  have aloof := fun h => @Aloof.elements (m.table first) maxDepth none h
  have fittings := (aloof h₁.shape).fittings (s := ⟨(m.entered first).bare, definitions⟩) tags
  have kept' := (aloof h₁.shape).tags (s := ⟨(m.entered first).bare, definitions⟩) tags
  rw [evaluated] at fittings kept'
  have machine : s.machine = n.bare := tracks₁.machine
  have tags₂ := sameTags_entered divided.nodup (machine ▸ fittings) second
  have tracksWhole : Tracks (m.table first) kept (m.entered whole) ⟨(m.entered whole).bare, definitions⟩ :=
    divided.tracks.moved (n := m.entered whole) rfl rfl (by simp) tags
  have whole' := faithful_walkAt _ nesting kept _ _ whole h tracksWhole divided.entire.toOwns divided.covered
  have second' := faithful_walkAt _ nesting kept₁ _ _ second h₂
    (tracks₁.moved (n := n.entered second) rfl rfl (by simp) tags₂) (divided.behind.aside reworks₁.toSpoils divided.apart).toOwns
    (AllTags.retable tags₂ divided.parts.2)
  have scene : (⟨(m.entered whole).bare, definitions⟩ : Scene) =
      Scene.fitted ⟨(m.entered first).bare, definitions⟩ (m.entered whole).bare.fittings :=
    congrArg (Scene.mk · definitions) (bare_entered m whole first)
  have scene₂ : (⟨(n.entered second).bare, s.definitions⟩ : Scene) = s.fitted (n.entered second).bare.fittings := by
    rw [Scene.fitted, machine]
    exact congrArg (Scene.mk · s.definitions) (bare_entered_of_idle idle second)
  rw [scene, divided.shape, row_append_of_ended maxDepth divided.separate tags tags evaluated] at whole'
  rw [scene₂, (aloof h₂.shape s (n.entered second).bare.fittings kept' tags₂).1] at second'
  obtain ⟨same, ⟨_, tracks⟩, shows⟩ := whole'.outcome
  obtain ⟨same', ⟨_, tracks'⟩, shows'⟩ := second'.outcome
  refine ⟨_, _, rfl, rfl, (same.trans (outcome_map _ _)).trans same'.symm, tracks.sameKnowledge tracks', fun ended => ?_⟩
  rw [same'] at ended
  rcases found : (row (element maxDepth) none h₂.shape s).1 with raised | (signal | shown)
  · rw [found] at ended
    cases ended
  · rw [found] at ended
    cases ended
  · obtain ⟨k, shape, _, _, reworks⟩ := shows (k₁.shape ++ shown) (by rw [found]; rfl)
    obtain ⟨k₂, rfl, _, _, reworks₂⟩ := shows' shown found
    rw [markup_of_reworks divided.entire reworks, markup_of_reworks divided.before reworks₁,
      markup_of_reworks (divided.behind.aside reworks₁.toSpoils divided.apart) reworks₂, ← Hedge.markup_append]
    exact congrArg Hedge.markup shape

end Machine.Divided

/-- A document whose trees are those of two others is run as these are, one after the other. From
any state let the first part come to its end. Then the whole comes to the same end as the second
part does from there, with the same report if it fails; in either case the same is bound, and the
same functions are defined. If it does not fail, its markup is that of the first part with that of
the second part behind it. -/
theorem document_runs_as_its_parts {m n : Machine} {kept : NodeId → Prop} {definitions : Array Definition}
    {whole first second : NodeId} {h h₁ h₂ : Hedge NodeId} {nesting : Nat}
    (divided : m.Divided kept definitions whole first second h h₁ h₂)
    (succeeded : runDocument (nesting + 1) first m = (.ok none, n)) :
    (runDocument (nesting + 1) whole m).1 = (runDocument (nesting + 1) second n).1 ∧
    (runDocument (nesting + 1) whole m).2.SameKnowledge (runDocument (nesting + 1) second n).2 ∧
    ((runDocument (nesting + 1) second n).1 = .ok none →
      (runDocument (nesting + 1) whole m).2.forest.markup whole =
        n.forest.markup first ++ (runDocument (nesting + 1) second n).2.forest.markup second) := by
  obtain ⟨x, y, walked, walked', same, knowledge, markup⟩ := divided.walks succeeded
  obtain ⟨world, done, ended⟩ := runDocumentBy_apply (walkAt nesting) whole m
  obtain ⟨world', done', ended'⟩ := runDocumentBy_apply (walkAt nesting) second n
  rw [walked] at done ended
  rw [walked'] at done' ended'
  rw [runDocument_succ, runDocument_succ, done, done']
  refine ⟨by rw [same], ?_, fun success => ?_⟩
  · exact ⟨knowledge.store, knowledge.env, knowledge.named, knowledge.size, knowledge.functions⟩
  · refine markup ?_
    rcases y with ⟨raised | (_ | signal), after⟩
    · cases success
    · rfl
    · cases success

/-! ## An attempt and what stands behind it -/

def dividedForest (tag : String) : Forest where
  nodes := #[
    { (default : Node) with tag := documentTag, children := #[1, 3] },
    { (default : Node) with tag := "try", children := #[2], parent := some 0 },
    { (default : Node) with tag := textTag, text := "a", parent := some 1 },
    { (default : Node) with tag, parent := some 0 },
    { (default : Node) with tag := documentTag, children := #[5] },
    { (default : Node) with tag := "try", children := #[6], parent := some 4 },
    { (default : Node) with tag := textTag, text := "a", parent := some 5 },
    { (default : Node) with tag := documentTag, children := #[8] },
    { (default : Node) with tag, parent := some 7 }]

def dividedMachine (tag : String) : Machine := { blank with forest := dividedForest tag }

lemma divided_dividedMachine {tag : String} (known : tag = "break" ∨ tag = "p") :
    (dividedMachine tag).Divided (fun _ => False) #[] 0 4 7
      (.element 1 "try" [] (.text 2 "a" .nil) (.element 3 tag [] .nil .nil))
      (.element 5 "try" [] (.text 6 "a" .nil) .nil) (.element 8 tag [] .nil .nil) := by
  rcases known with rfl | rfl <;> exact {
    stacked := by decide
    nodup := by decide
    tracks :=
      { machine := rfl
        handlers := rfl
        size := rfl
        known := nofun
        bounded := fun _ never => False.elim never }
    entire :=
      { children := rfl
        stands := ⟨⟨rfl, rfl, rfl, rfl, rfl⟩, ⟨⟨rfl, rfl, rfl, rfl⟩, trivial⟩, ⟨rfl, rfl, rfl, rfl, rfl⟩, trivial, trivial⟩
        distinct := by decide
        inside := by decide
        free := fun _ _ => id
        path := ⟨[], rfl, by decide⟩
        tag := rfl
        root := rfl }
    before :=
      { children := rfl
        stands := ⟨⟨rfl, rfl, rfl, rfl, rfl⟩, ⟨⟨rfl, rfl, rfl, rfl⟩, trivial⟩, trivial⟩
        distinct := by decide
        inside := by decide
        free := fun _ _ => id
        path := ⟨[], rfl, by decide⟩
        tag := rfl
        root := rfl }
    behind :=
      { children := rfl
        stands := ⟨⟨rfl, rfl, rfl, rfl, rfl⟩, trivial, trivial⟩
        distinct := by decide
        inside := by decide
        free := fun _ _ => id
        path := ⟨[], rfl, by decide⟩
        tag := rfl
        root := rfl }
    apart := by decide
    shape := rfl
    covered := by decide
    separate := by
      rintro ⟨tag, last, ⟨_, partner⟩ | ⟨_, partner⟩⟩
      · exact partner rfl
      · exact partner rfl }

/-- The attempt comes to its end. Behind it both runs fail as no loop is there to end, or another
element is shown. -/
theorem document_runs_as_its_parts_divided :
    (runDocument 1 0 (dividedMachine "break")).1 =
      (runDocument 1 7 (runDocument 1 4 (dividedMachine "break")).2).1 ∧
    (runDocument 1 7 (runDocument 1 4 (dividedMachine "break")).2).1.toOption.bind id ≠ none ∧
    (runDocument 1 0 (dividedMachine "p")).2.forest.markup 0 = "a<p></p>" := by
  have succeeded : ∀ tag, tag = "break" ∨ tag = "p" →
      runDocument 1 4 (dividedMachine tag) = (.ok none, (runDocument 1 4 (dividedMachine tag)).2) := by
    rintro tag (rfl | rfl)
    · exact Prod.ext (by decide +kernel) rfl
    · exact Prod.ext (by decide +kernel) rfl
  have failing := document_runs_as_its_parts (divided_dividedMachine (.inl rfl)) (succeeded _ (.inl rfl))
  have showing := document_runs_as_its_parts (divided_dividedMachine (.inr rfl)) (succeeded _ (.inr rfl))
  refine ⟨failing.1, by decide +kernel, ?_⟩
  rw [showing.2.2 (by decide +kernel)]
  decide +kernel

end TagScript.Script
