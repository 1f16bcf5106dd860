import TagScript.Proofs.Script.Calls

/-!
# The walk does what documents mean

The walk changes the very row it goes through, and the evaluator changes nothing. From machines and
scenes that know the same, both come to the same end, and again they know the same.
-/

namespace TagScript.Script

open Markup Hedge

variable {table : Assoc Handler} {kept : NodeId → Prop} {base P : Plot} {p id : NodeId}
  {h k kids front back : Hedge NodeId} {tag : String} {attrs : Assoc String} {m : Machine} {s : Scene} {α β γ : Type}

/-! ## Within an element -/

lemma Rendered.change {g : Machine → Machine} {shown : Shown}
    (rendered : Rendered table base p h front back shown m s) (quiet : Quiet (modify g : Run PUnit)) :
    Rendered table base p h front back shown (g m) { s with machine := g s.machine } := by
  obtain ⟨here, next, shape, nextShape, work, gone⟩ := rendered
  obtain ⟨work, forest⟩ := work.change quiet
  refine ⟨here, next, shape, nextShape, work, ?_⟩
  rw [forest]
  exact gone

lemma renders_within {c : Run (Option Signal)} {d : Act Shown} (work : Working table base p h k m s)
    (body : ∀ m' s', Working table base p h k m' s' → Renders table base p h front back (c m') (d s')) :
    Renders table base p h front back (within tag c m) (Meaning.within tag d s) := by
  have entering : Quiet (modify (·.enter tag) : Run PUnit) := Quiet.change (fun _ _ => rfl) fun _ => rfl
  have leaving : Quiet (modify Machine.leave : Run PUnit) := Quiet.change (fun _ _ => rfl) fun _ => rfl
  refine work.play entering fun _ m₁ s₁ work _ => ?_
  have blaming : Renders table base p h front back
      (recover c (fun raised => do throw (← blamed tag raised)) m₁)
      (Meaning.recover d (fun raised => Meaning.play (do throw (← blamed tag raised))) s₁) := by
    refine (body m₁ s₁ work).recover fun raised m₂ s₂ given => ?_
    obtain ⟨kept, tracks, spoils⟩ := given
    have failing : ∀ m' s', Tracks table kept m' s' → m'.forest = m₂.forest → Abandoned table base p h m' s' := by
      intro m' s' tracks forest
      refine ⟨kept, tracks, ?_⟩
      rw [forest]
      exact spoils
    rw [Meaning.play_bind]
    exact tracks.play (Calm.blamed tag raised).quiet failing fun blamed m' s' tracks forest =>
      .failed (failing m' s' tracks forest)
  exact blaming.always (fun m' s' given => given.change leaving) fun signal shown m' s' known =>
    known.imp (fun given => given.change leaving) fun shown rendered => rendered.change leaving

lemma Faithful.handled {walk : Walk} {told : Trees → Act Trees} (faithful : Faithful table walk told)
    (run : RunDocument) (known : Covered table tag) (covered : kids.AllTags (Covered table))
    (coveredBack : back.AllTags (Covered table))
    (work : Working table base p h (front ++ .element id tag attrs kids back) m s) :
    Renders table base p h front back (elementBy walk (runBuiltin walk run) tag id m)
      (Meaning.handled told tag attrs kids.shape back.shape s) := by
  have handlers : m.session.handlers = table ∧ s.machine.session = m.session := by
    obtain ⟨_, tracks, _⟩ := work
    exact ⟨tracks.handlers, tracks.session⟩
  unfold elementBy Meaning.handled
  rw [run_get_bind, act_get_bind, handlers.2, handlers.1]
  cases found : Assoc.get? tag table with
  | none => exact faithful.container covered work
  | some handler =>
    have core := known handler found
    cases handler with
    | host => cases core
    | builtin b =>
      cases b with
      | store => exact renders_bound (fun _ => rfl) Calm.storeVariable work
      | man => exact renders_bound (fun _ => rfl) Calm.changeVariable work
      | «calc» => exact renders_display Meaning.calculated_eq (fun _ => rfl) Calm.calcText work
      | output => exact renders_display Meaning.filledIn_eq (fun _ => rfl) Calm.outputText work
      | condition => exact faithful.condition covered coveredBack work
      | countedLoop => exact faithful.countedLoop covered work
      | loop => exact faithful.plainLoop covered work
      | function => exact renders_function covered work
      | call => exact faithful.call work
      | scope => exact faithful.scope covered work
      | attempt => exact faithful.attempt covered coveredBack work
      | signal signal => exact renders_signal signal work
      | _ => cases core

/-! ## Rows -/

/-- A node is run as the evaluator says: an element does to its row what it shows, and a text does
nothing. -/
structure Visits (table : Assoc Handler) (visit : NodeId → Run (Option Signal))
    (element : String → Assoc String → Trees → Trees → Act Shown) : Prop where
  text : ∀ {content : String} {p id : NodeId} {m : Machine}, (m.forest.node id).TextUnder content p →
    visit id m = (.ok none, m)
  element : ∀ {base : Plot} {p id : NodeId} {h front kids back : Hedge NodeId} {tag : String}
    {attrs : Assoc String} {m : Machine} {s : Scene}, Covered table tag → kids.AllTags (Covered table) →
    back.AllTags (Covered table) →
    Working table base p h (front ++ .element id tag attrs kids back) m s →
    Renders table base p h front back (visit id m) (element tag attrs kids.shape back.shape s)

section Row

variable {visit : NodeId → Run (Option Signal)} {element : String → Assoc String → Trees → Trees → Act Shown}

lemma visitAll_cons_apply (child : NodeId) (rest : List NodeId) (m : Machine) :
    visitAll visit p (child :: rest) m =
      if (m.forest.node child).parent = some p then
        (visit child >>= fun signal =>
          match signal with
          | some signal => pure (some signal)
          | none => visitAll visit p rest) m
      else visitAll visit p rest m := by
  rw [visitAll, run_nodeOf_bind]
  split
  · rfl
  · rfl

/-- The rest of a row is run from left to right. Some trees are done, and those that are due may
stand in the place of the next element, which is then no longer in the row. -/
lemma Visits.visitAll (visits : Visits table visit element) {left done : Hedge NodeId}
    {due : Option (Hedge NodeId)} (covered : left.AllTags (Covered table))
    (work : Working table base p h (done ++ left.settled due) m s)
    (gone : due ≠ none → ∀ x, left.leading = some x → (m.forest.node x).parent ≠ some p) :
    Mirrors (Abandoned table base p h)
      (Signals (Abandoned table base p h) fun shown m' s' =>
        ∃ k, k.shape = shown ∧ Working table base p h (done ++ k) m' s')
      (visitAll visit p left.roots m) (Meaning.row element (due.map shape) left.shape s) := by
  induction left generalizing done due m s with
  | nil =>
    have settled : settled .nil due = (.nil : Hedge NodeId) := by cases due <;> rfl
    rw [settled] at work
    exact .ended ⟨.nil, rfl, work⟩
  | text place content rest ih =>
    have shift : ∀ k : Hedge NodeId, done ++ .text place content k = done ++ .text place content .nil ++ k := by
      intro k
      rw [Hedge.append_assoc, Hedge.text_append, Hedge.nil_append]
    have settled : (Hedge.text place content rest).settled due = .text place content (rest.settled due) := by
      cases due <;> rfl
    rw [settled] at work
    obtain ⟨kept, _, own⟩ := work.owns
    have here : (m.forest.node place).TextUnder content p := ((stands_append _ _).mp own.stands).2.1
    rw [Hedge.roots, visitAll_cons_apply, if_pos here.parent, run_bind, visits.text here, Hedge.shape, Meaning.row]
    rw [shift] at work
    refine (ih covered work gone).map (Hedge.text () content) fun shown m' s' found => ?_
    obtain ⟨k, rfl, work⟩ := found
    refine ⟨.text place content k, rfl, ?_⟩
    rwa [shift]
  | element place tag attrs kids rest _ ih =>
    obtain ⟨known, coveredKids, coveredRest⟩ := covered
    cases due with
    | none =>
      have work : Working table base p h (done ++ .element place tag attrs kids rest) m s := work
      rw [roots, visitAll_cons_apply, if_pos work.elementUnder.parent]
      refine (visits.element known coveredKids coveredRest work).chain (fun _ => rfl) fun shown m₁ s₁ rendered => ?_
      obtain ⟨here, next, shape, nextShape, work, gone⟩ := rendered
      rw [← shape, ← nextShape]
      refine (ih coveredRest work gone).map (here.shape ++ ·) fun shown m₂ s₂ found => ?_
      obtain ⟨k, rfl, work⟩ := found
      refine ⟨here ++ k, shape_append _ _, ?_⟩
      rwa [← append_assoc]
    | some due =>
      -- The element has been dealt with together with the one before it.
      have work : Working table base p h (done ++ due ++ rest.settled none) m s := by
        rw [append_assoc]
        exact work
      have detached : (m.forest.node place).parent ≠ some p := gone (Option.some_ne_none _) place rfl
      rw [roots, visitAll_cons_apply, if_neg detached]
      refine (ih coveredRest work fun never => absurd rfl never).map (due.shape ++ ·)
        fun shown m₁ s₁ found => ?_
      obtain ⟨k, rfl, work⟩ := found
      refine ⟨due ++ k, shape_append _ _, ?_⟩
      rwa [← append_assoc]

lemma Visits.faithful (visits : Visits table visit element) :
    Faithful table (visitChildren visit) (Meaning.row element none) := by
  intro kept m s p h tracks own covered
  have work : Working table ⟨m.forest, kept⟩ p h (.nil ++ h.settled none) m s :=
    ⟨kept, tracks, Reworks.refl own⟩
  have whole := visits.visitAll covered work fun never => absurd rfl never
  unfold visitChildren
  rw [run_nodeOf_bind, own.children]
  exact whole

end Row

/-! ## Whole documents -/

lemma visitNode_visits (table : Assoc Handler) (run : RunDocument) (depth : Nat) :
    Visits table (visitNode run depth) (Meaning.element depth) := by
  have text : ∀ {depth : Nat} {content : String} {p id : NodeId} {m : Machine},
      (m.forest.node id).TextUnder content p → visitNode run depth id m = (.ok none, m) := by
    intro depth content p id m here
    have noElement : (m.forest.node id).isElement = false := by
      simp [Node.isElement, here.tag]
    cases depth with
    | zero | succ => rw [visitNode, visitBy, run_nodeOf_bind, noElement]; rfl
  induction depth with
  | zero =>
    refine ⟨text, fun known covered coveredBack work => ?_⟩
    rw [visitNode, visitBy, run_nodeOf_bind, if_pos work.elementUnder.element, work.elementUnder.tag, Meaning.element]
    exact renders_within work fun m' s' work => .failed work.abandon
  | succ depth ih =>
    refine ⟨text, fun known covered coveredBack work => ?_⟩
    rw [visitNode, visitBy, run_nodeOf_bind, if_pos work.elementUnder.element, work.elementUnder.tag, Meaning.element]
    exact renders_within work fun m' s' work => ih.faithful.handled run known covered coveredBack work

/-- A walk through the children of a node and the evaluation of the trees that it held agree. Either
both went to the end, and then the node holds the trees that the evaluator shows; or both were ended
by the same signal or the same fault. In any case the scene tracks the machine as before, and no
node was changed but those of the trees. -/
def Agree (table : Assoc Handler) (before : Plot) (p : NodeId) (h : Hedge NodeId) :
    Except Raised (Option Signal) × Machine → Except Raised (Except Signal Trees) × Scene → Prop
  | (.ok none, m), (.ok (.ok shown), s) =>
    ∃ kept k, k.shape = shown ∧ Tracks table kept m s ∧ Reworks before ⟨m.forest, kept⟩ p h k
  | (.ok (some signal), m), (.ok (.error signal'), s) =>
    signal = signal' ∧ ∃ kept, Tracks table kept m s ∧ Spoils before ⟨m.forest, kept⟩ p h
  | (.error raised, m), (.error raised', s) =>
    raised = raised' ∧ ∃ kept, Tracks table kept m s ∧ Spoils before ⟨m.forest, kept⟩ p h
  | _, _ => False

/-- From every machine and with every limit of depth, a walk through the children of a node agrees
with the evaluation of the trees that it holds. -/
theorem walk_agrees_with_evaluation (run : RunDocument) (depth : Nat) (tracks : Tracks table kept m s)
    (own : Owns ⟨m.forest, kept⟩ p h) (covered : h.AllTags (Covered table)) :
    Agree table ⟨m.forest, kept⟩ p h (visitChildren (visitNode run depth) p m)
      (Meaning.trees depth h.shape s) := by
  have mirrors := (visitNode_visits table run depth).faithful kept m s p h tracks own covered
  unfold Meaning.trees
  generalize visitChildren (visitNode run depth) p m = x at mirrors
  generalize Meaning.row (Meaning.element depth) none h.shape s = y at mirrors
  cases mirrors with
  | failed given => exact ⟨rfl, given⟩
  | ended known =>
    obtain ⟨shown, rfl, rfl, k, shape, kept', tracks', reworks⟩ | ⟨signal, rfl, rfl, given⟩ := known.cases
    · exact ⟨kept', k, shape, tracks', reworks⟩
    · exact ⟨rfl, given⟩

/-! ## A call that is tried -/

/-- A document in which a function is called that calls itself, with a handler behind some text.
Beside it stands the body of the function. -/
def attemptedCall : Forest where
  nodes := #[
    { (default : Node) with tag := documentTag, children := #[1, 3, 4] },
    { (default : Node) with tag := "try", children := #[2], parent := some 0 },
    { (default : Node) with tag := "call", attrs := [("func", "f")], parent := some 1 },
    { (default : Node) with tag := textTag, text := "b", parent := some 0 },
    { (default : Node) with tag := "catch", children := #[5], parent := some 0 },
    { (default : Node) with tag := textTag, text := "c", parent := some 4 },
    { (default : Node) with tag := "func", children := #[7, 8] },
    { (default : Node) with tag := textTag, text := "a", parent := some 6 },
    { (default : Node) with tag := "call", attrs := [("func", "f")], parent := some 6 }]

def attemptedTrees : Hedge NodeId :=
  .element 1 "try" [] (.element 2 "call" [("func", "f")] .nil .nil)
    (.text 3 "b" (.element 4 "catch" [] (.text 5 "c" .nil) .nil))

def attemptedBody : Hedge NodeId :=
  .text 7 "a" (.element 8 "call" [("func", "f")] .nil .nil)

def attemptedMachine : Machine :=
  let world := World.new ⟨⟨"/", "/"⟩, [], [], []⟩ ⟨[], []⟩ .input [] true
  let m := Machine.new ⟨some 3, false⟩ world none
  { m with
    forest := attemptedCall
    functions := #[⟨"f", [], 6, []⟩]
    session := { m.session with functions := [("f", 0)] } }

def attemptedKept (x : NodeId) : Prop := 6 ≤ x ∧ x ≤ 8

def attemptedScene : Scene := ⟨attemptedMachine.bare, #[⟨[], attemptedBody.shape, []⟩]⟩

lemma owns_attemptedTrees : Owns ⟨attemptedMachine.forest, attemptedKept⟩ 0 attemptedTrees where
  children := rfl
  stands := ⟨⟨rfl, rfl, rfl, rfl, rfl⟩, ⟨⟨rfl, rfl, rfl, rfl, rfl⟩, trivial, trivial⟩, ⟨rfl, rfl, rfl, rfl⟩,
    ⟨rfl, rfl, rfl, rfl, rfl⟩, ⟨⟨rfl, rfl, rfl, rfl⟩, trivial⟩, trivial⟩
  distinct := by decide
  inside := by decide
  free := by
    unfold attemptedKept
    decide
  path := ⟨[], rfl, by decide⟩

lemma tracks_attemptedMachine :
    Tracks builtinHandlers attemptedKept attemptedMachine attemptedScene where
  machine := rfl
  handlers := rfl
  size := rfl
  known name i found := by
    have member := Assoc.mem_of_get? found
    rw [show attemptedMachine.session.functions = [("f", 0)] from rfl, List.mem_singleton] at member
    cases member
    refine ⟨by decide, rfl, rfl, ⟨attemptedBody, ⟨rfl, ?_, by decide, by decide⟩, rfl, ?_⟩, by decide⟩
    · exact ⟨⟨rfl, rfl, rfl, rfl⟩, ⟨rfl, rfl, rfl, rfl, rfl⟩, trivial, trivial⟩
    · show ∀ x ∈ [6, 7, 8], 6 ≤ x ∧ x ≤ 8
      decide
  bounded x keep := Nat.lt_of_le_of_lt keep.2 (by decide)

lemma covered_attemptedTrees : attemptedTrees.AllTags (Covered builtinHandlers) := by decide

/-- The function calls itself until elements lie too deep, and what the handler holds is shown. -/
theorem walk_agrees_with_evaluation_attempted :
    Tracks builtinHandlers attemptedKept attemptedMachine attemptedScene ∧
      Owns ⟨attemptedMachine.forest, attemptedKept⟩ 0 attemptedTrees ∧
      attemptedTrees.AllTags (Covered builtinHandlers) ∧
      ∀ run depth, Agree builtinHandlers ⟨attemptedMachine.forest, attemptedKept⟩ 0 attemptedTrees
        (visitChildren (visitNode run depth) 0 attemptedMachine)
        (Meaning.trees depth attemptedTrees.shape attemptedScene) := by
  refine ⟨tracks_attemptedMachine, owns_attemptedTrees, covered_attemptedTrees, fun run depth => ?_⟩
  exact walk_agrees_with_evaluation run depth tracks_attemptedMachine owns_attemptedTrees covered_attemptedTrees

end TagScript.Script
