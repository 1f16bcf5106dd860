import TagScript.Proofs.Script.Bond

/-!
# Elements on two machines

With a bond between the memories of two machines, each element of the core does the same on both.
-/

namespace TagScript.Script

open Markup

section

variable {g : Grounds} {b : Bond g} {w : b.World × Nat} {m n : Machine} {α β : Type}

/-! ## Control flow -/

lemma diagnose_apply (parts : List String) (m : Machine) :
    ∃ world, diagnose parts m = (.ok ⟨⟩, { m with world := world }) := by
  unfold diagnose
  rw [run_get_bind]
  split
  · exact ⟨_, rfl⟩
  · exact ⟨m.world, rfl⟩

def Bond.Walks (b : Bond g) (walk : Walk) : Prop :=
  ∀ w id, g.Placed w id → InStep b.States Same w (walk id) (walk id)

namespace InStep

lemma diagnose (parts others : List String) : InStep b.States Whatever w (diagnose parts) (diagnose others) := by
  intro m n states
  obtain ⟨world, first⟩ := diagnose_apply parts m
  obtain ⟨world', second⟩ := diagnose_apply others n
  rw [first, second]
  exact Meet.ok { states with } trivial

lemma inScope {c d : Run α} {R : α → α → Prop} (body : ∀ v, w.2 ≤ v.2 → InStep b.States (fun _ => R) v c d) :
    InStep b.States (fun _ x y => R x.1 y.1) w (inScope c) (inScope d) := by
  intro m n states
  obtain ⟨v, entered, leaves⟩ := b.scope states.memory
  have inside : b.States (v, w.2) m.opened n.opened :=
    { states with memory := entered }
  have whole : Meet b.States (fun _ => R) w
      (always c Machine.shut m.opened)
      (always d Machine.shut n.opened) := by
    refine Meet.always (body (v, w.2) (le_refl _) _ _ inside) fun u m' n' later ended => ?_
    obtain ⟨x, from_, _, restored⟩ := leaves later.1 ended.memory
    refine ⟨(x, u.2), ⟨from_, later.2⟩, fun _ _ related => related, ?_⟩
    exact { ended with memory := restored }
  exact whole.bind fun _ _ _ _ related => InStep.pure related

lemma plain {c d : Run PUnit} (step : InStep b.States Whatever w c d) :
    InStep b.States (fun _ x y => x = y ∧ True) w c d :=
  step.imp fun _ _ _ _ _ => ⟨rfl, trivial⟩

end InStep

/-- Runs in step with results that are the same. -/
def Bond.comparison (b : Bond g) : Comparison (b.World × Nat) where
  Runs V w c d := InStep b.States (fun v x y => x = y ∧ V v x) w c d
  Placed := g.Placed
  Precedes _ _ := True
  Inside w v := w.2 ≤ v.2
  Like raised other := raised.fault = other.fault
  later placed after := placed.later after
  inside placed within := ⟨placed.1, lt_of_lt_of_le placed.2 within⟩
  record same := by rw [Raised.record, same, Raised.record]
  done known := InStep.pure ⟨rfl, known⟩
  raise := InStep.raise
  throw := InStep.throw
  next first rest := first.bind fun v a _ later known => known.1 ▸ rest v a later known.2
  attempt {_ _ V _ _ _ _ _ _} body ended failed := by
    refine InStep.bind (V := fun v x y => (x = y ∧ ∃ a, x = .ok a ∧ V v a) ∨
      ∃ raised other, x = .error raised ∧ y = .error other ∧ raised.fault = other.fault) (InStep.recover ?_ ?_) ?_
    · exact body.imp fun _ _ _ _ => .inl
    · exact fun _ raised other _ same => InStep.pure (.inr ⟨raised, other, rfl, rfl, same⟩)
    · rintro v x y later (⟨rfl, a, rfl, known⟩ | ⟨raised, other, rfl, rfl, same⟩)
      · exact ended v a later known
      · exact failed v raised other later same
  inScope body rest := (InStep.inScope (R := fun x y => x = y ∧ True) body).bind fun v pair _ later known =>
    known.1 ▸ rest v pair.1 later
  limited rest := InStep.ask fun m n states => by
    rw [states.limit, states.limit']
    exact rest g.limit m n states
  caught _ rest := InStep.ask fun m n states =>
    (InStep.diagnose _ _ m n states).bind fun v _ _ later _ => rest v later
  askForest _ := InStep.askForest fun _ _ _ => trivial
  nodeOf placed := (InStep.nodeOf placed).imp fun _ _ _ _ known =>
    ⟨known.1, fun child mem => ⟨known.2.2 child mem, fun _ _ => trivial⟩⟩
  siblingTagged := InStep.siblingTagged
  cloneTree placed := (InStep.cloneTree placed).imp fun _ _ _ _ known => ⟨known.1, known.2, fun _ _ => trivial⟩
  moveLast placed below _ := (InStep.changeForest fun _ keeps size =>
    keeps.moveLast placed.1 trivial ⟨below.1, lt_of_lt_of_le below.2 size⟩).plain
  unwrapNode placed := (InStep.changeForest fun _ keeps _ => keeps.unwrap placed.1).plain
  removeNode placed := (InStep.removeNode placed.1).plain
  clearChildren placed := (InStep.changeForest fun _ keeps _ => keeps.clearChildren placed.1).plain
  holds _ := (InStep.holds _).imp fun _ _ _ _ same => ⟨same, trivial⟩
  statement _ := (InStep.statement _).plain
  bindError _ _ := (InStep.bindName _ (b.error _ _)).plain

lemma Bond.Walks.compared {walk : Walk} (walks : b.Walks walk) : b.comparison.Walks walk walk :=
  fun w id placed => (walks w id placed).imp fun _ _ _ _ same => ⟨same, trivial⟩

lemma InStep.same {c d : Run α} (runs : b.comparison.Runs Untold w c d) : InStep b.States Same w c d :=
  InStep.imp runs fun _ _ _ _ known => known.1

/-! ## Calls -/

lemma runCall_apply (walk : Walk) (id : NodeId) (m : Machine) :
    runCall walk id m = (do
      let name ← required (m.forest.node id) "func"
      let f ← functionNamed name
      let args ← arguments ((m.forest.node id).attr? "args")
      if args.length ≠ f.params.length then raise (.argumentCount name f.params.length args.length)
      else applyFunction walk f args >>= concludeCall id (m.forest.node id) : Run (Option Signal)) m := rfl

def Machine.framed (m : Machine) (closure : Bindings) : Machine :=
  { m with
    store := (m.session.env.enterFrame m.store closure).2.2
    session := { m.session with env := (m.session.env.enterFrame m.store closure).2.1 } }

lemma applyFunction_apply (walk : Walk) (f : Function) (args : List Value) (m : Machine) :
    applyFunction walk f args m =
      always (frameBody walk f args) (fun m' => m'.mapEnv fun env => { env with stack := m.session.env.stack })
        (m.framed f.closure) := rfl

/-- Two answers of a body are related: the same signal, or values that are. -/
inductive Bond.Answers (b : Bond g) (w : b.World × Nat) :
    NodeId × Except Signal Value → NodeId × Except Signal Value → Prop where
  | signal {body : NodeId} (signal : Signal) : b.Answers w (body, .error signal) (body, .error signal)
  | value {body : NodeId} {a c : Value} (placed : g.Placed w body) (related : b.value w.1 a c) :
    b.Answers w (body, .ok a) (body, .ok c)

namespace InStep

variable {walk : Walk} {id : NodeId} {f h : Function} {xs ys : List Value}

lemma frameBody (walks : b.Walks walk) (params : f.params = h.params) (body : f.body = h.body)
    (placed : g.Placed w f.body) (args : List.Forall₂ (b.value w.1) xs ys) :
    InStep b.States b.Answers w (frameBody walk f xs) (frameBody walk h ys) := by
  unfold Script.frameBody
  rw [← params, ← body]
  have pairs : List.Forall₂ (fun x y : String × Value => x.1 = y.1 ∧ b.value w.1 x.2 y.2)
      (f.params.zip xs) (f.params.zip ys) := by
    generalize f.params = names
    induction args generalizing names with
    | nil => simp
    | cons first _ ih =>
      cases names with
      | nil => exact .nil
      | cons name names => exact .cons ⟨rfl, first⟩ (ih names)
  refine InStep.bind (V := Whatever) (InStep.forM pairs ?_) fun v _ _ later _ => ?_
  · rintro v ⟨name, value⟩ ⟨_, other⟩ later ⟨rfl, related⟩
    exact InStep.bindName name (b.value_later later.1 related)
  refine (InStep.cloneTree (placed.later later)).bind fun u copy _ _ same => ?_
  obtain ⟨rfl, copied⟩ := same
  refine (walks u copy copied).bind fun x signal _ after same => ?_
  subst same
  cases signal with
  | some signal => exact InStep.pure (.signal signal)
  | none =>
    have below : InStep b.States (fun v a c => a = c ∧ ∀ id ∈ a, g.Placed v id) x
        (Script.askForest (·.findAll copy "return")) (Script.askForest (·.findAll copy "return")) :=
      InStep.askForest fun _ keeps _ => keeps.findAll copied.1 "return"
    refine below.bind fun y ids _ further same => ?_
    obtain ⟨rfl, among⟩ := same
    refine (InStep.returned among (b.none _)).bind fun z _ _ last related => ?_
    exact InStep.pure (.value (copied.later (le_trans after (le_trans further last))) related)

lemma applyFunction (walks : b.Walks walk) (functions : b.Functions w f h)
    (args : List.Forall₂ (b.value w.1) xs ys) :
    InStep b.States b.Answers w (applyFunction walk f xs) (applyFunction walk h ys) := by
  intro m n states
  obtain ⟨v, entered, kept, leaves⟩ := b.frame states.memory functions.closure
  have inside : b.States (v, w.2) (m.framed f.closure) (n.framed h.closure) :=
    { states with memory := entered }
  have placed : g.Placed (v, w.2) f.body := functions.placed
  have ran := InStep.frameBody walks functions.params functions.body placed (args.imp kept) _ _ inside
  rw [applyFunction_apply, applyFunction_apply]
  refine Meet.always ran fun u m' n' later ended => ?_
  obtain ⟨x, from_, values, restored⟩ := leaves later.1 ended.memory
  refine ⟨(x, u.2), ⟨from_, later.2⟩, ?_, { ended with memory := restored }⟩
  intro a c answers
  cases answers with
  | signal signal => exact .signal signal
  | value placed related => exact .value placed (values _ _ related)

lemma concludeCall (placed : g.Placed w id) (node : Node) {a c : NodeId × Except Signal Value}
    (answers : b.Answers w a c) :
    InStep b.States Same w (concludeCall id node a) (concludeCall id node c) := by
  cases answers with
  | signal signal => exact InStep.pure rfl
  | value copied related =>
    unfold Script.concludeCall
    simp only []
    split
    · refine (InStep.bindName _ related).bind fun v _ _ later _ => ?_
      exact (InStep.removeNode placed.1).bind fun _ _ _ _ _ => InStep.pure rfl
    · refine (InStep.nodeOf copied).bind fun v body _ later same => ?_
      obtain ⟨rfl, _, among⟩ := same
      refine InStep.bind (V := Whatever) ?_ fun _ _ _ _ _ => InStep.pure rfl
      refine InStep.changeForest fun h keeps size => keeps.replaceWith placed.1 fun c mem => ⟨trivial, ?_⟩
      exact ⟨(among c mem).1, lt_of_lt_of_le (among c mem).2 size⟩

end InStep

namespace Meet

variable {walk : Walk} {id : NodeId} {m n : Machine}

lemma runStore (states : b.States w m n) (placed : g.Placed w id) (element : (m.forest.node id).isElement = true)
    (handler : Assoc.get? (m.forest.node id).tag g.table = some (.builtin .store)) :
    Meet b.States Whatever w (runStore id m) (runStore id n) := by
  unfold Script.runStore
  rw [run_nodeOf_bind, run_nodeOf_bind, states.forest]
  have label := states.enclosed.label id placed.1 (lt_of_lt_of_le placed.2 states.size)
  refine (InStep.storeVariable label element handler m n states).bind fun _ _ _ _ _ => ?_
  exact InStep.removeNode placed.1

lemma runCall (core : g.Core) (walks : b.Walks walk) (states : b.States w m n) (placed : g.Placed w id)
    (element : (m.forest.node id).isElement = true)
    (handler : Assoc.get? (m.forest.node id).tag g.table = some (.builtin .call)) :
    Meet b.States Same w (runCall walk id m) (runCall walk id n) := by
  rw [runCall_apply, runCall_apply, states.forest]
  have label := states.enclosed.label id placed.1 (lt_of_lt_of_le placed.2 states.size)
  generalize m.forest.node id = node at label element handler
  refine (InStep.required node "func" m n states).bind fun v name _ later same => ?_
  obtain ⟨rfl, given⟩ := same
  refine (InStep.functionNamed (core.calls label element handler given)).bind fun u f h after functions => ?_
  refine (InStep.arguments _).bind fun x xs ys further args => ?_
  have size : xs.length = ys.length := args.length_eq
  rw [← functions.params, ← size]
  split
  · exact InStep.raise _
  · refine (InStep.applyFunction walks (functions.later further) args).bind fun y _ _ last answers => ?_
    have here := placed.later (le_trans later (le_trans after (le_trans further last)))
    exact InStep.concludeCall here node answers

end Meet

/-! ## Elements -/

def blame (tag : String) (raised : Raised) : Run (Option Signal) := do throw (← blamed tag raised)

lemma within_apply (tag : String) (c : Run (Option Signal)) (m : Machine) :
    within tag c m =
      always (recover c (blame tag)) Machine.leave (m.enter tag) := rfl

lemma blame_apply (tag : String) (raised : Raised) (m : Machine) :
    ∃ raised' world, blame tag raised m = (.error raised', { m with world := world }) ∧
      raised'.fault = raised.fault := by
  unfold blame blamed
  cases raised.trail with
  | cons => exact ⟨raised, m.world, rfl, rfl⟩
  | nil =>
    obtain ⟨world, noted⟩ := diagnose_apply
      ["Error processing node:", tag, raised.fault.diagnostic, "Stack:", trailText m.session.trail] m
    refine ⟨{ raised with trail := m.session.trail }, world, ?_, rfl⟩
    simp only [bind_assoc]
    rw [run_get_bind, run_bind, noted]
    rfl

namespace Meet

variable {walk : Walk} {id : NodeId} {m n : Machine}

lemma within {tag : String} {c : Run (Option Signal)}
    (body : Meet b.States Same w (c (m.enter tag)) (c (n.enter tag))) :
    Meet b.States Same w (Script.within tag c m) (Script.within tag c n) := by
  rw [within_apply, within_apply]
  have recovered : Meet b.States Same w (Script.recover c (blame tag) (m.enter tag))
      (Script.recover c (blame tag) (n.enter tag)) := by
    refine Meet.recover body fun v raised other _ same m' n' states => ?_
    obtain ⟨raised', world, first, fault⟩ := blame_apply tag raised m'
    obtain ⟨other', world', second, fault'⟩ := blame_apply tag other n'
    rw [first, second]
    exact Meet.error { states with } (by rw [fault, fault', same])
  exact Meet.always recovered fun u m' n' later states => ⟨u, later, fun _ _ same => same, { states with }⟩

variable (core : g.Core) (walks : b.Walks walk) (run : RunDocument) (states : b.States w m n) (placed : g.Placed w id)
  (element : (m.forest.node id).isElement = true)
include core walks run states placed element

lemma runBuiltin {builtin : Builtin}
    (handler : Assoc.get? (m.forest.node id).tag g.table = some (.builtin builtin)) :
    Meet b.States Same w (Script.runBuiltin walk run builtin id m) (Script.runBuiltin walk run builtin id n) := by
  have known : builtin.core = true :=
    core.covered (states.enclosed.label id placed.1 (lt_of_lt_of_le placed.2 states.size)) element _ handler
  have quietly : ∀ {c : Run Unit}, Meet b.States Whatever w (c m) (c n) →
      Meet b.States Same w (withoutSignal c m) (withoutSignal c n) :=
    fun meet => meet.bind fun _ _ _ _ _ => InStep.pure rfl
  cases builtin with
  | store => exact quietly (runStore states placed element handler)
  | man => exact quietly (InStep.runMan placed m n states)
  | «calc» => exact quietly (InStep.runCalc core placed m n states)
  | output => exact quietly (InStep.runOutput core placed m n states)
  | condition => exact InStep.same (b.comparison.runCondition walks.compared placed) m n states
  | countedLoop => exact quietly ((InStep.same (b.comparison.runCountedLoop walks.compared placed)).any m n states)
  | loop => exact quietly ((InStep.same (b.comparison.runLoop walks.compared placed)).any m n states)
  | function => exact quietly (InStep.runFunction placed m n states)
  | call => exact runCall core walks states placed element handler
  | scope => exact InStep.same (b.comparison.runScope walks.compared placed) m n states
  | attempt => exact InStep.same (b.comparison.runAttempt walks.compared placed) m n states
  | signal signal => exact Meet.ok states rfl
  | _ => cases known

lemma runElement : Meet b.States Same w (elementBy walk (Script.runBuiltin walk run) (m.forest.node id).tag id m)
      (elementBy walk (Script.runBuiltin walk run) (m.forest.node id).tag id n) := by
  unfold elementBy
  rw [run_get_bind, run_get_bind, states.handlers, states.handlers']
  have covered :=
    core.covered (states.enclosed.label id placed.1 (lt_of_lt_of_le placed.2 states.size)) element
  cases handler : Assoc.get? (m.forest.node id).tag g.table with
  | none => exact walks w id placed m n states
  | some what =>
    cases what with
    | builtin builtin => exact runBuiltin core walks run states placed element handler
    | host host action => cases covered _ handler

end Meet

namespace InStep

variable {visit : NodeId → Run (Option Signal)} {id : NodeId}

lemma visitChildren (visits : b.Walks visit) : b.Walks (visitChildren visit) :=
  fun w id placed => InStep.same (b.comparison.visitChildren visits.compared w id placed)

lemma visitNode (core : g.Core) (run : RunDocument) (depth : Nat) (w : b.World × Nat) (id : NodeId)
    (placed : g.Placed w id) : InStep b.States Same w (visitNode run depth id) (visitNode run depth id) := by
  induction depth generalizing w id with
  | zero =>
    intro m n states
    unfold Script.visitNode visitBy
    rw [run_nodeOf_bind, run_nodeOf_bind, states.forest]
    split
    · exact Meet.within (InStep.raise _ _ _ { states with })
    · exact Meet.ok states rfl
  | succ depth ih =>
    intro m n states
    unfold Script.visitNode visitBy
    rw [run_nodeOf_bind, run_nodeOf_bind, states.forest]
    split
    · rename_i element
      refine Meet.within ?_
      have inside : b.States w (m.enter (m.forest.node id).tag) (n.enter (m.forest.node id).tag) := { states with }
      exact Meet.runElement core (InStep.visitChildren ih) run inside placed element
    · exact Meet.ok states rfl

lemma walks (core : g.Core) (run : RunDocument) (depth : Nat) :
    b.Walks (Script.visitChildren (Script.visitNode run depth)) :=
  InStep.visitChildren (InStep.visitNode core run depth)

end InStep

end

/-! ## Functions that call only each other -/

/-- An element of the core that, if it is a call, calls a function of some set. -/
structure CoreElement (table : Assoc Handler) (names : String → Prop) (node : Node) : Prop where
  covered : Covered table node.tag
  calls : Assoc.get? node.tag table = some (.builtin .call) → ∀ name, node.attr? "func" = some name → names name

/-- The bodies of the functions of some names lie among nodes that are linked only with each other,
and whose elements are all as they may be. -/
structure Machine.Harbours (m : Machine) (names : String → Prop) (inner : NodeId → Prop) (allowed : Node → Prop) :
    Prop where
  bodies : ∀ name, names name → ∀ f, m.memory.function? name = some f → inner f.body ∧ f.body < m.forest.nodes.size
  child : ∀ x, inner x → ∀ c ∈ (m.forest.node x).childList, inner c ∧ c < m.forest.nodes.size
  parent : ∀ x, inner x → ∀ q, (m.forest.node x).parent = some q → inner q
  elements : ∀ x, inner x → x < m.forest.nodes.size → (m.forest.node x).isElement = true →
    allowed (m.forest.node x)

def Machine.grounds (m : Machine) (names : String → Prop) (inner : NodeId → Prop) (allowed : Node → Prop) :
    Grounds where
  table := m.session.handlers
  label tag attrs := ∃ node : Node, node.tag = tag ∧ node.attrs = attrs ∧ (node.isElement = true → allowed node)
  inner x := inner x ∨ m.forest.nodes.size ≤ x
  names := names
  limit := m.settings.loopLimit

lemma CoreElement.of_label {table : Assoc Handler} {names : String → Prop} {node other : Node}
    (core : CoreElement table names other) (tag : other.tag = node.tag) (attrs : other.attrs = node.attrs) :
    CoreElement table names node where
  covered := tag ▸ core.covered
  calls handler name given := by
    rw [← tag] at handler
    rw [Node.attr?, ← attrs] at given
    exact core.calls handler name given

lemma isElement_of_tag {node other : Node} (tag : other.tag = node.tag) (element : node.isElement = true) :
    other.isElement = true := by
  rw [Node.isElement, tag]
  exact element

section

variable {m : Machine} {names : String → Prop} {inner : NodeId → Prop} {allowed : Node → Prop}

lemma Machine.grounds_core (core : ∀ node, allowed node → CoreElement m.session.handlers names node) :
    (m.grounds names inner allowed).Core := by
  have known : ∀ {node : Node}, (m.grounds names inner allowed).label node.tag node.attrs → node.isElement = true →
      CoreElement m.session.handlers names node := by
    rintro node ⟨other, tag, attrs, fine⟩ element
    exact (core other (fine (isElement_of_tag tag element))).of_label tag attrs
  exact {
    text := ⟨{ (default : Node) with tag := textTag, attrs := [] }, rfl, rfl, nofun⟩
    covered := fun label element => (known label element).covered
    calls := fun label element handler given => (known label element).calls handler _ given }

lemma Machine.Harbours.enclosed (harbours : m.Harbours names inner allowed) :
    m.forest.Enclosed (m.grounds names inner allowed).label (m.grounds names inner allowed).inner where
  label x inside bound :=
    ⟨m.forest.node x, rfl, rfl, harbours.elements x (inside.resolve_right (not_le.mpr bound)) bound⟩
  child x inside c member := by
    rcases inside with among | beyond
    · obtain ⟨inner, bound⟩ := harbours.child x among c member
      exact ⟨.inl inner, bound⟩
    · rw [Forest.node_of_size_le beyond] at member
      cases member
  parent x inside q up := by
    rcases inside with among | beyond
    · exact .inl (harbours.parent x among q up)
    · rw [Forest.node_of_size_le beyond] at up
      cases up

end

end TagScript.Script
