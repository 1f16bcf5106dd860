import Mathlib.Order.Basic
import TagScript.Script.Interpreter

/-!
# Ways of comparing runs

What the ways of comparing runs have in common: there are worlds, nodes that may be run in a world,
and a rule for each step that elements are made of. From these the same follows for the elements
that run others.
-/

namespace TagScript.Script

open Markup

abbrev Untold {World α : Type} (_ : World) (_ : α) : Prop := True

/-- What every way of comparing runs has: worlds, nodes that may be run in them, and a rule for each
step on nodes. -/
structure Basis (World : Type) [Preorder World] where
  /-- From a world on two runs do the same, and of a result something is known in the world that it
  is given in. -/
  Runs {α : Type} (V : World → α → Prop) (w : World) (c d : Run α) : Prop
  /-- A node may be run. -/
  Placed (w : World) (id : NodeId) : Prop
  /-- The second node may be put below the first one. -/
  Precedes (id other : NodeId) : Prop
  /-- The second world lies within a scope that is opened in the first one. -/
  Inside (w v : World) : Prop
  later {w v id} (placed : Placed w id) (after : w ≤ v) : Placed v id
  inside {w v id} (placed : Placed w id) (within : Inside w v) : Placed v id
  done {α} {V : World → α → Prop} {w a} (known : V w a) : Runs V w (pure a) (pure a)
  raise {α} {V : World → α → Prop} {w} (fault : Fault) : Runs V w (raise fault) (raise fault)
  next {α β} {V : World → α → Prop} {U : World → β → Prop} {w} {c d : Run α} {k l : α → Run β}
    (first : Runs V w c d) (rest : ∀ v a, w ≤ v → V v a → Runs U v (k a) (l a)) : Runs U w (c >>= k) (d >>= l)
  inScope {α β} {U : World → β → Prop} {w} {c d : Run α} {k l : α → Run β}
    (body : ∀ v, Inside w v → Runs Untold v c d) (rest : ∀ v a, w ≤ v → Runs U v (k a) (l a)) :
    Runs U w (inScope c >>= fun pair => k pair.1) (inScope d >>= fun pair => l pair.1)
  askForest {α} {w} (f : Forest → α) : Runs Untold w (askForest f) (askForest f)
  nodeOf {w id} (placed : Placed w id) :
    Runs (fun v node => ∀ c ∈ node.childList, Placed v c ∧ ∀ x, Precedes x id → Precedes x c) w (nodeOf id) (nodeOf id)
  siblingTagged {w id} (placed : Placed w id) (tag : String) :
    Runs (fun v other => ∀ x, other = some x → Placed v x) w (Script.askForest (·.siblingTagged id tag))
      (Script.askForest (·.siblingTagged id tag))
  cloneTree {w id} (placed : Placed w id) :
    Runs (fun v copy => Placed v copy ∧ ∀ x, Placed w x → Precedes x copy) w (cloneTree id) (cloneTree id)
  moveLast {w id child} (placed : Placed w id) (below : Placed w child) (precedes : Precedes id child) :
    Runs Untold w (changeForest (·.moveLast id child)) (changeForest (·.moveLast id child))
  unwrapNode {w id} (placed : Placed w id) : Runs Untold w (unwrapNode id) (unwrapNode id)
  removeNode {w id} (placed : Placed w id) : Runs Untold w (removeNode id) (removeNode id)
  clearChildren {w id} (placed : Placed w id) :
    Runs Untold w (changeForest (·.clearChildren id)) (changeForest (·.clearChildren id))

namespace Basis

variable {World : Type} [Preorder World] (B : Basis World) {w : World} {α β : Type}

/-- A run compares with itself. -/
abbrev Agrees (w : World) (c : Run α) : Prop := B.Runs Untold w c c

/-- What two walks do in all worlds to all nodes that may be run there. -/
def Walks (walk walk' : Walk) : Prop :=
  ∀ w id, B.Placed w id → B.Runs Untold w (walk id) (walk' id)

lemma imp {V V' : World → α → Prop} {c d : Run α} (runs : B.Runs V w c d) (implied : ∀ v a, V v a → V' v a) :
    B.Runs V' w c d := by
  rw [← bind_pure c, ← bind_pure d]
  exact B.next runs fun v a _ known => B.done (implied v a known)

lemma settle (x : Except Fault α) : B.Agrees w (settle x) := by
  cases x with
  | ok a => exact B.done trivial
  | error fault => exact B.raise fault

lemma required (node : Node) (name : String) : B.Agrees w (required node name) := by
  unfold Script.required
  split
  · exact B.raise _
  · split
    · exact B.raise _
    · exact B.done trivial

lemma forM {c d : α → Run PUnit} {items : List α} (each : ∀ v, ∀ a ∈ items, w ≤ v → B.Runs Untold v (c a) (d a)) :
    B.Runs Untold w (items.forM c) (items.forM d) := by
  induction items generalizing w with
  | nil => exact B.done trivial
  | cons item rest ih =>
    refine B.next (each w item List.mem_cons_self (le_refl w)) fun v _ later _ => ?_
    exact ih fun u a mem after => each u a (List.mem_cons_of_mem _ mem) (le_trans later after)

lemma mapM {c d : α → Run β} {items : List α} (each : ∀ v a, B.Runs Untold v (c a) (d a)) :
    B.Runs Untold w (items.mapM c) (items.mapM d) := by
  induction items generalizing w with
  | nil => exact B.done trivial
  | cons item rest ih =>
    rw [List.mapM_cons, List.mapM_cons]
    refine B.next (each w item) fun v _ _ _ => ?_
    exact B.next ih fun _ _ _ _ => B.done trivial

lemma option_forM {c d : α → Run PUnit} {item : Option α} (each : ∀ a, item = some a → B.Runs Untold w (c a) (d a)) :
    B.Runs Untold w (item.forM c) (item.forM d) := by
  cases item with
  | none => exact B.done trivial
  | some a => exact each a rfl

lemma appendAll {id : NodeId} {children : List NodeId} (placed : B.Placed w id)
    (below : ∀ c ∈ children, B.Placed w c ∧ B.Precedes id c) : B.Agrees w (appendAll id children) := by
  refine B.forM fun v child mem first => ?_
  have move : ∀ u, v ≤ u → B.Runs Untold u _ _ := fun u after =>
    B.moveLast (B.later placed (le_trans first after)) (B.later (below child mem).1 (le_trans first after))
      (below child mem).2
  refine B.next (B.askForest _) fun u circular second _ => ?_
  simp only []
  split
  · refine B.next (B.askForest _) fun x fault third _ => ?_
    exact B.next (B.raise (V := Untold) fault) fun y _ last _ => move y (le_trans second (le_trans third last))
  · exact move u second

end Basis

/-- A way of comparing runs of elements, which may be runs on two machines. -/
structure Comparison (World : Type) [Preorder World] extends Basis World where
  Like (raised other : Raised) : Prop
  record {raised other} (like : Like raised other) : raised.record = other.record
  throw {α} {V : World → α → Prop} {w raised other} (like : Like raised other) : Runs V w (throw raised) (throw other)
  attempt {α β} {V : World → α → Prop} {U : World → β → Prop} {w} {c d : Run (Except Raised α)}
    {k l : Except Raised α → Run β} (body : Runs (fun v x => ∃ a, x = .ok a ∧ V v a) w c d)
    (ended : ∀ v a, w ≤ v → V v a → Runs U v (k (.ok a)) (l (.ok a)))
    (failed : ∀ v raised other, w ≤ v → Like raised other → Runs U v (k (.error raised)) (l (.error other))) :
    Runs U w (recover c (fun raised => return .error raised) >>= k) (recover d (fun raised => return .error raised) >>= l)
  limited {α} {V : World → α → Prop} {w} {k l : Option Nat → Run α} (rest : ∀ limit, Runs V w (k limit) (l limit)) :
    Runs V w (get >>= fun m => k m.settings.loopLimit) (get >>= fun m => l m.settings.loopLimit)
  caught {α} {V : World → α → Prop} {w raised other} {c d : Run α} (like : Like raised other)
    (rest : ∀ v, w ≤ v → Runs V v c d) :
    Runs V w (do diagnose ["Caught", raised.fault.diagnostic, "in", trailText (← get).session.trail]; c)
      (do diagnose ["Caught", other.fault.diagnostic, "in", trailText (← get).session.trail]; d)
  holds {w} (condition : String) : toBasis.Agrees w (holds condition)
  statement {w} (text : Option String) : toBasis.Agrees w (text.forM fun text => do let _ ← runStatement text)
  bindError {w} (name : String) (raised : Raised) : toBasis.Agrees w (bindName name raised.record)

namespace Comparison

variable {World : Type} [Preorder World] (L : Comparison World) {w : World} {α β : Type}

variable {walk walk' : Walk} {id : NodeId} (walks : L.Walks walk walk') (placed : L.Placed w id)

section

include walks placed

/-! ## Conditions, loops, scopes and attempts -/

lemma runInPlace : L.Runs Untold w (runInPlace walk id) (runInPlace walk' id) := by
  refine L.next (walks w id placed) fun v signal later _ => ?_
  split
  · exact L.done trivial
  · exact L.next (L.unwrapNode (L.later placed later)) fun _ _ _ _ => L.done trivial

lemma runCondition : L.Runs Untold w (runCondition walk id) (runCondition walk' id) := by
  refine L.next (L.nodeOf placed) fun v node first _ => ?_
  refine L.next (L.siblingTagged (L.later placed first) "else") fun u alternative second beside => ?_
  refine L.next (L.required node _) fun x condition third _ => L.next (L.holds condition) fun y chosen fourth _ => ?_
  have further := le_trans third fourth
  have here := L.later placed (le_trans (le_trans first second) further)
  split
  · refine L.next (L.runInPlace walks here) fun z signal last _ => ?_
    split
    · exact L.done trivial
    · refine L.next (L.option_forM fun other found => ?_) fun _ _ _ _ => L.done trivial
      exact L.removeNode (L.later (beside other found) (le_trans further last))
  · refine L.next (L.removeNode here) fun z _ last _ => ?_
    split
    · exact L.done trivial
    · exact L.runInPlace walks (L.later (beside _ rfl) (le_trans further last))

lemma oneRound {template : NodeId} (copied : L.Placed w template) (step : Option String) :
    L.Runs Untold w (oneRound walk id template step) (oneRound walk' id template step) := by
  refine L.next (L.cloneTree copied) fun v round first new => ?_
  refine L.next (walks v round new.1) fun u signal second _ => ?_
  simp only []
  split
  · exact L.done trivial
  have finish : ∀ x, L.Runs Untold x _ _ := fun x =>
    L.next (L.statement step) fun _ _ _ _ => L.done (V := Untold) (a := true) trivial
  split
  · refine L.next (L.nodeOf (L.later new.1 second)) fun x node third below => ?_
    refine L.next (L.appendAll (L.later placed (le_trans first (le_trans second third))) fun c mem => ?_) fun y _ _ _ => finish y
    exact ⟨(below c mem).1, (below c mem).2 id (new.2 id placed)⟩
  · exact finish u

lemma goRound {template : NodeId} (copied : L.Placed w template) (condition : String) (step : Option String)
    (limit : Option Nat) (rounds : Nat) :
    L.Runs Untold w (goRound walk id template condition step limit rounds)
      (goRound walk' id template condition step limit rounds) := by
  induction rounds generalizing w with
  | zero =>
    refine L.next (L.holds condition) fun v chosen _ _ => ?_
    split
    · exact L.raise _
    · exact L.done trivial
  | succ rounds ih =>
    refine L.next (L.holds condition) fun v chosen first _ => ?_
    split
    · refine L.next (L.oneRound walks (L.later placed first) (L.later copied first) step) fun u again second _ => ?_
      split
      · exact ih (L.later placed (le_trans first second)) (L.later copied (le_trans first second))
      · exact L.done trivial
    · exact L.done trivial

lemma runRounds (condition : String) (step : Option String) :
    L.Runs Untold w (runRounds walk id condition step) (runRounds walk' id condition step) := by
  refine L.next (L.cloneTree placed) fun v template first copied => ?_
  refine L.next (L.clearChildren (L.later placed first)) fun u _ second _ => ?_
  have here := L.later placed (le_trans first second)
  let rounds (walk : Walk) (limit : Option Nat) : Run Unit := do
    Script.goRound walk id template condition step limit (limit.getD unlimitedRounds)
    Script.unwrapNode id
  refine L.limited (k := rounds walk) (l := rounds walk') fun limit => ?_
  refine L.next (L.goRound walks here (L.later copied.1 second) condition step limit _) fun x _ third _ => ?_
  exact L.unwrapNode (L.later here third)

lemma runCountedLoop : L.Runs Untold w (runCountedLoop walk id) (runCountedLoop walk' id) := by
  refine L.next (L.nodeOf placed) fun v node first _ => ?_
  refine L.next (L.required node _) fun u condition second _ => L.next (L.statement _) fun x _ third _ => ?_
  exact L.runRounds walks (L.later placed (le_trans first (le_trans second third))) condition _

lemma runLoop : L.Runs Untold w (runLoop walk id) (runLoop walk' id) := by
  refine L.next (L.nodeOf placed) fun v node first _ => L.next (L.required node _) fun u condition second _ => ?_
  exact L.runRounds walks (L.later placed (le_trans first second)) condition none

lemma runScope : L.Runs Untold w (runScope walk id) (runScope walk' id) :=
  L.inScope (fun _ within => L.runInPlace walks (L.inside placed within)) fun _ _ _ => L.done trivial

lemma runAttempt : L.Runs Untold w (runAttempt walk id) (runAttempt walk' id) := by
  refine L.next (L.siblingTagged placed "catch") fun v handler first beside => ?_
  have here := L.later placed first
  refine L.attempt (V := Untold) ?_ (fun u signal second _ => ?_) fun u raised other second like => ?_
  · exact L.next (walks v id here) fun _ signal _ _ => L.done ⟨signal, rfl, trivial⟩
  · cases signal with
    | some signal => exact L.done trivial
    | none =>
      refine L.next (L.unwrapNode (L.later here second)) fun x _ third _ => ?_
      refine L.next (L.option_forM fun other found => ?_) fun _ _ _ _ => L.done trivial
      exact L.removeNode (L.later (beside other found) (le_trans second third))
  · refine L.next (L.removeNode (L.later here second)) fun x _ third _ => ?_
    cases handler with
    | none => exact L.throw like
    | some handler =>
      have behind := L.later (beside handler rfl) (le_trans second third)
      simp only [L.record like]
      refine L.caught like fun y fourth => ?_
      refine L.next (L.nodeOf (L.later behind fourth)) fun z node fifth _ => L.next (L.bindError _ _) fun _ _ last _ => ?_
      exact L.runInPlace walks (L.later behind (le_trans fourth (le_trans fifth last)))

end

/-! ## Children -/

variable {visit visit' : NodeId → Run (Option Signal)}

lemma visitAll (visits : L.Walks visit visit') (parent : NodeId)
    {ids : List NodeId} (among : ∀ id ∈ ids, L.Placed w id) :
    L.Runs Untold w (visitAll visit parent ids) (visitAll visit' parent ids) := by
  induction ids generalizing w with
  | nil => exact L.done trivial
  | cons child rest ih =>
    have first := among child List.mem_cons_self
    have others : ∀ v, w ≤ v → ∀ id ∈ rest, L.Placed v id :=
      fun v after id mem => L.later (among id (List.mem_cons_of_mem _ mem)) after
    refine L.next (L.nodeOf first) fun v node later _ => ?_
    split
    · refine L.next (visits v child (L.later first later)) fun u signal after _ => ?_
      split
      · exact L.done trivial
      · exact ih (others u (le_trans later after))
    · exact ih (others v later)

lemma visitChildren (visits : L.Walks visit visit') : L.Walks (visitChildren visit) (visitChildren visit') :=
  fun _ id placed => L.next (L.nodeOf placed) fun _ _ _ below => L.visitAll visits id fun c mem => (below c mem).1

end Comparison

end TagScript.Script
