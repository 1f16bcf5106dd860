import Mathlib.Data.Nat.Basic
import TagScript.Proofs.Markup.Enclosure
import TagScript.Proofs.Script.Element
import TagScript.Proofs.Script.InStep
import TagScript.Proofs.Script.Mirror

/-!
# One body on two machines

A bond says how the memories of two machines are related: which values and closures go together, and
that the steps that work on variables keep this up. Bodies of core elements then do the same to the
nodes that the machines share.
-/

namespace TagScript.Script

open Markup Assoc

/-! ## Memories -/

/-- The part of a machine that variables and functions are in. -/
structure Memory where
  store : Store
  env : Environment
  functions : Array Function
  named : Assoc FunctionId

/-- What variables and calls have to do with. -/
def Machine.memory (m : Machine) : Memory :=
  { store := m.store
    env := m.session.env
    functions := m.functions
    named := m.session.functions }

namespace Memory

def push (M : Memory) : Memory := { M with env := (M.env.push []).2 }

def pop (M : Memory) : Memory := { M with env := M.env.pop?.elim M.env Prod.snd }

def enter (M : Memory) (closure : Bindings) : Memory :=
  { M with
    store := (M.env.enterFrame M.store closure).2.2
    env := (M.env.enterFrame M.store closure).2.1 }

def leave (M : Memory) (stack : List ScopeId) : Memory := { M with env := { M.env with stack := stack } }

def define (M : Memory) (name : String) (f : Function) : Memory :=
  { M with functions := M.functions.push f, named := Assoc.set name M.functions.size M.named }

def data (M : Memory) : Except Fault (List (String × Datum)) :=
  M.env.visible.mapM fun entry => do return (entry.1, ← M.store.wire entry.2)

def function? (M : Memory) (name : String) : Option Function :=
  (get? name M.named).map fun id => M.functions.getD id default

lemma function?_define {M : Memory} {name other : String} {f found : Function}
    (known : (M.define name f).function? other = some found) : found = f ∨ M.function? other = some found := by
  obtain ⟨i, named, rfl⟩ := Option.map_eq_some_iff.mp known
  simp only [define] at named ⊢
  by_cases last : i = M.functions.size
  · subst last
    exact .inl (by simp [Array.getD_eq_getD_getElem?])
  · refine .inr ?_
    have older : other ≠ name := by
      rintro rfl
      rw [get?_set_self] at named
      exact last (Option.some.inj named).symm
    rw [get?_set_other older] at named
    rw [function?, named]
    simp [Array.getD_eq_getD_getElem?, Array.getElem?_push, last]

end Memory

/-- From memories that are related the same is computed, up to values that are related in a later
world. -/
def Computes {World : Type} [Preorder World] (R : World → Memory → Memory → Prop) (V : World → Value → Value → Prop)
    (f : Environment → Store → Except Fault (Value × Store)) : Prop :=
  ∀ w M N, R w M N →
    Paired (fun a b => ∃ v, w ≤ v ∧ R v { M with store := a.2 } { N with store := b.2 } ∧ V v a.1 b.1)
      (f M.env M.store) (f N.env N.store)

/-! ## Bonds -/

/-- What is known of the nodes that are run: what tags do, which labels and which nodes there are,
which functions may be called, and how often loops may go round. -/
structure Grounds where
  table : Assoc Handler
  label : String → Assoc String → Prop
  inner : NodeId → Prop
  names : String → Prop
  limit : Option Nat

/-- The elements are of the core and call only functions that may be called. -/
structure Grounds.Core (g : Grounds) : Prop where
  text : g.label textTag []
  covered : ∀ {node : Node}, g.label node.tag node.attrs → node.isElement = true → Covered g.table node.tag
  calls : ∀ {node : Node} {name}, g.label node.tag node.attrs → node.isElement = true →
    get? node.tag g.table = some (.builtin .call) → node.attr? "func" = some name → g.names name

def Grounds.Global (g : Grounds) : Prop :=
  ∃ node : Node, g.label node.tag node.attrs ∧ node.isElement = true ∧
    get? node.tag g.table = some (.builtin .store) ∧ setting node "local" "true" = "false"

/-- How the memories of two machines are related while they run the same nodes. -/
structure Bond (g : Grounds) where
  World : Type
  order : Preorder World
  memory : World → Memory → Memory → Prop
  value : World → Value → Value → Prop
  closure : World → Bindings → Bindings → Prop
  scopes : World → ScopeId → ScopeId → Prop
  value_later : ∀ {w v a b}, w ≤ v → value w a b → value v a b
  closure_later : ∀ {w v c d}, w ≤ v → closure w c d → closure v c d
  scopes_later : ∀ {w v i j}, w ≤ v → scopes w i j → scopes v i j
  none : ∀ w, value w .none .none
  error : ∀ w record, value w (.error record) (.error record)
  typed : ∀ {w a b}, value w a b → a.typeTag = b.typeTag ∧ a.leaf.qualifiedName = b.leaf.qualifiedName
  named : ∀ {w a b}, value w a b → a.className = b.className ∧ ∀ name, Method.find? a name = Method.find? b name
  literal : ∀ {w M N a b}, memory w M N → value w a b →
    Paired (fun d e => d.literal? = e.literal? ∧ d.className = e.className) (M.store.datum a) (N.store.datum b)
  text : ∀ {w M N a b}, memory w M N → value w a b → M.store.text a = N.store.text b
  truthy : ∀ {w M N a b}, memory w M N → value w a b → M.store.truthy a = N.store.truthy b
  spread : ∀ {w M N a b}, memory w M N → value w a b →
    Option.Rel (List.Forall₂ (value w)) (spread? M.store a) (spread? N.store b)
  evaluate : ∀ text, Computes memory value fun env s => Expr.evaluate? env s text
  evaluateList : ∀ text, Computes memory value fun env s => Expr.evaluateList env s text
  method : ∀ {w M N a b xs ys} (method : Method), memory w M N → value w a b → List.Forall₂ (value w) xs ys →
    ∃ v, w ≤ v ∧ memory v { M with store := (method.apply M.store a xs).2 } { N with store := (method.apply N.store b ys).2 } ∧
    Paired (value v) (method.apply M.store a xs).1 (method.apply N.store b ys).1
  shown : ∀ {w M N}, memory w M N →
    Paired (fun d e => ∀ template, Template.render template (.map d) = Template.render template (.map e)) M.data N.data
  snapshot : ∀ {w M N}, memory w M N → ∃ v, w ≤ v ∧
    memory v { M with store := (M.env.snapshot M.store).2 } { N with store := (N.env.snapshot N.store).2 } ∧
    closure v (M.env.snapshot M.store).1 (N.env.snapshot N.store).1
  owner : ∀ {w M N} name, memory w M N → Option.Rel (scopes w) (M.env.owner? name) (N.env.owner? name)
  current : ∀ {w M N}, memory w M N → scopes w M.env.currentId N.env.currentId
  bound : ∀ {w M N i j} name, memory w M N → scopes w i j →
    Option.Rel (value w) (get? name (M.env.scope i)) (get? name (N.env.scope j))
  bindIn : ∀ {w M N i j a b} name, memory w M N → scopes w i j → value w a b →
    memory w { M with env := M.env.bindIn i name a } { N with env := N.env.bindIn j name b }
  bindGlobal : ∀ {w M N a b} name, g.Global → memory w M N → value w a b →
    memory w { M with env := M.env.bindGlobal name a } { N with env := N.env.bindGlobal name b }
  define : ∀ {w M N c d} name params body, memory w M N → closure w c d →
    memory w (M.define name ⟨name, params, body, c⟩) (N.define name ⟨name, params, body, d⟩)
  function : ∀ {w M N name}, memory w M N → g.names name →
    Option.Rel (fun f h => f.params = h.params ∧ f.body = h.body ∧ closure w f.closure h.closure)
      (M.function? name) (N.function? name)
  scope : ∀ {w M N}, memory w M N → ∃ v, memory v M.push N.push ∧
    ∀ {u M' N'}, v ≤ u → memory u M' N' →
      ∃ x, w ≤ x ∧ (∀ a b, value u a b → value x a b) ∧ memory x M'.pop N'.pop
  frame : ∀ {w M N c d}, memory w M N → closure w c d → ∃ v, memory v (M.enter c) (N.enter d) ∧
    (∀ a b, value w a b → value v a b) ∧
    ∀ {u M' N'}, v ≤ u → memory u M' N' →
      ∃ x, w ≤ x ∧ (∀ a b, value u a b → value x a b) ∧
        memory x (M'.leave M.env.stack) (N'.leave N.env.stack)

namespace Bond

variable {g : Grounds} (b : Bond g)

instance : Preorder b.World := b.order

abbrev Values (w : b.World × Nat) : Value → Value → Prop := b.value w.1

/-- Two machines that run the same nodes. The second part of a world is a number of nodes that there
are. -/
structure States (w : b.World × Nat) (m n : Machine) : Prop where
  forest : n.forest = m.forest
  handlers : m.session.handlers = g.table
  handlers' : n.session.handlers = g.table
  limit : m.settings.loopLimit = g.limit
  limit' : n.settings.loopLimit = g.limit
  enclosed : m.forest.Enclosed g.label g.inner
  fresh : ∀ x, m.forest.nodes.size ≤ x → g.inner x
  size : w.2 ≤ m.forest.nodes.size
  bodies : ∀ name, g.names name → ∀ f, m.memory.function? name = some f →
    g.inner f.body ∧ f.body < m.forest.nodes.size
  memory : b.memory w.1 m.memory n.memory

/-- A run does the same on both machines. -/
abbrev Echoes {α : Type} (w : b.World × Nat) (c : Run α) : Prop := InStep b.States Whatever w c c

end Bond

def Grounds.Placed {α : Type} (g : Grounds) (w : α × Nat) (id : NodeId) : Prop := g.inner id ∧ id < w.2

variable {id : NodeId}

lemma Grounds.Placed.later {α : Type} [Preorder α] {g : Grounds} {w v : α × Nat}
    (placed : g.Placed w id) (later : w ≤ v) : g.Placed v id :=
  ⟨placed.1, lt_of_lt_of_le placed.2 later.2⟩

section

variable {g : Grounds} {b : Bond g} {w : b.World × Nat} {m n : Machine} {α β : Type}

namespace Bond.States

lemma keeps (states : b.States w m n) : m.forest.Keeps (.enclosure g.label g.inner) :=
  states.enclosed.keeps states.fresh

lemma reforest {f : Forest} (states : b.States w m n) (follows : m.forest.Follows (.enclosure g.label g.inner) f) :
    b.States (w.1, f.nodes.size) { m with forest := f } { n with forest := f } where
  forest := rfl
  handlers := states.handlers
  handlers' := states.handlers'
  limit := states.limit
  limit' := states.limit'
  enclosed := follows.keeps.enclosed
  fresh x beyond := states.fresh x (le_trans follows.grows beyond)
  size := le_refl _
  bodies name known f found := by
    obtain ⟨inside, bound⟩ := states.bodies name known f found
    exact ⟨inside, lt_of_lt_of_le bound follows.grows⟩
  memory := states.memory

lemma counted (states : b.States w m n) : b.States (w.1, m.forest.nodes.size) m n :=
  { states with size := le_refl _ }

lemma le_counted (states : b.States w m n) : w ≤ (w.1, m.forest.nodes.size) :=
  ⟨le_refl w.1, states.size⟩

end Bond.States

/-- Two functions have one body and closures that are related. -/
structure Bond.Functions (b : Bond g) (w : b.World × Nat) (f h : Function) : Prop where
  params : f.params = h.params
  body : f.body = h.body
  closure : b.closure w.1 f.closure h.closure
  placed : g.Placed w f.body

lemma Bond.Functions.later {v : b.World × Nat} {f h : Function} (functions : b.Functions w f h) (later : w ≤ v) :
    b.Functions v f h :=
  { functions with
    closure := b.closure_later later.1 functions.closure
    placed := functions.placed.later later }

namespace InStep

/-! ## Nodes -/

lemma changeForest {f : Forest → Forest}
    (follows : ∀ h : Forest, h.Keeps (.enclosure g.label g.inner) → w.2 ≤ h.nodes.size →
      h.Follows (.enclosure g.label g.inner) (f h)) : b.Echoes w (changeForest f) := by
  refine InStep.change fun m n states => ?_
  have follows := follows m.forest states.keeps states.size
  rw [states.forest]
  exact ⟨(w.1, (f m.forest).nodes.size), ⟨le_refl w.1, le_trans states.size follows.grows⟩, states.reforest follows⟩

lemma askForest {f : Forest → α} {Q : b.World × Nat → α → Prop}
    (known : ∀ h : Forest, h.Keeps (.enclosure g.label g.inner) → w.2 ≤ h.nodes.size → Q (w.1, h.nodes.size) (f h)) :
    InStep b.States (fun v a c => a = c ∧ Q v a) w (askForest f) (askForest f) := by
  refine InStep.ask fun m n states => ?_
  rw [states.forest]
  exact (Meet.ok states.counted ⟨rfl, known m.forest states.keeps states.size⟩).earlier states.le_counted

lemma removeNode (inside : g.inner id) : b.Echoes w (removeNode id) :=
  InStep.changeForest fun _ keeps _ => keeps.remove inside

lemma nodeOf (placed : g.Placed w id) : InStep b.States
      (fun v a c => a = c ∧ g.label a.tag a.attrs ∧ ∀ child ∈ a.childList, g.Placed v child) w
      (nodeOf id) (nodeOf id) :=
  InStep.askForest fun _ keeps size =>
    ⟨keeps.enclosed.label id placed.1 (lt_of_lt_of_le placed.2 size), keeps.enclosed.child id placed.1⟩

lemma siblingTagged (placed : g.Placed w id) (tag : String) :
    InStep b.States (fun v a c => a = c ∧ ∀ other, a = some other → g.Placed v other) w
      (Script.askForest (·.siblingTagged id tag)) (Script.askForest (·.siblingTagged id tag)) :=
  InStep.askForest fun _ keeps _ _ found => keeps.siblingTagged placed.1 found

lemma cloneTree (placed : g.Placed w id) :
    InStep b.States (fun v a c => a = c ∧ g.Placed v a) w (cloneTree id) (cloneTree id) := by
  refine InStep.changeGet fun m n states => ?_
  obtain ⟨follows, placed⟩ :=
    states.enclosed.clone states.fresh placed.1 (lt_of_lt_of_le placed.2 states.size)
  rw [states.forest]
  exact ⟨(w.1, (m.forest.clone id).2.nodes.size), ⟨le_refl w.1, le_trans states.size follows.grows⟩,
    states.reforest follows, rfl, placed⟩

lemma showText (core : g.Core) (placed : g.Placed w id) (content : String) : b.Echoes w (showText id content) :=
  InStep.changeForest fun _ keeps _ => keeps.setText placed.1 core.text trivial content

/-! ## Variables -/

lemma computed {f : Environment → Store → Except Fault (Value × Store)} (computes : Computes b.memory b.value f) :
    InStep b.States b.Values w (compute f) (compute f) := by
  refine InStep.ask fun m n states => ?_
  have step := computes _ _ _ states.memory
  change Paired _ (f m.session.env m.store) (f n.session.env n.store) at step
  generalize f m.session.env m.store = x at step
  generalize f n.session.env n.store = y at step
  cases step with
  | error same => exact same ▸ InStep.raise _ m n states
  | ok made =>
    obtain ⟨v, later, memory, values⟩ := made
    exact ⟨(v, w.2), ⟨later, le_refl _⟩, { states with memory := memory }, .ok values⟩

lemma evaluate (text : Option String) : InStep b.States b.Values w (evaluate text) (evaluate text) :=
  InStep.computed (b.evaluate text)

lemma evaluateList (text : Option String) :
    InStep b.States b.Values w (evaluateList text) (evaluateList text) :=
  InStep.computed (b.evaluateList text)

variable {a c : Value}

lemma bindName (name : String) (related : b.value w.1 a c) :
    InStep b.States Whatever w (bindName name a) (bindName name c) := by
  refine InStep.change fun m n states => ⟨w, le_refl w, ?_⟩
  exact { states with memory := b.bindIn name states.memory (b.current states.memory) related }

lemma isTrue (related : b.value w.1 a c) : InStep b.States Same w (isTrue a) (isTrue c) := by
  refine InStep.ask fun m n states => Meet.ok states ?_
  exact b.truthy states.memory related

lemma textOf (related : b.value w.1 a c) : InStep b.States Same w (textOf a) (textOf c) := by
  refine InStep.ask fun m n states => ?_
  have same : m.store.text a = n.store.text c := b.text states.memory related
  rw [same]
  exact InStep.settle_same _ m n states

lemma checkDeclared (related : b.value w.1 a c) (declared : Option String) (what : String) :
    InStep b.States Whatever w (checkDeclared a declared what) (checkDeclared c declared what) := by
  have same : checkType a declared what = checkType c declared what := by
    unfold checkType
    rw [(b.typed related).1]
  unfold Script.checkDeclared
  rw [same]
  exact (InStep.settle_same _).any

lemma holds (condition : String) : InStep b.States Same w (holds condition) (holds condition) :=
  (InStep.evaluate _).bind fun _ _ _ _ related => InStep.isTrue related

lemma runStatement (text : String) : b.Echoes w (runStatement text) := by
  unfold Script.runStatement
  split
  · refine (InStep.evaluate _).bind fun v _ _ _ related => ?_
    exact (InStep.bindName _ related).bind fun _ _ _ _ _ => InStep.pure trivial
  · exact (InStep.evaluate _).any

lemma statement (text : Option String) : b.Echoes w (text.forM fun text => do
        let _ ← Script.runStatement text : Run PUnit) :=
  InStep.option_forM fun text _ => (InStep.runStatement text).bind fun _ _ _ _ _ => InStep.pure trivial

lemma storeVariable {node : Node} (label : g.label node.tag node.attrs) (element : node.isElement = true)
    (handler : get? node.tag g.table = some (.builtin .store)) : b.Echoes w (storeVariable node) := by
  refine (InStep.required _ _).bind fun v name _ _ same => ?_
  obtain ⟨rfl, _⟩ := same
  refine (InStep.evaluate _).bind fun u value other _ related => ?_
  refine (InStep.checkDeclared related _ _).bind fun x _ _ later _ => ?_
  split
  · exact InStep.bindName _ (b.value_later later.1 related)
  · rename_i global
    refine InStep.change fun m n states => ⟨x, le_refl x, ?_⟩
    exact {
      states with
      memory := b.bindGlobal name ⟨node, label, element, handler, by simpa using global⟩ states.memory
        (b.value_later later.1 related) }

lemma applyMethod (name : String) (related : b.value w.1 a c) (operation : String) :
    InStep b.States b.Values w (applyMethod name a operation) (applyMethod name c operation) := by
  unfold Script.applyMethod
  split
  · exact InStep.raise _
  · rename_i word argText _
    rw [(b.named related).1, (b.named related).2 word]
    split
    · exact InStep.raise _
    · rename_i method _
      refine (InStep.evaluateList argText).bind fun u given other later values => ?_
      refine InStep.ask fun m n states => ?_
      have spread := b.spread states.memory values
      change Option.Rel _ (spread? m.store given) (spread? n.store other) at spread
      generalize spread? m.store given = x at spread
      generalize spread? n.store other = y at spread
      cases spread with
      | none => exact InStep.raise _ m n states
      | some args =>
        refine InStep.bind (V := fun u => Paired (b.value u.1)) ?_ ?_ m n states
        · refine InStep.changeGet fun m n states => ?_
          obtain ⟨v, after, memory, outcome⟩ := b.method method states.memory (b.value_later later.1 related) args
          exact ⟨(v, u.2), ⟨after, le_refl _⟩, { states with memory := memory }, outcome⟩
        · intro v outcome outcome' _ paired
          cases paired with
          | ok related => exact InStep.pure related
          | @error failure _ same =>
            subst same
            cases failure with
            | arguments | fault => exact InStep.raise _

lemma applyOperation (name : String) (related : b.value w.1 a c) (operation : String) :
    InStep b.States b.Values w (applyOperation name a operation) (applyOperation name c operation) := by
  have read : InStep b.States (fun _ d e => d.literal? = e.literal? ∧ d.className = e.className) w (datumOf a)
      (datumOf c) :=
    InStep.ask fun m n states => InStep.settle (b.literal states.memory related) m n states
  refine read.bind fun u d e _ same => ?_
  rw [same.1, same.2]
  split
  · exact InStep.raise _
  · exact InStep.evaluate _

lemma changeVariable (node : Node) : b.Echoes w (changeVariable node) := by
  refine (InStep.required _ _).bind fun u name _ _ same => ?_
  obtain ⟨rfl, _⟩ := same
  refine (InStep.required _ _).bind fun u operation _ _ same => ?_
  obtain ⟨rfl, _⟩ := same
  refine InStep.ask fun m n states => ?_
  have owners := b.owner name states.memory
  change Option.Rel _ (m.session.env.owner? name) (n.session.env.owner? name) at owners
  simp only []
  generalize m.session.env.owner? name = x at owners
  generalize n.session.env.owner? name = y at owners
  cases owners with
  | none => exact InStep.raise _ m n states
  | @some i j paired =>
    have related : b.value u.1 ((get? name (m.session.env.scope i)).getD .none)
        ((get? name (n.session.env.scope j)).getD .none) := by
      have found := b.bound name states.memory paired
      change Option.Rel _ (get? name (m.session.env.scope i)) (get? name (n.session.env.scope j)) at found
      generalize get? name (m.session.env.scope i) = x at found
      generalize get? name (n.session.env.scope j) = y at found
      cases found with
      | none => exact b.none _
      | some related => exact related
    have finish : ∀ x value other, u ≤ x → b.value x.1 value other →
        InStep b.States Whatever x
          (do
            Script.checkDeclared value (node.attr? "type") name
            modify fun m => m.mapEnv fun env => env.bindIn i name value : Run PUnit)
          (do
            Script.checkDeclared other (node.attr? "type") name
            modify fun m => m.mapEnv fun env => env.bindIn j name other : Run PUnit) := by
      intro x value other later related
      refine (InStep.checkDeclared related _ _).bind fun y _ _ after _ => ?_
      refine InStep.change fun m n states => ⟨y, le_refl y, ?_⟩
      exact {
        states with
        memory := b.bindIn name states.memory (b.scopes_later (le_trans later after).1 paired)
          (b.value_later after.1 related) }
    simp only []
    split
    · exact (InStep.applyMethod name related _).bind finish m n states
    · exact (InStep.applyOperation name related _).bind finish m n states

lemma calcText (node : Node) : InStep b.States Same w (calcText node) (calcText node) := by
  refine (InStep.evaluate _).bind fun v _ _ _ related => ?_
  refine (InStep.checkDeclared related _ _).bind fun u _ _ later _ => ?_
  exact InStep.textOf (b.value_later later.1 related)

lemma outputText (node : Node) : InStep b.States Same w (outputText node) (outputText node) := by
  unfold Script.outputText
  split
  · refine InStep.bind (V := fun _ d e => ∀ template, Template.render template d = Template.render template e) ?_ ?_
    · refine InStep.ask fun m n states => ?_
      have read := InStep.settle (I := b.States) (w := w) (V := fun _ d e => ∀ template,
        Template.render template (.map d) = Template.render template (.map e)) (b.shown states.memory)
      exact read.bind (fun _ _ _ _ same => InStep.pure same) m n states
    · intro _ d e _ same
      rw [same]
      exact InStep.settle_same _
  · exact (InStep.evaluate _).bind fun _ _ _ _ related => InStep.textOf related

lemma arguments (text : Option String) :
    InStep b.States (fun v => List.Forall₂ (b.value v.1)) w (arguments text) (arguments text) := by
  refine (InStep.evaluateList _).bind fun v value other _ related => ?_
  refine InStep.ask fun m n states => ?_
  have spread := b.spread states.memory related
  simp only [Machine.memory] at spread
  rw [(b.typed related).2]
  generalize spread? m.store value = x at spread
  generalize spread? n.store other = y at spread
  cases spread with
  | none => exact InStep.raise _ m n states
  | some items => exact Meet.ok states items

lemma returnValue (node : Node) : InStep b.States b.Values w (returnValue node) (returnValue node) := by
  unfold Script.returnValue
  split
  · exact InStep.evaluate _
  · exact InStep.pure (b.none _)

lemma returned {ids : List NodeId} (among : ∀ id ∈ ids, g.Placed w id) (related : b.value w.1 a c) :
    InStep b.States b.Values w (returned a ids) (returned c ids) := by
  induction ids generalizing w a c with
  | nil => exact InStep.pure related
  | cons id rest ih =>
    refine (InStep.nodeOf (among id List.mem_cons_self)).bind fun v node _ later same => ?_
    obtain ⟨rfl, _⟩ := same
    refine (InStep.returnValue node).bind fun u _ _ after given => ?_
    refine (InStep.removeNode (among id List.mem_cons_self).1).bind fun x _ _ further _ => ?_
    refine ih (fun id mem => ?_) (b.value_later further.1 given)
    exact (among id (List.mem_cons_of_mem _ mem)).later (le_trans later (le_trans after further))

lemma runMan (placed : g.Placed w id) : b.Echoes w (runMan id) := by
  refine (InStep.nodeOf placed).bind fun v node _ _ same => ?_
  obtain ⟨rfl, _⟩ := same
  exact (InStep.changeVariable node).bind fun _ _ _ _ _ => InStep.removeNode placed.1

lemma runCalc (core : g.Core) (placed : g.Placed w id) : b.Echoes w (runCalc id) := by
  refine (InStep.nodeOf placed).bind fun v node _ later same => ?_
  obtain ⟨rfl, _⟩ := same
  refine (InStep.calcText node).bind fun u content _ after same => ?_
  subst same
  exact InStep.showText core (placed.later (le_trans later after)) content

lemma runOutput (core : g.Core) (placed : g.Placed w id) : b.Echoes w (runOutput id) := by
  refine (InStep.nodeOf placed).bind fun v node _ later same => ?_
  obtain ⟨rfl, _⟩ := same
  refine (InStep.outputText node).bind fun u content _ after same => ?_
  subst same
  exact InStep.showText core (placed.later (le_trans later after)) content

/-! ## Functions -/

lemma takeSnapshot : InStep b.States (fun v => b.closure v.1) w takeSnapshot takeSnapshot := by
  refine InStep.changeGet fun m n states => ?_
  obtain ⟨v, later, memory, related⟩ := b.snapshot states.memory
  exact ⟨(v, w.2), ⟨later, le_refl _⟩, { states with memory := memory }, related⟩

lemma defineFunction {c d : Bindings} {body : NodeId} (placed : g.Placed w body)
    (related : b.closure w.1 c d) (name : String) (params : List String) :
    InStep b.States Whatever w (defineFunction name ⟨name, params, body, c⟩)
      (defineFunction name ⟨name, params, body, d⟩) := by
  refine InStep.change fun m n states => ⟨w, le_refl w, ?_⟩
  exact {
    states with
    bodies := fun other known f found => by
      rcases Memory.function?_define (M := m.memory) found with rfl | older
      · exact ⟨placed.1, lt_of_lt_of_le placed.2 states.size⟩
      · exact states.bodies other known f older
    memory := b.define name params body states.memory related }

lemma runFunction (placed : g.Placed w id) : b.Echoes w (runFunction id) := by
  refine (InStep.nodeOf placed).bind fun v node _ later same => ?_
  obtain ⟨rfl, _⟩ := same
  refine (InStep.required _ _).bind fun u name _ after same => ?_
  obtain ⟨rfl, _⟩ := same
  refine (InStep.cloneTree ((placed.later later).later after)).bind fun x body _ _ same => ?_
  obtain ⟨rfl, copied⟩ := same
  refine InStep.takeSnapshot.bind fun y _ _ further related => ?_
  refine (InStep.defineFunction (copied.later further) related _ _).bind fun _ _ _ _ _ => ?_
  exact InStep.removeNode placed.1

lemma functionNamed {name : String} (known : g.names name) :
    InStep b.States b.Functions w (functionNamed name) (functionNamed name) := by
  refine InStep.ask fun m n states => ?_
  have related := b.function states.memory known
  have bodies := states.bodies name known
  simp only [Memory.function?, Machine.memory] at related bodies
  generalize get? name m.session.functions = x at related bodies
  generalize get? name n.session.functions = y at related
  cases x with
  | none =>
    cases y with
    | none => exact InStep.raise _ m n states
    | some j => cases related
  | some i =>
    cases y with
    | none => cases related
    | some j =>
      cases related with
      | some related =>
        refine (Meet.ok states.counted ?_).earlier states.le_counted
        exact ⟨related.1, related.2.1, related.2.2, bodies _ rfl⟩

end InStep

end

end TagScript.Script
