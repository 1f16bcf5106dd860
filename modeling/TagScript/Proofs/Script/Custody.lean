import TagScript.Proofs.Script.Guarded

/-!
# Elements leave templates alone

What an element does it does to nodes and containers at work, and what it keeps as a template it
copies first and sets aside.
-/

namespace TagScript.Script

open Markup
open Moment (Holds Keeps)

/-! ## Licences -/

def globalName? (node : Node) : Option String :=
  if setting node "local" "true" != "false" then none else node.attr? "name"

/-- A method that is applied to a value with the items of its arguments. -/
structure Application where
  store : Store
  value : Value
  method : Method
  items : List Value

def Machine.applied? (m : Machine) (value : Value) (operation : String) : Option Application := do
  let (called, text) ← methodCall? operation
  let method ← Method.find? value called
  let (args, store) ← (Expr.evaluateList m.session.env m.store text).toOption
  let items ← spread? store args
  return ⟨store, value, method, items⟩

/-- The method that an element would apply. -/
def Machine.application? (m : Machine) (node : Node) : Option Application := do
  let name ← node.attr? "name"
  let operation ← node.attr? "operation"
  let owner ← m.session.env.owner? name
  m.applied? ((Assoc.get? name (m.session.env.scope owner)).getD .none) (Text.trim operation)

def importSpace? (node : Node) : Option String :=
  match Assoc.get? (setting node "type" "script") ImportKind.names with
  | none => none
  | some .module => some ((given? node "namespace").getD "imported")
  | some _ => given? node "namespace"

def Licence.Puts (l : Licence) (a : Application) : Prop :=
  ∀ r c, a.value.ref? = some r →
    (∀ u ∈ c.values, u ∈ (a.store.cell r).values ∨ u ∈ a.method.puts a.store a.items) → l.write a.store r c

def Licence.Allows (l : Licence) (tag : Builtin) (id : NodeId) (m : Machine) : Prop :=
  match tag with
  | .store => ∀ name, globalName? (m.forest.node id) = some name → l.global name
  | .man =>
    (∀ name, (m.forest.node id).attr? "name" = some name → l.rebind name) ∧
      ∀ a, m.application? (m.forest.node id) = some a → l.Puts a
  | .function => ∀ name, (m.forest.node id).attr? "name" = some name → l.define name
  | .load => ∀ space, importSpace? (m.forest.node id) = some space → ∀ name, l.define (inNamespace space name)
  | _ => True

variable {α : Type} {g : Rule} {w v : Moment} {id : NodeId}

def Machine.calling (m : Machine) (f : Function) (args : List Value) : Machine :=
  { m with
    store := (m.session.env.enterFrame m.store f.closure).2.2
    forest := (m.forest.clone f.body).2
    session := { m.session with
      env := (f.params.zip args).foldl (fun env pair => env.bind pair.1 pair.2)
        (m.session.env.enterFrame m.store f.closure).2.1 } }

lemma bindParameters_apply (pairs : List (String × Value)) (m : Machine) :
    (pairs.forM fun (param, arg) => bindName param arg : Run PUnit) m =
      (.ok ⟨⟩, m.mapEnv fun env => pairs.foldl (fun env pair => env.bind pair.1 pair.2) env) := by
  induction pairs generalizing m with
  | nil => rfl
  | cons pair rest ih => exact ih (m.mapEnv fun env => env.bind pair.1 pair.2)

/-! ## Functions and the elements that define them -/

/-- In a state a function is what an element and all that was bound in an earlier one say. -/
structure Function.Depicts (f : Function) (before : Machine) (id : NodeId) (m : Machine) : Prop where
  params : f.params = parameters (((before.forest.node id).attr? "params").getD "")
  looks : m.forest.markup f.body = before.forest.markup id
  captured : before.store.Replica before.session.env.visible m.store f.closure

def Machine.Defines (before : Machine) (id : NodeId) (after last : Machine) : Prop :=
  ∃ name f, (before.forest.node id).attr? "name" = some name ∧
    Assoc.get? name after.session.functions = some before.functions.size ∧
    last.functions[before.functions.size]? = some f ∧ f.Depicts before id last

lemma Function.Depicts.later {f : Function} {before : Machine} (depicts : f.Depicts before id w.machine)
    (sound : w.Sound) (set : w.vault.nodes f.body) (within : ∀ entry ∈ f.closure, entry.2.Within w.vault.refs)
    (later : w ≤ v) : f.Depicts before id v.machine where
  params := depicts.params
  looks := (sound.markup_eq later set).trans depicts.looks
  captured := sound.replica_later later depicts.captured within

lemma Machine.Defines.later {before after : Machine} (defines : before.Defines id after w.machine) (sound : w.Sound)
    (later : w ≤ v) : before.Defines id after v.machine := by
  obtain ⟨name, f, given, named, found, depicts⟩ := defines
  obtain ⟨set, within⟩ := sound.functions f (Array.mem_of_getElem? found)
  exact ⟨name, f, given, named, later.functions _ f found, depicts.later sound set within later⟩

namespace Tame

/-! ## Variables -/

lemma removeNode (works : w.Works id) : Tame g Unsaid w (removeNode id) :=
  changeForest fun sound => sound.forest.keeps.remove works.2

lemma showText (works : w.Works id) (text : String) : Tame g Unsaid w (showText id text) :=
  changeForest fun sound => sound.forest.keeps.setText works.2 trivial works.1 text

lemma storeVariable {node : Node} (allowed : ∀ name, globalName? node = some name → g.licence.global name) :
    Tame g Unsaid w (storeVariable node) := by
  refine (required _ _).bind fun v name _ ⟨_, given⟩ => ?_
  refine (evaluate _).bind fun v value _ held => ?_
  refine (checkDeclared _ _ _).bind fun u _ later _ => ?_
  split
  · exact bindName _ (held.later later)
  · rename_i global
    have allowed := allowed name (by rw [globalName?, if_neg global, given])
    exact Guarded.change fun sound =>
      ⟨_, sound.bindIn Environment.globalId name (held.later later) (.bindGlobal value allowed), rfl⟩

lemma runStore (works : w.Works id) (allowed : g.licence.Allows .store id w.machine) :
    Tame g Unsaid w (runStore id) :=
  Guarded.nodeOf fun _ => (storeVariable allowed).bind fun _ _ later _ => removeNode (works.later later)

lemma applyMethod (name : String) {value : Value} (held : w.Holds value) {operation : String}
    (allowed : ∀ a, w.machine.applied? value operation = some a → g.licence.Puts a) :
    Tame g Holds w (applyMethod name value operation) := by
  unfold Script.applyMethod
  split
  · exact Guarded.raise _
  rename_i called text call
  split
  · exact Guarded.raise _
  rename_i method known
  refine (evaluateList_eq text).bind fun v args later ⟨given, _, evaluated⟩ => ?_
  refine Guarded.ask fun sound => ?_
  have tends := (Store.Beside.territory v.vault.refs v.machine.store).discipline
  cases found : spread? v.machine.store args with
  | none => exact Guarded.raise _
  | some items =>
    have writable : Writable (v.machine.store.Beside v.vault.refs) (Store.Loose v.vault.refs) :=
      fun beside loose link contents => beside.write loose link contents
    have given := spread_kind tends sound.store.beside given found
    have conducts := conducts_apply tends sound.store.beside writable (held.later later) method given
    have allowed := allowed ⟨v.machine.store, value, method, items⟩
      (by simp [Machine.applied?, call, known, evaluated, found, Except.toOption])
    refine Guarded.bind (V := fun u outcome => ∀ value, outcome = .ok value → u.Holds value) ?_ ?_
    · refine changeStore (f := fun s => method.apply s value items) (fun _ => conducts.kind) (fun _ => ?_)
        fun _ => conducts.value
      exact work_apply sound.store.closed value method (fun a mem => Holds.bounded (w := v) (given a mem)) allowed
    · intro u outcome _ known
      split
      · exact Guarded.pure (known _ rfl)
      · exact Guarded.raise _
      · exact Guarded.raise _

lemma applyOperation (name : String) (value : Value) (operation : String) :
    Tame g Holds w (applyOperation name value operation) := by
  refine (datumOf _).bind fun v d _ _ => ?_
  split
  · exact Guarded.raise _
  · exact evaluate _

lemma changeVariable {node : Node} (allowed : ∀ name, node.attr? "name" = some name → g.licence.rebind name)
    (puts : ∀ a, w.machine.application? node = some a → g.licence.Puts a) : Tame g Unsaid w (changeVariable node) := by
  refine (required _ _).bind fun v name _ ⟨here, given⟩ => ?_
  subst here
  refine (required _ _).bind fun v operation _ ⟨here, asked⟩ => ?_
  subst here
  refine Guarded.ask fun sound => ?_
  simp only []
  cases owned : v.machine.session.env.owner? name with
  | none => exact Guarded.raise _
  | some owner =>
    have bound : Assoc.has name (v.machine.session.env.scope owner) :=
      List.find?_some (p := fun id => Assoc.has name (v.machine.session.env.scope id)) owned
    have held : v.Holds ((Assoc.get? name (v.machine.session.env.scope owner)).getD .none) := by
      cases found : Assoc.get? name (v.machine.session.env.scope owner) with
      | none => exact Moment.holds_of_leaf rfl
      | some value => exact sound.session.bound owner _ (Assoc.mem_of_get? found)
    have changed : ∀ u value, u.Holds value → Course g.licence v.machine u.machine → Tame g Unsaid u (do
        Script.checkDeclared value (node.attr? "type") name
        modify fun m => m.mapEnv fun env => env.bindIn owner name value) := by
      intro u value held course
      refine (checkDeclared _ _ _).exact.bind fun x _ later ⟨_, _, further⟩ => Guarded.change fun sound => ?_
      have bound := (course.trans further).held bound
      exact ⟨_, sound.bindIn (fun _ => owner) name (held.later later) (.rebind value (allowed name given) bound), rfl⟩
    simp only []
    split
    · refine (applyMethod name held fun a applied => puts a ?_).exact.bind fun u value _ ⟨held, _, course⟩ =>
        changed u value held course
      simpa [Machine.application?, given, asked, owned] using applied
    · exact (applyOperation name _ _).exact.bind fun u value _ ⟨held, _, course⟩ => changed u value held course

lemma runMan (works : w.Works id) (allowed : g.licence.Allows .man id w.machine) : Tame g Unsaid w (runMan id) :=
  Guarded.nodeOf fun _ => (changeVariable allowed.1 allowed.2).bind fun _ _ later _ => removeNode (works.later later)

/-! ## Functions -/

lemma runFunction (works : w.Works id) (allowed : g.licence.Allows .function id w.machine) :
    Tame g (fun v _ => w.machine.Defines id v.machine v.machine) w (runFunction id) := by
  refine Guarded.nodeOf fun _ => (required _ _).bind fun v name _ ⟨here, given⟩ => ?_
  subst here
  refine (cloneTree_aside _).exact.bind fun u body _ ⟨⟨set, looks⟩, cloned, _⟩ => ?_
  have cloned : { v.machine with forest := (v.machine.forest.clone id).2 } = u.machine := congrArg Prod.snd cloned
  refine (copies_aside fun m => m.session.env.visible).exact.bind fun x closure second ⟨⟨within, replica⟩, copied, _⟩ => ?_
  have copied : { u.machine with store := (u.machine.store.copyEntries u.machine.session.env.visible).2 } = x.machine :=
    congrArg Prod.snd copied
  refine Guarded.of_sound fun sound => ?_
  have set := (second.nodes _ set).1
  have works := works.later (le_trans ‹v ≤ u› second)
  have same : x.machine.functions = v.machine.functions := by rw [← copied, ← cloned]
  have depicts : Function.Depicts ⟨name, parameters (((v.machine.forest.node id).attr? "params").getD ""), body, closure⟩
      v.machine id x.machine := by
    refine ⟨rfl, ?_, ?_⟩
    · rw [← copied]
      exact looks
    · rw [← cloned] at replica
      exact replica
  refine Guarded.bind (Guarded.exact (V := Unsaid) (Guarded.change fun sound =>
    ⟨_, sound.define set within _ (allowed name given), rfl⟩)) fun y _ third ⟨_, defined, _⟩ => ?_
  have defined : _ = y.machine := congrArg Prod.snd defined
  refine (removeNode (works.later third)).exact.imp fun z _ fourth _ ⟨_, removed, _⟩ => ?_
  have removed : { y.machine with forest := y.machine.forest.remove id } = z.machine := congrArg Prod.snd removed
  refine ⟨name, _, given, ?_, ?_, depicts.later sound set within (le_trans third fourth)⟩
  · rw [← removed, ← defined, ← same]
    exact Assoc.get?_set_self _ _ _
  · refine fourth.functions _ _ ?_
    rw [← defined, ← same]
    exact Array.getElem?_push_size

lemma functionNamed (name : String) : Tame g (fun v f => v = w ∧ f ∈ w.machine.functions) w (functionNamed name) := by
  refine Guarded.ask fun sound => ?_
  split
  · exact Guarded.raise _
  · rename_i f found
    have known := sound.session.named _ (Assoc.mem_of_get? found)
    refine Guarded.pure ⟨rfl, ?_⟩
    simp only [Array.getD_eq_getD_getElem?, Array.getElem?_eq_getElem known, Option.getD_some]
    exact Array.getElem_mem known

lemma arguments (text : Option String) : Tame g (fun v args => ∀ a ∈ args, v.Holds a) w (arguments text) := by
  refine (evaluateList _).bind fun v value _ held => Guarded.ask fun sound => ?_
  cases found : spread? v.machine.store value with
  | none => exact Guarded.raise _
  | some args => exact Guarded.pure (spread_kind (Store.Beside.territory _ _).discipline sound.store.beside held found)

/-! ## Places -/

lemma replaceWith (works : w.Works id) {children : List NodeId} (young : ∀ c ∈ children, id < c ∧ w.Works c) :
    Tame g Unsaid w (Script.changeForest (·.replaceWith id children)) :=
  changeForest fun sound => sound.forest.keeps.replaceWith works.2 young

end Tame

lemma Moment.Sound.children (sound : w.Sound) {other : NodeId} (works : w.Works other) (before : id < other) :
    ∀ c ∈ (w.machine.forest.node other).childList, id < c ∧ w.Works c := by
  intro c mem
  obtain ⟨after, free⟩ := sound.forest.keeps.child works.2 mem
  exact ⟨Nat.lt_trans before after, free⟩

def Guards (g : Rule) (walk walk' : NodeId → Run α) : Prop :=
  ∀ v id, v.Works id → Guarded g Unsaid v (walk id) (walk' id)

/-- Runs that are guarded, from sound moments on. -/
def Rule.likeness (g : Rule) : Likeness Moment where
  Runs V w c d := Guarded g V w c d
  Placed := Moment.Works
  Precedes id other := id < other
  Inside w v := w ≤ v
  Holds := Holds
  later works after := works.later after
  inside works within := works.later within
  kept held after := held.later after
  leaf := Moment.holds_of_leaf
  done := Guarded.pure
  raise := Guarded.raise
  throw := Guarded.throw
  next := Guarded.bind
  ask rest := Guarded.ask fun _ => rest _
  recover := Guarded.recover
  inScope body rest :=
    (Guarded.inScope (V := Unsaid) body fun _ _ _ _ _ => trivial).bind fun v pair later _ => rest v pair.1 later
  askForest _ := (Guarded.reading fun _ => rfl).unsaid
  nodeOf works := Guarded.ask fun sound => Guarded.pure fun c mem =>
    ⟨(sound.forest.keeps.child works.2 mem).2, fun _ before => (sound.children works before c mem).1⟩
  siblingTagged works _ := Guarded.ask fun sound => Guarded.pure fun _ => sound.forest.keeps.siblingTagged works.2
  cloneTree _ := (Tame.cloneTree _).imp fun _ _ _ _ young => ⟨young.works, fun _ works => works.lt young⟩
  copy _ := (Tame.cloneTree _).imp fun _ _ _ _ young => young.works
  moveLast works below before := Tame.changeForest fun sound => sound.forest.keeps.moveLast works.2 before below
  unwrapNode works := Tame.changeForest fun sound => sound.forest.keeps.unwrap works.2
  removeNode := Tame.removeNode
  clearChildren works := Tame.changeForest fun sound => sound.forest.keeps.clearChildren works.2
  evaluate := Tame.evaluate
  buildValue := Tame.buildValue
  bindName name held := Tame.bindName name held
  showText := Tame.showText
  emit := Tame.emit
  diagnose := Tame.diagnose
  recordWith _ _ := Guarded.change fun sound => ⟨_, sound.elsewhere _ _, rfl⟩
  outside _ := Tame.changeGetWorld _

namespace Guarded

variable {walk walk' : Walk} {run run' : RunDocument} (walks : Guards g walk walk') (works : w.Works id)

/-! ## Listeners and calls -/

omit walks in
lemma runListenBy {check check' : NodeId → Run Unit} (works : w.Works id)
    (checks : ∀ v body, w ≤ v → v.vault.nodes body → v.machine.forest.markup body = w.machine.forest.markup id →
      Guarded g Unsaid v (check body) (check' body)) :
    Guarded g Unsaid w (runListenBy check id) (runListenBy check' id) := by
  refine nodeOf fun _ => ?_
  split
  · exact raise _
  · exact raise _
  refine (Tame.cloneTree_aside _).bind fun v body first ⟨set, looks⟩ => ?_
  refine (checks v body first set looks).bind fun x _ second _ => ?_
  have set := (second.nodes _ set).1
  have works := works.later (le_trans first second)
  refine (Tame.removeNode works).bind fun u _ after _ => ask fun sound => ?_
  have set := (after.nodes _ set).1
  cases found : u.machine.session.document with
  | none => exact pure trivial
  | some document =>
    have targets := sound.forest.select (sound.session.document _ found).2
    refine askForest fun _ => (Tame.diagnose _).bind fun x _ later _ => ?_
    refine g.likeness.forM fun y target mem after => Tame.changeForest fun sound => ?_
    have works : u.Works target := targets _ target mem
    exact sound.forest.listen (works.later (le_trans later after)).2 _ ((le_trans later after).nodes _ set).1

omit walks in
lemma runListen (works : w.Works id) : Tame g Unsaid w (runListen id) :=
  runListenBy works fun _ _ _ _ _ => pure trivial

lemma applyFunction (f : Function) {args : List Value} (held : ∀ a ∈ args, w.Holds a)
    (walks : ∀ v, w ≤ v → w.Young v (w.machine.forest.clone f.body).1 → v.machine = w.machine.calling f args →
      Guarded g Unsaid v (walk (w.machine.forest.clone f.body).1) (walk' (w.machine.forest.clone f.body).1)) :
    Guarded g (fun v pair => w.Young v pair.1 ∧ ∀ value, pair.2 = .ok value → v.Holds value) w
      (applyFunction walk f args) (applyFunction walk' f args) := by
  refine inFrame (fun v later framed => ?_) fun v u pair after known =>
    ⟨known.1.later after, fun value same => (known.2 value same).later after⟩
  refine Guarded.bind (exact (V := Unsaid) (g.likeness.forM fun u pair mem after => ?_)) fun u _ after ⟨_, bound, _⟩ => ?_
  · exact Tame.bindName _ ((held _ (List.of_mem_zip mem).2).later (le_trans later after))
  rw [bindParameters_apply] at bound
  have bound : _ = u.machine := congrArg Prod.snd bound
  have later := le_trans later after
  refine (Tame.cloneTree f.body).exact.bind fun v body after ⟨young, cloned, _⟩ => ?_
  have copy : (w.machine.forest.clone f.body).1 = body := by
    have copy := congrArg (fun x => x.1.toOption) cloned
    rw [← bound, framed] at copy
    exact Option.some.inj copy
  have calling : v.machine = w.machine.calling f args := by
    have cloned : _ = v.machine := congrArg Prod.snd cloned
    rw [← cloned, ← bound, framed]
    rfl
  subst copy
  have young := young.back later
  refine (walks v (le_trans later after) young calling).bind fun u signal after _ => ?_
  split
  · exact pure ⟨young.later after, nofun⟩
  · have young := young.later after
    refine askForest fun sound => ?_
    have returns := sound.forest.keeps.findAll young.works.2 "return"
    refine (g.likeness.returned (g.likeness.leaf rfl) returns : Guarded g Holds _ _ _).bind fun x value after held => ?_
    refine pure ⟨young.later after, ?_⟩
    rintro other ⟨⟩
    exact held

def Applies (g : Rule) (apply apply' : Function → List Value → Run (NodeId × Except Signal Value)) : Prop :=
  ∀ (v : Moment) (f : Function) (args : List Value), f ∈ v.machine.functions → (∀ a ∈ args, v.Holds a) →
    Guarded g (fun u pair => v.Young u pair.1 ∧ ∀ value, pair.2 = .ok value → u.Holds value) v
      (apply f args) (apply' f args)

omit walks in
lemma runCallBy {apply apply' : Function → List Value → Run (NodeId × Except Signal Value)}
    (applies : Applies g apply apply') (works : w.Works id) :
    Guarded g Unsaid w (runCallBy apply id) (runCallBy apply' id) := by
  refine nodeOf fun _ => (Tame.required _ _).bind fun v name first _ => ?_
  refine (Tame.functionNamed _).bind fun u f second ⟨here, known⟩ => ?_
  subst here
  refine (Tame.arguments _).bind fun v args third held => ?_
  have works := works.later (le_trans first (le_trans second third))
  obtain ⟨i, known⟩ := Array.mem_iff_getElem?.mp known
  have known := Array.mem_of_getElem? (third.functions i f known)
  split
  · exact raise _
  refine (applies v f args known held).bind fun u (body, outcome) after ⟨young, value⟩ => ?_
  cases outcome with
  | error signal => exact pure trivial
  | ok result =>
    simp only [concludeCall]
    split
    · refine (Tame.bindName _ (value result rfl)).bind fun x _ later _ => ?_
      exact (Tame.removeNode (works.later (le_trans after later))).bind fun _ _ _ _ => pure trivial
    · refine nodeOf fun sound => ?_
      have children := sound.children young.works (works.lt young)
      exact (Tame.replaceWith (works.later after) children).bind fun _ _ _ _ => pure trivial

include walks works in
lemma runCall : Guarded g Unsaid w (runCall walk id) (runCall walk' id) := by
  have applies : Applies g (Script.applyFunction walk) (Script.applyFunction walk') :=
    fun _ f _ _ held => applyFunction f held fun v _ young _ => walks v _ young.works
  exact runCallBy applies works

end Guarded

end TagScript.Script
