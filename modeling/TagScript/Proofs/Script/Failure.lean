import TagScript.Proofs.Script.Isolation

/-!
# What a failed change leaves behind

Binding and changing a variable evaluate first and bind last, so a failure leaves all scopes as they
were. But a method that changes a container in place has done so when the declared type is looked
at, and sorting may fail half-way.
-/

namespace TagScript.Script

open Markup Option
open Store (Region)

variable {α β : Type} {m m' m'' : Machine} {exposed further : Ref → Prop}

/-! ## Runs that may fail -/

/-- What is known of a run when it is done, and when it has failed. -/
structure Ends (c : Run α) (m : Machine) (done : α → Machine → Prop) (failed : Fault → Machine → Prop) : Prop where
  ok : ∀ a m', c m = (.ok a, m') → done a m'
  error : ∀ raised m', c m = (.error raised, m') → failed raised.fault m'

namespace Ends

variable {c : Run α} {done : α → Machine → Prop} {failed : Fault → Machine → Prop}

lemma bind {k : α → Run β} {after : β → Machine → Prop} (first : Ends c m done failed)
    (next : ∀ a m', done a m' → Ends (k a) m' after failed) : Ends (c >>= k) m after failed := by
  constructor <;> intro result m' ended <;> rw [run_bind] at ended <;> rcases found : c m with ⟨_ | a, m₁⟩ <;>
    rw [found] at ended
  · cases ended
  · exact (next a m₁ (first.ok a m₁ found)).ok result m' ended
  · cases ended
    exact first.error _ _ found
  · exact (next a m₁ (first.ok a m₁ found)).error result m' ended

lemma imp {done' : α → Machine → Prop} {failed' : Fault → Machine → Prop} (ends : Ends c m done failed)
    (ok : ∀ a m', done a m' → done' a m') (error : ∀ fault m', failed fault m' → failed' fault m') :
    Ends c m done' failed' :=
  ⟨fun a m' found => ok a m' (ends.ok a m' found), fun raised m' found => error _ m' (ends.error raised m' found)⟩

lemma pure {a : α} (known : done a m) : Ends (pure a) m done failed :=
  ⟨fun b m' same => by cases same; exact known, fun _ _ never => nomatch never⟩

lemma raise {fault : Fault} (known : failed fault m) : Ends (raise fault : Run α) m done failed :=
  ⟨fun _ _ never => (nomatch never), fun _ _ same => by cases same; exact known⟩

lemma ask {k : Machine → Run α} (ends : Ends (k m) m done failed) : Ends (get >>= k) m done failed :=
  ⟨ends.ok, ends.error⟩

lemma change {f : Machine → Machine} {done : PUnit → Machine → Prop} (known : done ⟨⟩ (f m)) :
    Ends (modify f) m done failed :=
  ⟨fun _ _ same => by cases same; exact known, fun _ _ never => nomatch never⟩

lemma changeGet (f : Machine → α × Machine) :
    Ends (modifyGet f) m (fun a m' => a = (f m).1 ∧ m' = (f m).2) failed :=
  ⟨fun _ _ same => by cases same; exact ⟨rfl, rfl⟩, fun _ _ never => nomatch never⟩

lemma become (n : Machine) : Ends (set n) m (fun _ m' => m' = n) failed :=
  ⟨fun _ _ same => by cases same; rfl, fun _ _ never => nomatch never⟩

lemma ite {p : Prop} [Decidable p] {d : Run α} (yes : p → Ends c m done failed) (no : ¬ p → Ends d m done failed) :
    Ends (if p then c else d) m done failed := by
  by_cases holds : p
  · rw [if_pos holds]
    exact yes holds
  · rw [if_neg holds]
    exact no holds

lemma of_error (ends : Ends c m done failed) {raised : Raised} (stopped : (c m).1 = .error raised) :
    failed raised.fault (c m).2 :=
  ends.error raised _ (Prod.ext stopped rfl)

lemma settle (x : Except Fault α) :
    Ends (settle x) m (fun a m' => m' = m ∧ x = .ok a) fun fault m' => m' = m ∧ x = .error fault := by
  cases x with
  | ok a => exact .pure ⟨rfl, rfl⟩
  | error fault => exact .raise ⟨rfl, rfl⟩

lemma required (node : Node) (name : String) :
    Ends (required node name) m (fun value m' => m' = m ∧ node.attr? name = some value) fun _ m' => m' = m := by
  obtain ⟨r, asked, given⟩ := required_eq node name
  constructor
  all_goals
    intro _ m' found
    obtain ⟨rfl, rfl⟩ := Prod.mk.inj ((asked m).symm.trans found)
  · exact ⟨rfl, given _ rfl⟩
  · rfl

lemma checkDeclared (v : Value) (declared : Option String) (what : String) :
    Ends (checkDeclared v declared what) m (fun _ m' => m' = m) fun fault m' =>
      m' = m ∧ checkType v declared what = .error fault :=
  (settle (checkType v declared what)).imp (fun _ _ same => same.1) fun _ _ => id

end Ends

/-- Nothing of a machine has changed but its containers, and of those that were there only exposed
ones. -/
structure Machine.Keeps (m : Machine) (exposed : Ref → Prop) (m' : Machine) : Prop where
  rest : m' = { m with store := m'.store }
  grows : m.store.cells.size ≤ m'.store.cells.size
  containers : ∀ r, r < m.store.cells.size → ¬ exposed r → m'.store.cell r = m.store.cell r

namespace Machine.Keeps

lemma refl (m : Machine) (exposed : Ref → Prop) : m.Keeps exposed m :=
  ⟨rfl, le_refl _, fun _ _ _ => rfl⟩

lemma trans (first : m.Keeps exposed m') (second : m'.Keeps exposed m'') : m.Keeps exposed m'' where
  rest := by
    rw [second.rest, first.rest]
  grows := le_trans first.grows second.grows
  containers r there hidden :=
    (second.containers r (lt_of_lt_of_le there first.grows) hidden).trans (first.containers r there hidden)

lemma mono (keeps : m.Keeps exposed m') (more : ∀ r, exposed r → further r) : m.Keeps further m' :=
  { keeps with containers := fun r there hidden => keeps.containers r there fun out => hidden (more r out) }

lemma datum? (keeps : m.Keeps exposed m') {v : Value}
    (hidden : ∀ r ∈ m.store.reachable [v], r < m.store.cells.size ∧ ¬ exposed r) :
    m'.store.datum? v = m.store.datum? v :=
  datum?_congr fun r reached => keeps.containers r (hidden r reached).1 (hidden r reached).2

end Machine.Keeps

/-- No container is exposed. -/
def Nowhere (_ : Ref) : Prop := False

lemma Ends.computed {f : Environment → Store → Except Fault (Value × Store)}
    (keeps : ∀ env s v s', f env s = .ok (v, s') → ∀ r, r < s.cells.size → r < s'.cells.size ∧ s'.cell r = s.cell r) :
    Ends (compute f) m (fun _ m' => m.Keeps Nowhere m') fun _ m' => m' = m := by
  refine Ends.ask (Ends.bind ((Ends.settle (f m.session.env m.store)).imp (fun _ _ => id) fun _ _ same => same.1) ?_)
  rintro ⟨v, s⟩ _ ⟨rfl, made⟩
  have kept := keeps _ _ v s made
  refine (Ends.become _).bind ?_
  rintro _ _ rfl
  refine Ends.pure ?_
  refine ⟨rfl, Nat.le_of_not_lt fun less => ?_, fun r there _ => (kept r there).2⟩
  exact lt_irrefl _ (kept s.cells.size less).1

lemma Ends.evaluate (text : Option String) :
    Ends (evaluate text) m (fun _ m' => m.Keeps Nowhere m') fun _ m' => m' = m :=
  computed (f := fun env s => Expr.evaluate? env s text) fun _ _ _ _ made => (Expr.region_of_evaluate? made).kept

lemma Ends.evaluateList (text : Option String) :
    Ends (evaluateList text) m (fun _ m' => m.Keeps Nowhere m') fun _ m' => m' = m :=
  computed (f := fun env s => Expr.evaluateList env s text) fun _ _ _ _ made => (Expr.region_of_evaluateList made).kept

/-! ## Methods -/

/-- What a method leaves of the containers: it changes at most the one it is applied to, and then it
is sorting or gives that container. -/
structure Method.Touches (s : Store) (v : Value) (method : Method) (outcome : Method.Outcome) : Prop where
  grows : s.cells.size ≤ outcome.2.cells.size
  others : ∀ r, r < s.cells.size → v.ref? ≠ some r → outcome.2.cell r = s.cell r
  failed : ∀ failure, outcome.1 = .error failure → method ≠ .sort → outcome.2 = s
  other : ∀ w, outcome.1 = .ok w → w ≠ v → ∀ r, r < s.cells.size → outcome.2.cell r = s.cell r

namespace Method.Touches

variable {s : Store} {v : Value} {method : Method}

lemma nothing {result : Except Method.Failure Value} : Touches s v method (result, s) :=
  ⟨le_refl _, fun _ _ _ => rfl, fun _ _ _ => rfl, fun _ _ _ _ _ => rfl⟩

lemma written {r : Ref} (link : v.ref? = some r) (c : Cell) : Touches s v method (.ok v, s.write r c) where
  grows := by simp [Store.write]
  others q _ other := by
    rw [Store.cell_write, if_neg]
    rintro ⟨rfl, _⟩
    exact other link
  failed _ never := nomatch never
  other w same different := by
    cases same
    exact absurd rfl different

lemma sortItems (s : Store) (r : Ref) : Touches s (.seq r) .sort (Method.sortItems s r) where
  grows := by simp [Method.sortItems, Store.write]
  others q _ other := by
    rw [Method.sortItems, Store.cell_write, if_neg]
    rintro ⟨rfl, _⟩
    exact other rfl
  failed _ _ sorts := absurd rfl sorts
  other w same different := by
    unfold Method.sortItems at same
    simp only [] at same
    split at same
    · cases same
      exact absurd rfl different
    · cases same

lemma slice (s : Store) (v : Value) (items : List Value) :
    Touches s v method (.ok (s.newSeq items).1, (s.newSeq items).2) := by
  have kept : ∀ r, r < s.cells.size → (s.newSeq items).2.cell r = s.cell r := by
    intro r there
    exact (s.cell_push (.seq items) r).trans (if_neg (ne_of_lt there))
  exact {
    grows := by simp [Store.newSeq, Store.alloc]
    others := fun r there _ => kept r there
    failed := nofun
    other := fun _ _ _ => kept }

lemma onSequence (s : Store) (r : Ref) (method : Method) (args : List Value) :
    Touches s (.seq r) method (Method.onSequence s r method args) := by
  unfold Method.onSequence
  simp only []
  split
  · exact written rfl _
  · exact written rfl _
  · exact written rfl _
  · exact written rfl _
  · exact written rfl _
  · exact sortItems s r
  · split
    · exact nothing
    · exact slice s _ _
  · exact written rfl _
  · exact nothing
  · split
    · exact nothing
    · exact written rfl _
  · exact written rfl _
  · exact nothing

lemma onMapping (s : Store) (r : Ref) (method : Method) (args : List Value) :
    Touches s (.map r) method (Method.onMapping s r method args) := by
  unfold Method.onMapping
  split
  · split
    · exact nothing
    · exact written rfl _
  · split
    · exact nothing
    · exact written rfl _
  · exact written rfl _
  · exact nothing

lemma apply (s : Store) (v : Value) (method : Method) (args : List Value) :
    Touches s v method (method.apply s v args) := by
  cases v with
  | seq r => exact onSequence s r method args
  | map r => exact onMapping s r method args
  | str text => exact nothing
  | _ => exact nothing

end Method.Touches

def Sorts (v : Value) (operation : String) : Prop :=
  ∃ name args, methodCall? operation = some (name, args) ∧ Method.find? v name = some .sort

/-- A method changes at most the container it is applied to, and gives that container or changes
none; if it fails it has changed none unless it sorts. -/
lemma Ends.applyMethod (name : String) (v : Value) (operation : String) :
    Ends (applyMethod name v operation) m
      (fun w m' => m.Keeps (v.ref? = some ·) m' ∧ (w ≠ v → m.Keeps Nowhere m'))
      fun _ m' => m.Keeps (fun r => v.ref? = some r ∧ Sorts v operation) m' := by
  unfold Script.applyMethod
  cases call : methodCall? operation with
  | none => exact .raise (.refl m _)
  | some found =>
    obtain ⟨word, argText⟩ := found
    simp only []
    cases known : Method.find? v word with
    | none => exact .raise (.refl m _)
    | some method =>
      refine ((Ends.evaluateList argText).imp (fun _ _ => id) ?_).bind fun given m₁ kept => Ends.ask ?_
      · rintro _ _ rfl
        exact .refl _ _
      have before : ∀ {exposed : Ref → Prop}, m.Keeps exposed m₁ := kept.mono fun _ nowhere => nowhere.elim
      cases spread? m₁.store given with
      | none => exact .raise before
      | some args =>
        have touches := Method.Touches.apply m₁.store v method args
        refine (Ends.changeGet _).bind ?_
        rintro outcome _ ⟨result, rfl⟩
        simp only [] at result ⊢
        have after : m₁.Keeps (v.ref? = some ·) { m₁ with store := (method.apply m₁.store v args).2 } :=
          ⟨rfl, touches.grows, touches.others⟩
        have left : ∀ failure, outcome = .error failure → m.Keeps (fun r => v.ref? = some r ∧ Sorts v operation)
            { m₁ with store := (method.apply m₁.store v args).2 } := by
          intro failure failed
          by_cases sorts : method = .sort
          · subst sorts
            exact (before.trans after).mono fun r link => ⟨link, word, argText, call, known⟩
          · rw [touches.failed failure (result.symm.trans failed) sorts]
            exact before
        match outcome with
        | .ok w =>
          refine .pure ⟨before.trans after, fun different => before.trans ⟨rfl, touches.grows, fun r there _ => ?_⟩⟩
          exact touches.other w result.symm different r there
        | .error .arguments => exact .raise (left _ rfl)
        | .error (.fault fault) => exact .raise (left _ rfl)

lemma Ends.applyOperation (name : String) (v : Value) (operation : String) :
    Ends (applyOperation name v operation) m (fun _ m' => m.Keeps Nowhere m') fun _ m' => m' = m := by
  refine Ends.bind (Ends.ask ((Ends.settle _).imp (fun _ _ => id) fun _ _ same => same.1)) fun d m₁ same => ?_
  obtain ⟨rfl, _⟩ := same
  cases d.literal? with
  | none => exact .raise rfl
  | some literal => exact .evaluate _

/-! ## Binding and changing -/

lemma Ends.storeVariable (node : Node) :
    Ends (storeVariable node) m (fun _ _ => True) fun _ m' => m.Keeps Nowhere m' := by
  refine ((Ends.required node "name").imp (fun _ _ => id) ?_).bind fun name m₁ named => ?_
  · rintro _ _ rfl
    exact .refl _ _
  obtain ⟨rfl, _⟩ := named
  refine ((Ends.evaluate _).imp (fun _ _ => id) ?_).bind fun v m₂ kept => ?_
  · rintro _ _ rfl
    exact .refl _ _
  refine ((Ends.checkDeclared v _ _).imp (fun _ _ => id) ?_).bind fun _ m₃ same => ?_
  · rintro _ _ ⟨rfl, _⟩
    exact kept
  exact Ends.ite (fun _ => Ends.change trivial) fun _ => Ends.change trivial

/-- The container that a failed change of a variable may leave changed: the one that the variable
holds, if it is being sorted, or if a method changes it although it is not of the declared type. -/
def Machine.Exposes (m : Machine) (node : Node) (fault : Fault) (r : Ref) : Prop :=
  ∃ name operation v, node.attr? "name" = some name ∧ node.attr? "operation" = some operation ∧
    m.session.env.get? name = some v ∧ v.ref? = some r ∧ (Text.trim operation).startsWith "." = true ∧
    (Sorts v (Text.trim operation) ∨ checkType v (node.attr? "type") name = .error fault)

lemma Ends.changeVariable (node : Node) :
    Ends (changeVariable node) m (fun _ _ => True) fun fault m' => m.Keeps (m.Exposes node fault) m' := by
  refine ((Ends.required node "name").imp (fun _ _ => id) ?_).bind fun name m₁ named => ?_
  · rintro _ _ rfl
    exact .refl _ _
  obtain ⟨rfl, named⟩ := named
  refine ((Ends.required node "operation").imp (fun _ _ => id) ?_).bind fun operation m₂ told => Ends.ask ?_
  · rintro _ _ rfl
    exact .refl _ _
  obtain ⟨rfl, told⟩ := told
  simp only []
  cases found : m₂.session.env.owner? name with
  | none => exact .raise (.refl m₂ _)
  | some owner =>
    have bound : ∀ {v : Value} {r : Ref}, (Assoc.get? name (m₂.session.env.scope owner)).getD .none = v →
        v.ref? = some r → m₂.session.env.get? name = some v := by
      intro v r value link
      rw [Environment.get?, found, bind_some]
      cases there : Assoc.get? name (m₂.session.env.scope owner) with
      | none =>
        rw [there, getD_none] at value
        rw [← value] at link
        cases link
      | some w =>
        rw [there, getD_some] at value
        rw [value]
    simp only []
    generalize value : (Assoc.get? name (m₂.session.env.scope owner)).getD .none = v at bound ⊢
    refine Ends.ite (fun dot => ?_) fun _ => ?_
    · refine ((Ends.applyMethod name v _).imp (fun _ _ => id) ?_).bind fun changed m₃ kept => ?_
      · intro _ _ kept
        exact kept.mono fun r sorts => ⟨name, operation, v, named, told, bound rfl sorts.1, sorts.1, dot, .inl sorts.2⟩
      refine ((Ends.checkDeclared changed _ _).imp (fun _ _ => id) ?_).bind fun _ m₄ _ => Ends.change trivial
      rintro fault _ ⟨rfl, mismatch⟩
      by_cases same : changed = v
      · subst same
        exact kept.1.mono fun r link =>
          ⟨name, operation, changed, named, told, bound rfl link, link, dot, .inr mismatch⟩
      · exact (kept.2 same).mono fun _ nowhere => nowhere.elim
    · refine ((Ends.applyOperation name v _).imp (fun _ _ => id) ?_).bind fun changed m₃ kept => ?_
      · rintro _ _ rfl
        exact .refl _ _
      refine ((Ends.checkDeclared changed _ _).imp (fun _ _ => id) ?_).bind fun _ m₄ _ => Ends.change trivial
      rintro fault _ ⟨rfl, _⟩
      exact kept.mono fun _ nowhere => nowhere.elim

lemma Ends.runStore (id : NodeId) : Ends (runStore id) m (fun _ _ => True) fun _ m' => m.Keeps Nowhere m' :=
  Ends.ask ((Ends.storeVariable (m.forest.node id)).bind fun _ _ _ => Ends.change trivial)

lemma Ends.runMan (id : NodeId) :
    Ends (runMan id) m (fun _ _ => True) fun fault m' => m.Keeps (m.Exposes (m.forest.node id) fault) m' :=
  Ends.ask ((Ends.changeVariable (m.forest.node id)).bind fun _ _ _ => Ends.change trivial)

/-- When an element that binds a variable fails, all scopes and all containers are as they were, so
every value stands for the same tree. When one that changes a variable fails, all scopes are as they
were, and all containers but at most one: that of the variable itself, and only if a method was
sorting it, or had changed it before the declared type was found not to be its own. Every value that
does not lead to it stands for the same tree. -/
theorem failed_change_keeps_scopes_and_containers {id : NodeId} {raised : Raised} :
    ((runStore id m).1 = .error raised →
        m.Keeps Nowhere (runStore id m).2 ∧
          ∀ v, (∀ r ∈ m.store.reachable [v], r < m.store.cells.size) →
            (runStore id m).2.store.datum? v = m.store.datum? v) ∧
      ((runMan id m).1 = .error raised →
        m.Keeps (m.Exposes (m.forest.node id) raised.fault) (runMan id m).2 ∧
          ∀ v, (∀ r ∈ m.store.reachable [v],
              r < m.store.cells.size ∧ ¬ m.Exposes (m.forest.node id) raised.fault r) →
            (runMan id m).2.store.datum? v = m.store.datum? v) := by
  constructor
  · intro failed
    have keeps := (Ends.runStore id).of_error failed
    exact ⟨keeps, fun v there => keeps.datum? fun r reached => ⟨there r reached, fun nowhere => nowhere⟩⟩
  · intro failed
    have keeps := (Ends.runMan id).of_error failed
    exact ⟨keeps, fun v hidden => keeps.datum? hidden⟩

def mistypedClear : Forest where
  nodes := #[
    { (default : Node) with
      tag := "man", attrs := [("name", "ys"), ("operation", ".clear"), ("type", "number")] }]

def mistypedMachine : Machine := { lendingMachine with forest := mistypedClear }

def mistyped : Fault := .type (.mismatch "ys" "number" "sequence")

theorem failed_clear_keeps_other_sequence :
    ((runMan 0 mistypedMachine).1 = .error ⟨mistyped, []⟩ ∧
        (mistypedMachine.store.items 1).length = 1 ∧ ((runMan 0 mistypedMachine).2.store.items 1).length = 0) ∧
      (∀ r ∈ mistypedMachine.store.reachable [.seq 0],
        r < 2 ∧ ¬ mistypedMachine.Exposes (mistypedMachine.forest.node 0) mistyped r) ∧
      (runMan 0 mistypedMachine).2.store.datum? (.seq 0) = mistypedMachine.store.datum? (.seq 0) := by
  have failed : (runMan 0 mistypedMachine).1 = .error ⟨mistyped, []⟩ ∧
      (mistypedMachine.store.items 1).length = 1 ∧ ((runMan 0 mistypedMachine).2.store.items 1).length = 0 := by
    decide +kernel
  have hidden : ∀ r ∈ mistypedMachine.store.reachable [.seq 0],
      r < 2 ∧ ¬ mistypedMachine.Exposes (mistypedMachine.forest.node 0) mistyped r := by
    intro r member
    obtain rfl := List.mem_singleton.mp member
    refine ⟨by decide, ?_⟩
    rintro ⟨name, operation, v, named, _, bound, link, _⟩
    cases named
    cases bound
    cases link
  exact ⟨failed, hidden, (failed_change_keeps_scopes_and_containers.2 failed.1).2 _ hidden⟩

end TagScript.Script
