import TagScript.Proofs.Environment
import TagScript.Proofs.Expr.Confined
import TagScript.Proofs.Script.Conduct
import TagScript.Proofs.Script.Lockstep

/-!
# What a call can change

All that a call shares with its caller are the containers that can be reached from the arguments. If
its body binds nothing globally, it binds no variable of its caller and changes no other containers.
-/

namespace TagScript.Script

open Markup List Environment Assoc Store
open Store (Region)

variable {P K : Ref → Prop} {old s : Store} {others : List ScopeId} {v : Value}

lemma writable_region (free : ∀ r, P r → ¬ K r) : Writable (Region P K old) fun _ v => v.Within P :=
  fun region inside link within => region.write (free _ (inside _ link)) within

/-! ## Frames -/

/-- The scopes that are new since some environment hold only values of a region. The older scopes,
and the containers outside the region, are as they were. -/
structure Apart (P : Ref → Prop) (old : Store) (base : Environment) (M : Memory) : Prop where
  region : Region P (fun r => ¬ P r) old M.store
  globalId : M.env.globalId = base.globalId
  grows : base.scopes.size ≤ M.env.scopes.size
  kept : ∀ id, id < base.scopes.size → M.env.scope id = base.scope id
  bound : ∀ id, base.scopes.size ≤ id → ∀ entry ∈ M.env.scope id, entry.2.Within P

/-- All scopes in use are new. -/
structure Inside (P : Ref → Prop) (old : Store) (base : Environment) (w : List ScopeId) (M : Memory) : Prop
    extends Apart P old base M where
  stack : M.env.stack = w
  nonempty : w ≠ []
  own : ∀ id ∈ w, base.scopes.size ≤ id

variable {base : Environment}

lemma Apart.newScope {M : Memory} (apart : Apart P old base M) {bindings : Bindings}
    (within : ∀ entry ∈ bindings, entry.2.Within P)
    (own : ∀ id ∈ others, base.scopes.size ≤ id) :
    Inside P old base (M.env.scopes.size :: others)
      { M with env := { (M.env.newScope bindings).2 with stack := M.env.scopes.size :: others } } where
  region := apart.region
  globalId := apart.globalId
  stack := rfl
  nonempty := cons_ne_nil _ _
  own := forall_mem_cons.mpr ⟨apart.grows, own⟩
  grows := le_trans apart.grows (by simp [Environment.newScope])
  kept id older := by
    have other : id ≠ M.env.scopes.size := ne_of_lt (lt_of_lt_of_le older apart.grows)
    have found := M.env.scope_newScope bindings id
    rw [if_neg other, apart.kept id older] at found
    exact found
  bound id later entry member := by
    have found := M.env.scope_newScope bindings id
    change entry ∈ (M.env.newScope bindings).2.scope id at member
    rw [found] at member
    split at member
    · exact within entry member
    · exact apart.bound id later entry member

lemma Apart.enter {M : Memory} (apart : Apart P old base M) (closure : Bindings) :
    Inside P old base [M.env.scopes.size] (M.enter closure) := by
  obtain ⟨region, within⟩ := apart.region.copyEntries closure
  exact { apart.newScope within (forall_mem_nil _) with region := region }

namespace Inside

variable {base : Environment} {stack : List ScopeId} {M : Memory}

lemma within (inside : Inside P old base stack M) : M.env.Within P := by
  intro name v found
  obtain ⟨id, mem, bound⟩ := exists_of_get? found
  exact inside.bound id (inside.own id (inside.stack ▸ mem)) _ bound

lemma current (inside : Inside P old base stack M) : base.scopes.size ≤ M.env.currentId := by
  cases found : stack with
  | nil => exact absurd found inside.nonempty
  | cons id rest =>
    rw [currentId_of_cons (inside.stack.trans found)]
    exact inside.own id (found ▸ mem_cons_self)

lemma restore {s' : Store} (inside : Inside P old base stack M) (region : Region P (fun r => ¬ P r) old s') :
    Inside P old base stack { M with store := s' } :=
  { inside with region := region }

lemma bindIn (inside : Inside P old base stack M) {owner : ScopeId} (new : base.scopes.size ≤ owner)
    (name : String) (within : v.Within P) :
    Inside P old base stack { M with env := M.env.bindIn owner name v } :=
  { inside with
    grows := by simpa using inside.grows
    kept := fun id older => by
      have other : ¬(id = owner ∧ id < M.env.scopes.size) :=
        fun same => Nat.not_lt.mpr new (same.1 ▸ older)
      rw [scope_bindIn, if_neg other]
      exact inside.kept id older
    bound := fun id later entry mem => by
      rw [scope_bindIn] at mem
      split at mem
      · rcases Assoc.mem_set mem with before | rfl
        · exact inside.bound id later entry before
        · exact within
      · exact inside.bound id later entry mem }

lemma push (inside : Inside P old base stack M) : Inside P old base (M.env.scopes.size :: stack) M.push := by
  have empty : ∀ entry ∈ ([] : Bindings), entry.2.Within P := forall_mem_nil _
  have pushed := inside.newScope empty inside.own
  rw [← inside.stack] at pushed ⊢
  exact pushed

lemma leave (inside : Inside P old base others M) (nonempty : stack ≠ [])
    (own : ∀ id ∈ stack, base.scopes.size ≤ id) : Inside P old base stack (M.leave stack) :=
  { inside with
    stack := rfl
    nonempty := nonempty
    own := own }

lemma pop {id : ScopeId} (inside : Inside P old base (id :: stack) M) (nonempty : stack ≠ []) :
    Inside P old base stack M.pop := by
  have popped : M.pop = M.leave stack := by
    cases stack with
    | nil => exact absurd rfl nonempty
    | cons below rest => simp [Memory.pop, Memory.leave, Environment.pop?, inside.stack]
  rw [popped]
  exact inside.leave nonempty fun id mem => inside.own id (mem_cons_of_mem _ mem)

end Inside

/-! ## Runs in a frame -/

/-- The scopes in use, innermost first. Nothing but itself comes after such a stack. -/
structure Frames where
  stack : List ScopeId

instance : Preorder Frames where
  le := Eq
  le_refl _ := rfl
  le_trans _ _ _ first second := first.trans second

def Sealed (P : Ref → Prop) (old : Store) (base : Environment) (w : Frames) (M N : Memory) : Prop :=
  N = M ∧ Inside P old base w.stack M

def Held (P : Ref → Prop) (_ : Frames) (a b : Value) : Prop := a = b ∧ a.Within P

lemma Sealed.computed {f : Environment → Store → Except Fault (Value × Store)}
    (tended : ∀ env s, env.Within P → Region P (fun r => ¬ P r) old s →
      Expr.Tended (Region P (fun r => ¬ P r) old) (fun _ => True) s (fun _ => Value.Within P) (f env s)) :
    Computes (Sealed P old base) (Held P) f := by
  rintro w M _ ⟨rfl, inside⟩
  refine (Paired.self fun a found => (tended _ _ inside.within inside.region).made found).imp ?_
  rintro a _ ⟨rfl, region, _, within⟩
  exact ⟨w, le_refl w, ⟨rfl, inside.restore region⟩, rfl, within⟩

/-- The bond of a machine with itself while it runs in a frame: what is bound is of a region, and
what was there before is left alone. -/
def seclusion (P : Ref → Prop) (old : Store) (base : Environment) {g : Grounds} (secluded : ¬ g.Global) : Bond g where
  World := Frames
  order := inferInstance
  memory := Sealed P old base
  value := Held P
  closure _ c d := c = d
  scopes _ i j := i = j ∧ base.scopes.size ≤ i
  value_later _ held := held
  closure_later _ same := same
  scopes_later _ new := new
  none _ := ⟨rfl, Value.within_of_leaf rfl⟩
  error _ _ := ⟨rfl, Value.within_of_leaf rfl⟩
  typed := by
    rintro w a _ ⟨rfl, _⟩
    exact ⟨rfl, rfl⟩
  named := by
    rintro w a _ ⟨rfl, _⟩
    exact ⟨rfl, fun _ => rfl⟩
  literal := by
    rintro w _ M a _ ⟨rfl, _⟩ ⟨rfl, _⟩
    exact (Paired.same _).imp fun _ _ same => same ▸ ⟨rfl, rfl⟩
  text := by
    rintro w _ M a _ ⟨rfl, _⟩ ⟨rfl, _⟩
    rfl
  truthy := by
    rintro w _ M a _ ⟨rfl, _⟩ ⟨rfl, _⟩
    rfl
  spread := by
    rintro w _ M a _ ⟨rfl, inside⟩ ⟨rfl, within⟩
    cases found : spread? _ a with
    | none => exact .none
    | some items =>
      have held := spread_kind Region.territory.discipline inside.region within found
      exact .some (forall₂_same.mpr fun v mem => ⟨rfl, held v mem⟩)
  evaluate text := Sealed.computed fun env s within region => by
    cases text with
    | none => exact trivial
    | some text => exact Expr.tended_evaluate (Expr.upkeep Region.territory.discipline) within region text
  evaluateList text := Sealed.computed fun _ _ within region =>
    Expr.tended_evaluateList (Expr.upkeep Region.territory.discipline) within region text
  method := by
    rintro w _ M a _ xs ys method ⟨rfl, inside⟩ ⟨rfl, within⟩ args
    obtain rfl : xs = ys := forall₂_eq_eq_eq ▸ args.imp fun _ _ held => held.1
    have conducts := conducts_apply Region.territory.discipline inside.region
      (writable_region fun _ within without => without within) within method fun v mem => (forall₂_same.mp args v mem).2
    exact ⟨w, le_refl w, ⟨rfl, inside.restore conducts.kind⟩, Paired.self conducts.value⟩
  shown := by
    rintro w _ M ⟨rfl, _⟩
    exact (Paired.same _).imp fun _ _ same => same ▸ fun _ => rfl
  snapshot := by
    rintro w _ M ⟨rfl, inside⟩
    exact ⟨w, le_refl w, ⟨rfl, inside.restore (inside.region.copyEntries M.env.visible).1⟩, rfl⟩
  owner := by
    rintro w _ M name ⟨rfl, inside⟩
    cases found : M.env.owner? name with
    | none => exact .none
    | some i => exact .some ⟨rfl, inside.own i (inside.stack ▸ mem_of_owner? found)⟩
  current := by
    rintro w _ M ⟨rfl, inside⟩
    exact ⟨rfl, inside.current⟩
  bound := by
    rintro w _ M i _ name ⟨rfl, inside⟩ ⟨rfl, new⟩
    cases found : get? name (M.env.scope i) with
    | none => exact .none
    | some v => exact .some ⟨rfl, inside.bound i new _ (mem_of_get? found)⟩
  bindIn := by
    rintro w _ M i _ a _ name ⟨rfl, inside⟩ ⟨rfl, new⟩ ⟨rfl, within⟩
    exact ⟨rfl, inside.bindIn new name within⟩
  bindGlobal _ global := absurd global secluded
  define := by
    rintro w _ M c _ name params body ⟨rfl, inside⟩ rfl
    exact ⟨rfl, { inside with }⟩
  function := by
    rintro w _ M name ⟨rfl, _⟩ _
    cases M.function? name with
    | none => exact .none
    | some f => exact .some ⟨rfl, rfl, rfl⟩
  scope := by
    rintro w _ M ⟨rfl, inside⟩
    refine ⟨⟨M.env.scopes.size :: w.stack⟩, ⟨rfl, inside.push⟩, ?_⟩
    rintro u _ M' rfl ⟨rfl, ended⟩
    exact ⟨w, le_refl w, fun _ _ held => held, rfl, ended.pop inside.nonempty⟩
  frame := by
    rintro w _ M c _ ⟨rfl, inside⟩ rfl
    refine ⟨⟨[M.env.scopes.size]⟩, ⟨rfl, inside.enter c⟩, fun _ _ held => held, ?_⟩
    rintro u _ M' rfl ⟨rfl, ended⟩
    refine ⟨w, le_refl w, fun _ _ held => held, rfl, ?_⟩
    rw [inside.stack]
    exact ended.leave inside.nonempty inside.own

/-! ## Calls -/

/-- An element of the core that calls only functions of some set and binds no variable globally. -/
structure LocalElement (table : Assoc Handler) (names : String → Prop) (node : Node) : Prop
    extends CoreElement table names node where
  stores : get? node.tag table = some (.builtin .store) → setting node "local" "true" ≠ "false"

variable {m : Machine}

lemma not_global {names : String → Prop} {inner : NodeId → Prop} :
    ¬ (m.grounds names inner (LocalElement m.session.handlers names)).Global := by
  rintro ⟨node, ⟨other, tag, attrs, fine⟩, element, handler, global⟩
  have kept := (fine (isElement_of_tag tag element)).stores
  rw [tag] at kept
  refine kept handler ?_
  unfold setting given? Node.attr? at global ⊢
  rw [attrs]
  exact global

/-- The containers that a call lends to the function: those that can be reached from its arguments.
-/
def lent (m : Machine) (id : NodeId) : List Ref :=
  match Expr.evaluateList m.session.env m.store ((m.forest.node id).attr? "args") with
  | .error _ => []
  | .ok (value, store) => store.reachable ((spread? store value).getD [])

lemma region_reachable (s : Store) (vs : List Value) :
    Region (fun r => r ∈ s.reachable vs ∨ s.cells.size ≤ r) (fun r => ¬(r ∈ s.reachable vs ∨ s.cells.size ≤ r)) s s where
  fresh _ beyond := .inr beyond
  closed r inside v mem q link := by
    have linked : q ∈ (s.cell r).refs := mem_filterMap.mpr ⟨v, mem, link⟩
    rcases inside with reached | beyond
    · exact .inl (reachable_closed reached linked)
    · rw [refs_of_size_le beyond] at linked
      cases linked
  kept r outside := ⟨Nat.lt_of_not_le fun beyond => outside (.inr beyond), rfl⟩
  marks := le_refl _

section

variable {m : Machine} {names : String → Prop} {inner : NodeId → Prop}

lemma Apart.applyFunction (run : RunDocument) (depth : Nat)
    (harbours : m.Harbours names inner (LocalElement m.session.handlers names)) {f : Function}
    (body : inner f.body ∧ f.body < m.forest.nodes.size) (apart : Apart P old base m.memory) {args : List Value}
    (within : ∀ v ∈ args, v.Within P) :
    Apart P old base (applyFunction (visitChildren (visitNode run depth)) f args m).2.memory ∧
      (applyFunction (visitChildren (visitNode run depth)) f args m).2.session.env.stack = m.session.env.stack := by
  let g := m.grounds names inner (LocalElement m.session.handlers names)
  let b : Bond g := seclusion P old base not_global
  have core : g.Core := Machine.grounds_core fun _ element => element.toCoreElement
  have inside : b.States (⟨[m.session.env.scopes.size]⟩, m.forest.nodes.size) (m.framed f.closure)
      (m.framed f.closure) :=
    { forest := rfl
      handlers := rfl
      handlers' := rfl
      limit := rfl
      limit' := rfl
      enclosed := harbours.enclosed
      fresh := fun _ beyond => .inr beyond
      size := le_refl _
      bodies := fun name known h found => (harbours.bodies name known h found).imp_left .inl
      memory := ⟨rfl, apart.enter f.closure⟩ }
  have related : Forall₂ (b.value ⟨[m.session.env.scopes.size]⟩) args args :=
    forall₂_same.mpr fun v mem => ⟨rfl, within v mem⟩
  have placed : g.Placed ((⟨[m.session.env.scopes.size]⟩, m.forest.nodes.size) : b.World × Nat) f.body :=
    ⟨.inl body.1, body.2⟩
  obtain ⟨v, _, ended, _⟩ := InStep.frameBody (InStep.walks core run depth) rfl rfl placed related _ _ inside
  rw [applyFunction_apply]
  exact ⟨{ ended.memory.2.toApart with }, rfl⟩

lemma concludeCall_memory (id : NodeId) (node : Node) (answer : NodeId × Except Signal Value) (m : Machine) :
    (concludeCall id node answer m).2.store = m.store ∧
      ((concludeCall id node answer m).2.session.env = m.session.env ∨
        ∃ var v, given? node "var" = some var ∧
          (concludeCall id node answer m).2.session.env = m.session.env.bind var v) := by
  obtain ⟨body, answer⟩ := answer
  cases answer with
  | error signal => exact ⟨rfl, .inl rfl⟩
  | ok v =>
    unfold concludeCall
    cases given : given? node "var" with
    | none => exact ⟨rfl, .inl rfl⟩
    | some var => exact ⟨rfl, .inr ⟨var, v, rfl, rfl⟩⟩

/-- What of a machine is as it was: all variables, but for one in the innermost scope, and all
containers, but for some. -/
structure Machine.Spares (m : Machine) (own : Option String) (free : Ref → Prop) (m' : Machine) : Prop where
  stack : m'.session.env.stack = m.session.env.stack
  bound : ∀ id, id < m.session.env.scopes.size → ∀ name, ¬(id = m.session.env.currentId ∧ own = some name) →
    get? name (m'.session.env.scope id) = get? name (m.session.env.scope id)
  containers : ∀ r, r < m.store.cells.size → ¬ free r → m'.store.cell r = m.store.cell r

lemma run_bind_post {α β : Type} {post : Machine → Prop} {c : Run α} {k : α → Run β}
    (first : post (c m).2) (after : ∀ a m', c m = (.ok a, m') → post (k a m').2) : post ((c >>= k) m).2 := by
  rw [run_bind]
  rcases found : c m with ⟨result, m'⟩
  rw [found] at first
  cases result with
  | error raised => exact first
  | ok a => exact after a m' found

lemma required_eq (node : Node) (name : String) :
    ∃ r, (∀ m, required node name m = (r, m)) ∧ ∀ value, r = .ok value → node.attr? name = some value := by
  unfold required
  cases node.attr? name with
  | none => exact ⟨_, fun _ => rfl, nofun⟩
  | some text =>
    simp only []
    split
    · exact ⟨_, fun _ => rfl, nofun⟩
    · exact ⟨.ok text, fun _ => rfl, fun _ same => by cases same; rfl⟩

lemma functionNamed_eq (name : String) (m : Machine) :
    functionNamed name m = ((m.memory.function? name).elim (.error ⟨.functionNotFound name, []⟩) .ok, m) := by
  unfold functionNamed Memory.function? Machine.memory
  simp only [run_get_bind]
  cases get? name m.session.functions <;> rfl

lemma arguments_apply (text : Option String) (m : Machine) :
    ∃ s, (arguments text m).2 = { m with store := s } ∧
      (∀ r, r < m.store.cells.size → r < s.cells.size ∧ s.cell r = m.store.cell r) ∧
      ∀ args m', arguments text m = (.ok args, m') → ∃ v,
        Expr.evaluateList m.session.env m.store text = .ok (v, s) ∧ spread? s v = some args := by
  unfold arguments evaluateList compute
  simp only [bind_assoc, run_get_bind]
  cases made : Expr.evaluateList m.session.env m.store text with
  | error fault => exact ⟨m.store, rfl, fun _ there => ⟨there, rfl⟩, nofun⟩
  | ok result =>
    obtain ⟨v, s⟩ := result
    simp only [settle, pure_bind, run_set_bind, run_get_bind]
    refine ⟨s, ?_, (Expr.region_of_evaluateList made).kept, ?_⟩
    · cases spread? s v <;> rfl
    · intro args m' ended
      refine ⟨v, rfl, ?_⟩
      cases found : spread? s v with
      | none =>
        rw [found] at ended
        cases ended
      | some items =>
        rw [found] at ended
        cases ended
        rfl

lemma apart_reachable (m : Machine) (s : Store) (args : List Value) :
    Apart (fun r => r ∈ s.reachable args ∨ s.cells.size ≤ r) s m.session.env
      { m with store := s : Machine }.memory where
  region := region_reachable s args
  globalId := rfl
  grows := le_refl _
  kept _ _ := rfl
  bound id beyond entry member := by
    have empty : m.session.env.scope id = [] := by simp [Environment.scope, Array.getD, Nat.not_lt.mpr beyond]
    change entry ∈ m.session.env.scope id at member
    rw [empty] at member
    cases member

lemma Apart.spares {m m' : Machine} {args : List Value}
    (kept : ∀ r, r < m.store.cells.size → r < s.cells.size ∧ s.cell r = m.store.cell r)
    (apart : Apart (fun r => r ∈ s.reachable args ∨ s.cells.size ≤ r) s m.session.env m'.memory)
    (stack : m'.session.env.stack = m.session.env.stack) (own : Option String) :
    m.Spares own (· ∈ s.reachable args) m' where
  stack := stack
  bound id there name _ := congrArg (get? name) (apart.kept id there)
  containers r there untouched := by
    have outside : ¬(r ∈ s.reachable args ∨ s.cells.size ≤ r) :=
      fun inside => inside.elim untouched (Nat.not_le.mpr (kept r there).1)
    exact (apart.region.kept r outside).2.trans (kept r there).2

lemma Machine.Spares.concludeCall {m m' : Machine} {free : Ref → Prop} {id : NodeId} {node : Node}
    (spares : m.Spares (given? node "var") free m') (current : m'.session.env.currentId = m.session.env.currentId)
    (answer : NodeId × Except Signal Value) :
    m.Spares (given? node "var") free (Script.concludeCall id node answer m').2 := by
  obtain ⟨store, same | ⟨var, v, given, bound⟩⟩ := concludeCall_memory id node answer m'
  · exact {
      stack := same ▸ spares.stack
      bound := same ▸ spares.bound
      containers := store ▸ spares.containers }
  · refine ⟨?_, ?_, store ▸ spares.containers⟩
    · rw [bound]
      exact spares.stack
    · intro scope there name other
      rw [bound, Environment.bind, scope_bindIn, ← spares.bound scope there name other]
      split
      · rename_i innermost
        have different : name ≠ var := by
          rintro rfl
          exact other ⟨innermost.1.trans current, given⟩
        exact get?_set_other different v _
      · rfl

lemma spares_runCall (run : RunDocument) (depth : Nat) {id : NodeId}
    (harbours : m.Harbours names inner (LocalElement m.session.handlers names))
    (called : ∀ name, (m.forest.node id).attr? "func" = some name → names name) :
    m.Spares (given? (m.forest.node id) "var") (· ∈ lent m id)
      (runCall (visitChildren (visitNode run depth)) id m).2 := by
  rw [runCall_apply]
  have unchanged : m.Spares (given? (m.forest.node id) "var") (· ∈ lent m id) m :=
    ⟨rfl, fun _ _ _ _ => rfl, fun _ _ _ => rfl⟩
  generalize node_eq : m.forest.node id = node at called unchanged ⊢
  obtain ⟨r, asked, named⟩ := required_eq node "func"
  refine run_bind_post (by rwa [asked]) fun name m' found => ?_
  obtain ⟨rfl, rfl⟩ := Prod.mk.inj ((asked m).symm.trans found)
  have bodies := harbours.bodies name (called name (named name rfl))
  rw [run_bind, functionNamed_eq]
  cases known : m.memory.function? name with
  | none => exact unchanged
  | some f =>
  have body := bodies f known
  obtain ⟨s, after, kept, given⟩ := arguments_apply (node.attr? "args") m
  refine run_bind_post ?_ fun args m' evaluated => ?_
  · rw [after]
    exact ⟨rfl, fun _ _ _ _ => rfl, fun r there _ => (kept r there).2⟩
  · obtain ⟨v, made, spread⟩ := given args m' evaluated
    have reached : lent m id = s.reachable args := by
      unfold lent
      rw [node_eq, made]
      simp [spread]
    obtain rfl : m' = { m with store := s } := by rw [← after, evaluated]
    rw [reached]
    have start := apart_reachable m s args
    have lends : ∀ v ∈ args, v.Within fun r => r ∈ s.reachable args ∨ s.cells.size ≤ r :=
      fun v mem r link => .inl (mem_reachable mem link)
    split
    · exact start.spares kept rfl _
    · obtain ⟨apart, stack⟩ := Apart.applyFunction run depth (m := { m with store := s })
        { harbours with } body start lends
      have spares := apart.spares kept stack (given? node "var")
      refine run_bind_post spares fun answer m' ran => ?_
      rw [ran] at spares apart stack
      refine spares.concludeCall ?_ answer
      have globalId : m'.session.env.globalId = m.session.env.globalId := apart.globalId
      rw [Environment.currentId, stack, globalId]
      rfl

lemma read_congr {s' : Store} {Q : Ref → Prop} (closed : ∀ r, Q r → ∀ v ∈ (s.cell r).values, v.Within Q)
    (same : ∀ r, Q r → s'.cell r = s.cell r) (n : Nat) (within : v.Within Q) :
    s'.read n v = s.read n v := by
  induction n generalizing v with
  | zero => cases v <;> rfl
  | succ n ih =>
    cases v with
    | seq r =>
      have items : s'.items r = s.items r := by
        unfold Store.items
        rw [same r (within r rfl)]
      rw [Store.read, Store.read, items]
      congr 1
      exact mapM_congr fun v mem => ih (closed r (within r rfl) v (Store.mem_values_of_items mem))
    | map r =>
      have entries : s'.entries r = s.entries r := by
        unfold Store.entries
        rw [same r (within r rfl)]
      rw [Store.read, Store.read, entries]
      congr 1
      refine mapM_congr fun entry mem => ?_
      rw [ih (closed r (within r rfl) _ (mem_values_of_entries mem))]
    | _ => rfl

lemma datum?_congr {s' : Store} (same : ∀ r ∈ s.reachable [v], s'.cell r = s.cell r) : s'.datum? v = s.datum? v := by
  have closed : ∀ r, r ∈ s.reachable [v] → ∀ u ∈ (s.cell r).values, u.Within (· ∈ s.reachable [v]) :=
    fun r reached u mem q link => reachable_closed reached (List.mem_filterMap.mpr ⟨u, mem, link⟩)
  have read : ∀ n, s'.read n v = s.read n v :=
    fun n => read_congr closed same n fun r link => mem_reachable List.mem_cons_self link
  unfold datum?
  cases here : s.read s.depth v with
  | ok d =>
    have there : s'.read s'.depth v = .ok d := read_depth ((read s.depth).trans here)
    rw [there]
  | error w =>
    cases there : s'.read s'.depth v with
    | error u => rfl
    | ok d =>
      rw [read_depth ((read s'.depth).symm.trans there)] at here
      cases here

/-- A call of a function whose elements, and those of all functions it calls, are of the core and
bind nothing globally leaves every scope that there was as it was, whether it returns, signals or
fails, but for the variable that the call itself names. Every container that cannot be reached from
an argument is left as it was, so a value that shares no container with the arguments still stands
for the same tree. -/
theorem call_leaves_caller_alone (run : RunDocument) (depth : Nat) {id : NodeId}
    (harbours : m.Harbours names inner (LocalElement m.session.handlers names))
    (called : ∀ name, (m.forest.node id).attr? "func" = some name → names name) :
    m.Spares (given? (m.forest.node id) "var") (· ∈ lent m id)
        (runCall (visitChildren (visitNode run depth)) id m).2 ∧
      ∀ v, (∀ r ∈ m.store.reachable [v], r < m.store.cells.size ∧ r ∉ lent m id) →
        (runCall (visitChildren (visitNode run depth)) id m).2.store.datum? v = m.store.datum? v := by
  have spares := spares_runCall run depth harbours called
  refine ⟨spares, fun v apart => ?_⟩
  exact datum?_congr fun r reached => spares.containers r (apart r reached).1 (apart r reached).2

end

/-! ## A call that is lent a sequence -/

def lendingCall : Forest where
  nodes := #[
    { (default : Node) with tag := "call", attrs := [("func", "f"), ("args", "xs"), ("var", "r")] },
    { (default : Node) with tag := "func", children := #[2] },
    { (default : Node) with tag := "man", attrs := [("name", "p"), ("operation", ".push(true)")], parent := some 1 }]

def lendingMachine : Machine :=
  let world := World.new ⟨⟨"/", "/"⟩, [], [], []⟩ ⟨[], []⟩ .input [] true
  let m := Machine.new ⟨some 3, false⟩ world none
  { m with
    forest := lendingCall
    store := ⟨#[.seq [], .seq [.bool true]], Num.firstFreshMark⟩
    functions := #[⟨"f", ["p"], 1, []⟩]
    session :=
      { m.session with
        functions := [("f", 0)]
        env := ⟨#[[("xs", .seq 0), ("ys", .seq 1)]], 0, [0]⟩ } }

/-- Calls of functions with one body, which is an element with a child. -/
lemma harbours_body {names : String → Prop} {allowed : Node → Prop} {u l : NodeId}
    (body : ∀ name, names name → ∀ f, m.memory.function? name = some f → f.body = u)
    (there : u < m.forest.nodes.size ∧ l < m.forest.nodes.size)
    (upper : (m.forest.node u).childList = [l] ∧ (m.forest.node u).parent = none ∧ allowed (m.forest.node u))
    (lower : (m.forest.node l).childList = [] ∧ (m.forest.node l).parent = some u ∧ allowed (m.forest.node l)) :
    m.Harbours names (fun x => x = u ∨ x = l) allowed where
  bodies name known f found := by
    rw [body name known f found]
    exact ⟨.inl rfl, there.1⟩
  child x inside c member := by
    rcases inside with rfl | rfl
    · rw [upper.1, mem_singleton] at member
      subst member
      exact ⟨.inr rfl, there.2⟩
    · rw [lower.1] at member
      cases member
  parent x inside q up := by
    rcases inside with rfl | rfl
    · rw [upper.2.1] at up
      cases up
    · rw [lower.2.1] at up
      cases up
      exact .inl rfl
  elements x inside _ _ := by
    rcases inside with rfl | rfl
    · exact upper.2.2
    · exact lower.2.2

lemma harbours_lendingMachine :
    lendingMachine.Harbours (· = "f") (fun x => x = 1 ∨ x = 2) (LocalElement builtinHandlers (· = "f")) := by
  refine harbours_body ?_ (by decide) ⟨rfl, rfl, ?_⟩ ⟨rfl, rfl, ?_⟩
  · rintro _ rfl f found
    cases found
    rfl
  · exact ⟨⟨by decide, nofun⟩, nofun⟩
  · exact ⟨⟨by decide, nofun⟩, nofun⟩

lemma lent_lendingMachine : lent lendingMachine 0 = [0] := by decide +kernel

theorem call_leaves_other_sequence_alone :
    lendingMachine.Harbours (· = "f") (fun x => x = 1 ∨ x = 2) (LocalElement builtinHandlers (· = "f")) ∧
      (∀ r ∈ lendingMachine.store.reachable [.seq 1], r < 2 ∧ r ∉ lent lendingMachine 0) ∧
      ∀ run depth,
        (runCall (visitChildren (visitNode run depth)) 0 lendingMachine).2.store.datum? (.seq 1) =
          lendingMachine.store.datum? (.seq 1) := by
  have apart : ∀ r ∈ lendingMachine.store.reachable [.seq 1], r < 2 ∧ r ∉ lent lendingMachine 0 := by
    rw [lent_lendingMachine]
    decide
  refine ⟨harbours_lendingMachine, apart, fun run depth => ?_⟩
  refine (call_leaves_caller_alone run depth harbours_lendingMachine (fun name given => ?_)).2 (.seq 1) apart
  cases given
  rfl

end TagScript.Script
