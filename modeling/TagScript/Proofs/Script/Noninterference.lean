import TagScript.Proofs.Script.Isolation
import TagScript.Proofs.Script.Method
import TagScript.Proofs.Value.Copy

/-!
# Calls that know nothing of their caller

Two machines that know the same functions but have other variables run the same call to the same
end: all along the way the scopes of the two frames bind twins. A frame never looks into the global
scope.
-/

namespace TagScript.Script

open Markup List Assoc Environment Environment

variable {others : List (ScopeId × ScopeId)}

/-! ## Memories with twins in them -/

/-- Which containers and which scopes of two memories go together, and the scopes that are in use,
innermost first. -/
structure Pairing where
  link : Link
  scopes : ScopeId → ScopeId → Prop
  stack : List (ScopeId × ScopeId)

instance : Preorder Pairing where
  le w v := w.link ≤ v.link ∧ (∀ i j, w.scopes i j → v.scopes i j) ∧ w.stack = v.stack
  le_refl w := ⟨le_refl w.link, fun _ _ => id, rfl⟩
  le_trans _ _ _ first second :=
    ⟨le_trans first.1 second.1, fun i j paired => second.2.1 i j (first.2.1 i j paired),
      first.2.2.trans second.2.2⟩

/-- Two functions with the same parameters and body, and with closures that are twins. -/
structure Function.Twin (w : Link) (f h : Function) : Prop where
  params : f.params = h.params
  body : f.body = h.body
  closure : Assoc.Twins w f.closure h.closure

lemma Function.Twin.later {w v : Link} {f h : Function} (twin : f.Twin w h) (later : w ≤ v) : f.Twin v h :=
  { twin with closure := twin.closure.later later }

/-- Two memories in which scopes that go together bind twins. The global scopes go with none, and
functions of some names are twins. -/
structure Aligned (names : String → Prop) (w : Pairing) (M N : Memory) : Prop where
  joins : w.link.Joins M.store N.store
  left : ∀ {i j j'}, w.scopes i j → w.scopes i j' → j = j'
  right : ∀ {i i' j}, w.scopes i j → w.scopes i' j → i = i'
  there : ∀ {i j}, w.scopes i j → i < M.env.scopes.size ∧ j < N.env.scopes.size
  bound : ∀ {i j}, w.scopes i j → Assoc.Twins w.link (M.env.scope i) (N.env.scope j)
  apart : ∀ {i j}, w.scopes i j → i ≠ M.env.globalId ∧ j ≠ N.env.globalId
  global : M.env.globalId < M.env.scopes.size
  global' : N.env.globalId < N.env.scopes.size
  known : ∀ name, names name → ∀ id, get? name M.named = some id → id < M.functions.size
  known' : ∀ name, names name → ∀ id, get? name N.named = some id → id < N.functions.size
  functions : ∀ name, names name → Option.Rel (Function.Twin w.link) (M.function? name) (N.function? name)

/-- The scopes in use go together too. -/
structure Twinned (names : String → Prop) (w : Pairing) (M N : Memory) : Prop extends Aligned names w M N where
  stack : M.env.stack = w.stack.map Prod.fst
  stack' : N.env.stack = w.stack.map Prod.snd
  nonempty : w.stack ≠ []
  paired : ∀ p ∈ w.stack, w.scopes p.1 p.2

variable {names : String → Prop} {w : Pairing} {M N : Memory}

lemma rel_imp {R S : Function → Function → Prop} (implied : ∀ f h, R f h → S f h) {x y : Option Function}
    (related : Option.Rel R x y) : Option.Rel S x y := by
  cases related with
  | none => exact .none
  | some related => exact .some (implied _ _ related)

lemma Aligned.restore (aligned : Aligned names w M N) {v : Link} {s t : Store} (later : w.link ≤ v)
    (joins : v.Joins s t) : Aligned names { w with link := v } { M with store := s } { N with store := t } :=
  { aligned with
    joins := joins
    bound := fun paired => (aligned.bound paired).later later
    functions := fun name known => rel_imp (fun _ _ twin => twin.later later) (aligned.functions name known) }

variable {c d : Bindings}

lemma Aligned.newScope (aligned : Aligned names w M N) (twins : Assoc.Twins w.link c d)
    (paired : ∀ p ∈ others, w.scopes p.1 p.2) :
    Twinned names
      { link := w.link
        scopes := fun i j => w.scopes i j ∨ (i = M.env.scopes.size ∧ j = N.env.scopes.size)
        stack := (M.env.scopes.size, N.env.scopes.size) :: others }
      { M with env := { (M.env.newScope c).2 with stack := M.env.scopes.size :: others.map Prod.fst } }
      { N with env := { (N.env.newScope d).2 with stack := N.env.scopes.size :: others.map Prod.snd } } where
  joins := aligned.joins
  left first second := by
    rcases first with first | ⟨rfl, rfl⟩
    · rcases second with second | ⟨rfl, rfl⟩
      · exact aligned.left first second
      · exact absurd (aligned.there first).1 (lt_irrefl _)
    · rcases second with second | ⟨_, rfl⟩
      · exact absurd (aligned.there second).1 (lt_irrefl _)
      · rfl
  right first second := by
    rcases first with first | ⟨rfl, rfl⟩
    · rcases second with second | ⟨rfl, rfl⟩
      · exact aligned.right first second
      · exact absurd (aligned.there first).2 (lt_irrefl _)
    · rcases second with second | ⟨rfl, _⟩
      · exact absurd (aligned.there second).2 (lt_irrefl _)
      · rfl
  there paired := by
    simp only [Environment.newScope, Array.size_push]
    rcases paired with before | ⟨rfl, rfl⟩
    · exact (aligned.there before).imp Nat.lt_succ_of_lt Nat.lt_succ_of_lt
    · exact ⟨Nat.lt_succ_self _, Nat.lt_succ_self _⟩
  bound {i j} paired := by
    change Assoc.Twins w.link ((M.env.newScope c).2.scope i) ((N.env.newScope d).2.scope j)
    rw [M.env.scope_newScope, N.env.scope_newScope]
    rcases paired with before | ⟨rfl, rfl⟩
    · obtain ⟨here, there⟩ := aligned.there before
      rw [if_neg (ne_of_lt here), if_neg (ne_of_lt there)]
      exact aligned.bound before
    · rw [if_pos rfl, if_pos rfl]
      exact twins
  apart paired := by
    rcases paired with before | ⟨rfl, rfl⟩
    · exact aligned.apart before
    · exact ⟨ne_of_gt aligned.global, ne_of_gt aligned.global'⟩
  global := by
    simp only [Environment.newScope, Array.size_push]
    exact Nat.lt_succ_of_lt aligned.global
  global' := by
    simp only [Environment.newScope, Array.size_push]
    exact Nat.lt_succ_of_lt aligned.global'
  known := aligned.known
  known' := aligned.known'
  functions := aligned.functions
  stack := rfl
  stack' := rfl
  nonempty := cons_ne_nil _ _
  paired p member := by
    rcases mem_cons.mp member with rfl | older
    · exact .inr ⟨rfl, rfl⟩
    · exact .inl (paired p older)

lemma Aligned.enter (aligned : Aligned names w M N) (twins : Assoc.Twins w.link c d) :
    ∃ v : Link, w.link ≤ v ∧ Twinned names
      { link := v
        scopes := fun i j => w.scopes i j ∨ (i = M.env.scopes.size ∧ j = N.env.scopes.size)
        stack := [(M.env.scopes.size, N.env.scopes.size)] } (M.enter c) (N.enter d) := by
  obtain ⟨v, later, joins, copies⟩ := aligned.joins.copyEntries twins
  exact ⟨v, later, (aligned.restore later joins).newScope copies (forall_mem_nil _)⟩

namespace Twinned

variable (twinned : Twinned names w M N)
include twinned

lemma restore {v : Link} {s t : Store} (later : w.link ≤ v) (joins : v.Joins s t) :
    Twinned names { w with link := v } { M with store := s } { N with store := t } :=
  { twinned with toAligned := twinned.toAligned.restore later joins }

lemma bindIn {i j : ScopeId} (paired : w.scopes i j) (name : String) {a b : Value} (twin : a.Twin w.link b) :
    Twinned names w { M with env := M.env.bindIn i name a } { N with env := N.env.bindIn j name b } :=
  { twinned with
    there := fun other => by simpa using twinned.there other
    global := (M.env.size_bindIn i name a).symm ▸ twinned.global
    global' := (N.env.size_bindIn j name b).symm ▸ twinned.global'
    bound := fun {k l} other => by
      obtain ⟨here, there⟩ := twinned.there other
      rw [scope_bindIn, scope_bindIn]
      by_cases same : k = i
      · subst same
        obtain rfl := twinned.left other paired
        rw [if_pos ⟨rfl, here⟩, if_pos ⟨rfl, there⟩]
        exact Assoc.Related.set (twinned.bound other) name twin
      · have same' : l ≠ j := by
          rintro rfl
          exact same (twinned.right other paired)
        rw [if_neg fun both => same both.1, if_neg fun both => same' both.1]
        exact twinned.bound other }

lemma current : w.scopes M.env.currentId N.env.currentId := by
  cases found : w.stack with
  | nil => exact absurd found twinned.nonempty
  | cons p rest =>
    rw [currentId, currentId, twinned.stack, twinned.stack', found]
    exact twinned.paired p (found ▸ mem_cons_self)

lemma bindGlobal (name : String) (a b : Value) :
    Twinned names w { M with env := M.env.bindGlobal name a } { N with env := N.env.bindGlobal name b } :=
  { twinned with
    there := fun other => by simpa [Environment.bindGlobal] using twinned.there other
    global := (M.env.size_bindIn M.env.globalId name a).symm ▸ twinned.global
    global' := (N.env.size_bindIn N.env.globalId name b).symm ▸ twinned.global'
    bound := fun {k l} other => by
      obtain ⟨here, there⟩ := twinned.apart other
      rw [Environment.bindGlobal, Environment.bindGlobal, scope_bindIn, scope_bindIn,
        if_neg fun both => here both.1, if_neg fun both => there both.1]
      exact twinned.bound other }

lemma leave (nonempty : others ≠ []) (paired : ∀ p ∈ others, w.scopes p.1 p.2) :
    Twinned names { w with stack := others } (M.leave (others.map Prod.fst)) (N.leave (others.map Prod.snd)) :=
  { twinned with
    stack := rfl
    stack' := rfl
    nonempty := nonempty
    paired := paired }

lemma push : Twinned names
    { link := w.link
      scopes := fun i j => w.scopes i j ∨ (i = M.env.scopes.size ∧ j = N.env.scopes.size)
      stack := (M.env.scopes.size, N.env.scopes.size) :: w.stack } M.push N.push := by
  have pushed := twinned.toAligned.newScope .nil twinned.paired
  rw [← twinned.stack, ← twinned.stack'] at pushed
  exact pushed

lemma pop {p : ScopeId × ScopeId} {rest : List (ScopeId × ScopeId)} (top : w.stack = p :: rest)
    (nonempty : rest ≠ []) : Twinned names { w with stack := rest } M.pop N.pop := by
  have left := twinned.leave nonempty fun q mem => twinned.paired q (top ▸ mem_cons_of_mem _ mem)
  have here := twinned.stack
  have there := twinned.stack'
  rw [top] at here there
  cases rest with
  | nil => exact absurd rfl nonempty
  | cons below rest =>
    have first : M.pop = M.leave ((below :: rest).map Prod.fst) := by
      simp [Memory.pop, Memory.leave, pop?, here]
    have second : N.pop = N.leave ((below :: rest).map Prod.snd) := by
      simp [Memory.pop, Memory.leave, pop?, there]
    rw [first, second]
    exact left

/-! ## What is looked up -/

lemma owner? (name : String) : Option.Rel (fun i j => w.scopes i j) (M.env.owner? name) (N.env.owner? name) := by
  have same : ∀ p ∈ w.stack, has name (M.env.scope p.1) = has name (N.env.scope p.2) := by
    intro p mem
    have related := Assoc.Related.get? (twinned.bound (twinned.paired p mem)) name
    unfold Assoc.has
    generalize get? name (M.env.scope p.1) = x at related
    generalize get? name (N.env.scope p.2) = y at related
    cases related <;> rfl
  have paired := twinned.paired
  rw [Environment.owner?, Environment.owner?, twinned.stack, twinned.stack']
  generalize w.stack = pairs at same paired ⊢
  induction pairs with
  | nil => exact .none
  | cons p rest ih =>
    rw [map_cons, map_cons, find?_cons, find?_cons, same p mem_cons_self]
    split
    · exact .some (paired p mem_cons_self)
    · exact ih (fun q mem => same q (mem_cons_of_mem _ mem)) fun q mem => paired q (mem_cons_of_mem _ mem)

lemma env : M.env.Twin w.link N.env := by
  intro name
  have owners := twinned.owner? name
  unfold Environment.get?
  generalize M.env.owner? name = x at owners
  generalize N.env.owner? name = y at owners
  cases owners with
  | none => exact .none
  | some paired => exact Assoc.Related.get? (twinned.bound paired) name

lemma visible : Assoc.Twins w.link M.env.visible N.env.visible := by
  have merged : ∀ (ps : List (ScopeId × ScopeId)) {xs ys : Bindings}, (∀ p ∈ ps, w.scopes p.1 p.2) →
      Assoc.Twins w.link xs ys →
      Assoc.Twins w.link ((ps.map Prod.fst).foldl (fun merged id => Assoc.merge merged (M.env.scope id)) xs)
        ((ps.map Prod.snd).foldl (fun merged id => Assoc.merge merged (N.env.scope id)) ys) := by
    intro ps
    induction ps with
    | nil => exact fun _ twins => twins
    | cons p rest ih =>
      intro xs ys paired twins
      refine ih (fun q mem => paired q (mem_cons_of_mem _ mem)) (Assoc.Related.merge twins ?_)
      exact twinned.bound (paired p mem_cons_self)
  rw [Environment.visible, Environment.visible, twinned.stack, twinned.stack', ← map_reverse, ← map_reverse]
  exact merged _ (fun p mem => twinned.paired p (mem_reverse.mp mem)) .nil

end Twinned

/-! ## Steps -/

abbrev Pairing.Twins (w : Pairing) (a b : Value) : Prop := a.Twin w.link b

namespace Twinned

lemma computed {f : Environment → Store → Except Fault (Value × Store)}
    (paired : ∀ {v : Link} {s t env env'}, v.Joins s t → env.Twin v env' →
      Paired (Linked v Value.Twin) (f env s) (f env' t)) :
    Computes (Twinned names) Pairing.Twins f := by
  intro w M N twinned
  refine (paired twinned.joins twinned.env).imp ?_
  rintro a b ⟨v, later, joins, twin⟩
  exact ⟨{ w with link := v }, ⟨later, fun _ _ => id, rfl⟩, twinned.restore later joins, twin⟩

lemma shown (twinned : Twinned names w M N) :
    Paired (fun d e => ∀ template, Template.render template (.map d) = Template.render template (.map e)) M.data N.data := by
  have each : ∀ x y : String × Value, (x.1 = y.1 ∧ x.2.Twin w.link y.2) →
      Paired (fun d e : String × Datum => d.1 = e.1 ∧ d.2.bare = e.2.bare)
        (do return (x.1, ← M.store.wire x.2)) (do return (y.1, ← N.store.wire y.2)) := by
    rintro x y ⟨key, twin⟩
    exact (twinned.joins.wire_twin twin).bind fun d e same => .ok ⟨key, same⟩
  refine (Kindred.mapM twinned.visible each).imp fun d e same template => ?_
  have bare : (Datum.map d).bare = (Datum.map e).bare := by
    rw [Datum.bare, Datum.bare, Datum.bareEntries_eq, Datum.bareEntries_eq]
    congr 1
    induction same with
    | nil => rfl
    | cons first _ ih => rw [map_cons, map_cons, ih, first.1, first.2]
  rw [← Template.render_bare, bare, Template.render_bare]

lemma define (twinned : Twinned names w M N) (name : String) (params : List String) (body : NodeId)
    (twins : Assoc.Twins w.link c d) :
    Twinned names w (M.define name ⟨name, params, body, c⟩) (N.define name ⟨name, params, body, d⟩) := by
  have found : ∀ (M : Memory) (f : Function) (other : String),
      (∀ id, get? other M.named = some id → id < M.functions.size) →
      (M.define name f).function? other = if other = name then some f else M.function? other := by
    intro M f other known
    unfold Memory.function? Memory.define
    split
    · rename_i same
      rw [same, get?_set_self, Option.map_some, Array.getD_eq_getD_getElem?, Array.getElem?_push_size, Option.getD_some]
    · rename_i different
      simp only [get?_set_other different]
      cases named : get? other M.named with
      | none => rfl
      | some id =>
        have inside := known id named
        simp [Array.getElem?_push, ne_of_lt inside]
  have within : ∀ (M : Memory) (f : Function), (∀ other, names other → ∀ id, get? other M.named = some id →
      id < M.functions.size) → ∀ other, names other → ∀ id, get? other (M.define name f).named = some id →
      id < (M.define name f).functions.size := by
    intro M f known other among id named
    simp only [Memory.define, Array.size_push] at named ⊢
    by_cases same : other = name
    · subst same
      rw [get?_set_self] at named
      cases named
      exact Nat.lt_succ_self _
    · rw [get?_set_other same] at named
      exact Nat.lt_succ_of_lt (known other among id named)
  exact {
    twinned with
    known := within M _ twinned.known
    known' := within N _ twinned.known'
    functions := fun other among => by
      rw [found M _ other (twinned.known other among), found N _ other (twinned.known' other among)]
      split
      · exact .some ⟨rfl, rfl, twins⟩
      · exact twinned.functions other among }

end Twinned

def twinning (g : Grounds) : Bond g where
  World := Pairing
  order := inferInstance
  memory := Twinned g.names
  value := Pairing.Twins
  closure w := Assoc.Twins w.link
  scopes w := w.scopes
  value_later later twin := twin.later later.1
  closure_later later twins := twins.later later.1
  scopes_later later := later.2.1 _ _
  none _ := .none
  error _ := .error
  typed twin := ⟨twin.typeTag_eq, twin.qualifiedName_eq⟩
  named twin := ⟨twin.className_eq, Method.find?_eq twin⟩
  literal twinned twin := (twinned.joins.datum_twin twin).imp fun d e same => by
    rw [← d.literal?_bare, ← d.className_bare, same, e.literal?_bare, e.className_bare]
    exact ⟨rfl, rfl⟩
  text twinned twin := twinned.joins.text_eq twin
  truthy twinned twin := twinned.joins.truthy_eq twin
  spread twinned twin := Method.spread?_twin twinned.joins twin
  evaluate text := Twinned.computed fun joins bound => by
    cases text with
    | none => exact .error rfl
    | some text => exact Expr.evaluate_twin joins bound text
  evaluateList text := Twinned.computed fun joins bound => Expr.evaluateList_twin joins bound text
  method {w _ _ _ _ _ _} method twinned twin args := by
    obtain ⟨v, after, joins, outcome⟩ := Method.alike_apply twinned.joins twin method args
    exact ⟨{ w with link := v }, ⟨after, fun _ _ => id, rfl⟩, twinned.restore after joins, outcome⟩
  shown := Twinned.shown
  snapshot {w _ _} twinned := by
    obtain ⟨v, later, joins, twins⟩ := twinned.joins.copyEntries twinned.visible
    exact ⟨{ w with link := v }, ⟨later, fun _ _ => id, rfl⟩, twinned.restore later joins, twins⟩
  owner name twinned := twinned.owner? name
  current twinned := twinned.current
  bound name twinned paired := Assoc.Related.get? (twinned.bound paired) name
  bindIn name twinned paired twin := twinned.bindIn paired name twin
  bindGlobal name _ twinned _ := twinned.bindGlobal name _ _
  define name params body twinned twins := twinned.define name params body twins
  function {_ _ _ name} twinned known :=
    rel_imp (fun _ _ twin => ⟨twin.params, twin.body, twin.closure⟩) (twinned.functions name known)
  scope {w M N} twinned := by
    refine ⟨_, twinned.push, ?_⟩
    intro u M' N' later ended
    refine ⟨{ u with stack := w.stack }, ⟨later.1, fun i j paired => later.2.1 i j (.inl paired), rfl⟩,
      fun _ _ twin => twin, ended.pop later.2.2.symm twinned.nonempty⟩
  frame {w M N c d} twinned twins := by
    obtain ⟨v, later, entered⟩ := twinned.toAligned.enter twins
    refine ⟨_, entered, fun _ _ twin => twin.later later, ?_⟩
    intro u M' N' after ended
    refine ⟨{ u with stack := w.stack },
      ⟨le_trans later after.1, fun i j paired => after.2.1 i j (.inl paired), rfl⟩, fun _ _ twin => twin, ?_⟩
    rw [twinned.stack, twinned.stack']
    exact ended.leave twinned.nonempty fun p mem => after.2.1 _ _ (.inl (twinned.paired p mem))

/-! ## Calls -/

/-- Two machines with the same nodes, handlers and limit of loops, on which the functions of some
names are twins. Their variables may be any. -/
structure Machine.Peers (names : String → Prop) (w : Link) (m n : Machine) : Prop where
  forest : n.forest = m.forest
  handlers : n.session.handlers = m.session.handlers
  limit : n.settings.loopLimit = m.settings.loopLimit
  aligned : Aligned names ⟨w, fun _ _ => False, []⟩ m.memory n.memory

lemma Machine.Peers.arguments {w : Link} {m n m' n' : Machine} {text : Option String} {xs ys : List Value}
    (peers : m.Peers names w n) (first : arguments text m = (.ok xs, m')) (second : arguments text n = (.ok ys, n')) :
    m'.Peers names w n' := by
  obtain ⟨s, after, kept, given⟩ := arguments_apply text m
  obtain ⟨t, after', kept', given'⟩ := arguments_apply text n
  obtain ⟨v, made, _⟩ := given xs m' first
  obtain ⟨v', made', _⟩ := given' ys n' second
  obtain rfl : m' = { m with store := s } := by rw [← after, first]
  obtain rfl : n' = { n with store := t } := by rw [← after', second]
  have joins := peers.aligned.joins.grow kept (Expr.region_of_evaluateList made).marks kept'
    (Expr.region_of_evaluateList made').marks
  exact { peers with aligned := peers.aligned.restore (le_refl w) joins }

/-- Two answers of one body: the same signal, or values that are twins. -/
inductive SameAnswer (w : Link) : NodeId × Except Signal Value → NodeId × Except Signal Value → Prop where
  | signal {body : NodeId} (signal : Signal) : SameAnswer w (body, .error signal) (body, .error signal)
  | value {body : NodeId} {a b : Value} (twin : a.Twin w b) : SameAnswer w (body, .ok a) (body, .ok b)

section

variable {inner : NodeId → Prop} {w : Link} {m n : Machine} {f h : Function} {xs ys : List Value}

lemma Machine.Peers.applyFunction (run : RunDocument) (depth : Nat) (peers : m.Peers names w n)
    (harbours : m.Harbours names inner (CoreElement m.session.handlers names)) (functions : f.Twin w h)
    (body : inner f.body ∧ f.body < m.forest.nodes.size) (args : Forall₂ (Value.Twin w) xs ys) :
    ∃ v : Link, v.Joins (applyFunction (visitChildren (visitNode run depth)) f xs m).2.store
        (applyFunction (visitChildren (visitNode run depth)) h ys n).2.store ∧
      (applyFunction (visitChildren (visitNode run depth)) h ys n).2.forest =
        (applyFunction (visitChildren (visitNode run depth)) f xs m).2.forest ∧
      Agrees (SameAnswer v) (applyFunction (visitChildren (visitNode run depth)) f xs m).1
        (applyFunction (visitChildren (visitNode run depth)) h ys n).1 := by
  let g := m.grounds names inner (CoreElement m.session.handlers names)
  have core : g.Core := Machine.grounds_core fun _ element => element
  obtain ⟨v, later, entered⟩ := peers.aligned.enter functions.closure
  have inside : (twinning g).States (_, m.forest.nodes.size) (m.framed f.closure) (n.framed h.closure) :=
    { forest := peers.forest
      handlers := rfl
      handlers' := peers.handlers
      limit := rfl
      limit' := peers.limit
      enclosed := harbours.enclosed
      fresh := fun _ beyond => .inr beyond
      size := le_refl _
      bodies := fun name known h found => (harbours.bodies name known h found).imp_left .inl
      memory := entered }
  obtain ⟨u, _, ended, agrees⟩ := InStep.frameBody (InStep.walks core run depth) functions.params functions.body
    ⟨.inl body.1, body.2⟩ (args.imp fun _ _ twin => twin.later later) _ _ inside
  rw [applyFunction_apply, applyFunction_apply]
  refine ⟨u.1.link, ended.memory.joins, ended.forest, agrees.imp fun a c answers => ?_⟩
  cases answers with
  | signal signal => exact .signal signal
  | value _ twin => exact .value twin

/-- Two calls came to the same end: the same signal or none, or the same fault. The nodes are the
same, and what is bound to the variable that the call names are twins, which stand for the same
tree. -/
structure SameEnd (node : Node) (x y : Except Raised (Option Signal) × Machine) : Prop where
  outcome : Agrees (· = ·) x.1 y.1
  forest : y.2.forest = x.2.forest
  value : x.1 = .ok none → ∀ var, given? node "var" = some var → ∃ (v : Link) (a b : Value),
    v.Joins x.2.store y.2.store ∧ a.Twin v b ∧
      (x.2.store.datum? a).map Datum.bare = (y.2.store.datum? b).map Datum.bare ∧
      (∃ env : Environment, x.2.session.env = env.bind var a) ∧
      ∃ env : Environment, y.2.session.env = env.bind var b

lemma SameEnd.error {node : Node} {raised other : Raised} (same : raised.fault = other.fault)
    (forest : n.forest = m.forest) : SameEnd node (.error raised, m) (.error other, n) :=
  ⟨.error same, forest, nofun⟩

lemma SameEnd.concludeCall (id : NodeId) (node : Node) {a c : NodeId × Except Signal Value} (forest : n.forest = m.forest)
    (joins : w.Joins m.store n.store) (same : SameAnswer w a c) :
    SameEnd node (concludeCall id node a m) (concludeCall id node c n) := by
  cases same with
  | signal signal => exact ⟨.ok rfl, forest, nofun⟩
  | value twin =>
    unfold Script.concludeCall
    simp only []
    cases given : given? node "var" with
    | none =>
      refine ⟨.ok rfl, ?_, fun _ var named => by rw [given] at named; cases named⟩
      show n.forest.replaceWith id _ = m.forest.replaceWith id _
      rw [forest]
    | some name =>
      refine ⟨.ok rfl, ?_, fun _ var named => ?_⟩
      · show n.forest.remove id = m.forest.remove id
        rw [forest]
      · rw [given] at named
        cases named
        exact ⟨w, _, _, joins, twin, joins.datum?_twin twin, ⟨_, rfl⟩, _, rfl⟩

lemma SameEnd.bind {α : Type} {node : Node} {c d : Run α} {k l : α → Run (Option Signal)} {r : Except Raised α}
    {m' n' : Machine} (first : c m = (r, m')) (second : d n = (r, n')) (forest : n'.forest = m'.forest)
    (after : ∀ a, r = .ok a → SameEnd node (k a m') (l a n')) : SameEnd node ((c >>= k) m) ((d >>= l) n) := by
  rw [run_bind, run_bind, first, second]
  cases r with
  | error raised => exact .error rfl forest
  | ok a => exact after a rfl

lemma SameEnd.concluded (run : RunDocument) (depth : Nat) (id : NodeId) (node : Node) (peers : m.Peers names w n)
    (harbours : m.Harbours names inner (CoreElement m.session.handlers names)) (functions : f.Twin w h)
    (body : inner f.body ∧ f.body < m.forest.nodes.size) (args : Forall₂ (Value.Twin w) xs ys) :
    SameEnd node
      ((applyFunction (visitChildren (visitNode run depth)) f xs >>= Script.concludeCall id node) m)
      ((applyFunction (visitChildren (visitNode run depth)) h ys >>= Script.concludeCall id node) n) := by
  obtain ⟨v, joins, forest, agrees⟩ := peers.applyFunction run depth harbours functions body args
  rw [run_bind, run_bind]
  generalize applyFunction _ f xs m = x at joins forest agrees
  generalize applyFunction _ h ys n = y at joins forest agrees
  obtain ⟨result, m'⟩ := x
  obtain ⟨other, n'⟩ := y
  cases agrees with
  | error same => exact .error same forest
  | ok answers => exact .concludeCall id node forest joins answers

/-- A call of a function whose elements, and those of all functions it calls, are of the core comes
to the same end on any two machines that have the same nodes, know the same functions and go round
loops equally often, if its arguments come to the same numbers, texts or truth values: it fails with
the same fault, or it gives the same signal, or its value is the same and the same nodes stand in
its place. The variables of the two callers, and the global ones, may be any. -/
theorem call_independent_of_caller (run : RunDocument) (depth : Nat) {id : NodeId} (peers : m.Peers names w n)
    (harbours : m.Harbours names inner (CoreElement m.session.handlers names))
    (called : ∀ name, (m.forest.node id).attr? "func" = some name → names name)
    (here : (arguments ((m.forest.node id).attr? "args") m).1 = .ok xs)
    (there : (arguments ((m.forest.node id).attr? "args") n).1 = .ok ys)
    (same : List.Forall₂ (Value.SameLeaf w) xs ys) :
    SameEnd (m.forest.node id) (runCall (visitChildren (visitNode run depth)) id m)
      (runCall (visitChildren (visitNode run depth)) id n) := by
  rw [runCall_apply, runCall_apply, peers.forest]
  generalize m.forest.node id = node at called here there
  obtain ⟨r, asked, named⟩ := required_eq node "func"
  refine SameEnd.bind (asked m) (asked n) peers.forest fun name found => ?_
  have known := called name (named name found)
  have related := peers.aligned.functions name known
  have bodies := harbours.bodies name known
  rw [run_bind, run_bind, functionNamed_eq, functionNamed_eq]
  generalize m.memory.function? name = x at related bodies
  generalize n.memory.function? name = y at related
  cases related with
  | none => exact .error rfl peers.forest
  | @some f h twin =>
    have given : arguments (node.attr? "args") m = (.ok xs, (arguments (node.attr? "args") m).2) := Prod.ext here rfl
    have given' : arguments (node.attr? "args") n = (.ok ys, (arguments (node.attr? "args") n).2) := Prod.ext there rfl
    have still := peers.arguments given given'
    obtain ⟨s, after, _⟩ := arguments_apply (node.attr? "args") m
    simp only [Option.elim_some]
    rw [run_bind, run_bind, given, given']
    rw [after] at still ⊢
    have args := same.imp fun _ _ leaf => leaf.twin
    simp only []
    rw [← twin.params, ← args.length_eq]
    split
    · exact .error rfl still.forest
    · exact .concluded run depth id node still { harbours with } twin (bodies f rfl) args

end

/-! ## One call on two machines -/

def capturingCall : Forest where
  nodes := #[
    { (default : Node) with tag := "call", attrs := [("func", "f"), ("args", "u")] },
    { (default : Node) with tag := "func", children := #[2] },
    { (default : Node) with tag := "output", attrs := [("expression", "k + p")], parent := some 1 }]

def capturingMachine (env : Environment) : Machine :=
  { lendingMachine with
    forest := capturingCall
    functions := #[⟨"f", ["p"], 1, [("k", .str "a")]⟩]
    session := { lendingMachine.session with env := env } }

def textCaller : Machine := capturingMachine ⟨#[[("u", .bool true), ("k", .str "b")]], 0, [0]⟩

/-- A caller whose variable of the captured name is a sequence, and which calls from an inner scope.
-/
def nestedCaller : Machine := capturingMachine ⟨#[[("k", .seq 0)], [("u", .bool true)]], 0, [1, 0]⟩

def Link.bare : Link := ⟨fun _ _ => False, fun a b => a = Num.constantMark ∧ b = Num.constantMark⟩

lemma peers_callers : textCaller.Peers (· = "f") Link.bare nestedCaller where
  forest := rfl
  handlers := rfl
  limit := rfl
  aligned := {
    joins := {
      left := fun linked => linked.elim
      right := fun linked => linked.elim
      there := fun linked => linked.elim
      cells := fun linked => linked.elim
      marks_left := fun first second => first.2.trans second.2.symm
      marks_right := fun first second => first.1.trans second.1.symm
      marks_there := by
        rintro a b ⟨rfl, rfl⟩
        exact ⟨by decide, by decide⟩
      constant := ⟨rfl, rfl⟩ }
    left := fun paired => paired.elim
    right := fun paired => paired.elim
    there := fun paired => paired.elim
    bound := fun paired => paired.elim
    apart := fun paired => paired.elim
    global := by decide
    global' := by decide
    known := by
      rintro name rfl id found
      cases found
      decide
    known' := by
      rintro name rfl id found
      cases found
      decide
    functions := by
      rintro name rfl
      exact .some ⟨rfl, rfl, .cons ⟨rfl, .str "a"⟩ .nil⟩ }

lemma harbours_textCaller :
    textCaller.Harbours (· = "f") (fun x => x = 1 ∨ x = 2) (CoreElement textCaller.session.handlers (· = "f")) := by
  refine harbours_body ?_ (by decide) ⟨rfl, rfl, ?_⟩ ⟨rfl, rfl, ?_⟩
  · rintro _ rfl f found
    cases found
    rfl
  · exact ⟨by decide, nofun⟩
  · exact ⟨by decide, nofun⟩

theorem call_same_for_two_callers :
    textCaller.Peers (· = "f") Link.bare nestedCaller ∧
      (textCaller.session.env.get? "k").map Value.typeTag = some "string" ∧
      (nestedCaller.session.env.get? "k").map Value.typeTag = some "sequence" ∧
      (arguments (some "u") textCaller).1 = .ok [.bool true] ∧
      (arguments (some "u") nestedCaller).1 = .ok [.bool true] ∧
      ∀ run depth,
        SameEnd (textCaller.forest.node 0) (runCall (visitChildren (visitNode run depth)) 0 textCaller)
          (runCall (visitChildren (visitNode run depth)) 0 nestedCaller) := by
  have here : (arguments (some "u") textCaller).1 = .ok [.bool true] := by cbv
  have there : (arguments (some "u") nestedCaller).1 = .ok [.bool true] := by cbv
  refine ⟨peers_callers, by decide, by decide, here, there, fun run depth => ?_⟩
  refine call_independent_of_caller run depth peers_callers harbours_textCaller (fun name given => ?_) here there
    (.cons (.bool true) .nil)
  cases given
  rfl

end TagScript.Script
