import TagScript.Proofs.Expr.Grouped
import TagScript.Proofs.Script.Noninterference
import TagScript.Proofs.Script.Watch

/-!
# Calls of what a module defines

A call of a module's function by its longer name applies the very function that a call in the
module's own session applies. What its body calls, though, it calls by the names that stand in it,
and these are looked up where the call is made.
-/

namespace TagScript.Script

open Markup Assoc

variable {name : String}

/-! ## Calls by name -/

/-- Applies a function that goes by a name, if it takes as many arguments. -/
def applyCounted (walk : Walk) (name : String) (f : Function) (args : List Value) : Run (NodeId × Except Signal Value) := do
  if args.length ≠ f.params.length then raise (.argumentCount name f.params.length args.length)
  applyFunction walk f args

/-- Applies the function of a name. -/
def callNamed (walk : Walk) (name : String) (args : List Value) : Run (NodeId × Except Signal Value) := do
  applyCounted walk name (← functionNamed name) args

lemma callNamed_apply (walk : Walk) {m : Machine} {f : Function}
    (known : m.memory.function? name = some f) (args : List Value) :
    callNamed walk name args m = applyCounted walk name f args m := by
  rw [callNamed, run_bind, functionNamed_eq, known]
  rfl

lemma runCall_callNamed (walk : Walk) {id : NodeId} {m m' : Machine} {f : Function} {args : List Value}
    (named : required (m.forest.node id) "func" m = (.ok name, m)) (known : m.memory.function? name = some f)
    (given : arguments ((m.forest.node id).attr? "args") m = (.ok args, m')) :
    runCall walk id m = (callNamed walk name args >>= concludeCall id (m.forest.node id)) m' := by
  obtain ⟨s, after, _⟩ := arguments_apply ((m.forest.node id).attr? "args") m
  have here : m' = { m with store := s } := by rw [← after, given]
  have known' : m'.memory.function? name = some f := by rw [here]; exact known
  rw [runCall_apply, run_bind, named]
  simp only []
  rw [run_bind, functionNamed_eq, known]
  simp only [Option.elim_some]
  rw [run_bind, given, run_bind, callNamed_apply walk known', applyCounted]
  simp only []
  split
  · rfl
  · rw [run_bind]

/-! ## The import -/

lemma session_of_executeModule {run : RunDocument} {key src : String} {m after : Machine} {child : Session}
    (executed : executeModule run key src m = (.ok child, after)) : after.session = m.session := by
  unfold executeModule at executed
  rw [run_get_bind] at executed
  split at executed
  · cases executed
  obtain ⟨⟨text, location⟩, fetched, reads, executed⟩ := ok_of_bind executed
  obtain ⟨⟨error, ended⟩, m', ran, executed⟩ := ok_of_bind executed
  have session := (fetch_keeps src m).1
  rw [reads] at session
  rw [inSession_apply] at ran
  simp only [] at executed
  split at ran
  · cases ran
    split at executed
    · cases executed
    · cases executed
      exact session
  · cases ran

lemma get?_loaned {functions : Assoc FunctionId} (nodup : (Assoc.names functions).Nodup)
    {f : FunctionId} (known : get? name functions = some f) (space : String) (table : Assoc FunctionId) :
    get? (inNamespace space name) (loaned functions space table) = some f := by
  induction functions generalizing table with
  | nil => cases known
  | cons entry rest ih =>
    obtain ⟨first, added⟩ := entry
    obtain ⟨fresh, nodup⟩ := List.nodup_cons.mp nodup
    by_cases same : first = name
    · subst same
      obtain rfl : added = f := by simpa [get?] using known
      -- no later function has this name, so that the table keeps what is set here
      change get? _ (loaned rest space (Assoc.set _ added table)) = _
      refine loaned_induction (P := fun table => get? (inNamespace space first) table = some added)
        (get?_set_self _ _ _) fun table entry mem held => ?_
      rw [get?_set_other, held]
      intro equal
      exact fresh (List.mem_map.mpr ⟨entry, mem, (inNamespace_injective equal).symm⟩)
    · exact ih nodup (by simpa [get?, same] using known) _

lemma get?_loaned_other {other space : String} (apart : ∀ name, other ≠ inNamespace space name)
    (functions table : Assoc FunctionId) :
    get? other (loaned functions space table) = get? other table := by
  refine loaned_induction (P := fun changed => get? other changed = get? other table) rfl ?_
  intro changed entry _ held
  rw [get?_set_other (apart entry.1) _ _, held]

def Machine.supplied (m : Machine) (space : String) (value : Value) (functions : Assoc FunctionId) : Machine :=
  m.mapSession fun s => { s with env := s.env.bind space value, functions := loaned functions space s.functions }

lemma keeps_copyEntries (s : Store) (entries : Assoc Value) : s.Keeps (s.copyEntries entries).2 := by
  refine ⟨fun {r c} here => ?_, Nat.le_refl _⟩
  rw [Store.copyEntries, Array.getElem?_append_left (Array.getElem?_eq_some_iff.mp here).1]
  exact here

lemma bindModule_apply (space : String) (module : Module) (m : Machine) : ∃ store value, bindModule space module m =
    (.ok (), Machine.supplied { m with store := store } space value module.functions) ∧ m.store.Keeps store :=
  ⟨_, _, rfl, (keeps_copyEntries m.store module.bindings).trans (.push _ _)⟩

/-- A module as an import comes upon it: it is run to its end, in a session of its own; or it has
been kept, and there is a session with its functions. -/
inductive Machine.Finds (m : Machine) (nesting : Nat) (src : String) : Session → Machine → Prop where
  | first {child : Session} {after : Machine} (absent : get? (m.moduleKey src) m.modules = none)
    (executed : executeModule (runDocument nesting) (m.moduleKey src) src m = (.ok child, after)) :
    Finds m nesting src child after
  | again {module : Module} (kept : get? (m.moduleKey src) m.modules = some module) :
    Finds m nesting src { m.session with functions := module.functions } m

section

variable {m after : Machine} {nesting : Nat} {src space : String} {child : Session} {id : NodeId}

/-- The import of a module that is found succeeds. All containers stay as they were. -/
lemma Machine.Finds.importModule (finds : m.Finds nesting src child after) (space : String) :
    ∃ store modules value, importModule (runDocument nesting) src space m =
        (.ok (), Machine.supplied { after with store := store, modules := modules } space value child.functions) ∧
      after.store.Keeps store := by
  rw [Script.importModule, run_get_bind, moduleOf, bind_assoc, run_get_bind]
  cases finds with
  | first absent executed =>
    obtain ⟨store, value, bound, keeps⟩ := bindModule_apply space
      ⟨(after.store.copyEntries child.env.globals).1, child.functions⟩ { after with
        store := (after.store.copyEntries child.env.globals).2
        modules := Assoc.set (m.moduleKey src) ⟨(after.store.copyEntries child.env.globals).1, child.functions⟩
          after.modules }
    rw [absent]
    simp only []
    rw [run_bind, run_bind, executed]
    exact ⟨store, _, value, bound, (keeps_copyEntries after.store child.env.globals).trans keeps⟩
  | again kept =>
    obtain ⟨store, value, bound, keeps⟩ := bindModule_apply space _ m
    rw [kept]
    exact ⟨store, m.modules, value, bound, keeps⟩

/-- The functions of a module are there, no two of one name, and both sessions have a global scope.
-/
structure Machine.Hosting (m after : Machine) (child : Session) : Prop where
  session : after.session = m.session
  nodup : (Assoc.names child.functions).Nodup
  named : ∀ entry ∈ child.functions, entry.2 < after.functions.size
  global : child.env.globalId < child.env.scopes.size
  global' : m.session.env.globalId < m.session.env.scopes.size

lemma Machine.Finds.hosting (finds : m.Finds nesting src child after) (steady : m.Steady id) :
    m.Hosting after child := by
  obtain ⟨vault, sound, _⟩ := steady
  cases finds with
  | first absent executed =>
    obtain ⟨v, left⟩ := Guarded.executeModule (g := .full m) (guards_runDocument m nesting) absent src
      ⟨sound, trivial⟩
    have hosts : v.Hosts child := (left.known child (by rw [executed])).1
    have here : v.machine = after := by rw [left.machine, executed]
    exact ⟨session_of_executeModule executed, hosts.nodup, here ▸ hosts.named, hosts.global, sound.session.global⟩
  | again kept =>
    have keeps := sound.modules _ (Assoc.mem_of_get? kept)
    exact ⟨rfl, keeps.nodup, keeps.named, sound.session.global, sound.session.global⟩

/-- What a call of a module's function finds when the module has been imported: all nodes, functions
and containers are as they were at its end. A name of another kind means the function that it meant
before. -/
structure Machine.Receives (n m after : Machine) (space : String) : Prop where
  forest : n.forest = after.forest
  functions : n.functions = after.functions
  store : after.store.Keeps n.store
  handlers : n.session.handlers = m.session.handlers
  others : ∀ other, (∀ name, other ≠ inNamespace space name) →
    get? other n.session.functions = get? other m.session.functions

/-- A function may call only functions of some names, and these mean the same on two machines with
the same handlers. It and they are of core elements, and what they have captured is there. -/
structure Machine.Shares (m n : Machine) (names : String → Prop) (inner : NodeId → Prop) (f : Function) : Prop where
  handlers : n.session.handlers = m.session.handlers
  meanings : ∀ name, names name → get? name n.session.functions = get? name m.session.functions
  harbours : m.Harbours names inner (CoreElement m.session.handlers names)
  body : inner f.body ∧ f.body < m.forest.nodes.size
  whole : m.store.Whole
  closures : ∀ g, (g = f ∨ ∃ name, names name ∧ m.memory.function? name = some g) →
    ∀ entry ∈ g.closure, m.store.Holds entry.2

lemma Function.Twin.of_held {s : Store} {f : Function} (held : ∀ entry ∈ f.closure, s.Holds entry.2) :
    f.Twin s.identity f :=
  ⟨rfl, rfl, List.forall₂_same.mpr fun entry among => ⟨rfl, (held entry among).twin⟩⟩

lemma Machine.Hosting.peers {store : Store} {modules : Assoc Module} {value : Value} {names : String → Prop}
    {inner : NodeId → Prop} {f : Function} (hosting : m.Hosting after child) (keeps : after.store.Keeps store)
    (shares : Shares { after with session := child }
      (supplied { after with store := store, modules := modules } space value child.functions) names inner f) :
    Peers names after.store.identity { after with session := child }
      (supplied { after with store := store, modules := modules } space value child.functions) := by
  have known : ∀ name id, get? name child.functions = some id → id < after.functions.size :=
    fun name id found => hosting.named _ (Assoc.mem_of_get? found)
  have kept : ∀ r, r < after.store.cells.size → r < store.cells.size ∧ store.cell r = after.store.cell r := by
    intro r there
    have here := Array.getElem?_eq_getElem there
    have still := keeps.cells here
    exact ⟨(Array.getElem?_eq_some_iff.mp still).1, by rw [Store.cell_of_getElem? here, Store.cell_of_getElem? still]⟩
  refine ⟨rfl, shares.handlers, rfl, ?_⟩
  exact {
    joins := shares.whole.joins.grow (fun r there => ⟨there, rfl⟩) (Nat.le_refl _) kept keeps.marks
    left := fun paired => paired.elim
    right := fun paired => paired.elim
    there := fun paired => paired.elim
    bound := fun paired => paired.elim
    apart := fun paired => paired.elim
    global := hosting.global
    global' := by
      show (after.session.env.bind space value).globalId < (after.session.env.bind space value).scopes.size
      rw [hosting.session, Environment.bind, Environment.size_bindIn]
      exact hosting.global'
    known := fun name _ id found => known name id found
    known' := fun name among id found => known name id ((shares.meanings name among).symm.trans found)
    functions := fun name among => by
      have meaning : get? name (loaned child.functions space after.session.functions) = get? name child.functions :=
        shares.meanings name among
      change Option.Rel _ ((get? name child.functions).map fun k => after.functions.getD k default)
        ((get? name (loaned child.functions space after.session.functions)).map fun k => after.functions.getD k default)
      rw [meaning]
      cases found : get? name child.functions with
      | none => exact .none
      | some k => exact .some (.of_held (shares.closures _ (.inr ⟨name, among, by
          show (get? name child.functions).map _ = _
          rw [found]
          rfl⟩))) }

lemma applyCounted_of_length (walk : Walk) (name : String) {f : Function} {args : List Value}
    (fits : args.length = f.params.length) : applyCounted walk name f args = applyFunction walk f args := by
  rw [applyCounted, if_neg (not_not.mpr fits)]

lemma applyCounted_of_ne (walk : Walk) (name : String) {f : Function} {args : List Value}
    (misfits : args.length ≠ f.params.length) :
    applyCounted walk name f args = raise (.argumentCount name f.params.length args.length) := by
  rw [applyCounted, if_pos misfits]
  rfl

end

/-- Each function that a module defines is called by its longer name after the import as by its own
name in the module's session. In all that is asked of a reachable machine elements are run in steady
states; a call element applies the function of the name that it gives, and makes use of the answer.
In a steady state the import of a module that comes to its end, or has been kept, succeeds, leaves
all nodes, functions and containers as they were, and under the longer name stands the same
function. A wrong number of arguments is a fault in both calls, which says by which name it was
called. Otherwise the two calls come to the same end, with the same value and the same nodes in its
place or the same fault, if the names in the body mean the same in both sessions, as they do if
there are none. They are looked up in the session that calls: there, a name means what it meant
before the import, unless the import has made it. -/
theorem module_calls_agree (m : Machine) :
    (∀ (errand : Errand) alarm, Reachable m → errand.runBy (watchSteady alarm) m = errand.run m) ∧
    (∀ walk m' id name f args, required (m.forest.node id) "func" m = (.ok name, m) →
      m.memory.function? name = some f → arguments ((m.forest.node id).attr? "args") m = (.ok args, m') →
      runCall walk id m = (callNamed walk name args >>= concludeCall id (m.forest.node id)) m') ∧
    ∀ id nesting src space child after, m.Steady id → m.Finds nesting src child after →
      ∃ n, importModule (runDocument nesting) src space m = (.ok (), n) ∧ n.Receives m after space ∧
        ∀ name f, Memory.function? (Machine.memory { after with session := child }) name = some f →
          n.memory.function? (inNamespace space name) = some f ∧
          (∀ walk args, args.length ≠ f.params.length →
            callNamed walk name args { after with session := child } =
              raise (.argumentCount name f.params.length args.length) { after with session := child } ∧
            callNamed walk (inNamespace space name) args n =
              raise (.argumentCount (inNamespace space name) f.params.length args.length) n) ∧
          ∀ names inner, Machine.Shares { after with session := child } n names inner f →
            ∀ run depth call node args, args.length = f.params.length → (∀ v ∈ args, after.store.Holds v) →
              SameEnd node
                ((callNamed (visitChildren (visitNode run depth)) name args >>= concludeCall call node)
                  { after with session := child })
                ((callNamed (visitChildren (visitNode run depth)) (inNamespace space name) args >>=
                  concludeCall call node) n) := by
  refine ⟨fun errand alarm reachable => runBy_watchSteady reachable errand alarm,
    fun walk m' id name f args named known given => runCall_callNamed walk named known given, ?_⟩
  intro id nesting src space child after steady finds
  obtain ⟨store, modules, value, imported, keeps⟩ := finds.importModule space
  have hosting := finds.hosting steady
  refine ⟨_, imported, ⟨rfl, rfl, keeps, ?_, fun other apart => ?_⟩, fun name f known => ?_⟩
  · show after.session.handlers = m.session.handlers
    rw [hosting.session]
  · rw [← hosting.session]
    exact get?_loaned_other apart _ _
  obtain ⟨k, found, same⟩ := Option.map_eq_some_iff.mp known
  change after.functions.getD k default = f at same
  subst same
  have longer := get?_loaned hosting.nodup found space after.session.functions
  have known' : Memory.function? (Machine.memory
      (Machine.supplied { after with store := store, modules := modules } space value child.functions))
      (inNamespace space name) = some (after.functions.getD k default) := Option.map_eq_some_iff.mpr ⟨k, longer, rfl⟩
  refine ⟨known', fun walk args misfits => ?_, fun names inner shares run depth call node args fits held => ?_⟩
  · rw [callNamed_apply walk known args, callNamed_apply walk known' args, applyCounted_of_ne walk name misfits,
      applyCounted_of_ne walk _ misfits]
    exact ⟨rfl, rfl⟩
  · rw [run_bind, run_bind, callNamed_apply _ known args, callNamed_apply _ known' args, applyCounted_of_length _ _ fits,
      applyCounted_of_length _ _ fits, ← run_bind, ← run_bind]
    exact .concluded run depth call node (hosting.peers keeps shares) shares.harbours
      (.of_held (shares.closures _ (.inl rfl))) shares.body (List.forall₂_same.mpr fun v among => (held v among).twin)

/-! ## A module with a function -/

def defining : String := "<store name='k' value='true'><func name='f' params='p'><output expression='k || p'></func>"

def client : Machine := .holding (oneFile defining) "<import src='/m' type='module' namespace='n'>"

def clientForest : Forest := (client.forest.parse defining).toOption.elim .empty Prod.snd

def clientRun : Except Raised (Option String) × Machine :=
  runDocument 1 2 { client with
    forest := clientForest
    session := .new client.session.host (some (Locator.directory "/m")) (client.moduleKey "/m" :: client.session.loading) }

lemma fetch_client : fetch "/m" client = (.ok (defining, "/m"), client) :=
  fetch_oneFile rfl (text_oneFile rfl) rfl

lemma parse_client : client.forest.parse defining = .ok (2, clientForest) := by rfl

lemma steady_client : client.Steady 1 := by
  obtain ⟨forest, parsed, child⟩ : ∃ forest,
      Forest.empty.parse "<import src='/m' type='module' namespace='n'>" = .ok (0, forest) ∧
        1 ∈ (forest.node 0).childList := ⟨_, rfl, by decide +kernel⟩
  exact steady_holding parsed child

def clientFunction : Function := clientRun.2.functions.getD 0 default

lemma left_client : clientRun.1.toOption = some none ∧ clientRun.2.session.functions = [("f", 0)] ∧
    clientRun.2.store.cells.size = 0 ∧ clientRun.2.store.nextMark = Num.firstFreshMark ∧
    clientRun.2.session.handlers = builtinHandlers := by decide +kernel

/-- The function has captured a truth value. -/
lemma function_client : clientFunction.params = ["p"] ∧ clientFunction.body = 6 ∧
    clientFunction.closure.map (·.2.ref?) = [none] ∧ clientFunction.closure.map (·.2.typeTag) = ["boolean"] := by
  decide +kernel

lemma body_client : 8 = clientRun.2.forest.nodes.size ∧
    ((clientRun.2.forest.node 6).childList = [7] ∧ (clientRun.2.forest.node 6).parent = none ∧
      (clientRun.2.forest.node 6).tag = "func") ∧
    ((clientRun.2.forest.node 7).childList = [] ∧ (clientRun.2.forest.node 7).parent = some 6 ∧
      (clientRun.2.forest.node 7).tag = "output") := by decide +kernel

lemma executeModule_client : executeModule (runDocument 1) (client.moduleKey "/m") "/m" client =
    (.ok clientRun.2.session, { clientRun.2 with session := client.session }) := by
  have ended := left_client.1
  unfold executeModule
  rw [run_get_bind]
  simp only []
  rw [if_neg (by decide), run_bind, fetch_client]
  simp only []
  rw [if_neg (by decide), run_bind, inSession_apply, run_bind, parseSource_apply]
  simp only [parse_client]
  rw [← clientRun]
  generalize clientRun = ran at ended
  obtain ⟨result, last⟩ := ran
  cases result with
  | error raised => cases ended
  | ok report =>
    cases ended
    rfl

lemma shares_client {n : Machine} (handlers : n.session.handlers = client.session.handlers) :
    Machine.Shares clientRun.2 n (fun _ => False) (fun x => x = 6 ∨ x = 7) clientFunction := by
  obtain ⟨_, _, cells, marks, table⟩ := left_client
  obtain ⟨_, body, leaves, tags⟩ := function_client
  obtain ⟨nodes, upper, lower⟩ := body_client
  have core : ∀ node : Node, node.tag = "func" ∨ node.tag = "output" →
      CoreElement clientRun.2.session.handlers (fun _ => False) node := by
    rintro node (tag | tag) <;> rw [table]
    · exact ⟨tag ▸ by decide, fun call => by rw [tag] at call; cases call⟩
    · exact ⟨tag ▸ by decide, fun call => by rw [tag] at call; cases call⟩
  refine ⟨handlers.trans table.symm, fun _ => False.elim, ?_, ⟨.inl body, ?_⟩, ⟨?_, ?_⟩, ?_⟩
  · refine harbours_body (fun _ => False.elim) (by rw [← nodes]; decide) ?_ ?_
    · exact ⟨upper.1, upper.2.1, core _ (.inl upper.2.2)⟩
    · exact ⟨lower.1, lower.2.1, core _ (.inr lower.2.2)⟩
  · rw [body, ← nodes]
    decide
  · intro r c found
    have there := (Array.getElem?_eq_some_iff.mp found).1
    omega
  · rw [marks]
    decide
  · rintro _ (rfl | ⟨_, never, _⟩) entry among
    case inr => exact never.elim
    have leaf : entry.2.ref? ∈ clientFunction.closure.map (·.2.ref?) := List.mem_map_of_mem among
    have tag : entry.2.typeTag ∈ clientFunction.closure.map (·.2.typeTag) := List.mem_map_of_mem among
    rw [leaves] at leaf
    rw [tags] at tag
    refine ⟨Value.within_of_leaf (List.mem_singleton.mp leaf), fun n number => ?_⟩
    rw [number] at tag
    exact absurd (List.mem_singleton.mp tag) (show "number" ≠ "boolean" by decide)

/-- The function of the module is called with a truth value, in the module and by the client. -/
theorem module_calls_agree_client : ∃ n, client.Steady 1 ∧
    client.Finds 1 "/m" clientRun.2.session { clientRun.2 with session := client.session } ∧
    importModule (runDocument 1) "/m" "n" client = (.ok (), n) ∧
    ∀ run depth call node, SameEnd node
      ((callNamed (visitChildren (visitNode run depth)) "f" [.bool true] >>= concludeCall call node) clientRun.2)
      ((callNamed (visitChildren (visitNode run depth)) "n.f" [.bool true] >>= concludeCall call node) n) := by
  have finds := Machine.Finds.first rfl executeModule_client
  obtain ⟨n, imported, receives, each⟩ := (module_calls_agree client).2.2 1 1 "/m" "n" _ _ steady_client finds
  have named := left_client.2.1
  have params := function_client.1
  have known : Memory.function? clientRun.2.memory "f" = some clientFunction := by
    unfold Memory.function?
    rw [show clientRun.2.memory.named = [("f", 0)] from named]
    rfl
  obtain ⟨_, _, same⟩ := each "f" _ known
  refine ⟨n, steady_client, finds, imported, fun run depth call node => ?_⟩
  refine same _ _ (shares_client receives.handlers) run depth call node [.bool true] (by rw [params]; rfl) ?_
  intro v among
  obtain rfl := List.mem_singleton.mp among
  exact ⟨Value.within_of_leaf rfl, nofun⟩

end TagScript.Script
