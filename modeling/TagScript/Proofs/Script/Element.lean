import TagScript.Proofs.Script.Likeness
import TagScript.Proofs.Script.Outline

/-!
# Elements that run others

With two walks and two ways of running modules that are alike an element does the same, and keeps
the outline of the machine. What runs inside may see another outline.
-/

namespace TagScript.Script

open Markup

variable {attrs : Assoc String} {m : Machine} {src location : String}

/-- What is known of the sources of a run: what holds of the labels of all nodes, which directories
locators are read against, and which modules may be loaded. -/
structure Realm where
  label : String → Assoc String → Prop
  base : Option String → Prop
  key : String → Prop

def Realm.Source (r : Realm) (text : String) : Prop :=
  ∀ es, events text = .ok es → ∀ event ∈ es, ∀ n, event.node? = some n → r.label n.tag n.attrs

def sourceDirectory (location : String) : Option String :=
  if Locator.isRemote location then none else some (Locator.directory location)

def Outline.located (o : Outline) (src : String) : String :=
  if Locator.isRemote src then src else Locator.resolve o.files.places o.sourceDir src

/-- What is known of the sources of a run stays true when an import fetches another one. -/
structure Realm.Closed (r : Realm) (files : Files) : Prop where
  text : r.label textTag []
  root : r.label documentTag []
  fetched : ∀ {m m' : Machine} {attrs : Assoc String} {src text location : String},
    m.world.files = files → r.base m.session.sourceDir → r.label "import" attrs →
    Assoc.get? "src" attrs = some src → fetch src m = (.ok (text, location), m') →
    r.key location ∧ r.base (sourceDirectory location) ∧ r.Source text

/-- Two walks are alike within an element: whatever the stack of scopes is then, and against
whichever directory locators are read. -/
def Walks (r : Realm) (o : Outline) (walk walk' : Walk) : Prop :=
  ∀ stack dir id, stack ≠ [] → r.base dir →
    Alike (At r.label { o with stack := stack, sourceDir := dir }) Any (walk id) (walk' id)

/-- What all sessions share is as it should be, whichever of them is running. -/
structure Shared (r : Realm) (settings : Settings) (files : Files) (m : Machine) : Prop where
  settings : m.settings = settings
  files : m.world.files = files
  labelled : m.forest.Labelled r.label

/-- Two ways of running a module that an element imports are alike: the module is run in a new
session, and is none of those being loaded. -/
def Runs (r : Realm) (o : Outline) (run run' : RunDocument) : Prop :=
  ∀ host dir key document m, r.base dir → r.key key → key ∉ o.loading →
    m.session = Session.new host dir (key :: o.loading) → Shared r o.settings o.files m →
    run document m = run' document m ∧ Shared r o.settings o.files (run document m).2

section

variable {r : Realm} {o : Outline} {walk walk' : Walk} {run run' : RunDocument} {α : Type}
  {p : String → Assoc String → Prop} {Q : α → Prop}

lemma Walks.here (walks : Walks r o walk walk') (some : o.stack ≠ []) (based : r.base o.sourceDir)
    (id : NodeId) : Alike (At r.label o) Any (walk id) (walk' id) :=
  walks o.stack o.sourceDir id some based

/-! ## What is swapped in -/

variable {c d : Run α}

lemma inScope_alike (some : o.stack ≠ []) (body : ∀ id, Alike (At p { o with stack := id :: o.stack }) Q c d) :
    Alike (At p o) (fun pair => Q pair.1) (inScope c) (inScope d) := by
  intro m holds
  have entered : At p { o with stack := m.session.env.scopes.size :: o.stack }
      m.opened := by
    refine ⟨?_, holds.2⟩
    rw [← holds.1]
    rfl
  have restored : ∀ id m', At p { o with stack := id :: o.stack } m' →
      At p o m'.shut := by
    intro id m' inside
    refine ⟨?_, inside.2⟩
    have stack : m'.session.env.stack = id :: o.stack := congrArg Outline.stack inside.1
    obtain ⟨below, rest, shape⟩ := List.exists_cons_of_ne_nil some
    have popped : m'.session.env.pop? = Option.some (id, { m'.session.env with stack := o.stack }) := by
      rw [shape] at stack ⊢
      simp [Environment.pop?, stack]
    have outline := congrArg (fun o' : Outline => { o' with stack := o.stack }) inside.1
    simp only [Machine.mapEnv, Machine.mapSession, popped]
    exact outline
  obtain ⟨same, kept, known⟩ := (body m.session.env.scopes.size _ entered).always (restored _)
  unfold AlikeAt
  rw [inScope_apply, inScope_apply, ← same]
  rcases ended : always c Machine.shut m.opened with ⟨result, after⟩
  rw [ended] at kept known
  cases result with
  | error raised =>
    refine ⟨rfl, kept, ?_⟩
    intro pair never
    cases never
  | ok a =>
    refine ⟨rfl, kept, ?_⟩
    intro pair found
    cases found
    exact known a rfl

lemma inFrame_alike {closure : Bindings} (body : ∀ id, Alike (At p { o with stack := [id] }) Q c d) :
    Alike (At p o) Q (inFrame closure c) (inFrame closure d) := by
  intro m holds
  have entered : At p { o with stack := [m.session.env.scopes.size] }
      { m with
        store := (m.session.env.enterFrame m.store closure).2.2
        session := { m.session with env := (m.session.env.enterFrame m.store closure).2.1 } } := by
    refine ⟨?_, holds.2⟩
    rw [← holds.1]
    rfl
  have restored : ∀ id m', At p { o with stack := [id] } m' →
      At p o (m'.mapEnv fun env => { env with stack := m.session.env.stack }) := by
    intro id m' inside
    refine ⟨?_, inside.2⟩
    have outline := congrArg (fun o' : Outline => { o' with stack := o.stack }) inside.1
    have stack : m.session.env.stack = o.stack := congrArg Outline.stack holds.1
    rw [stack]
    exact outline
  exact (body m.session.env.scopes.size _ entered).always (restored _)

def Outline.enter (o : Outline) (tag : String) : Outline :=
  { o with callStack := tag :: o.callStack }

lemma At.enter (holds : At p o m) (tag : String) : At p (o.enter tag) (m.enter tag) := by
  refine ⟨?_, holds.2⟩
  rw [← holds.1]
  rfl

lemma At.leave {tag : String} (inside : At p (o.enter tag) m) : At p o m.leave := by
  refine ⟨?_, inside.2⟩
  have stack : m.session.callStack = tag :: o.callStack := congrArg Outline.callStack inside.1
  have outline := congrArg (fun o' : Outline => { o' with callStack := o.callStack }) inside.1
  simp only [Machine.leave, Machine.mapSession, Machine.outline, stack, List.drop_succ_cons, List.drop_zero] at outline ⊢
  exact outline

lemma within_alike {tag : String} {c d : Run (Option Signal)}
    (body : AlikeAt (m.enter tag) (At p (o.enter tag)) Any c d) :
    AlikeAt m (At p o) Any (within tag c) (within tag d) := by
  refine AlikeAt.change_bind (AlikeAt.always (AlikeAt.recover body fun raised => ?_) fun _ => At.leave)
  exact (Calm.blamed tag raised).steady.bind fun _ _ => Alike.throw _

/-! ## Conditions, loops, scopes and attempts -/

instance Realm.order : Preorder Unit := PUnit.instLinearOrder.toPreorder

/-- Runs that are alike whatever the stack of scopes and the directory are then. -/
def Realm.likeness (r : Realm) (o : Outline) (text : r.label textTag []) : Likeness Unit where
  Runs V _ c d := ∀ stack dir, stack ≠ [] → r.base dir →
    Alike (At r.label { o with stack := stack, sourceDir := dir }) (V ()) c d
  Placed _ _ := True
  Precedes _ _ := True
  Inside _ _ := True
  Holds _ _ := True
  later _ _ := trivial
  inside _ _ := trivial
  kept _ _ := trivial
  leaf _ := trivial
  done known _ _ _ _ := Alike.pure known
  raise fault _ _ _ _ := Alike.raise fault
  throw raised _ _ _ _ := Alike.throw raised
  next first rest stack dir some based :=
    (first stack dir some based).bind fun a known => rest () a (le_refl _) known stack dir some based
  ask rest stack dir some based := Alike.read.bind fun m _ => rest m stack dir some based
  recover body handlers stack dir some based :=
    (body stack dir some based).recover fun raised => handlers () raised (le_refl _) stack dir some based
  inScope body rest stack dir some based :=
    (inScope_alike (Q := Any) some fun id => body () trivial (id :: stack) dir (List.cons_ne_nil _ _) based).bind
      fun pair _ => rest () pair.1 (le_refl _) stack dir some based
  askForest f _ _ _ _ := Steady.askForest f
  nodeOf _ _ _ _ _ := (Steady.nodeOf _).weaken fun _ _ _ _ => ⟨trivial, fun _ _ => trivial⟩
  siblingTagged _ _ _ _ _ _ := (Steady.askForest _).weaken fun _ _ _ _ => trivial
  cloneTree _ _ _ _ _ := (Steady.cloneTree _).weaken fun _ _ => ⟨trivial, fun _ _ => trivial⟩
  copy id _ _ _ _ := Steady.cloneTree id
  moveLast _ _ _ _ _ _ _ := Steady.changeForest fun _ keeps => keeps.moveLast trivial trivial trivial
  unwrapNode _ _ _ _ _ := Steady.changeForest fun _ keeps => keeps.unwrap trivial
  removeNode _ _ _ _ _ := Steady.removeNode _
  clearChildren _ _ _ _ _ := Steady.changeForest fun _ keeps => keeps.clearChildren trivial
  evaluate _ _ _ _ _ := (Calm.evaluate _).steady
  buildValue _ _ _ _ _ := Steady.changeGet (fun _ => rfl) fun _ => rfl
  bindName _ _ _ _ _ _ := (Calm.bindName _ _).steady
  showText _ content _ _ _ _ := Steady.changeForest fun _ keeps => keeps.setText trivial text trivial content
  emit _ _ _ _ _ _ := Steady.emit _ _
  diagnose _ _ _ _ _ := (Calm.diagnose _).steady
  recordWith _ _ _ _ _ _ := Steady.change (fun _ => rfl) fun _ => rfl
  outside files _ _ _ _ := Steady.changeGet (fun _ => by simp only [Machine.outline, files]) fun _ => rfl

lemma Walks.compared (walks : Walks r o walk walk') (text : r.label textTag []) :
    (r.likeness o text).Walks walk walk' :=
  fun _ id _ stack dir => walks stack dir id

section

variable (text : r.label textTag []) (some : o.stack ≠ []) (based : r.base o.sourceDir)
  (walks : Walks r o walk walk')

include some based in
lemma Realm.alike (runs : (r.likeness o text).Runs Untold () c d) : Alike (At r.label o) Any c d :=
  runs o.stack o.sourceDir some based

/-! ## Calls -/

include text based walks in
lemma applyFunction_alike (f : Function) (args : List Value) :
    Alike (At r.label o) Any (applyFunction walk f args) (applyFunction walk' f args) := by
  refine inFrame_alike fun frame => ?_
  have inside : Walks r { o with stack := [frame] } walk walk' := walks
  have one : [frame] ≠ [] := List.cons_ne_nil frame []
  refine Alike.bind (Q := Any) ?_ fun _ _ => ?_
  · exact Alike.forM fun pair _ => (Calm.bindName pair.1 pair.2).steady
  refine (Steady.cloneTree _).bind fun body _ => ?_
  refine (inside.here one based body).bind fun signal _ => ?_
  split
  · exact Alike.pure trivial
  · refine (Steady.askForest _).bind fun ids _ => ?_
    have values : (r.likeness o text).Runs _ () (returned .none ids) (returned .none ids) :=
      (r.likeness o text).returned trivial fun _ _ => trivial
    exact (values [frame] o.sourceDir one based).bind fun value _ => Alike.pure trivial

lemma Steady.concludeCall (id : NodeId) (node : Node) (answer : NodeId × Except Signal Value) :
    Steady p o (concludeCall id node answer) := by
  rcases answer with ⟨body, signal | value⟩
  · exact Alike.pure trivial
  simp only [Script.concludeCall]
  split
  · refine (Calm.bindName _ _).steady.bind fun _ _ => ?_
    exact (Steady.removeNode id).bind fun _ _ => Alike.pure trivial
  · refine (Steady.nodeOf body).bind fun node _ => ?_
    refine Alike.bind (Q := Any) ?_ fun _ _ => Alike.pure trivial
    exact Steady.changeForest fun _ keeps => keeps.replaceWith trivial fun _ _ => ⟨trivial, trivial⟩

include text based walks in
lemma runCall_alike (id : NodeId) : Alike (At r.label o) Any (runCall walk id) (runCall walk' id) := by
  refine (Steady.nodeOf id).bind fun node _ => ?_
  refine (Calm.required _ _).steady.bind fun name _ => ?_
  refine (Steady.functionNamed _).bind fun f _ => ?_
  refine (Calm.arguments _).steady.bind fun args _ => ?_
  split
  · exact Alike.raise _
  · exact (applyFunction_alike text based walks f args).bind fun answer _ => Steady.concludeCall id node answer

/-! ## Imports -/

lemma fetch_location {text : String}
    (found : (fetch src m).1 = .ok (text, location)) :
    location = if Locator.isRemote src then src
      else Locator.resolve m.world.files.places m.session.sourceDir src := by
  unfold Script.fetch at found
  split at found
  · rename_i remote
    rw [if_pos remote]
    simp only [run_bind] at found
    split at found
    · split at found
      · split at found
        · cases found
          rfl
        · cases found
      · cases found
    · cases found
  · rename_i near
    rw [if_neg near, resolved, bind_assoc, run_get_bind, run_pure_bind, run_bind] at *
    split at found
    · cases found
      rfl
    · cases found

include some based in
lemma fetch_alike (closed : r.Closed o.files)
    (label : r.label "import" attrs) (given : Assoc.get? "src" attrs = Option.some src) :
    Alike (At r.label o)
      (fun pair => pair.2 = o.located src ∧ r.key pair.2 ∧ r.base (sourceDirectory pair.2) ∧ r.Source pair.1)
      (fetch src) (fetch src) := by
  intro m holds
  obtain ⟨_, kept, _⟩ := Realm.alike closed.text some based ((r.likeness o closed.text).fetch src) m holds
  refine ⟨rfl, kept, ?_⟩
  rintro ⟨text, location⟩ found
  have files : m.world.files = o.files := congrArg Outline.files holds.1
  have dir : m.session.sourceDir = o.sourceDir := congrArg Outline.sourceDir holds.1
  have known := closed.fetched files (dir ▸ based) label given (Prod.ext found rfl)
  refine ⟨?_, known⟩
  rw [fetch_location found, Outline.located, files, dir]

lemma parseSource_alike (closed : r.Closed o.files) {text : String} (source : r.Source text) :
    Steady r.label o (parseSource text) := by
  refine Alike.read.bind fun m holds => ?_
  refine (Alike.settle fun a found => found).bind ?_
  rintro ⟨root, forest⟩ parsed
  refine Alike.bind (Q := Any) ?_ fun _ _ => Alike.pure trivial
  exact Alike.change fun _ other => ⟨other.1, (holds.2.keeps.parse closed.root parsed source).1.keeps.fits⟩

lemma parseSource_apply (text : String) (m : Machine) :
    parseSource text m =
      match m.forest.parse text with
      | .error fault => (.error ⟨fault, []⟩, m)
      | .ok (root, forest) => (.ok root, { m with forest := forest }) := by
  unfold parseSource
  rw [run_get_bind]
  rcases m.forest.parse text with fault | ⟨root, forest⟩ <;> rfl

lemma Steady.rejectSignal (signal : Option Signal) : Steady p o (rejectSignal signal) := by
  cases signal with
  | none => exact Alike.pure trivial
  | some signal => exact Alike.raise _

include some based walks

lemma runFragment_alike (fragment : NodeId)
    (located : r.base (sourceDirectory location)) :
    Alike (At r.label o) Any (runFragment walk fragment location) (runFragment walk' fragment location) := by
  have restored : ∀ dir m, At r.label { o with sourceDir := dir } m →
      At r.label o (m.mapSession fun s => { s with sourceDir := o.sourceDir }) := by
    intro dir m inside
    refine ⟨?_, inside.2⟩
    exact congrArg (fun o' : Outline => { o' with sourceDir := o.sourceDir }) inside.1
  have here : Alike (At r.label o) Any
      (always (walk fragment) fun m => m.mapSession fun s => { s with sourceDir := o.sourceDir })
      (always (walk' fragment) fun m => m.mapSession fun s => { s with sourceDir := o.sourceDir }) := by
    intro m holds
    exact (walks.here some based fragment m holds).always (restored o.sourceDir)
  have there (near : ¬ Locator.isRemote location = true) : Alike (At r.label o) Any
      (changeSession (fun s => { s with sourceDir := Option.some (Locator.directory location) }) >>= fun _ =>
        always (walk fragment) fun m => m.mapSession fun s => { s with sourceDir := o.sourceDir })
      (changeSession (fun s => { s with sourceDir := Option.some (Locator.directory location) }) >>= fun _ =>
        always (walk' fragment) fun m => m.mapSession fun s => { s with sourceDir := o.sourceDir }) := by
    rw [sourceDirectory, if_neg near] at located
    refine Alike.bracket (walks o.stack _ fragment some located) ?_ (restored _)
    intro m holds
    refine ⟨?_, holds.2⟩
    rw [← holds.1]
    rfl
  refine Alike.read.bind fun m holds => ?_
  have saved : m.session.sourceDir = o.sourceDir := congrArg Outline.sourceDir holds.1
  simp only [saved]
  split
  · exact here.bind fun signal _ => Steady.rejectSignal signal
  · rename_i near
    split
    · exact here.bind fun signal _ => Steady.rejectSignal signal
    · exact (there near).bind fun signal _ => Steady.rejectSignal signal

lemma runFragmentIn_alike (space : Option String) (fragment : NodeId)
    (located : r.base (sourceDirectory location)) :
    Alike (At r.label o) Any (runFragmentIn walk space fragment location)
      (runFragmentIn walk' space fragment location) := by
  unfold runFragmentIn
  split
  · exact runFragment_alike some based walks fragment located
  · refine Alike.read.bind fun m _ => ?_
    refine (inScope_alike (Q := Any) some fun scope => ?_).bind fun (_, scope) _ => ?_
    · have inside : Walks r { o with stack := scope :: o.stack } walk walk' := walks
      exact runFragment_alike (o := { o with stack := scope :: o.stack }) (by simp) based inside fragment located
    · refine Alike.read.bind fun m _ => ?_
      refine (Steady.newMapping _).bind fun value _ => ?_
      refine (Calm.bindName _ _).steady.bind fun _ _ => ?_
      exact Steady.change (fun _ => rfl) fun _ => rfl

omit some based walks in
lemma inSession_apply (child : Session) (c : Run α) (m : Machine) :
    inSession child c m =
      match c { m with session := child } with
      | (.ok a, after) => (.ok (a, after.session), { after with session := m.session })
      | (.error raised, after) => (.error raised, { after with session := m.session }) := by
  unfold inSession changeSession
  rw [run_get_bind, run_modify_bind]
  simp only [always, Machine.mapSession]
  rw [run_bind]
  rcases c { m with session := child } with ⟨result, after⟩
  cases result <;> rfl

omit some based walks in
/-- Inside another session nothing is known of the session around it, which is put back. -/
lemma inSession_alike {child : Session} (body : ∀ m, m.session = child → Shared r o.settings o.files m →
      c m = d m ∧ Shared r o.settings o.files (c m).2) :
    Alike (At r.label o) Any (inSession child c) (inSession child d) := by
  intro m holds
  have shared : Shared r o.settings o.files { m with session := child } :=
    ⟨congrArg Outline.settings holds.1, congrArg Outline.files holds.1, holds.2⟩
  obtain ⟨same, kept⟩ := body { m with session := child } rfl shared
  have restored : ∀ after, Shared r o.settings o.files after →
      At r.label o { after with session := m.session } := by
    intro after kept
    refine ⟨?_, kept.labelled⟩
    rw [← holds.1]
    have settings := kept.settings.trans (congrArg Outline.settings holds.1).symm
    have files := kept.files.trans (congrArg Outline.files holds.1).symm
    simp only [Machine.outline] at settings files ⊢
    rw [settings, files]
  unfold AlikeAt
  rw [inSession_apply, inSession_apply, ← same]
  rcases found : c { m with session := child } with ⟨result, after⟩
  rw [found] at kept
  cases result with
  | error | ok => exact ⟨rfl, restored after kept, fun _ _ => trivial⟩

omit some based walks in
lemma Steady.copyBindings (bindings : Bindings) : Steady p o (copyBindings bindings) :=
  Steady.changeGet (fun _ => rfl) fun _ => rfl

variable (closed : r.Closed o.files) (runs : Runs r o run run')
include closed runs

section

variable (label : r.label "import" attrs) (given : Assoc.get? "src" attrs = Option.some src)
include label given

omit walks in
lemma executeModule_alike :
    Alike (At r.label o) Any (executeModule run (o.located src) src) (executeModule run' (o.located src) src) := by
  refine Alike.read.bind fun m holds => ?_
  have loading : m.session.loading = o.loading := congrArg Outline.loading holds.1
  simp only []
  split
  · exact (Alike.raise (Q := fun _ => False) _).bind fun _ never => never.elim
  · rename_i absent
    have fresh : o.located src ∉ o.loading := by
      rw [← loading]
      simpa using absent
    refine (fetch_alike some based closed label given).bind ?_
    rintro ⟨text, location⟩ ⟨here, key, dir, source⟩
    rw [here] at key dir
    refine Alike.bind (inSession_alike fun m' session shared => ?_) fun (error, child) _ => ?_
    · -- the text is parsed in the new session before the module is run there
      rw [run_bind, run_bind, parseSource_apply]
      rcases found : m'.forest.parse text with fault | ⟨root, forest⟩
      · exact ⟨rfl, shared⟩
      · have labelled := (shared.labelled.keeps.parse closed.root found source).1.keeps.fits
        exact runs m.session.host _ _ root { m' with forest := forest } dir key fresh
          (session.trans (by rw [here, loading, sourceDirectory])) ⟨shared.settings, shared.files, labelled⟩
    · split
      · exact Alike.raise _
      · exact Alike.pure trivial

omit walks in
lemma importModule_alike (space : String) :
    Alike (At r.label o) Any (importModule run src space) (importModule run' src space) := by
  refine Alike.read.bind fun m holds => ?_
  have located : m.moduleKey src = o.located src := by
    have files : m.world.files = o.files := congrArg Outline.files holds.1
    have dir : m.session.sourceDir = o.sourceDir := congrArg Outline.sourceDir holds.1
    rw [Machine.moduleKey, Outline.located, files, dir]
  have bound : ∀ module, Steady r.label o (bindModule space module) := by
    intro module
    refine (Steady.copyBindings _).bind fun bindings _ => ?_
    refine (Steady.newMapping _).bind fun value _ => ?_
    refine (Calm.bindName _ _).steady.bind fun _ _ => ?_
    exact Steady.change (fun _ => rfl) fun _ => rfl
  rw [located]
  refine Alike.bind (Q := Any) (Alike.read.bind fun m _ => ?_) fun module _ => bound module
  split
  · exact Alike.pure trivial
  · refine (executeModule_alike some based closed runs label given).bind fun child _ => ?_
    refine (Steady.copyBindings _).bind fun bindings _ => ?_
    refine Alike.bind (Q := Any) ?_ fun _ _ => Alike.pure trivial
    exact Steady.change (fun _ => rfl) fun _ => rfl

end

lemma importSource_alike {node : Node} (label : r.label "import" node.attrs) :
    Alike (At r.label o) Any (importSource walk run node) (importSource walk' run' node) := by
  unfold importSource importSourceBy
  split
  · exact Alike.raise _
  · rename_i src given
    have written : Assoc.get? "src" node.attrs = Option.some src := by
      have found := Option.eq_some_of_filter_eq_some given
      have lower : Text.lower "src" = "src" := rfl
      rwa [Node.attr?, lower] at found
    simp only []
    split
    · exact Alike.raise _
    · refine (importModule_alike some based closed runs label written _).bind fun _ _ => ?_
      exact Alike.pure trivial
    · refine (fetch_alike some based closed label written).bind ?_
      rintro ⟨text, location⟩ ⟨_, _, dir, source⟩
      refine (parseSource_alike closed source).bind fun fragment _ => ?_
      refine (runFragmentIn_alike some based walks _ fragment dir).bind fun _ _ => ?_
      exact Alike.pure trivial

lemma runImport_alike {id : NodeId} (holds : At r.label o m) (label : r.label "import" (m.forest.node id).attrs) :
    AlikeAt m (At r.label o) Any (runImport walk run id) (runImport walk' run' id) := by
  refine AlikeAt.nodeOf_bind (AlikeAt.bind (Q := Any) (AlikeAt.recover (AlikeAt.bind (Q := Any) ?_ fun _ _ =>
    Alike.pure trivial) fun raised => Alike.pure trivial) fun outcome _ => ?_)
  · exact importSource_alike some based walks closed runs label m holds
  split
  · refine (Steady.nodeOf _).bind fun node _ => ?_
    exact Steady.changeForest fun _ keeps => keeps.replaceWith trivial fun _ _ => ⟨trivial, trivial⟩
  · exact Steady.removeNode id
  · exact (Steady.emit _ _).bind fun _ _ => Steady.removeNode id

end

end

end TagScript.Script
