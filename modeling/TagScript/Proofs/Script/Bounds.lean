import TagScript.Proofs.Script.Restoration

/-!
# Runs are bounded

A run is compared with one that counts elements within each other, rounds of loops and modules that
load each other, and where a count would exceed its bound, does something arbitrary. Both do the
same, so no bound is ever exceeded.
-/

namespace TagScript.Script

open Markup

variable {cap : Nat} {source : String} {sources : Assoc String}

/-- What a watched run does where a bound would be exceeded: an element too deep, a round too many,
or a module that is being loaded already. -/
structure Breach where
  activation : NodeId → Run (Option Signal)
  round : Run Unit
  load : RunDocument

/-! ## The watched run -/

def watchedRounds (b : Breach) (walk : Walk) (id template : NodeId) (condition : String)
    (step : Option String) (cap : Nat) : Nat → Nat → Run Unit
  | 0, _ => b.round
  | looks + 1, made => do
    if ← holds condition then
      if made < cap then
        if ← oneRound walk id template step then
          watchedRounds b walk id template condition step cap looks (made + 1)
      else raise (.loopLimit cap)

def watchedLoop (b : Breach) (walk : Walk) (id : NodeId) (condition : String) (step : Option String) :
    Run Unit := do
  let template ← cloneTree id
  changeForest (·.clearChildren id)
  match (← get).settings.loopLimit with
  | none => b.round
  | some cap => watchedRounds b walk id template condition step cap (cap + 1) 0
  unwrapNode id

/-- Runs an element that means something by itself, its loops being watched. -/
def watchedBuiltin (b : Breach) (walk : Walk) (run : RunDocument) (tag : Builtin) (id : NodeId) :
    Run (Option Signal) :=
  match tag with
  | .countedLoop => withoutSignal do
    let node ← nodeOf id
    let condition ← required node "condition"
    ((node.attr? "init").filter fun text => !Text.allBlank text).forM fun text => do
      let _ ← runStatement text
    watchedLoop b walk id condition (given? node "increment")
  | .loop => withoutSignal do
    let condition ← required (← nodeOf id) "condition"
    watchedLoop b walk id condition none
  | tag => runBuiltin walk run tag id

/-- Runs a node within which so many nodes may lie, itself included. What an element does is done
only if the elements being run are no more than allowed. -/
def watchedVisit (b : Breach) (run : RunDocument) : Nat → NodeId → Run (Option Signal)
  | 0, id => b.activation id
  | room + 1, id => do
    let node ← nodeOf id
    if node.isElement then
      within node.tag do
        if (← get).session.callStack.length ≤ maxDepth then
          let walk := visitChildren (watchedVisit b run room)
          elementBy walk (watchedBuiltin b walk run) node.tag id
        else raise (.recursionLimit maxDepth node.tag)
    else return none

/-- Runs a document in the session at hand, in which no module may be loaded while it is being
loaded; modules may import each other so many deep. -/
def watchedDocument (b : Breach) : Nat → RunDocument
  | 0, document => b.load document
  | nesting + 1, document => do
    if (← get).session.loading.Nodup then
      runDocumentBy (visitChildren (watchedVisit b (watchedDocument b nesting) (maxDepth + 1))) document
    else b.load document

section

variable {r : Realm} {o : Outline} {walk walk' : Walk} {run run' : RunDocument} {b : Breach}

/-! ## Loops -/

lemma goRound_watched (text : r.label textTag []) (some : o.stack ≠ []) (based : r.base o.sourceDir)
    (walks : Walks r o walk walk') (id template : NodeId) (condition : String) (step : Option String) {rounds made : Nat}
    (count : made + rounds = cap) :
    Alike (At r.label o) Any (goRound walk id template condition step (Option.some cap) rounds)
      (watchedRounds b walk' id template condition step cap (rounds + 1) made) := by
  induction rounds generalizing made with
  | zero =>
    have spent : ¬ made < cap := by omega
    unfold goRound watchedRounds
    refine (Calm.holds condition).steady.bind fun holds _ => ?_
    split
    · exact Alike.raise _
    · exact Alike.pure trivial
  | succ rounds ih =>
    have left : made < cap := by omega
    unfold goRound watchedRounds
    refine (Calm.holds condition).steady.bind fun holds _ => ?_
    split
    · have round : (r.likeness o text).Runs Untold () (oneRound walk id template step) (oneRound walk' id template step) :=
        (r.likeness o text).comparison.oneRound (walks.compared text) trivial trivial step
      refine (Realm.alike text some based round).bind fun again _ => ?_
      split
      · exact ih (by omega)
      · exact Alike.pure trivial
    · exact Alike.pure trivial

lemma runRounds_watched (text : r.label textTag []) (limited : o.settings.loopLimit = some cap) (some : o.stack ≠ [])
    (based : r.base o.sourceDir) (walks : Walks r o walk walk') (id : NodeId) (condition : String)
    (step : Option String) :
    Alike (At r.label o) Any (runRounds walk id condition step) (watchedLoop b walk' id condition step) := by
  refine (Steady.cloneTree id).bind fun template _ => ?_
  refine Alike.bind (Q := Any) ?_ fun _ _ => ?_
  · exact Steady.changeForest fun _ keeps => keeps.clearChildren trivial
  refine Alike.read.bind fun m holds => ?_
  have limit : m.settings.loopLimit = Option.some cap :=
    (congrArg (fun o' : Outline => o'.settings.loopLimit) holds.1).trans limited
  simp only [limit]
  refine Alike.bind (Q := Any) ?_ fun _ _ => ?_
  · exact goRound_watched text some based walks id template condition step (Nat.zero_add cap)
  · exact Steady.changeForest fun _ keeps => keeps.unwrap trivial

/-! ## Elements -/

lemma runBuiltin_watched (limited : o.settings.loopLimit = some cap) (sound : o.Sound r)
    (walks : Walks r o walk walk') (runs : Runs r o run run') {m : Machine} (holds : At r.label o m)
    {tag : Builtin} {id : NodeId} (loads : tag = .load → r.label "import" (m.forest.node id).attrs) :
    AlikeAt m (At r.label o) Any (runBuiltin walk run tag id) (watchedBuiltin b walk' run' tag id) := by
  have rounds : ∀ condition step, Alike (At r.label o) Any (runRounds walk id condition step)
      (watchedLoop b walk' id condition step) :=
    runRounds_watched sound.closed.text limited sound.stacked sound.based walks id
  unfold watchedBuiltin
  split
  · refine withoutSignal_alike ?_
    refine ((Steady.nodeOf id).bind fun node _ => ?_) m holds
    refine (Calm.required _ _).steady.bind fun condition _ => ?_
    refine Alike.bind (Q := Any) ?_ fun _ _ => rounds condition _
    exact Alike.option_forM fun text _ => (Calm.runStatement text).steady.bind fun _ _ => Alike.pure trivial
  · refine withoutSignal_alike ?_
    refine ((Steady.nodeOf id).bind fun node _ => ?_) m holds
    exact (Calm.required _ _).steady.bind fun condition _ => rounds condition none
  · exact runBuiltin_alike sound walks runs holds loads

lemma At.enter_length {p : String → Assoc String → Prop} {m : Machine} (holds : At p o m) (tag : String) :
    (m.enter tag).session.callStack.length = o.callStack.length + 1 :=
  congrArg (fun o' : Outline => o'.callStack.length) (holds.enter tag).1

/-- The elements being run and those that may still lie within the next one are as many as allowed.
-/
lemma visitNode_watched (limited : o.settings.loopLimit = some cap) (sound : o.Sound r)
    (runs : Runs r o run run') {depth : Nat} (room : o.callStack.length + depth = maxDepth) (id : NodeId) :
    Alike (At r.label o) Any (visitNode run depth id) (watchedVisit b run' (depth + 1) id) := by
  induction depth generalizing o id with
  | zero =>
    intro m holds
    refine AlikeAt.nodeOf_bind ?_
    split
    · generalize (m.forest.node id).tag = tag
      have inside := holds.enter tag
      have deep : ¬ (m.enter tag).session.callStack.length ≤ maxDepth := by
        rw [holds.enter_length]
        omega
      refine within_alike ?_
      unfold AlikeAt
      rw [run_get_bind, if_neg deep]
      exact Alike.raise _ _ inside
    · exact Alike.pure trivial m holds
  | succ depth ih =>
    intro m holds
    refine AlikeAt.nodeOf_bind ?_
    split
    · generalize here : (m.forest.node id).tag = tag
      have inside := holds.enter tag
      have shallow : (m.enter tag).session.callStack.length ≤ maxDepth := by
        rw [holds.enter_length]
        omega
      have within : (o.enter tag).Sound r :=
        ⟨sound.stacked, sound.based, sound.closed, sound.loads⟩
      have walks : Walks r (o.enter tag) (visitChildren (visitNode run depth))
          (visitChildren (watchedVisit b run' (depth + 1))) := by
        have room' : (tag :: o.callStack).length + depth = maxDepth := by
          simp only [List.length_cons]
          omega
        exact Walks.children (fun stack dir id some based => ih (o := { o.enter tag with stack := stack, sourceDir := dir })
          limited ⟨some, based, sound.closed, sound.loads⟩ runs room' id) sound.closed.text
      refine within_alike ?_
      unfold AlikeAt
      rw [run_get_bind, if_pos shallow]
      exact elementBy_alike within walks inside here fun tag loads =>
        runBuiltin_watched (o := o.enter _) limited within walks runs inside loads
    · exact Alike.pure trivial m holds

/-! ## Documents -/

/-- A machine on which a document may begin to run: what is known of sources is known of the one at
hand, and the modules being loaded are distinct and among those that are known. -/
structure Opening (r : Realm) (keys : List String) (settings : Settings) (files : Files) (m : Machine) :
    Prop where
  shared : Shared r settings files m
  stacked : m.session.env.stack ≠ []
  based : r.base m.session.sourceDir
  loads : ∀ tag, (tag, Handler.builtin .load) ∈ m.session.handlers → tag = "import"
  distinct : m.session.loading.Nodup
  known : m.session.loading ⊆ keys

variable {keys : List String} {settings : Settings} {files : Files} {m : Machine}

section

variable (opening : Opening r keys settings files m)
include opening

lemma Opening.loading_length : m.session.loading.length ≤ keys.length :=
  (opening.distinct.subperm opening.known).length_le

lemma Opening.entered (closed : r.Closed files) (document : NodeId) :
    At r.label (m.entered document).outline (m.entered document) ∧ (m.entered document).outline.Sound r := by
  refine ⟨⟨rfl, opening.shared.labelled⟩, ?_⟩
  rw [outline_entered]
  refine ⟨opening.stacked, opening.based, ?_, ?_⟩
  · show r.Closed m.world.files
    rw [opening.shared.files]
    exact closed
  · intro tag attrs mem label
    have known : tag = "import" := bindHostTags_loads
      (s := { m.session with effects := [], callStack := [] }) opening.loads tag mem
    exact known ▸ label

lemma Opening.child (inside : ∀ key, r.key key → key ∈ keys)
    {host : Option HostId} {dir : Option String} {key : String} {child : Machine} (based : r.base dir)
    (allowed : r.key key) (fresh : key ∉ m.session.loading)
    (session : child.session = Session.new host dir (key :: m.session.loading))
    (shared : Shared r settings files child) : Opening r keys settings files child := by
  refine ⟨shared, ?_, ?_, ?_, ?_, ?_⟩
  · simp [session, Session.new, Environment.empty]
  · rw [session]
    exact based
  · rw [session]
    exact builtinHandlers_loads
  · rw [session]
    exact List.nodup_cons.2 ⟨fresh, opening.distinct⟩
  · rw [session]
    exact List.cons_subset.2 ⟨inside key allowed, opening.known⟩

end

lemma runDocument_watched (closed : r.Closed files) (inside : ∀ key, r.key key → key ∈ keys)
    (limited : settings.loopLimit = some cap) (opening : Opening r keys settings files m)
    {nesting nesting' : Nat} (deep : keys.length < m.session.loading.length + nesting)
    (deep' : keys.length < m.session.loading.length + nesting') (document : NodeId) :
    runDocument nesting document m = watchedDocument b nesting' document m ∧
      Shared r settings files (runDocument nesting document m).2 := by
  induction nesting generalizing nesting' m document with
  | zero =>
    have crowded := opening.loading_length
    omega
  | succ nesting ih =>
    cases nesting' with
    | zero =>
      have crowded := opening.loading_length
      omega
    | succ nesting' =>
      obtain ⟨holds, sound⟩ := opening.entered closed document
      have outline := outline_entered m document
      have same : (m.entered document).outline.settings = settings ∧
          (m.entered document).outline.files = files := by
        rw [outline]
        exact ⟨opening.shared.settings, opening.shared.files⟩
      have runs : Runs r (m.entered document).outline (runDocument nesting) (watchedDocument b nesting') := by
        intro host dir key document m' based allowed fresh session shared
        rw [same.1, same.2] at shared ⊢
        rw [outline] at fresh session
        have opening' := opening.child inside based allowed fresh session shared
        have longer : m'.session.loading.length = m.session.loading.length + 1 := by
          rw [session]
          rfl
        exact ih opening' (by omega) (by omega) document
      have walks : Walks r (m.entered document).outline (visitNode (runDocument nesting) maxDepth)
          (watchedVisit b (watchedDocument b nesting') (maxDepth + 1)) := by
        have limit : (m.entered document).outline.settings.loopLimit = some cap := by rw [same.1, limited]
        refine fun stack dir id some based => visitNode_watched limit
          (o := { (m.entered document).outline with stack := stack, sourceDir := dir })
          ⟨some, based, sound.closed, sound.loads⟩ runs ?_ id
        rw [outline]
        exact Nat.zero_add maxDepth
      obtain ⟨equal, kept, _⟩ := runDocumentBy_alike holds
        ((walks.children closed.text).here sound.stacked sound.based document)
      refine ⟨?_, ?_, ?_, kept.2⟩
      · unfold watchedDocument
        rw [run_get_bind, if_pos opening.distinct]
        exact equal
      · exact (congrArg Outline.settings kept.1).trans same.1
      · exact (congrArg Outline.files kept.1).trans same.2

/-! ## Finitely many sources -/

def Imports (src tag : String) (attrs : Assoc String) : Prop :=
  tag = "import" ∧ Assoc.get? "src" attrs = some src

def Mentions (text src : String) : Prop :=
  ∃ es, events text = .ok es ∧ ∃ event ∈ es, ∃ n, event.node? = some n ∧ Imports src n.tag n.attrs

def Locators (m : Machine) (source : String) (sources : Assoc String) (src : String) : Prop :=
  (∃ id, Imports src (m.forest.node id).tag (m.forest.node id).attrs) ∨ Mentions source src ∨
    ∃ entry ∈ sources, Mentions entry.2 src

def Directories (m : Machine) (sources : Assoc String) (dir : Option String) : Prop :=
  dir = m.session.sourceDir ∨ ∃ entry ∈ sources, dir = sourceDirectory entry.1

/-- All imports are of local files, and wherever the locator of an import leads to a text, path and
text are among finitely many sources. -/
structure Covers (m : Machine) (source : String) (sources : Assoc String) : Prop where
  near : ∀ src, Locators m source sources src → Locator.isRemote src = false
  found : ∀ dir src text, Directories m sources dir → Locators m source sources src →
    m.world.files.text (Locator.resolve m.world.files.places dir src) = .ok text →
    (Locator.resolve m.world.files.places dir src, text) ∈ sources

def Realm.covered (m : Machine) (source : String) (sources : Assoc String) : Realm :=
  { label := fun tag attrs => ∀ src, Imports src tag attrs → Locators m source sources src
    base := Directories m sources
    key := fun key => key ∈ Assoc.names sources }

lemma text_of_readFile {w w' : World} {path text : String} (read : w.readFile path = (.ok text, w')) :
    w.files.text path = .ok text := by
  unfold World.readFile at read
  split at read
  · cases read
  · exact congrArg Prod.fst read

lemma text_of_fetch {src text location : String} {m m' : Machine} (near : Locator.isRemote src = false)
    (fetched : fetch src m = (.ok (text, location), m')) :
    location = Locator.resolve m.world.files.places m.session.sourceDir src ∧
      m.world.files.text location = .ok text := by
  have here := fetch_location (congrArg Prod.fst fetched)
  rw [if_neg (by simp [near])] at here
  refine ⟨here, ?_⟩
  rw [fetch, if_neg (by simp [near]), resolved, bind_assoc, run_get_bind, run_pure_bind, ← here, readFile,
    bind_assoc, run_modifyGet_bind] at fetched
  simp only [] at fetched
  rcases read : m.world.readFile location with ⟨result, world⟩
  rw [read] at fetched
  cases result with
  | error fault => cases fetched
  | ok content =>
    cases fetched
    exact text_of_readFile read

lemma Covers.closed (covers : Covers m source sources) : (Realm.covered m source sources).Closed m.world.files := by
  refine ⟨?_, ?_, ?_⟩
  · rintro src ⟨_, given⟩
    cases given
  · rintro src ⟨_, given⟩
    cases given
  · intro m' after attrs src text location files based label given fetched
    have mentioned : Locators m source sources src := label src ⟨rfl, given⟩
    obtain ⟨here, read⟩ := text_of_fetch (covers.near src mentioned) fetched
    rw [files] at here read
    have member := covers.found _ src text based mentioned (here ▸ read)
    rw [← here] at member
    refine ⟨?_, ?_, ?_⟩
    · exact List.mem_map_of_mem (f := Prod.fst) member
    · exact .inr ⟨_, member, rfl⟩
    · intro es parsed event among n node src' imports
      exact .inr (.inr ⟨_, member, es, parsed, event, among, n, node, imports⟩)

/-- Runs a source by a given way of running documents. -/
def runSourceBy (run : RunDocument) (source : String) : Run Report := do
  let document ← parseSource source
  let error ← run document
  return ⟨error, document⟩

lemma runSourceBy_congr {run run' : RunDocument}
    (same : ∀ document forest, m.forest.parse source = .ok (document, forest) →
      run document { m with forest := forest } = run' document { m with forest := forest }) :
    runSourceBy run source m = runSourceBy run' source m := by
  unfold runSourceBy
  rw [run_bind, run_bind, parseSource_apply]
  rcases parsed : m.forest.parse source with fault | ⟨document, forest⟩
  · rfl
  · simp only []
    rw [run_bind, run_bind, same document forest parsed]

lemma Covers.opening (covers : Covers m source sources) (idle : m.outline.Idle) {document : NodeId} {forest : Forest}
    (parsed : m.forest.parse source = .ok (document, forest)) :
    Opening (Realm.covered m source sources) (Assoc.names sources) m.settings m.world.files
      { m with forest := forest } := by
  have labelled : m.forest.Labelled (Realm.covered m source sources).label :=
    fun id src imports => .inl ⟨id, imports⟩
  have known : (Realm.covered m source sources).Source source :=
    fun es found event among n node src imports => .inr (.inl ⟨es, found, event, among, n, node, imports⟩)
  have loading : m.session.loading = [] := idle.loading
  refine ⟨⟨rfl, rfl, (labelled.keeps.parse covers.closed.root parsed known).1.keeps.fits⟩, idle.stacked, .inl rfl, idle.loads, ?_, ?_⟩
  · show m.session.loading.Nodup
    rw [loading]
    exact List.nodup_nil
  · show m.session.loading ⊆ _
    rw [loading]
    exact List.nil_subset _

/-- Let loops be limited, and let all imports be of finitely many local sources. Then running a
source is the same as running it watched, whatever the watched run does where an element lies too
deep, a loop makes a round too many or a module is loaded within itself: none of this happens. Nor
does it matter how deep modules may import each other, once that is more than there are sources. -/
theorem runSource_watched {cap : Nat} {source : String} {sources : Assoc String} (reachable : Reachable m)
    (limited : m.settings.loopLimit = some cap) (covers : Covers m source sources) (b : Breach) :
    (∀ nesting, sources.length < nesting →
      runSourceBy (runDocument nesting) source m =
        runSourceBy (watchedDocument b (sources.length + 1)) source m) ∧
    (sources.length ≤ moduleNesting →
      runSource source m = runSourceBy (watchedDocument b (sources.length + 1)) source m) := by
  have idle := idle_of_reachable reachable
  have count : (Assoc.names sources).length = sources.length := List.length_map _
  have loading : m.session.loading = [] := idle.loading
  have bounded : ∀ nesting, sources.length < nesting →
      runSourceBy (runDocument nesting) source m =
        runSourceBy (watchedDocument b (sources.length + 1)) source m := by
    intro nesting deep
    refine runSourceBy_congr fun document forest parsed => ?_
    refine (runDocument_watched covers.closed (fun _ member => member) limited (covers.opening idle parsed)
      ?_ ?_ document).1
    · show (Assoc.names sources).length < m.session.loading.length + nesting
      rw [count, loading, List.length_nil]
      omega
    · show (Assoc.names sources).length < m.session.loading.length + (sources.length + 1)
      rw [count, loading, List.length_nil]
      omega
  exact ⟨bounded, fun few => bounded (moduleNesting + 1) (Nat.lt_succ_of_le few)⟩

end

/-! ## A module that imports itself -/

def selfImport : String := "<import src='/m' type='module'>"

def circular : Machine :=
  let bytes := selfImport.toList.map fun c => c.toNat.toUInt8
  .new ⟨some 2, false⟩ (World.new ⟨⟨"/", "/"⟩, [("/m", bytes)], [], []⟩ ⟨[], []⟩ .input [] true) none

lemma mentions_selfImport {src : String} (mentions : Mentions selfImport src) : src = "/m" := by
  obtain ⟨es, found, event, among, n, node, _, given⟩ := mentions
  have only : events selfImport = .ok [.start "import" [("src", some "/m"), ("type", some "module")]] := rfl
  rw [only] at found
  cases found
  rw [List.mem_singleton] at among
  subst among
  cases node
  exact (Option.some.inj given).symm

lemma text_circular {path text : String} (found : circular.world.files.text path = .ok text) : text = selfImport := by
  unfold Files.text at found
  split at found
  · cases found
  · split at found
    · cases found
    · rename_i bytes kept
      have only : bytes = selfImport.toList.map fun c => c.toNat.toUInt8 :=
        congrArg Prod.snd (List.mem_singleton.1 (Assoc.mem_of_get? kept))
      rw [only] at found
      exact (Except.ok.inj found).symm

lemma covers_circular : Covers circular selfImport [("/m", selfImport)] := by
  have locators : ∀ src, Locators circular selfImport [("/m", selfImport)] src → src = "/m" := by
    rintro src (⟨id, tag, _⟩ | source | ⟨entry, mem, text⟩)
    · have untagged : (circular.forest.node id).tag = "" := by
        simp only [circular, Machine.new, Forest.empty, Forest.node]
        rfl
      rw [untagged] at tag
      exact absurd tag (by decide)
    · exact mentions_selfImport source
    · rw [List.mem_singleton] at mem
      subst mem
      exact mentions_selfImport text
  refine ⟨?_, ?_⟩
  · intro src mentioned
    rw [locators src mentioned]
    rfl
  · intro dir src text _ mentioned found
    rw [text_circular found, locators src mentioned]
    exact List.mem_singleton.2 rfl

/-- The source that imports a module importing itself runs as the watched one does. -/
theorem runSource_watched_circular :
    Reachable circular ∧ circular.settings.loopLimit = some 2 ∧
      Covers circular selfImport [("/m", selfImport)] ∧
      ∀ b : Breach, runSourceBy (runDocument 5) selfImport circular =
        runSourceBy (watchedDocument b 2) selfImport circular := by
  have reachable : Reachable circular := .new _ _ _
  refine ⟨reachable, rfl, covers_circular, fun b => ?_⟩
  exact (runSource_watched reachable rfl covers_circular b).1 5 (by decide)

end TagScript.Script
