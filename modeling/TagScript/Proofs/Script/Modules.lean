import TagScript.Proofs.Script.Custody

/-!
# Imports leave templates alone

A copy of what a module bound is set aside for all imports of it; each import gets a copy of that
copy.
-/

namespace TagScript.Script

open Markup Assoc
open Moment (Holds Keeps)

variable {α β : Type} {g : Rule} {w : Moment} {id : NodeId} {space : String}

lemma known_namespaced {before after : Assoc FunctionId} {n : Nat}
    (old : ∀ entry ∈ before, entry.2 < n) (now : ∀ entry ∈ after, entry.2 < n) :
    ∀ entry ∈ namespaced before after space, entry.2 < n := by
  have added : ∀ {name : String} {f : FunctionId} {table : Assoc FunctionId}, f < n →
      (∀ entry ∈ table, entry.2 < n) → ∀ entry ∈ Assoc.set name f table, entry.2 < n := by
    intro name f table known others entry mem
    rcases mem_set mem with older | rfl
    · exact others entry older
    · exact known
  refine foldl_moved_induction (P := fun table => ∀ entry ∈ table, entry.2 < n) now fun moving mem new table known => ?_
  rw [moved, if_neg new]
  refine added (now _ mem) ?_
  have erased : ∀ entry ∈ Assoc.erase moving.1 table, entry.2 < n :=
    fun entry among => known entry (mem_of_mem_erase among)
  cases found : get? moving.1 before with
  | none => exact erased
  | some h => exact added (old _ (mem_of_get? found)) erased

namespace Guarded

variable {walk walk' : Walk} {run run' : RunDocument} (walks : Guards g walk walk') (works : w.Works id)

/-! ## Fragments -/

include walks in
lemma runFragment {fragment : NodeId} (works : w.Works fragment) (location : String) :
    Guarded g Unsaid w (runFragment walk fragment location) (runFragment walk' fragment location) := by
  have reject : ∀ v (signal : Option Signal), Tame g Unsaid v (rejectSignal signal) := fun _ => g.likeness.rejectSignal
  have leaves : ∀ v : Moment, v.Sound → ∃ u, v ≤ u ∧ u.Sound ∧
      u.machine = v.machine.mapSession (fun s => { s with sourceDir := w.machine.session.sourceDir }) ∧
      ∀ a : Option Signal, Unsaid v a → Unsaid u a := by
    intro v sound
    obtain ⟨after, kept⟩ := sound.resume
      (t := { v.machine.session with sourceDir := w.machine.session.sourceDir }) { sound.session with }
    exact ⟨_, after, kept, rfl, fun _ _ => trivial⟩
  have here : Guarded g Unsaid w
      (Script.always (walk fragment) fun m => m.mapSession fun s =>
        { s with sourceDir := w.machine.session.sourceDir })
      (Script.always (walk' fragment) fun m => m.mapSession fun s =>
        { s with sourceDir := w.machine.session.sourceDir }) :=
    around id _ (l := g.licence) rfl (fun sound => ⟨w, le_refl w, sound, rfl, .refl _, walks w fragment works⟩)
      (fun _ v _ => leaves v) fun _ => .directory w.machine.session.sourceDir
  refine ask fun _ => ?_
  simp only []
  split
  · exact here.bind fun v signal _ _ => reject v signal
  · split
    · exact here.bind fun v signal _ _ => reject v signal
    · rename_i directory _
      have there : Guarded g Unsaid w
          (do
            changeSession fun s => { s with sourceDir := some (Locator.directory location) }
            Script.always (walk fragment) fun m => m.mapSession fun s =>
              { s with sourceDir := w.machine.session.sourceDir })
          (do
            changeSession fun s => { s with sourceDir := some (Locator.directory location) }
            Script.always (walk' fragment) fun m => m.mapSession fun s =>
              { s with sourceDir := w.machine.session.sourceDir }) := by
        refine around _ _ (l := g.licence) rfl (fun sound => ?_) (fun _ v _ => leaves v) fun _ => .directory _
        obtain ⟨later, kept⟩ := sound.resume
          (t := { w.machine.session with sourceDir := some (Locator.directory location) }) { sound.session with }
        exact ⟨_, later, kept, rfl, .refl _, walks _ fragment (works.later later)⟩
      have closed := there.bind (k := rejectSignal) (l := rejectSignal) fun v signal _ _ => reject v signal
      simpa only [bind_assoc] using closed

include walks in
lemma runFragmentIn {fragment : NodeId} (works : w.Works fragment) {space : Option String}
    (allowed : ∀ s, space = some s → ∀ name, g.licence.define (inNamespace s name)) (location : String) :
    Guarded g Unsaid w (runFragmentIn walk space fragment location) (runFragmentIn walk' space fragment location) := by
  unfold Script.runFragmentIn
  split
  · exact runFragment walks works location
  · rename_i space
    refine ask fun before => ?_
    have bound : Guarded g Unsaid w
        (Script.inScope (Script.runFragment walk fragment location) >>= fun ended => do
          bindName space (← newMapping ((← get).session.env.scope ended.2)))
        (Script.inScope (Script.runFragment walk' fragment location) >>= fun ended => do
          bindName space (← newMapping ((← get).session.env.scope ended.2))) := by
      refine (inScope (V := Unsaid) (fun v later => ?_) fun _ _ _ _ _ => trivial).bind fun v ended later _ => ?_
      · exact runFragment walks (works.later later) location
      · refine ask fun sound => (Tame.newMapping (sound.session.bound ended.2)).bind fun u value _ held => ?_
        exact Tame.bindName _ held
    -- the functions are moved at the end, against the table from before all of it
    have moved := bound.closing
      (f := fun m => m.mapSession fun s =>
        { s with functions := namespaced w.machine.session.functions s.functions space })
      (fun v later sound => ?_) fun _ => .move (allowed space rfl)
    · simp only [bind_assoc] at moved ⊢
      exact moved
    · have hosts : v.Hosts { v.machine.session with
          functions := namespaced w.machine.session.functions v.machine.session.functions space } :=
        { sound.session with
          named := known_namespaced (before.session.later later).named sound.session.named
          nodup := nodup_foldl_moved sound.session.nodup }
      obtain ⟨after, kept⟩ := sound.resume hosts
      exact ⟨_, after, kept, rfl⟩

end Guarded

/-! ## Modules -/

lemma fetch_keeps (locator : String) (m : Machine) :
    (fetch locator m).2.session = m.session ∧ (fetch locator m).2.modules = m.modules := by
  have settled : ∀ {α : Type} (x : Except Fault α),
      Alike (fun m' => m'.session = m.session ∧ m'.modules = m.modules) Any (settle x) (settle x) :=
    fun x => Alike.settle fun _ _ => trivial
  have kept : Alike (fun m' => m'.session = m.session ∧ m'.modules = m.modules) Any (fetch locator) (fetch locator) := by
    unfold fetch
    split
    · refine Alike.bind (Q := Any) ?_ fun body _ => Alike.bind (Q := Any) (Alike.changeGet fun _ => id) fun value _ => ?_
      · exact (Alike.changeGet fun _ => id).bind fun _ _ => settled _
      · exact (Alike.read.bind fun _ _ => settled _).bind fun _ _ => Alike.pure trivial
    · refine Alike.bind (Q := Any) (Alike.read.bind fun _ _ => Alike.pure trivial) fun path _ => ?_
      refine Alike.bind (Q := Any) ?_ fun _ _ => Alike.pure trivial
      exact (Alike.changeGet fun _ => id).bind fun _ _ => settled _
  exact (kept m ⟨rfl, rfl⟩).2.1

namespace Guarded

variable {walk walk' : Walk} {run run' : RunDocument} (runs : Guards g.abroad run run')

include runs in
lemma executeModule {key : String} (absent : get? key w.machine.modules = none) (src : String) :
    Guarded g (fun v child => v.Hosts child ∧ get? key v.machine.modules = none ∧
        key ∉ v.machine.session.loading) w
      (executeModule run key src) (executeModule run' key src) := by
  refine ask fun _ => ?_
  simp only []
  split
  · exact raise_bind _ _ _
  rename_i fresh
  have fresh : key ∉ w.machine.session.loading := by simpa using fresh
  refine (exact (V := Unsaid) (g.likeness.fetch src)).bind fun v (text, location) _ ⟨_, fetched, _⟩ => ?_
  obtain ⟨session, modules⟩ := fetch_keeps src w.machine
  rw [fetched] at session modules
  change v.machine.session = w.machine.session at session
  change v.machine.modules = w.machine.modules at modules
  rw [← modules] at absent
  rw [← session] at fresh ⊢
  refine (inSession (V := fun u _ => get? key u.machine.modules = none) (fun u _ here => ?_) ?_).exact.bind
    fun u (error, child) _ ⟨⟨absent, hosts⟩, _, course⟩ => ?_
  · have ran := (Tame.parseSource (g := g.abroad) (w := u) text).bind fun x root _ young => runs x root young.works
    refine ran.exact.imp fun x _ _ _ ⟨_, _, course⟩ => course.not_kept ?_ ?_
    · rw [here]
      exact List.mem_cons_self
    · rw [here]
      exact absent
  · intro v u _ _ here absent
    rw [here]
    exact absent
  · simp only []
    split
    · exact raise _
    · refine pure ⟨hosts, absent, ?_⟩
      rw [course.loading]
      exact fresh

lemma keepModule {key : String} {child : Session} (hosts : w.Hosts child)
    (absent : get? key w.machine.modules = none) (idle : key ∉ w.machine.session.loading) :
    Tame g (fun v module => v.Keeps module ∧ get? key v.machine.modules = some module ∧
        w.machine.store.Replica child.env.globals v.machine.store module.bindings) w (keepModule key child) := by
  refine (Tame.copies_aside fun _ => child.env.globals).exact.bind
    fun u copies later ⟨⟨within, replica⟩, ended, course⟩ => ?_
  have modules : u.machine.modules = w.machine.modules := (congrArg (fun x => x.2.modules) ended).symm
  have keeps : u.Keeps ⟨copies, child.functions⟩ := ⟨within, (hosts.later later).named, hosts.nodup⟩
  refine Guarded.bind (exact (V := Unsaid) (change fun sound => ⟨_, sound.keep keeps (modules ▸ absent) ?_, rfl⟩)) ?_
  · rw [course.loading]
    exact idle
  · intro v _ later ⟨_, kept, _⟩
    have kept : { u.machine with modules := Assoc.set key ⟨copies, child.functions⟩ u.machine.modules } = v.machine :=
      congrArg Prod.snd kept
    refine pure ⟨keeps.later later, ?_⟩
    rw [← kept]
    exact ⟨get?_set_self _ _ _, replica⟩

include runs in
lemma moduleOf (key src : String) :
    Guarded g (fun v module => v.Keeps module) w (moduleOf run key src) (moduleOf run' key src) := by
  refine ask fun sound => ?_
  cases found : get? key w.machine.modules with
  | some module => exact pure (sound.modules _ (mem_of_get? found))
  | none =>
    refine (executeModule runs found src).bind fun v child _ ⟨hosts, absent, idle⟩ => ?_
    exact (keepModule hosts absent idle).imp fun _ _ _ _ known => known.1

lemma lendModule (allowed : ∀ name, g.licence.define (inNamespace space name)) {module : Module}
    (keeps : w.Keeps module) {value : Value} (held : w.Holds value) :
    Tame g Unsaid w (do
      bindName space value
      changeSession fun s => { s with functions := loaned module.functions space s.functions }) := by
  refine (Tame.bindName _ held).bind fun y _ later _ => change fun sound => ?_
  have keeps := keeps.later later
  have named : ∀ entry ∈ loaned module.functions space y.machine.session.functions,
      entry.2 < y.machine.functions.size := by
    refine loaned_induction (P := fun table => ∀ entry ∈ table, entry.2 < y.machine.functions.size)
      sound.session.named fun table added mem known entry among => ?_
    rcases mem_set among with older | rfl
    · exact known entry older
    · exact keeps.named added mem
  have nodup : (Assoc.names (loaned module.functions space y.machine.session.functions)).Nodup :=
    loaned_induction (P := fun table => (Assoc.names table).Nodup) sound.session.nodup
      fun _ _ _ nodup => nodup_set nodup _ _
  have hosts : y.Hosts { y.machine.session with
      functions := loaned module.functions space y.machine.session.functions } :=
    { sound.session with named := named, nodup := nodup }
  obtain ⟨later, kept⟩ := sound.resume hosts
  exact ⟨_, ⟨later, kept, .lend _ allowed⟩, rfl⟩

lemma bindModule (allowed : ∀ name, g.licence.define (inNamespace space name)) {module : Module}
    (keeps : w.Keeps module) : Tame g Unsaid w (bindModule space module) := by
  refine (Tame.copyBindings _).bind fun u copies first held => (Tame.newMapping held).bind fun x value second held => ?_
  exact lendModule allowed (keeps.later (le_trans first second)) held

include runs in
lemma importModule (src : String) (allowed : ∀ name, g.licence.define (inNamespace space name)) :
    Guarded g Unsaid w (importModule run src space) (importModule run' src space) := by
  refine ask fun _ => ?_
  exact (moduleOf runs _ src).bind fun v module _ keeps => bindModule allowed keeps

lemma importSourceBy (walks : Guards g walk walk') {importing importing' : String → String → Run Unit} {node : Node}
    (imports : ∀ v src space, (∀ name, g.licence.define (inNamespace space name)) →
      Guarded g Unsaid v (importing src space) (importing' src space))
    (allowed : ∀ space, importSpace? node = some space → ∀ name, g.licence.define (inNamespace space name)) :
    Guarded g (fun v answer => ∀ fragment, answer = some fragment → w.Young v fragment) w
      (importSourceBy importing walk node) (importSourceBy importing' walk' node) := by
  unfold Script.importSourceBy
  split
  · exact raise _
  simp only []
  split
  · exact raise _
  · rename_i module
    have allowed := allowed ((given? node "namespace").getD "imported") (by rw [importSpace?, module])
    exact (imports w _ _ allowed).bind fun _ _ _ _ => pure nofun
  · rename_i kind other found
    have allowed : ∀ s, given? node "namespace" = some s → ∀ name, g.licence.define (inNamespace s name) := by
      intro s given
      refine allowed s ?_
      rw [importSpace?, found]
      cases kind with
      | module => exact absurd rfl other
      | _ => exact given
    refine Guarded.bind (V := Unsaid) (g.likeness.fetch _) fun v (text, location) later _ => ?_
    refine (Tame.parseSource text).bind fun u fragment _ young => ?_
    refine (runFragmentIn walks young.works allowed location).bind fun x _ after _ => pure ?_
    have young := (young.back later).later after
    intro other same
    split at same
    · cases same
      exact young
    · cases same

lemma runImportBy (works : w.Works id) {importing importing' : Node → Run (Option NodeId)}
    (imports : Guarded g (fun v answer => ∀ fragment, answer = some fragment → w.Young v fragment) w
      (importing (w.machine.forest.node id)) (importing' (w.machine.forest.node id))) :
    Guarded g Unsaid w (runImportBy importing id) (runImportBy importing' id) := by
  refine nodeOf fun _ => ?_
  refine Guarded.bind
    (V := fun v outcome => ∀ fragment, outcome = .ok (some fragment) → w.Young v fragment) ?_ ?_
  · refine recover ?_ fun _ _ _ => pure nofun
    refine imports.bind fun v answer _ known => pure ?_
    rintro fragment ⟨⟩
    exact known fragment rfl
  · intro v outcome later known
    have works' := works.later later
    split
    · rename_i fragment
      refine nodeOf fun sound => Tame.replaceWith works' ?_
      exact sound.children (known _ rfl).works (works.lt (known _ rfl))
    · exact Tame.removeNode works'
    · exact (Tame.emit _ _).bind fun _ _ after _ => Tame.removeNode (works'.later after)

include runs in
lemma runImport (walks : Guards g walk walk') (works : w.Works id) (allowed : g.licence.Allows .load id w.machine) :
    Guarded g Unsaid w (runImport walk run id) (runImport walk' run' id) := by
  refine runImportBy works ?_
  exact importSourceBy walks (fun _ src _ allowed => importModule runs src allowed) allowed

end Guarded

end TagScript.Script
