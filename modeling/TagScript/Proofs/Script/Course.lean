import TagScript.Proofs.Environment
import TagScript.Proofs.Script.Visit
import TagScript.Proofs.Value.Finite

/-!
# What a run can do

A run takes the machine from one state to another by moves of a few kinds, some of which need a
licence. What runs in a scope, a frame, an element or a session of its own is a move around others.
What a run leaves as it was follows from the moves alone.
-/

namespace TagScript

open List Environment Assoc

variable {P : Assoc FunctionId → Prop} {id : ScopeId}

namespace Assoc

variable {α : Type} {name other : String} {entries : Assoc α}

lemma get?_erase_other (different : other ≠ name) (entries : Assoc α) :
    get? other (erase name entries) = get? other entries := by
  induction entries with
  | nil => rfl
  | cons entry rest ih =>
    obtain ⟨key, value⟩ := entry
    by_cases same : key = name
    · subst same
      simp [erase, get?, Ne.symm different]
    · by_cases here : key = other
      · subst here
        simp [erase, get?, same]
      · simp [erase, get?, same, here, ih]

lemma has_set (held : has other entries) (name : String) (value : α) : has other (set name value entries) := by
  unfold has at held ⊢
  by_cases same : other = name
  · rw [same, get?_set_self]
    rfl
  · rwa [get?_set_other same]

lemma has_set_self (name : String) (value : α) (entries : Assoc α) : has name (set name value entries) := by
  rw [has, get?_set_self]
  rfl

lemma has_of_has_set {value : α} (held : has other (set name value entries)) : has other entries ∨ other = name := by
  by_cases same : other = name
  · exact .inr same
  · unfold has at held ⊢
    rw [get?_set_other same] at held
    exact .inl held

lemma names_set (name : String) (value : α) (entries : Assoc α) :
    names (set name value entries) = if name ∈ names entries then names entries else names entries ++ [name] := by
  induction entries with
  | nil => rfl
  | cons entry rest ih =>
    obtain ⟨key, old⟩ := entry
    by_cases same : key = name
    · simp [set, names, same]
    · simp only [names] at ih
      by_cases among : name ∈ rest.map Prod.fst <;> simp [set, names, same, Ne.symm same, among, ih]

lemma nodup_set (nodup : (names entries).Nodup) (name : String) (value : α) :
    (names (set name value entries)).Nodup := by
  rw [names_set]
  split
  · exact nodup
  · rename_i new
    refine nodup_append.mpr ⟨nodup, nodup_singleton _, fun x among y here => ?_⟩
    rw [mem_singleton.mp here]
    rintro rfl
    exact new among

lemma names_erase (name : String) (entries : Assoc α) : names (erase name entries) = (names entries).erase name := by
  induction entries with
  | nil => rfl
  | cons entry rest ih =>
    obtain ⟨key, value⟩ := entry
    by_cases same : key = name
    · simp [erase, names, same]
    · simp only [names] at ih
      simp [erase, names, same, ih]

lemma nodup_erase (nodup : (names entries).Nodup) (name : String) : (names (erase name entries)).Nodup := by
  rw [names_erase]
  exact nodup.erase name

lemma get?_erase_self (nodup : (names entries).Nodup) : get? name (erase name entries) = none := by
  cases found : get? name (erase name entries) with
  | none => rfl
  | some value =>
    have mem : name ∈ (names entries).erase name := by
      rw [← names_erase]
      exact mem_map.mpr ⟨_, mem_of_get? found, rfl⟩
    exact absurd rfl (nodup.mem_erase_iff.mp mem).1

lemma get?_of_mem (nodup : (names entries).Nodup) {value : α} (mem : (name, value) ∈ entries) :
    get? name entries = some value := by
  induction entries with
  | nil => cases mem
  | cons entry rest ih =>
    obtain ⟨key, old⟩ := entry
    obtain ⟨new, nodup⟩ := nodup_cons.mp nodup
    rcases mem_cons.mp mem with here | further
    · cases here
      simp [get?]
    · have other : key ≠ name := by
        rintro rfl
        exact new (mem_map.mpr ⟨_, further, rfl⟩)
      simp [get?, other, ih nodup further]

end Assoc

namespace Script

open Markup

/-! ## Tables of functions -/

section

variable {before after entries table : Assoc FunctionId} {space name : String}

lemma foldl_moved_induction (start : P table)
    (step : ∀ entry ∈ entries, Assoc.get? entry.1 before ≠ some entry.2 → ∀ table, P table →
      P (moved before space table entry)) : P (entries.foldl (moved before space) table) := by
  induction entries generalizing table with
  | nil => exact start
  | cons entry rest ih =>
    obtain ⟨here, further⟩ := forall_mem_cons.mp step
    refine ih ?_ further
    by_cases old : Assoc.get? entry.1 before = some entry.2
    · rwa [moved, if_pos old]
    · exact here old table start

lemma has_namespaced (old : has name before) (now : has name after) :
    has name (namespaced before after space) := by
  refine foldl_moved_induction (P := fun table => has name table) now fun entry _ new table held => ?_
  rw [moved, if_neg new]
  refine has_set ?_ _ _
  by_cases same : name = entry.1
  · subst same
    cases found : Assoc.get? entry.1 before with
    | none =>
      rw [Assoc.has, found] at old
      cases old
    | some g => exact Assoc.has_set_self _ _ _
  · have kept : Assoc.has name (Assoc.erase entry.1 table) := by
      rwa [Assoc.has, Assoc.get?_erase_other same]
    cases Assoc.get? entry.1 before with
    | none => exact kept
    | some g => exact has_set kept _ _

lemma nodup_foldl_moved (nodup : (names table).Nodup) :
    (names (entries.foldl (moved before space) table)).Nodup := by
  refine foldl_moved_induction (P := fun table => (names table).Nodup) nodup fun entry _ new table held => ?_
  rw [moved, if_neg new]
  refine nodup_set ?_ _ _
  cases Assoc.get? entry.1 before with
  | none => exact nodup_erase held _
  | some g => exact nodup_set (nodup_erase held _) _ _

/-- A name that is neither moved nor moved to means what it meant. -/
lemma get?_foldl_moved (untouched : ∀ entry ∈ entries, Assoc.get? entry.1 before ≠ some entry.2 →
    inNamespace space entry.1 ≠ name ∧ entry.1 ≠ name) :
    Assoc.get? name (entries.foldl (moved before space) table) = Assoc.get? name table := by
  refine foldl_moved_induction (P := fun result => Assoc.get? name result = Assoc.get? name table) rfl ?_
  intro entry mem new result held
  obtain ⟨target, source⟩ := untouched entry mem new
  rw [moved, if_neg new, ← held]
  refine (Assoc.get?_set_other target.symm _ _).trans ?_
  cases Assoc.get? entry.1 before with
  | none => exact Assoc.get?_erase_other source.symm _
  | some g => exact (Assoc.get?_set_other source.symm _ _).trans (Assoc.get?_erase_other source.symm _)

lemma get?_namespaced (nodup : (names after).Nodup) (same : Assoc.get? name after = Assoc.get? name before)
    (outside : ∀ other, inNamespace space other ≠ name) :
    Assoc.get? name (namespaced before after space) = Assoc.get? name after := by
  refine get?_foldl_moved fun entry mem new => ⟨outside entry.1, ?_⟩
  rintro rfl
  exact new (same.symm.trans (Assoc.get?_of_mem nodup mem))

lemma inNamespace_injective {other : String} (same : inNamespace space name = inNamespace space other) : name = other :=
  (String.append_right_inj _).mp same

lemma loaned_induction {functions : Assoc FunctionId} (start : P table)
    (added : ∀ table, ∀ entry ∈ functions, P table → P (Assoc.set (inNamespace space entry.1) entry.2 table)) :
    P (loaned functions space table) := by
  induction functions generalizing table with
  | nil => exact start
  | cons entry rest ih =>
    exact ih (added table entry mem_cons_self start) fun table entry mem =>
      added table entry (mem_cons_of_mem _ mem)

end

/-! ## Moves -/

/-- What may be done: exchange the contents of a container, change what a name is bound to where it
is bound, bind a name globally, give a function a name, and begin another document. -/
structure Licence where
  write : Store → Ref → Cell → Prop
  rebind : String → Prop
  global : String → Prop
  define : String → Prop
  start : Prop

namespace Licence

def full : Licence := ⟨fun _ _ _ => True, fun _ => True, fun _ => True, fun _ => True, True⟩

def abroad (l : Licence) : Licence := ⟨l.write, fun _ => True, fun _ => True, fun _ => True, True⟩

end Licence

/-- What a run does under a licence. -/
inductive Course : Licence → Machine → Machine → Prop where
  | refl (l : Licence) (m : Machine) : Course l m m
  | trans {l : Licence} {m m' m'' : Machine} : Course l m m' → Course l m' m'' → Course l m m''
  | store {l : Licence} {m : Machine} {t : Store} (work : Store.Work l.write m.store t) : Course l m { m with store := t }
  | forest (l : Licence) (m : Machine) (f : Forest) : Course l m { m with forest := f }
  | outside (l : Licence) (m : Machine) (world : World) (hosts : Array Host) :
    Course l m { m with world := world, hosts := hosts }
  | host (l : Licence) (m : Machine) (host : Option HostId) : Course l m (m.mapSession fun s => { s with host := host })
  | emit (l : Licence) (m : Machine) (effect : Effect) :
    Course l m (m.mapSession fun s => { s with effects := effect :: s.effects })
  | bind (l : Licence) (m : Machine) (name : String) (value : Value) :
    Course l m (m.mapEnv fun env => env.bind name value)
  | rebind {l : Licence} {m : Machine} {owner : ScopeId} {name : String} (value : Value) (allowed : l.rebind name)
    (bound : has name (m.session.env.scope owner)) :
    Course l m (m.mapEnv fun env => env.bindIn owner name value)
  | bindGlobal {l : Licence} {m : Machine} {name : String} (value : Value) (allowed : l.global name) :
    Course l m (m.mapEnv fun env => env.bindGlobal name value)
  | define {l : Licence} {m : Machine} {name : String} (f : Function) (allowed : l.define name) :
    Course l m { m with
      functions := m.functions.push f
      session := { m.session with functions := Assoc.set name m.functions.size m.session.functions } }
  | keep {l : Licence} {m : Machine} {key : String} (module : Module) (absent : Assoc.get? key m.modules = none)
    (idle : key ∉ m.session.loading) : Course l m { m with modules := Assoc.set key module m.modules }
  | lend {l : Licence} {m : Machine} {space : String} (functions : Assoc FunctionId)
    (allowed : ∀ name, l.define (inNamespace space name)) :
    Course l m (m.mapSession fun s => { s with functions := loaned functions space s.functions })
  | move {l : Licence} {m m' : Machine} {space : String} (allowed : ∀ name, l.define (inNamespace space name)) :
    Course l m m' →
      Course l m (m'.mapSession fun s => { s with functions := namespaced m.session.functions s.functions space })
  | start {l : Licence} {m : Machine} (document : NodeId) (allowed : l.start) : Course l m (m.entered document)
  | scope {l : Licence} {m m' : Machine} : Course l m.opened m' →
      Course l m m'.shut
  | frame {l : Licence} {m m' : Machine} (closure : Bindings) :
    Course l
        { m with
          store := (m.session.env.enterFrame m.store closure).2.2
          session := { m.session with env := (m.session.env.enterFrame m.store closure).2.1 } } m' →
      Course l m (m'.mapEnv fun env => { env with stack := m.session.env.stack })
  | element {l : Licence} {m m' : Machine} (tag : String) : Course l (m.enter tag) m' →
      Course l m m'.leave
  | directory {l : Licence} {m m' : Machine} (dir : Option String) :
    Course l (m.mapSession fun s => { s with sourceDir := dir }) m' →
      Course l m (m'.mapSession fun s => { s with sourceDir := m.session.sourceDir })
  | session {l : Licence} {m m' : Machine} (host : Option HostId) (dir : Option String) (key : String) :
    Course l.abroad { m with session := .new host dir (key :: m.session.loading) } m' →
      Course l m { m' with session := m.session }

namespace Course

variable {l : Licence} {m m' : Machine}

/-! ## What every run keeps -/

lemma work (course : Course l m m') : Store.Work l.write m.store m'.store := by
  induction course with
  | refl l m => exact .refl _
  | trans _ _ first second => exact .trans first second
  | store work => exact work
  | move _ _ ih | scope _ ih => exact ih
  | frame closure _ ih => exact .trans (.copy _ closure) ih
  | element _ _ ih | directory _ _ ih | session _ _ _ _ ih => exact ih
  | _ => exact .refl _

@[simp] lemma loading_entered (m : Machine) (document : NodeId) :
    (m.entered document).session.loading = m.session.loading := by
  unfold Machine.entered bindHostTags
  cases h : m.session.host <;> simp [Machine.mapSession, h]

@[simp] lemma env_entered (m : Machine) (document : NodeId) : (m.entered document).session.env = m.session.env := by
  unfold Machine.entered bindHostTags
  cases h : m.session.host <;> simp [Machine.mapSession, h]

@[simp] lemma functions_entered (m : Machine) (document : NodeId) :
    (m.entered document).session.functions = m.session.functions := by
  unfold Machine.entered bindHostTags
  cases h : m.session.host <;> simp [Machine.mapSession, h]

lemma loading (course : Course l m m') : m'.session.loading = m.session.loading := by
  induction course with
  | trans _ _ first second => exact second.trans first
  | move _ _ ih => exact ih
  | start document _ => exact loading_entered _ _
  | scope _ ih | frame _ _ ih | element _ _ ih | directory _ _ ih => exact ih
  | _ => rfl

lemma not_kept (course : Course l m m') {key : String} (loading : key ∈ m.session.loading)
    (absent : Assoc.get? key m.modules = none) : Assoc.get? key m'.modules = none := by
  induction course with
  | trans course _ first second => exact second (course.loading ▸ loading) (first loading absent)
  | keep other _ idle =>
    rwa [Assoc.get?_set_other]
    rintro rfl
    exact idle loading
  | move _ _ ih | scope _ ih | frame _ _ ih | element _ _ ih | directory _ _ ih => exact ih loading absent
  | session host dir key _ ih => exact ih (mem_cons_of_mem _ loading) absent
  | _ => exact absent

/-- What is left of an environment whose stack has been put back. -/
structure Settled (env env' : Environment) : Prop where
  stack : env'.stack = env.stack
  global : env'.globalId = env.globalId
  scopes : env.scopes.size ≤ env'.scopes.size

lemma Settled.refl (env : Environment) : Settled env env :=
  ⟨rfl, rfl, le_refl _⟩

lemma Settled.bindIn (env : Environment) (owner : ScopeId) (name : String) (value : Value) :
    Settled env (env.bindIn owner name value) :=
  ⟨rfl, rfl, le_of_eq (env.size_bindIn owner name value).symm⟩

lemma Settled.current {env env' : Environment} (settled : Settled env env') : env'.currentId = env.currentId := by
  rw [Environment.currentId, Environment.currentId, settled.stack, settled.global]

lemma pop_of_settled {env env' : Environment} (settled : Settled (env.push []).2 env') (stacked : env.stack ≠ []) :
    env'.pop?.elim env' Prod.snd = { env' with stack := env.stack } := by
  have stack : env'.stack = env.scopes.size :: env.stack := settled.stack
  obtain ⟨below, rest, found⟩ := exists_cons_of_ne_nil stacked
  simp [Environment.pop?, stack, found]

lemma settled (course : Course l m m') (stacked : m.session.env.stack ≠ []) : Settled m.session.env m'.session.env := by
  induction course with
  | trans _ _ first second =>
    have first := first stacked
    have second := second (first.stack ▸ stacked)
    exact ⟨second.stack.trans first.stack, second.global.trans first.global, le_trans first.scopes second.scopes⟩
  | bind | rebind | bindGlobal => exact .bindIn _ _ _ _
  | move _ _ ih => exact ih stacked
  | start document _ => exact (env_entered _ document).symm ▸ Settled.refl _
  | @scope l m m' _ ih =>
    have inner := ih (cons_ne_nil _ _)
    show Settled m.session.env (m'.session.env.pop?.elim m'.session.env Prod.snd)
    rw [pop_of_settled inner stacked]
    refine ⟨rfl, inner.global, le_trans ?_ inner.scopes⟩
    show m.session.env.scopes.size ≤ (m.session.env.scopes.push []).size
    simp
  | @frame l m m' closure _ ih =>
    have inner := ih (cons_ne_nil _ _)
    refine ⟨rfl, inner.global, le_trans ?_ inner.scopes⟩
    show m.session.env.scopes.size ≤ (m.session.env.scopes.push _).size
    simp
  | element _ _ ih | directory _ _ ih => exact ih stacked
  | _ => exact .refl _

lemma effects (course : Course l m m') (still : ¬ l.start) :
    ∃ sent, m'.session.effects = sent ++ m.session.effects := by
  induction course with
  | trans _ _ first second =>
    obtain ⟨sent, here⟩ := first still
    obtain ⟨more, there⟩ := second still
    exact ⟨more ++ sent, by rw [there, here, append_assoc]⟩
  | emit l m effect => exact ⟨[effect], rfl⟩
  | move _ _ ih => exact ih still
  | start document allowed => exact absurd allowed still
  | scope _ ih | frame _ _ ih | element _ _ ih | directory _ _ ih => exact ih still
  | _ => exact ⟨[], rfl⟩

/-! ## Scopes -/

lemma scope_push (env : Environment) (there : id < env.scopes.size) (bindings : Bindings) :
    (env.newScope bindings).2.scope id = env.scope id := by
  rw [scope_newScope, if_neg (ne_of_lt there)]

variable {name : String}

lemma held (course : Course l m m') {id : ScopeId}
    (held : has name (m.session.env.scope id)) : has name (m'.session.env.scope id) := by
  have kept : ∀ (env : Environment) (owner : ScopeId) (bound : String) (value : Value),
      has name (env.scope id) → has name ((env.bindIn owner bound value).scope id) := by
    intro env owner bound value held
    rw [scope_bindIn]
    split
    · exact has_set held _ _
    · exact held
  have there : ∀ (env : Environment) (bindings : Bindings), has name (env.scope id) →
      has name ((env.newScope bindings).2.scope id) := by
    intro env bindings held
    rw [scope_newScope]
    split
    · rename_i new
      simp [new, Environment.scope, Array.getD_eq_getD_getElem?, Assoc.has, Assoc.get?] at held
    · exact held
  induction course with
  | trans _ _ first second => exact second (first held)
  | bind | rebind | bindGlobal => exact kept _ _ _ _ held
  | move _ _ ih => exact ih held
  | start document _ => rwa [env_entered]
  | @scope l m m' _ ih =>
    have scopes : (m'.session.env.pop?.elim m'.session.env Prod.snd).scopes = m'.session.env.scopes := by
      unfold Environment.pop?
      split <;> rfl
    show has name ((m'.session.env.pop?.elim m'.session.env Prod.snd).scope id)
    rw [Environment.scope, scopes]
    exact ih (there _ [] held)
  | frame closure _ ih => exact ih (there _ _ held)
  | element _ _ ih | directory _ _ ih => exact ih held
  | _ => exact held

/-- A scope has been changed as licensed: names that it has are bound again, and new names if it is
the global one. -/
inductive Rebound (l : Licence) (global : Prop) (before : Bindings) : Bindings → Prop where
  | refl : Rebound l global before before
  | set {after : Bindings} {name : String} (value : Value)
    (allowed : l.rebind name ∧ has name after ∨ global ∧ l.global name) :
    Rebound l global before after → Rebound l global before (Assoc.set name value after)

namespace Rebound

variable {global : Prop} {a b c : Bindings}

lemma trans (first : Rebound l global a b) (second : Rebound l global b c) : Rebound l global a c := by
  induction second with
  | refl => exact first
  | set value allowed _ ih => exact .set value allowed ih

lemma gained (rebound : Rebound l global a b) (held : has name b) :
    has name a ∨ global ∧ l.global name := by
  induction rebound with
  | refl => exact .inl held
  | set value allowed _ ih =>
    rcases has_of_has_set held with before | rfl
    · exact ih before
    · exact allowed.elim (fun known => ih known.2) .inr

lemma bound_eq (rebound : Rebound l global a b) (again : ¬ l.rebind name) (anew : ¬ l.global name) :
    Assoc.get? name b = Assoc.get? name a := by
  induction rebound with
  | refl => rfl
  | set value allowed _ ih =>
    rw [Assoc.get?_set_other, ih]
    rintro rfl
    exact allowed.elim (fun known => again known.1) fun known => anew known.2

end Rebound

lemma rebound (course : Course l m m') (stacked : m.session.env.stack ≠ [])
    (there : id < m.session.env.scopes.size) (outer : id ≠ m.session.env.currentId) :
    Rebound l (id = m.session.env.globalId) (m.session.env.scope id) (m'.session.env.scope id) := by
  have bound : ∀ {l : Licence} {global : Prop} (env : Environment) (owner : ScopeId) (name : String) (value : Value),
      (id = owner → l.rebind name ∧ has name (env.scope id) ∨ global ∧ l.global name) →
      Rebound l global (env.scope id) ((env.bindIn owner name value).scope id) := by
    intro l global env owner name value allowed
    rw [scope_bindIn]
    split
    · rename_i here
      exact .set value (allowed here.1) .refl
    · exact .refl
  induction course with
  | trans course _ first second =>
    have settled := course.settled stacked
    have further := second (settled.stack ▸ stacked) (lt_of_lt_of_le there settled.scopes) (settled.current ▸ outer)
    rw [settled.global] at further
    exact (first stacked there outer).trans further
  | bind l m name value => exact bound m.session.env _ name value fun here => absurd here outer
  | rebind value allowed held => exact bound _ _ _ value fun here => .inl ⟨allowed, here ▸ held⟩
  | bindGlobal value allowed => exact bound _ _ _ value fun here => .inr ⟨here, allowed⟩
  | move _ _ ih => exact ih stacked there outer
  | start document _ =>
    rw [env_entered]
    exact .refl
  | @scope l m m' course ih =>
    show Rebound l _ _ ((m'.session.env.pop?.elim m'.session.env Prod.snd).scope id)
    rw [pop_of_settled (course.settled (cons_ne_nil _ _)) stacked, ← scope_push m.session.env there []]
    have later : id < (m.session.env.scopes.push []).size := by simpa using Nat.lt_succ_of_lt there
    exact ih (cons_ne_nil _ _) later (ne_of_lt there)
  | @frame l m m' closure course ih =>
    rw [← scope_push m.session.env there (m.store.copyEntries closure).1]
    have later : id < (m.session.env.scopes.push (m.store.copyEntries closure).1).size := by
      simpa using Nat.lt_succ_of_lt there
    exact ih (cons_ne_nil _ _) later (ne_of_lt there)
  | element _ _ ih | directory _ _ ih => exact ih stacked there outer
  | _ => exact .refl

/-! ## Functions -/

lemma named (course : Course l m m') (held : has name m.session.functions) :
    has name m'.session.functions := by
  induction course with
  | trans _ _ first second => exact second (first held)
  | define f _ => exact has_set held _ _
  | lend functions _ =>
    exact loaned_induction (P := fun table => has name table) held fun _ _ _ held => has_set held _ _
  | move _ _ ih => exact has_namespaced held (ih held)
  | start document _ => rwa [functions_entered]
  | scope _ ih | frame _ _ ih | element _ _ ih | directory _ _ ih => exact ih held
  | _ => exact held

lemma nodup (course : Course l m m') (nodup : (names m.session.functions).Nodup) :
    (names m'.session.functions).Nodup := by
  induction course with
  | trans _ _ first second => exact second (first nodup)
  | define f _ => exact nodup_set nodup _ _
  | lend functions _ =>
    exact loaned_induction (P := fun table => (names table).Nodup) nodup fun _ _ _ held => nodup_set held _ _
  | move _ _ ih => exact nodup_foldl_moved (ih nodup)
  | start document _ => rwa [functions_entered]
  | scope _ ih | frame _ _ ih | element _ _ ih | directory _ _ ih => exact ih nodup
  | _ => exact nodup

lemma meaning_eq (course : Course l m m') (nodup : (names m.session.functions).Nodup)
    (kept : ¬ l.define name) : Assoc.get? name m'.session.functions = Assoc.get? name m.session.functions := by
  induction course with
  | trans course _ first second => exact (second (course.nodup nodup) kept).trans (first nodup kept)
  | @define l m other f allowed =>
    refine Assoc.get?_set_other ?_ _ _
    rintro rfl
    exact kept allowed
  | @lend l m space functions allowed =>
    refine loaned_induction (P := fun table => Assoc.get? name table = Assoc.get? name m.session.functions) rfl ?_
    intro table entry _ held
    rw [Assoc.get?_set_other _ _ _, held]
    rintro rfl
    exact kept (allowed _)
  | @move l m m' space allowed course ih =>
    have same := ih nodup kept
    refine (get?_namespaced (course.nodup nodup) same ?_).trans same
    rintro other rfl
    exact kept (allowed other)
  | start document _ => rw [functions_entered]
  | scope _ ih | frame _ _ ih | element _ _ ih | directory _ _ ih => exact ih nodup kept
  | _ => rfl

end Course

end Script

end TagScript
