import TagScript.Proofs.Expr.Confined
import TagScript.Proofs.Markup.Template
import TagScript.Proofs.Script.Conduct
import TagScript.Proofs.Script.Course
import TagScript.Proofs.Value.Replica

/-!
# Runs that leave templates alone

A moment is a state of the machine together with what is set aside in it. It is sound if nothing
that is at work leads to that. A run is guarded if from every sound moment it comes to a sound
moment in which all that was set aside is as it was, by a course that it has the licence for.

Guarded runs come in pairs. The second one may look at the last state of all and do something else
where what it finds is not as it is then; as nothing that is set aside ever changes, it does the
same as the first.
-/

namespace TagScript.Script

open Markup List Environment Assoc

variable {value : Value} {P : Machine → Prop} {id : NodeId} {m : Machine} {u : Moment} {f : Machine → Machine}

/-- Which containers and which nodes are set aside. -/
structure Vault where
  refs : Ref → Prop
  nodes : NodeId → Prop

/-- A state of the machine, with what is set aside in it. -/
structure Moment where
  vault : Vault
  machine : Machine

namespace Moment

variable {w v : Moment}

def Holds (w : Moment) (value : Value) : Prop :=
  w.machine.store.Loose w.vault.refs value

/-- A node that is at work. -/
def Works (w : Moment) (id : NodeId) : Prop :=
  w.machine.forest.Loose w.vault.nodes id

/-- A node that is at work, and has been made since an earlier moment. -/
structure Young (w v : Moment) (id : NodeId) : Prop where
  works : v.Works id
  since : w.machine.forest.nodes.size ≤ id

/-- A session in which nothing leads to what is set aside, and whose functions are there. It has
scopes, the global one among them, and no two functions of one name. -/
structure Hosts (w : Moment) (session : Session) : Prop where
  bound : ∀ id, ∀ entry ∈ session.env.scope id, w.Holds entry.2
  document : ∀ id, session.document = some id → w.Works id
  named : ∀ entry ∈ session.functions, entry.2 < w.machine.functions.size
  stacked : session.env.stack ≠ []
  global : session.env.globalId < session.env.scopes.size
  nodup : (Assoc.names session.functions).Nodup

/-- What is kept of a module is set aside, and its functions are there, no two of one name. -/
structure Keeps (w : Moment) (module : Module) : Prop where
  bound : ∀ entry ∈ module.bindings, entry.2.Within w.vault.refs
  named : ∀ entry ∈ module.functions, entry.2 < w.machine.functions.size
  nodup : (Assoc.names module.functions).Nodup

/-- Templates are set aside, and nothing that is at work leads to them. -/
structure Sound (w : Moment) : Prop where
  marked : Num.constantMark < w.machine.store.nextMark
  store : w.machine.store.Parted w.vault.refs
  forest : w.machine.forest.Parted w.vault.nodes
  functions : ∀ f ∈ w.machine.functions, w.vault.nodes f.body ∧ ∀ entry ∈ f.closure, entry.2.Within w.vault.refs
  modules : ∀ entry ∈ w.machine.modules, w.Keeps entry.2
  session : w.Hosts w.machine.session

/-- What was set aside still is, as it was; what has been set aside since then was made since then.
No function and no module is replaced. -/
structure Before (w v : Moment) : Prop where
  refs : ∀ r, w.vault.refs r → v.vault.refs r ∧ v.machine.store.cell r = w.machine.store.cell r
  newRefs : ∀ r, v.vault.refs r → w.vault.refs r ∨ w.machine.store.cells.size ≤ r
  store : w.machine.store.cells.size ≤ v.machine.store.cells.size
  nodes : ∀ x, w.vault.nodes x → v.vault.nodes x ∧ v.machine.forest.node x = w.machine.forest.node x
  newNodes : ∀ x, v.vault.nodes x → w.vault.nodes x ∨ w.machine.forest.nodes.size ≤ x
  forest : w.machine.forest.nodes.size ≤ v.machine.forest.nodes.size
  functions : ∀ (i : Nat) f, w.machine.functions[i]? = some f → v.machine.functions[i]? = some f
  modules : ∀ key module, get? key w.machine.modules = some module →
    get? key v.machine.modules = some module

lemma Before.refl (w : Moment) : w.Before w where
  refs _ set := ⟨set, rfl⟩
  newRefs _ := .inl
  store := le_refl _
  nodes _ set := ⟨set, rfl⟩
  newNodes _ := .inl
  forest := le_refl _
  functions _ _ := id
  modules _ _ := id

lemma Before.trans (first : w.Before v) (second : v.Before u) : w.Before u where
  refs r set := by
    obtain ⟨kept, same⟩ := second.refs r (first.refs r set).1
    exact ⟨kept, same.trans (first.refs r set).2⟩
  newRefs r set := by
    rcases second.newRefs r set with before | new
    · exact first.newRefs r before
    · exact .inr (le_trans first.store new)
  store := le_trans first.store second.store
  nodes x set := by
    obtain ⟨kept, same⟩ := second.nodes x (first.nodes x set).1
    exact ⟨kept, same.trans (first.nodes x set).2⟩
  newNodes x set := by
    rcases second.newNodes x set with before | new
    · exact first.newNodes x before
    · exact .inr (le_trans first.forest new)
  forest := le_trans first.forest second.forest
  functions i f found := second.functions i f (first.functions i f found)
  modules key module found := second.modules key module (first.modules key module found)

instance : Preorder Moment where
  le := Before
  le_refl := Before.refl
  le_trans _ _ _ := Before.trans

def Until (w : Moment) (m : Machine) : Prop :=
  ∃ vault, w ≤ ⟨vault, m⟩

lemma Until.back (before : v.Until m) (later : w ≤ v) : w.Until m :=
  let ⟨vault, further⟩ := before
  ⟨vault, le_trans later further⟩

lemma Holds.later {value : Value} (holds : w.Holds value) (later : w ≤ v) : v.Holds value := by
  refine holds.imp fun r here => ⟨lt_of_lt_of_le here.1 later.store, fun set => ?_⟩
  exact (later.newRefs r set).elim here.2 (Nat.not_le.mpr here.1)

lemma Works.later {id : NodeId} (works : w.Works id) (later : w ≤ v) : v.Works id := by
  refine ⟨lt_of_lt_of_le works.1 later.forest, fun set => ?_⟩
  exact (later.newNodes id set).elim works.2 (Nat.not_le.mpr works.1)

lemma Young.later {u : Moment} {id : NodeId} (young : w.Young v id) (later : v ≤ u) : w.Young u id :=
  ⟨young.works.later later, young.since⟩

lemma Young.back (young : v.Young u id) (later : w ≤ v) : w.Young u id :=
  ⟨young.works, le_trans later.forest young.since⟩

lemma Works.lt {other : NodeId} (works : w.Works id) (young : w.Young v other) : id < other :=
  lt_of_lt_of_le works.1 young.since

lemma Before.known (later : w ≤ v) {f : FunctionId} (known : f < w.machine.functions.size) :
    f < v.machine.functions.size :=
  (Array.getElem?_eq_some_iff.mp (later.functions f _ (Array.getElem?_eq_getElem known))).1

lemma Hosts.later {session : Session} (hosts : w.Hosts session) (later : w ≤ v) : v.Hosts session :=
  { hosts with
    bound := fun id entry member => (hosts.bound id entry member).later later
    document := fun id here => (hosts.document id here).later later
    named := fun entry member => Before.known later (hosts.named entry member) }

lemma Keeps.later {module : Module} (keeps : w.Keeps module) (later : w ≤ v) : v.Keeps module where
  bound entry member := (keeps.bound entry member).imp fun r set => (later.refs r set).1
  named entry member := Before.known later (keeps.named entry member)
  nodup := keeps.nodup

lemma Hosts.newScope {s : Session} (hosts : w.Hosts s) {b : Bindings} (held : ∀ entry ∈ b, w.Holds entry.2) :
    w.Hosts { s with env := (s.env.newScope b).2 } :=
  { hosts with
    bound := fun id entry member => by
      rw [scope_newScope] at member
      split at member
      · exact held entry member
      · exact hosts.bound id entry member
    global := by
      simp only [Environment.newScope, Array.size_push]
      exact Nat.lt_succ_of_lt hosts.global }

lemma Hosts.bindIn {s : Session} (hosts : w.Hosts s) (owner : ScopeId) (name : String)
    (held : w.Holds value) : w.Hosts { s with env := s.env.bindIn owner name value } :=
  { hosts with
    bound := fun id entry member => by
      rw [scope_bindIn] at member
      split at member
      · rcases Assoc.mem_set member with older | rfl
        · exact hosts.bound id entry older
        · exact held
      · exact hosts.bound id entry member
    global := (s.env.size_bindIn owner name value).symm ▸ hosts.global }

lemma Hosts.new (w : Moment) (host : Option HostId) (dir : Option String) (loading : List String) :
    w.Hosts (Session.new host dir loading) where
  bound scope entry member := by
    have empty : (Session.new host dir loading).env.scope scope = [] := by
      cases scope <;> rfl
    rw [empty] at member
    cases member
  document _ never := nomatch never
  named _ never := nomatch never
  stacked := cons_ne_nil _ _
  global := zero_lt_one
  nodup := nodup_nil

lemma holds_of_leaf (leaf : value.ref? = none) : w.Holds value :=
  Value.within_of_leaf leaf

lemma Holds.bounded (holds : w.Holds value) : value.Within (· < w.machine.store.cells.size) :=
  holds.imp fun _ here => here.1

lemma Sound.get? (sound : w.Sound) {name : String}
    (found : w.machine.session.env.get? name = some value) : w.Holds value := by
  obtain ⟨id, _, mem⟩ := exists_of_get? found
  exact sound.session.bound id _ mem

section

variable (sound : w.Sound) (later : w ≤ v)
include sound later

lemma Sound.markup_eq {x : NodeId} (set : w.vault.nodes x) :
    v.machine.forest.markup x = w.machine.forest.markup x :=
  sound.forest.markup_eq later.forest (fun y aside => (later.nodes y aside).2) set

variable {entries copies : Assoc Value}

lemma Sound.replica_later {s : Store} (replica : s.Replica entries w.machine.store copies)
    (within : ∀ entry ∈ copies, entry.2.Within w.vault.refs) : s.Replica entries v.machine.store copies :=
  replica.later within sound.store.kept fun r set => (later.refs r set).2

lemma Sound.replica_of_source {t : Store}
    (replica : w.machine.store.Replica entries t copies) (within : ∀ entry ∈ entries, entry.2.Within w.vault.refs) :
    v.machine.store.Replica entries t copies :=
  replica.of_source within sound.store.kept fun r set => (later.refs r set).2

end

/-! ## Changes -/

/-- A sound moment that is reached by a course with a licence. -/
structure Reaches (l : Licence) (w v : Moment) : Prop where
  later : w ≤ v
  sound : v.Sound
  course : Course l w.machine v.machine

lemma Reaches.trans {l : Licence} (first : w.Reaches l v) (second : v.Reaches l u) : w.Reaches l u :=
  ⟨le_trans first.later second.later, second.sound, first.course.trans second.course⟩

section

variable {l : Licence} (sound : w.Sound)
include sound

lemma Sound.kept (later : w ≤ v) : ∀ entry ∈ w.machine.modules, v.Keeps entry.2 :=
  fun entry mem => (sound.modules entry mem).later later

lemma Sound.restore {store : Store} (beside : w.machine.store.Beside w.vault.refs store)
    (work : Store.Work l.write w.machine.store store) :
    w.Reaches l ⟨w.vault, { w.machine with store := store }⟩ := by
  refine (fun later => ⟨later, { sound with
    marked := lt_of_lt_of_le sound.marked work.marks
    store := beside.parted
    session := sound.session.later later
    modules := sound.kept later }, .store work⟩) ?_
  exact { Before.refl w with refs := fun r set => ⟨set, beside.same r set⟩, store := beside.grows }

lemma Sound.regrow {forest : Forest} (beside : w.machine.forest.Beside w.vault.nodes forest) :
    w.Reaches l ⟨w.vault, { w.machine with forest := forest }⟩ := by
  refine (fun later => ⟨later, { sound with
    forest := beside.parted, session := sound.session.later later, modules := sound.kept later }, .forest l _ _⟩) ?_
  exact { Before.refl w with nodes := fun x set => ⟨set, beside.same x set⟩, forest := beside.grows }

lemma Sound.restoreAside {store : Store} (grown : w.machine.store.Grown store)
    (work : Store.Work l.write w.machine.store store) :
    w.Reaches l ⟨⟨fun r => w.vault.refs r ∨ w.machine.store.New store r, w.vault.nodes⟩,
      { w.machine with store := store }⟩ := by
  refine (fun later => ⟨later, ⟨lt_of_lt_of_le sound.marked work.marks, grown.parted_aside sound.store, sound.forest,
    fun f mem => ?_, sound.kept later, sound.session.later later⟩, .store work⟩) ?_
  · exact {
      Before.refl w with
      refs := fun r set => ⟨.inl set, grown.kept r (sound.store.there r set)⟩
      newRefs := fun r => Or.imp_right And.left
      store := grown.grows }
  · obtain ⟨body, closure⟩ := sound.functions f mem
    exact ⟨body, fun entry among => (closure entry among).imp fun _ => .inl⟩

lemma Sound.regrowAside {forest : Forest} (copied : Forest.CopyOf w.machine.forest forest none id) :
    w.Reaches l ⟨⟨w.vault.refs, fun x => w.vault.nodes x ∨ (w.machine.forest.nodes.size ≤ x ∧ x < forest.nodes.size)⟩,
      { w.machine with forest := forest }⟩ := by
  refine (fun later => ⟨later, ⟨sound.marked, sound.store, copied.parted_aside sound.forest,
    fun f mem => (sound.functions f mem).imp_left .inl, sound.kept later, sound.session.later later⟩, .forest l _ _⟩) ?_
  exact {
    Before.refl w with
    nodes := fun x set => ⟨.inl set, copied.kept x (sound.forest.there x set)⟩
    newNodes := fun x => Or.imp_right And.left
    forest := le_of_lt copied.grows }

lemma Sound.resume {t : Session} (hosts : w.Hosts t) :
    w ≤ ⟨w.vault, { w.machine with session := t }⟩ ∧ Sound ⟨w.vault, { w.machine with session := t }⟩ := by
  refine (fun later => ⟨later, { sound with session := hosts.later later, modules := sound.kept later }⟩) ?_
  exact { Before.refl w with }

lemma Sound.push : w ≤ ⟨w.vault, w.machine.opened⟩ ∧ Sound ⟨w.vault, w.machine.opened⟩ := by
  have hosts := sound.session.newScope (b := []) nofun
  exact sound.resume (t := { w.machine.session with env := (w.machine.session.env.push []).2 })
    { hosts with stacked := cons_ne_nil _ _ }

lemma Sound.define {body : NodeId} (set : w.vault.nodes body) {closure : Bindings}
    (within : ∀ entry ∈ closure, entry.2.Within w.vault.refs) {name : String} (params : List String)
    (allowed : l.define name) :
    w.Reaches l ⟨w.vault, { w.machine with
      functions := w.machine.functions.push ⟨name, params, body, closure⟩
      session := { w.machine.session with
        functions := Assoc.set name w.machine.functions.size w.machine.session.functions } }⟩ := by
  refine (fun later => ⟨later, { sound with
    functions := fun f mem => ?_, session := ?_, modules := sound.kept later }, .define _ allowed⟩) ?_
  · refine { Before.refl w with functions := fun i f found => ?_ }
    obtain ⟨bound, here⟩ := Array.getElem?_eq_some_iff.mp found
    exact (Array.getElem?_push_lt bound).trans (congrArg some here)
  · rcases Array.mem_push.mp mem with older | rfl
    · exact sound.functions f older
    · exact ⟨set, within⟩
  · have hosts := sound.session.later later
    refine { hosts with named := fun entry mem => ?_, nodup := nodup_set hosts.nodup _ _ }
    rcases Assoc.mem_set mem with older | rfl
    · exact hosts.named entry older
    · exact lt_of_lt_of_eq (Nat.lt_succ_self _) (Array.size_push ..).symm

lemma Sound.keep {module : Module} (keeps : w.Keeps module) {key : String}
    (absent : Assoc.get? key w.machine.modules = none) (idle : key ∉ w.machine.session.loading) :
    w.Reaches l ⟨w.vault, { w.machine with modules := Assoc.set key module w.machine.modules }⟩ := by
  refine (fun later => ⟨later, { sound with modules := fun entry mem => ?_, session := sound.session.later later },
    .keep module absent idle⟩) ?_
  · refine { Before.refl w with modules := fun other kept found => ?_ }
    rw [get?_set_other _ _ _, found]
    rintro rfl
    rw [absent] at found
    cases found
  · rcases Assoc.mem_set mem with older | rfl
    · exact (sound.modules entry older).later later
    · exact keeps.later later

lemma Sound.elsewhere (world : World) (hosts : Array Host) :
    w.Reaches l ⟨w.vault, { w.machine with world := world, hosts := hosts }⟩ := by
  refine (fun later => ⟨later, { sound with
    session := sound.session.later later, modules := sound.kept later }, .outside l _ _ _⟩) ?_
  exact { Before.refl w with }

lemma Sound.bindIn (o : Environment → ScopeId) (name : String) (held : w.Holds value)
    (course : Course l w.machine (w.machine.mapEnv fun env => env.bindIn (o env) name value)) :
    w.Reaches l ⟨w.vault, w.machine.mapEnv fun env => env.bindIn (o env) name value⟩ := by
  obtain ⟨later, kept⟩ := sound.resume (sound.session.bindIn (o w.machine.session.env) name held)
  exact ⟨later, kept, course⟩

end

end Moment

open Moment (Holds Works Reaches)

/-- What runs are held to: the state that the second run of a pair looks at, what may be done, and
what is true of all stores as long as nothing else is done. -/
structure Rule where
  last : Machine
  licence : Licence
  holds : Store → Prop
  kept : ∀ {s t : Store}, s.Closed → Store.Work licence.write s t → holds s → holds t

def Rule.under (g : Rule) {l : Licence} (same : l.write = g.licence.write) : Rule :=
  ⟨g.last, l, g.holds, fun closed work => g.kept closed (same ▸ work)⟩

def Rule.abroad (g : Rule) : Rule := g.under (l := g.licence.abroad) rfl

variable {α β γ : Type} {g : Rule} {w v : Moment} {V : Moment → α → Prop} {U : Moment → β → Prop}

/-! ## Pairs of runs -/

abbrev Unsaid (_ : Moment) (_ : α) : Prop := True

/-- A run has come to a sound moment with a result that has the stated property, or has failed. The
second run has come to the same, if it looks at a state from then on. -/
structure Arrives (g : Rule) (V : Moment → α → Prop) (w v : Moment) (x y : Except Raised α × Machine) : Prop
    extends w.Reaches g.licence v where
  machine : v.machine = x.2
  known : ∀ a, x.1 = .ok a → V v a
  alike : v.Until g.last → y = x

/-- A sound moment with a store of which the rule holds. -/
structure Moment.Stands (g : Rule) (w : Moment) : Prop where
  sound : w.Sound
  holds : g.holds w.machine.store

lemma Moment.Stands.reach (stands : w.Stands g) (reaches : w.Reaches g.licence v) : v.Stands g :=
  ⟨reaches.sound, g.kept stands.sound.store.closed reaches.course.work stands.holds⟩

/-- From a sound moment two runs come to another one, by the rule. -/
def Guarded (g : Rule) (V : Moment → α → Prop) (w : Moment) (c d : Run α) : Prop :=
  w.Stands g → ∃ v, Arrives g V w v (c w.machine) (d w.machine)

abbrev Tame (g : Rule) (V : Moment → α → Prop) (w : Moment) (c : Run α) : Prop :=
  Guarded g V w c c

open Classical in
noncomputable def ensure (alarm : Run Unit) (P : Machine → Prop) : Run Unit := do
  if P (← get) then return () else alarm

lemma ensure_bind (alarm : Run Unit) (d : Run α) (holds : P m) :
    (do ensure alarm P; d) m = d m := by
  unfold ensure
  rw [bind_assoc, run_get_bind, if_pos holds]
  rfl

lemma ensure_bind_of_not (alarm : Run Unit) (d : Run α) (fails : ¬ P m) :
    (do ensure alarm P; d) m = (alarm >>= fun _ => d) m := by
  unfold ensure
  rw [bind_assoc, run_get_bind, if_neg fails]

lemma Arrives.next {x y : Except Raised α × Machine} {z : Except Raised β × Machine} {k l : Run β}
    (arrives : Arrives g V w v x y) (stands : w.Stands g) (guarded : Guarded g U v k l)
    (goes : v.Until g.last → z = l x.2) : ∃ u, Arrives g U w u (k x.2) z := by
  obtain ⟨u, further⟩ := guarded (stands.reach arrives.toReaches)
  rw [arrives.machine] at further
  refine ⟨u, arrives.toReaches.trans further.toReaches, further.machine, further.known, fun before => ?_⟩
  rw [goes (before.back further.later), further.alike before]

namespace Guarded

variable {c d : Run α}

lemma of_sound (guarded : w.Sound → Guarded g V w c d) : Guarded g V w c d :=
  fun stands => guarded stands.sound stands

lemma congr_apply {c c' d d' : Run α} (first : c w.machine = c' w.machine) (second : d w.machine = d' w.machine)
    (guarded : Guarded g V w c' d') : Guarded g V w c d := by
  intro stands
  rw [first, second]
  exact guarded stands

lemma pure {a : α} (known : V w a) : Guarded g V w (Pure.pure a) (Pure.pure a) := by
  intro stands
  refine ⟨w, ⟨le_refl w, stands.sound, .refl _ _⟩, rfl, ?_, fun _ => rfl⟩
  rintro b ⟨⟩
  exact known

lemma throw (raised : Raised) : Guarded g V w (throw raised : Run α) (throw raised) :=
  fun stands => ⟨w, ⟨le_refl w, stands.sound, .refl _ _⟩, rfl, (nofun), fun _ => rfl⟩

lemma raise (fault : Fault) : Guarded g V w (raise fault : Run α) (raise fault) :=
  throw _

lemma settle {x : Except Fault α} (known : ∀ a, x = .ok a → V w a) : Guarded g V w (settle x) (settle x) := by
  cases x with
  | ok a => exact pure (known a rfl)
  | error fault => exact raise fault

variable {V' : Moment → α → Prop}

lemma imp (guarded : Guarded g V w c d) (implied : ∀ v a, w ≤ v → v.Sound → V v a → V' v a) : Guarded g V' w c d := by
  intro stands
  obtain ⟨v, arrives⟩ := guarded stands
  exact ⟨v, { arrives with known := fun a found => implied v a arrives.later arrives.sound (arrives.known a found) }⟩

lemma unsaid (guarded : Guarded g V w c d) : Guarded g Unsaid w c d :=
  guarded.imp fun _ _ _ _ _ => trivial

lemma exact (guarded : Guarded g V w c d) :
    Guarded g (fun v a => V v a ∧ c w.machine = (.ok a, v.machine) ∧ Course g.licence w.machine v.machine) w c d := by
  intro stands
  obtain ⟨v, arrives⟩ := guarded stands
  refine ⟨v, { arrives with known := fun a found => ⟨arrives.known a found, ?_, arrives.course⟩ }⟩
  rw [arrives.machine, ← found, Prod.mk.eta]

lemma bind {k l : α → Run β} (first : Guarded g V w c d)
    (after : ∀ v a, w ≤ v → V v a → Guarded g U v (k a) (l a)) : Guarded g U w (c >>= k) (d >>= l) := by
  intro stands
  obtain ⟨v, arrives⟩ := first stands
  rw [run_bind, run_bind]
  rcases found : c w.machine with ⟨result, m⟩
  rw [found] at arrives
  cases result with
  | error raised =>
    refine ⟨v, arrives.toReaches, arrives.machine, ?_, ?_⟩
    · rintro a ⟨⟩
    · intro before
      rw [arrives.alike before]
  | ok a =>
    exact arrives.next stands (after v a arrives.later (arrives.known a rfl)) fun before => by rw [arrives.alike before]

lemma raise_bind (fault : Fault) (k l : α → Run β) :
    Guarded g U w (Script.raise fault >>= k) (Script.raise fault >>= l) :=
  raise fault

lemma ask {k l : Machine → Run α} (after : w.Sound → Guarded g V w (k w.machine) (l w.machine)) :
    Guarded g V w (get >>= k) (get >>= l) :=
  fun stands => after stands.sound stands

lemma askForest {f : Forest → β} {k l : β → Run α}
    (after : w.Sound → Guarded g V w (k (f w.machine.forest)) (l (f w.machine.forest))) :
    Guarded g V w (Script.askForest f >>= k) (Script.askForest f >>= l) :=
  fun stands => after stands.sound stands

lemma nodeOf {k l : Node → Run α}
    (after : w.Sound → Guarded g V w (k (w.machine.forest.node id)) (l (w.machine.forest.node id))) :
    Guarded g V w (Script.nodeOf id >>= k) (Script.nodeOf id >>= l) :=
  fun stands => after stands.sound stands

lemma reading {c : Run α} (same : ∀ m, (c m).2 = m) : Guarded g (fun v _ => v = w) w c c :=
  fun stands => ⟨w, ⟨le_refl w, stands.sound, .refl _ _⟩, (same w.machine).symm, fun _ _ => rfl, fun _ => rfl⟩

lemma askAhead {c : Run α} {k : Machine → Run α} (after : Guarded g V w c (k w.machine)) :
    Guarded g V w c (get >>= k) :=
  after

lemma ensure {alarm : Run Unit} {P : Machine → Prop}
    (holds : w.Stands g → w.Until g.last → P w.machine) (rest : Guarded g V w c d) :
    Guarded g V w c (do ensure alarm P; d) := by
  intro stands
  obtain ⟨v, arrives⟩ := rest stands
  refine ⟨v, { arrives with alike := fun before => ?_ }⟩
  rw [ensure_bind alarm d (holds stands (before.back arrives.later))]
  exact arrives.alike before

lemma check {alarm : Run Unit} (holds : w.Stands g → w.Until g.last → P w.machine) :
    Guarded g Unsaid w (Pure.pure ()) (Script.ensure alarm P) := by
  have checked : Guarded g Unsaid w (Pure.pure ()) (do Script.ensure alarm P; Pure.pure ()) := ensure holds (pure trivial)
  rwa [bind_pure] at checked

lemma refuse {fault : Fault} (rest : P w.machine → Guarded g V w c d) :
    Guarded g V w (do Script.ensure (Script.raise fault) P; c) (do Script.ensure (Script.raise fault) P; d) := by
  by_cases holds : P w.machine
  · exact congr_apply (ensure_bind _ c holds) (ensure_bind _ d holds) (rest holds)
  · exact congr_apply (ensure_bind_of_not _ c holds) (ensure_bind_of_not _ d holds) (raise_bind _ _ _)

lemma change
    (leads : w.Sound → ∃ v, w.Reaches g.licence v ∧ v.machine = f w.machine) :
    Guarded g Unsaid w (modify f : Run PUnit) (modify f) := by
  intro stands
  obtain ⟨v, reaches, here⟩ := leads stands.sound
  exact ⟨v, reaches, here, fun _ _ => trivial, fun _ => rfl⟩

lemma changeGet {f : Machine → α × Machine}
    (leads : w.Sound → ∃ v, w.Reaches g.licence v ∧ v.machine = (f w.machine).2 ∧ V v (f w.machine).1) :
    Guarded g V w (modifyGet f : Run α) (modifyGet f) := by
  intro stands
  obtain ⟨v, reaches, here, known⟩ := leads stands.sound
  refine ⟨v, reaches, here, ?_, fun _ => rfl⟩
  rintro a ⟨⟩
  exact known

lemma recover {handle handle' : Raised → Run α} (body : Guarded g V w c d)
    (handlers : ∀ v raised, w ≤ v → Guarded g V v (handle raised) (handle' raised)) :
    Guarded g V w (recover c handle) (recover d handle') := by
  intro stands
  obtain ⟨v, arrives⟩ := body stands
  unfold Script.recover
  rcases found : c w.machine with ⟨result, m⟩
  rw [found] at arrives
  cases result with
  | ok a =>
    refine ⟨v, arrives.toReaches, arrives.machine, arrives.known, ?_⟩
    intro before
    rw [arrives.alike before]
  | error raised =>
    exact arrives.next stands (handlers v raised arrives.later) fun before => by rw [arrives.alike before]

lemma around (enter leave : Machine → Machine) {l : Licence} (same : l.write = g.licence.write)
    (enters : w.Sound → ∃ v, w ≤ v ∧ v.Sound ∧ v.machine = enter w.machine ∧
      Store.Work g.licence.write w.machine.store v.machine.store ∧ Guarded (g.under same) V v c d)
    (leaves : w.Sound → ∀ v, w ≤ v → v.Sound → ∃ u, v ≤ u ∧ u.Sound ∧ u.machine = leave v.machine ∧ ∀ a, V v a → V' u a)
    (round : ∀ m, Course l (enter w.machine) m → Course g.licence w.machine (leave m)) :
    Guarded g V' w (do modify enter; always c leave) (do modify enter; always d leave) := by
  intro stands
  rw [run_modify_bind, run_modify_bind]
  obtain ⟨v, first, entered, here, work, body⟩ := enters stands.sound
  obtain ⟨u, arrives⟩ := body ⟨entered, g.kept stands.sound.store.closed work stands.holds⟩
  obtain ⟨x, further, left, there, values⟩ := leaves stands.sound u (le_trans first arrives.later) arrives.sound
  rw [here] at arrives
  have done : x.machine = (Script.always c leave (enter w.machine)).2 := by
    rw [there, arrives.machine]
    rfl
  refine ⟨x, ⟨le_trans first (le_trans arrives.later further), left, ?_⟩, done, ?_, ?_⟩
  · rw [there]
    exact round _ (here ▸ arrives.course)
  · exact fun a ended => values a (arrives.known a ended)
  · intro before
    unfold Script.always
    rw [arrives.alike (before.back further)]

lemma closing (first : Guarded g V w c d)
    (closes : ∀ v, w ≤ v → v.Sound → ∃ u, v ≤ u ∧ u.Sound ∧ u.machine = f v.machine)
    (round : ∀ m, Course g.licence w.machine m → Course g.licence w.machine (f m)) :
    Guarded g Unsaid w (c >>= fun _ => (modify f : Run PUnit)) (d >>= fun _ => (modify f : Run PUnit)) := by
  intro stands
  obtain ⟨v, arrives⟩ := first stands
  rw [run_bind, run_bind]
  rcases found : c w.machine with ⟨result, m⟩
  rw [found] at arrives
  cases result with
  | error raised =>
    refine ⟨v, arrives.toReaches, arrives.machine, fun _ _ => trivial, ?_⟩
    intro before
    rw [arrives.alike before]
  | ok a =>
    obtain ⟨u, further, kept, here⟩ := closes v arrives.later arrives.sound
    refine ⟨u, ⟨le_trans arrives.later further, kept, ?_⟩, ?_, fun _ _ => trivial, ?_⟩
    · rw [here]
      exact round _ arrives.course
    · rw [here, arrives.machine]
      rfl
    · intro before
      rw [arrives.alike (before.back further)]

lemma inScope (body : ∀ v, w ≤ v → Guarded g V v c d) (keeps : ∀ v u a, v ≤ u → V v a → V u a) :
    Guarded g (fun v pair => V v pair.1) w (inScope c) (inScope d) := by
  refine ask fun _ => ?_
  have inside : Guarded g V w
      (do
        modify Machine.opened
        always c Machine.shut)
      (do
        modify Machine.opened
        always d Machine.shut) := by
    refine around _ _ (V := V) rfl (fun sound => ?_) (fun _ v _ sound => ?_) fun _ => .scope
    · obtain ⟨later, kept⟩ := sound.push
      exact ⟨_, later, kept, rfl, .refl _, body _ later⟩
    · have hosts : v.Hosts { v.machine.session with
          env := v.machine.session.env.pop?.elim v.machine.session.env Prod.snd } := by
        unfold Environment.pop?
        split
        · exact { sound.session with stacked := cons_ne_nil _ _ }
        · exact sound.session
      obtain ⟨after, kept⟩ := sound.resume hosts
      exact ⟨_, after, kept, rfl, fun a known => keeps v _ a after known⟩
  exact inside.bind (k := fun a => Pure.pure (a, w.machine.session.env.scopes.size))
    (l := fun a => Pure.pure (a, w.machine.session.env.scopes.size)) fun _ _ _ known => pure known

lemma inFrame {closure : Bindings} (body : ∀ v, w ≤ v → v.machine = { w.machine with
        store := (w.machine.session.env.enterFrame w.machine.store closure).2.2
        session := { w.machine.session with env := (w.machine.session.env.enterFrame w.machine.store closure).2.1 } } →
      Guarded g V v c d)
    (keeps : ∀ v u a, v ≤ u → V v a → V u a) :
    Guarded g V w (inFrame closure c) (inFrame closure d) := by
  refine ask fun _ => ?_
  refine around
    (fun m => { m with
      store := (m.session.env.enterFrame m.store closure).2.2
      session := { m.session with env := (m.session.env.enterFrame m.store closure).2.1 } })
    (fun m => m.mapEnv fun env => { env with stack := w.machine.session.env.stack })
    (V := V) rfl (fun sound => ?_) (fun before v _ sound => ?_) fun _ => .frame closure
  · obtain ⟨grown, new⟩ := w.machine.store.grown_copyEntries closure
    have copied := sound.restore (l := g.licence) (grown.beside sound.store) (.copy _ closure)
    have hosts := copied.sound.session.newScope fun entry mem => sound.store.loose_new (new entry mem)
    obtain ⟨later, kept⟩ := copied.sound.resume (t := { w.machine.session with
      env := (w.machine.session.env.enterFrame w.machine.store closure).2.1 }) { hosts with stacked := cons_ne_nil _ _ }
    have later := le_trans copied.later later
    exact ⟨_, later, kept, rfl, .copy _ closure, body _ later rfl⟩
  · obtain ⟨after, kept⟩ := sound.resume (t := { v.machine.session with
      env := { v.machine.session.env with stack := w.machine.session.env.stack } })
      { sound.session with stacked := before.session.stacked }
    exact ⟨_, after, kept, rfl, fun a known => keeps v _ a after known⟩

lemma inSession {host : Option HostId} {dir : Option String} {key : String}
    (body : ∀ v, w ≤ v → v.machine = { w.machine with session := .new host dir (key :: w.machine.session.loading) } →
      Guarded g.abroad V v c d)
    (keeps : ∀ (v u : Moment) a, v ≤ u → u.machine = { v.machine with session := w.machine.session } → V v a → V u a) :
    Guarded g (fun v pair => V v pair.1 ∧ v.Hosts pair.2) w
      (inSession (.new host dir (key :: w.machine.session.loading)) c)
      (inSession (.new host dir (key :: w.machine.session.loading)) d) := by
  refine ask fun _ => ?_
  have left : ∀ v, Guarded g.abroad V v c d → Guarded g.abroad (fun v pair => V v pair.1 ∧ v.Hosts pair.2) v
      (do return (← c, (← get).session)) (do return (← d, (← get).session)) :=
    fun v guarded => guarded.bind fun u a _ known => ask fun sound => pure ⟨known, sound.session⟩
  refine around
    (fun m => { m with session := .new host dir (key :: w.machine.session.loading) })
    (fun m => { m with session := w.machine.session })
    (V := fun v pair => V v pair.1 ∧ v.Hosts pair.2) (l := g.licence.abroad) rfl (fun sound => ?_)
    (fun before v later sound => ?_) fun _ => .session host dir key
  · obtain ⟨later, kept⟩ := sound.resume (.new w host dir (key :: w.machine.session.loading))
    exact ⟨_, later, kept, rfl, .refl _, left _ (body _ later rfl)⟩
  · obtain ⟨further, back⟩ := sound.resume (before.session.later later)
    exact ⟨_, further, back, rfl, fun pair known => ⟨keeps v _ _ further rfl known.1, known.2.later further⟩⟩

end Guarded

/-! ## Small runs -/

namespace Tame

lemma changeWorld (f : World → World) : Tame g Unsaid w (changeWorld f) :=
  Guarded.change fun sound => ⟨_, sound.elsewhere _ _, rfl⟩

lemma changeGetWorld (f : World → α × World) :
    Tame g Unsaid w (modifyGet fun m => ((f m.world).1, { m with world := (f m.world).2 }) : Run α) :=
  Guarded.changeGet fun sound => ⟨_, sound.elsewhere _ _, rfl, trivial⟩

lemma changeForest {f : Forest → Forest}
    (follows : w.Sound → w.machine.forest.Follows (.parting w.vault.nodes) (f w.machine.forest)) :
    Tame g Unsaid w (changeForest f) :=
  Guarded.change fun sound => ⟨_, sound.regrow (follows sound).beside, rfl⟩

lemma cloneTree (id : NodeId) : Tame g w.Young w (cloneTree id) := by
  refine Guarded.changeGet fun sound => ?_
  obtain ⟨copy, copied⟩ := sound.forest.copyOf_clone id
  refine ⟨_, sound.regrow (copied.beside sound.forest), rfl, ?_⟩
  simp only [copy]
  exact ⟨⟨copied.grows, fun set => lt_irrefl _ (sound.forest.there _ set)⟩, le_refl _⟩

lemma cloneTree_aside (id : NodeId) :
    Tame g (fun v copy => v.vault.nodes copy ∧ v.machine.forest.markup copy = w.machine.forest.markup id) w
      (Script.cloneTree id) := by
  refine Guarded.changeGet fun sound => ?_
  obtain ⟨copy, copied⟩ := sound.forest.copyOf_clone id
  refine ⟨_, sound.regrowAside copied, rfl, ?_, sound.forest.markup_clone id⟩
  exact .inr ⟨le_refl _, copied.grows⟩

lemma parseSource (text : String) : Tame g w.Young w (parseSource text) := by
  refine Guarded.ask fun sound => ?_
  cases parsed : w.machine.forest.parse text with
  | error fault => exact Guarded.raise fault
  | ok made =>
    obtain ⟨beside, root, works⟩ := sound.forest.parse parsed
    intro _
    refine ⟨_, sound.regrow beside, rfl, ?_, fun _ => rfl⟩
    rintro a ⟨⟩
    exact ⟨works, le_of_eq root.symm⟩

lemma changeStore {f : Store → α × Store} (beside : w.Sound → w.machine.store.Beside w.vault.refs (f w.machine.store).2)
    (work : w.Sound → Store.Work g.licence.write w.machine.store (f w.machine.store).2)
    (known : w.Sound → V ⟨w.vault, { w.machine with store := (f w.machine.store).2 }⟩ (f w.machine.store).1) :
    Tame g V w (modifyGet fun m => ((f m.store).1, { m with store := (f m.store).2 }) : Run α) :=
  Guarded.changeGet fun sound => ⟨_, sound.restore (beside sound) (work sound), rfl, known sound⟩

lemma buildValue (d : Datum) : Tame g Holds w (buildValue d) := by
  refine changeStore (f := (Store.build · d)) (fun sound => ?_) (fun sound => ?_) fun sound => ?_
  · exact (w.machine.store.grown_build d).1.beside sound.store
  · exact .build sound.store.closed d
  · exact sound.store.loose_new (w.machine.store.grown_build d).2

lemma newMapping {entries : Assoc Value} (held : ∀ entry ∈ entries, w.Holds entry.2) :
    Tame g Holds w (newMapping entries) := by
  have tends := (Store.Beside.territory w.vault.refs w.machine.store).discipline
  refine changeStore (f := (Store.newMap · entries)) (fun sound => ?_) (fun sound => ?_) fun sound => ?_
  · exact (tends.newMap sound.store.beside held).1
  · exact .make (c := .map entries) (List.forall_mem_map.mpr fun entry mem => (held entry mem).bounded)
  · exact (tends.newMap sound.store.beside held).2

lemma copyBindings (bindings : Bindings) :
    Tame g (fun v copies => ∀ entry ∈ copies, v.Holds entry.2) w (copyBindings bindings) := by
  obtain ⟨grown, new⟩ := w.machine.store.grown_copyEntries bindings
  refine changeStore (f := (Store.copyEntries · bindings)) (fun sound => grown.beside sound.store) ?_ ?_
  · exact fun _ => .copy _ bindings
  · exact fun sound entry mem => sound.store.loose_new (new entry mem)

lemma copies_aside (bindings : Machine → Bindings) :
    Tame g (fun v copies => (∀ entry ∈ copies, entry.2.Within v.vault.refs) ∧
        w.machine.store.Replica (bindings w.machine) v.machine.store copies) w
      (modifyGet fun m =>
        ((m.store.copyEntries (bindings m)).1, { m with store := (m.store.copyEntries (bindings m)).2 })) := by
  refine Guarded.changeGet fun sound => ?_
  obtain ⟨grown, new⟩ := w.machine.store.grown_copyEntries (bindings w.machine)
  refine ⟨_, sound.restoreAside grown (.copy _ _), rfl, fun entry mem => ?_, w.machine.store.replica_copyEntries _⟩
  exact (new entry mem).imp fun _ => .inr

lemma settle (x : Except Fault α) : Tame g Unsaid w (settle x) :=
  Guarded.settle fun _ _ => trivial

lemma settled (f : Machine → Except Fault α) : Tame g Unsaid w (do Script.settle (f (← get)) : Run α) :=
  Guarded.ask fun _ => settle _

lemma datumOf (value : Value) : Tame g Unsaid w (datumOf value) :=
  settled _

lemma emit (topic : Topic) (message : String) : Tame g Unsaid w (emit topic message) := by
  refine Guarded.change fun sound => ?_
  obtain ⟨later, kept⟩ := sound.resume (t := { w.machine.session with
    effects := ⟨topic, message⟩ :: w.machine.session.effects }) { sound.session with }
  exact ⟨_, ⟨later, kept, .emit _ _ _⟩, rfl⟩

lemma diagnose (parts : List String) : Tame g Unsaid w (diagnose parts) := by
  refine Guarded.ask fun _ => ?_
  split
  · exact changeWorld _
  · exact Guarded.pure trivial

lemma required (node : Node) (name : String) :
    Tame g (fun v value => v = w ∧ node.attr? name = some value) w (required node name) := by
  unfold Script.required
  cases found : node.attr? name with
  | none => exact Guarded.raise _
  | some value =>
    simp only []
    split
    · exact Guarded.raise _
    · exact Guarded.pure ⟨rfl, rfl⟩

lemma checkDeclared (value : Value) (declared : Option String) (what : String) :
    Tame g Unsaid w (checkDeclared value declared what) :=
  settle _

lemma bindName (name : String) {value : Value} (held : w.Holds value) :
    Tame g Unsaid w (bindName name value) :=
  Guarded.change fun sound => ⟨_, sound.bindIn Environment.currentId name held (.bind _ _ _ _), rfl⟩

lemma computed {f : Environment → Store → Except Fault (Value × Store)}
    (tended : ∀ env s, (∀ name v, env.get? name = some v → s.Loose w.vault.refs v) → s.Parted w.vault.refs →
      Expr.Tended (fun t => s.Beside w.vault.refs t ∧ Store.Work g.licence.write s t) (fun _ => True) s
        (Store.Loose w.vault.refs) (f env s)) :
    Tame g (fun v value => v.Holds value ∧ v.machine.session = w.machine.session ∧
        f w.machine.session.env w.machine.store = .ok (value, v.machine.store)) w (compute f) := by
  refine Guarded.ask fun sound => ?_
  have known := tended w.machine.session.env w.machine.store (fun _ _ found => sound.get? found) sound.store
  cases made : f w.machine.session.env w.machine.store with
  | error fault => exact Guarded.raise fault
  | ok result =>
    obtain ⟨value, store⟩ := result
    obtain ⟨⟨beside, work⟩, _, held⟩ := known.made made
    intro _
    refine ⟨_, sound.restore beside work, rfl, ?_, fun _ => rfl⟩
    rintro a ⟨⟩
    exact ⟨held, rfl, rfl⟩

lemma evaluate (text : Option String) : Tame g Holds w (evaluate text) := by
  refine (computed (f := fun env s => Expr.evaluate? env s text) fun env s bound parted => ?_).imp
    fun _ _ _ _ known => known.1
  cases text with
  | none => exact trivial
  | some text =>
    exact Expr.tended_evaluate (Expr.upkeep (Store.Beside.working _ _ s).discipline) bound ⟨parted.beside, .refl s⟩ text

lemma evaluateList_eq (text : Option String) :
    Tame g (fun v value => v.Holds value ∧ v.machine.session = w.machine.session ∧
      Expr.evaluateList w.machine.session.env w.machine.store text = .ok (value, v.machine.store)) w
      (Script.evaluateList text) :=
  computed fun _ s bound parted =>
    Expr.tended_evaluateList (Expr.upkeep (Store.Beside.working _ _ s).discipline) bound ⟨parted.beside, .refl s⟩ text

lemma evaluateList (text : Option String) : Tame g Holds w (evaluateList text) :=
  (evaluateList_eq text).imp fun _ _ _ _ known => known.1

end Tame

end TagScript.Script
