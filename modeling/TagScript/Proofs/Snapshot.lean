import TagScript.Proofs.Script.Course
import TagScript.Proofs.Value.Replica

/-!
# Snapshots

What a snapshot has for a name is a copy of what is found under it, made of containers of its own.
-/

namespace TagScript

open List

namespace Assoc

variable {α β : Type} {entries more : Assoc α}

lemma get?_merge (name : String) (distinct : (names more).Nodup) :
    get? name (merge entries more) = (get? name more).or (get? name entries) := by
  induction more generalizing entries with
  | nil => rfl
  | cons entry rest ih =>
    obtain ⟨key, value⟩ := entry
    obtain ⟨new, others⟩ := List.nodup_cons.mp distinct
    rw [merge, ih others, get?]
    by_cases same : key = name
    · subst same
      have absent : get? key rest = none := by
        cases found : get? key rest with
        | none => rfl
        | some value => exact absurd (mem_map_of_mem (mem_of_get? found)) new
      rw [absent, if_pos rfl, Option.none_or, Option.some_or, get?_set_self]
    · rw [if_neg same, get?_set_other (Ne.symm same)]

lemma get?_map (name : String) (f : α → β) (entries : Assoc α) :
    get? name (entries.map fun entry => (entry.1, f entry.2)) = (get? name entries).map f := by
  induction entries with
  | nil => rfl
  | cons entry rest ih =>
    simp only [map_cons, get?, ih]
    split <;> rfl

end Assoc

namespace Store.Work

variable {may : Store → Ref → Cell → Prop} {s t : Store}

lemma grows (work : Work may s t) : s.cells.size ≤ t.cells.size := by
  induction work with
  | refl | mark => exact le_refl _
  | trans _ _ first second => exact le_trans first second
  | make => simp
  | copy s entries => exact (s.grown_copyEntries entries).1.grows
  | write => exact le_of_eq (size_write ..).symm

lemma cell_eq (work : Work may s t) {r : Ref} (free : ∀ s c, ¬ may s r c) (inside : r < s.cells.size) :
    t.cell r = s.cell r := by
  induction work with
  | refl | mark => rfl
  | trans work _ first second => exact (second (lt_of_lt_of_le inside work.grows)).trans (first inside)
  | make => rw [cell_push, if_neg (ne_of_lt inside)]
  | copy s entries => exact (s.grown_copyEntries entries).1.kept r inside
  | @write s q c _ allowed =>
    rw [cell_write, if_neg]
    rintro ⟨rfl, _⟩
    exact free s c allowed

end Store.Work

namespace Environment

open Assoc

/-- What is done to an environment, with the containers of its values. Scopes and closures are
mappings, which have no name twice. Between any two steps containers may be made and changed at
will. -/
inductive Used : Environment × Store → Environment × Store → Prop where
  | refl (x) : Used x x
  | set {x y} (before : Used x y) (name : String) {v : Value} (there : v.Within (· < y.2.cells.size)) :
    Used x (y.1.bind name v, y.2)
  | setGlobal {x y} (before : Used x y) (name : String) {v : Value} (there : v.Within (· < y.2.cells.size)) :
    Used x (y.1.bindGlobal name v, y.2)
  | push {x y} (before : Used x y) {scope : Bindings} (distinct : (names scope).Nodup)
    (there : ∀ entry ∈ scope, entry.2.Within (· < y.2.cells.size)) : Used x ((y.1.push scope).2, y.2)
  | pop {x y} (before : Used x y) {id below} (popped : y.1.pop? = some (id, below)) : Used x (below, y.2)
  | inScope {x y z} (before : Used x y) (body : Used ((y.1.push []).2, y.2) z) :
    Used x (z.1.pop?.elim z.1 Prod.snd, z.2)
  | inFrame {x y z} (before : Used x y) {closure : Bindings} (distinct : (names closure).Nodup)
    (body : Used (y.1.enterFrame y.2 closure).2 z) : Used x ({ z.1 with stack := y.1.stack }, z.2)
  | work {x y} (before : Used x y) {s : Store} (work : Store.Work (fun _ _ _ => True) y.2 s) : Used x (y.1, s)

/-- No scope has a name twice, and all references lead to containers that are there. -/
structure Orderly (x : Environment × Store) : Prop where
  distinct : ∀ id, (names (x.1.scope id)).Nodup
  there : ∀ id, ∀ entry ∈ x.1.scope id, entry.2.Within (· < x.2.cells.size)
  closed : x.2.Closed

variable {env : Environment} {s : Store}

namespace Orderly

variable (orderly : Orderly (env, s))
include orderly

lemma bindIn (owner : ScopeId) (name : String) {v : Value} (there : v.Within (· < s.cells.size)) :
    Orderly (env.bindIn owner name v, s) := by
  refine ⟨fun id => ?_, fun id entry mem => ?_, orderly.closed⟩
  · simp only [scope_bindIn]
    split
    · exact nodup_set (orderly.distinct id) _ _
    · exact orderly.distinct id
  · simp only [scope_bindIn] at mem
    split at mem
    · obtain before | rfl := mem_set mem
      · exact orderly.there id entry before
      · exact there
    · exact orderly.there id entry mem

lemma newScope {scope : Bindings} (distinct : (names scope).Nodup)
    (there : ∀ entry ∈ scope, entry.2.Within (· < s.cells.size)) : Orderly ((env.newScope scope).2, s) := by
  refine ⟨fun id => ?_, fun id entry mem => ?_, orderly.closed⟩
  · simp only [scope_newScope]
    split
    · exact distinct
    · exact orderly.distinct id
  · simp only [scope_newScope] at mem
    split at mem
    · exact there entry mem
    · exact orderly.there id entry mem

lemma stacked (stack : List ScopeId) : Orderly ({ env with stack := stack }, s) :=
  ⟨orderly.distinct, orderly.there, orderly.closed⟩

lemma popped : Orderly (env.pop?.elim env Prod.snd, s) := by
  unfold pop?
  split
  · exact orderly.stacked _
  · exact orderly

lemma later {t : Store} (grows : s.cells.size ≤ t.cells.size) (closed : t.Closed) : Orderly (env, t) := by
  refine ⟨orderly.distinct, fun id entry mem => ?_, closed⟩
  exact (orderly.there id entry mem).imp fun _ inside => lt_of_lt_of_le inside grows

end Orderly

lemma Used.orderly {x y : Environment × Store} (used : Used x y) (orderly : Orderly x) : Orderly y := by
  induction used with
  | refl => exact orderly
  | set _ name there ih | setGlobal _ name there ih => exact (ih orderly).bindIn _ name there
  | push _ distinct there ih => exact ((ih orderly).newScope distinct there).stacked _
  | pop _ popped ih => simpa [popped] using (ih orderly).popped
  | inScope _ _ ih inside =>
    have entered := @Orderly.newScope _ _ (ih orderly) [] nodup_nil (forall_mem_nil _)
    exact (inside (entered.stacked _)).popped
  | @inFrame x y z _ closure distinct _ ih inside =>
    obtain ⟨grown, within⟩ := y.2.grown_copyEntries closure
    have copied := (ih orderly).later grown.grows (grown.closed (ih orderly).closed)
    refine (inside ((copied.newScope ?_ ?_).stacked _)).stacked _
    · simpa [Store.copyEntries, names, Function.comp_def] using distinct
    · exact fun entry mem => (within entry mem).imp fun _ new => new.2
  | work _ work ih => exact (ih orderly).later work.grows (work.closed (ih orderly).closed)

lemma visible_eq (env : Environment) :
    env.visible = env.stack.foldr (fun id merged => merge merged (env.scope id)) [] :=
  foldl_reverse

lemma get?_visible (distinct : ∀ id, (names (env.scope id)).Nodup) (name : String) :
    Assoc.get? name env.visible = env.get? name := by
  rw [visible_eq, Environment.get?, owner?]
  generalize env.stack = stack
  induction stack with
  | nil => rfl
  | cons id rest ih =>
    rw [foldr_cons, Assoc.get?_merge name (distinct id), ih, find?_cons]
    cases found : Assoc.get? name (env.scope id) with
    | none => simp [Assoc.has, found]
    | some value => simp [Assoc.has, found]

lemma has_eq (env : Environment) (name : String) : env.has name = (env.get? name).isSome := by
  unfold has Environment.get?
  cases owned : env.owner? name with
  | none => rfl
  | some id => exact (find?_some (p := fun id => Assoc.has name (env.scope id)) owned).symm

lemma orderly_empty : Orderly (.empty, .empty) := by
  have scope : ∀ id, empty.scope id = [] := fun id => by cases id <;> rfl
  refine ⟨fun id => ?_, fun id entry mem => ?_, nofun⟩
  · exact scope id ▸ nodup_nil
  · exact nomatch scope id ▸ mem

/-- Some scope has a value that leads to a container. -/
def Leads (env : Environment) (s : Store) (r : Ref) : Prop :=
  ∃ id, ∃ entry ∈ env.scope id, s.Leads entry.2 r

/-- A snapshot has the names that are visible, each with a copy of what is found under it: the
copies share containers as the values do, but none with the scopes. So work on either leaves the
other alone. -/
theorem snapshot_copies_what_is_visible {env : Environment} {s : Store} (used : Used (.empty, .empty) (env, s)) :
    let copies := (env.snapshot s).1
    let after := (env.snapshot s).2
    let Copied := fun r => ∃ copy ∈ copies, after.Leads copy.2 r
    (∃ move, s.Moved env.visible after copies move ∧
      ∀ name, Assoc.get? name env.visible = env.get? name ∧
        Assoc.get? name copies = (env.get? name).map (Value.mapRef move)) ∧
    (∀ name, Assoc.has name copies = env.has name ∧ Assoc.has name env.visible = env.has name) ∧
    (∀ r, env.Leads after r → ¬ Copied r) ∧
    (∀ later, Store.Work (fun _ r _ => env.Leads after r ∨ after.cells.size ≤ r) after later →
      ∀ r, Copied r → later.cell r = after.cell r) ∧
    ∀ later, Store.Work (fun _ r _ => Copied r ∨ after.cells.size ≤ r) after later →
      ∀ r, env.Leads after r → later.cell r = after.cell r := by
  have orderly := used.orderly orderly_empty
  obtain ⟨grown, within⟩ := s.grown_copyEntries env.visible
  obtain ⟨move, moved⟩ := s.replica_copyEntries env.visible
  have visible := get?_visible orderly.distinct
  have copied : ∀ name, Assoc.get? name (env.snapshot s).1 = (env.get? name).map (Value.mapRef move) := fun name => by
    rw [snapshot, moved.names, Assoc.get?_map, visible]
  have old : ∀ r, env.Leads (env.snapshot s).2 r → r < s.cells.size := by
    rintro r ⟨id, entry, mem, leads⟩
    refine Store.Encloses.of_leads (fun q inside v among => ?_) (orderly.there id entry mem) leads
    exact orderly.closed q v (grown.kept q inside ▸ among)
  have new : ∀ r, (∃ copy ∈ (env.snapshot s).1, (env.snapshot s).2.Leads copy.2 r) → s.New (env.snapshot s).2 r := by
    rintro r ⟨copy, mem, leads⟩
    exact Store.Encloses.of_leads (fun q inside => grown.new q inside.1) (within copy mem) leads
  have apart : ∀ r, env.Leads (env.snapshot s).2 r →
      ¬ ∃ copy ∈ (env.snapshot s).1, (env.snapshot s).2.Leads copy.2 r :=
    fun r leads copy => Nat.not_lt.mpr (new r copy).1 (old r leads)
  have names : ∀ name, Assoc.has name (env.snapshot s).1 = env.has name ∧ Assoc.has name env.visible = env.has name :=
    fun name => by simp [has_eq, Assoc.has, copied, visible]
  refine ⟨⟨move, moved, fun name => ⟨visible name, copied name⟩⟩, names, apart, fun later work r copy => ?_,
    fun later work r leads => ?_⟩
  · have inside := (new r copy).2
    exact work.cell_eq (fun _ _ => not_or.mpr ⟨fun leads => apart r leads copy, Nat.not_le.mpr inside⟩) inside
  · have inside := lt_of_lt_of_le (old r leads) grown.grows
    exact work.cell_eq (fun _ _ => not_or.mpr ⟨apart r leads, Nat.not_le.mpr inside⟩) inside

theorem snapshot_of_knotted_list :
    let env := Environment.empty.bind "x" (.seq 0)
    let s : Store := ⟨#[.seq [.seq 0]], Num.firstFreshMark⟩
    Used (.empty, .empty) (env, s) ∧ env.has "x" ∧ Assoc.has "x" (env.snapshot s).1 = env.has "x" := by
  have made : Store.Work (fun _ _ _ => True) .empty ⟨#[.seq [.seq 0]], Num.firstFreshMark⟩ := by
    refine .trans (.make (c := .seq []) (forall_mem_nil _)) (.write (r := 0) (c := .seq [.seq 0]) ?_ trivial)
    simp [Cell.values, Value.Within, Value.ref?, Store.empty]
  have used : Used (.empty, .empty) (Environment.empty.bind "x" (.seq 0), _) :=
    ((Used.refl (.empty, .empty)).work made).set "x" (by simp [Value.Within, Value.ref?])
  exact ⟨used, rfl, ((snapshot_copies_what_is_visible used).2.1 "x").1⟩

end Environment

end TagScript
