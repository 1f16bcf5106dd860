import TagScript.Proofs.Script.Watch

/-!
# Containers that do not contain themselves

A method ties a knot if it puts a value into a container that leads back to it. As long as none
does, every value stands for a finite tree, at every element of every run.
-/

namespace TagScript.Script

open Markup

/-- A method puts something into a container that leads back to it. -/
def Application.Knots (a : Application) : Prop :=
  ∃ r, a.value.ref? = some r ∧ ∃ u ∈ a.method.puts a.store a.items, a.store.Leads u r

/-- Runs an element that means something by itself, unless it would tie a knot. -/
noncomputable def refuseKnots : Deed := fun walk run tag id => do
  ensure (raise .exhausted) fun m =>
    tag = .man → ∀ a, m.application? (m.forest.node id) = some a → ¬ a.Knots
  runBuiltin walk run tag id

/-- Makes sure that no container holds itself and that every value stands for a finite tree, before
an element is run that would not tie a knot. -/
noncomputable def watchContainers (alarm : Run Unit) : Deed := fun walk run tag id => do
  ensure alarm fun m => (∀ r, ¬ Relation.TransGen m.store.Links r r) ∧ m.store.Finite
  refuseKnots walk run tag id

/-- A machine of which things have been asked, none of which has tied a knot. -/
inductive Unknotted : Machine → Prop where
  | new (settings : Settings) (world : World) (sourceDir : Option String) :
    Unknotted (Machine.new settings world sourceDir)
  | run {m : Machine} (errand : Errand) (same : errand.runBy refuseKnots m = errand.run m) :
    Unknotted m → Unknotted (errand.run m).2

/-! ## Methods -/

lemma Application.Knots.circle {a : Application} (knots : a.Knots) (there : a.value.Within (· < a.store.cells.size))
    {value : Value} {t : Store} (applied : a.method.apply a.store a.value a.items = (.ok value, t)) :
    ∃ r, Relation.TransGen t.Links r r := by
  obtain ⟨r, link, u, put, leads⟩ := knots
  obtain ⟨c, rfl, mem⟩ := puts_of_apply link put applied
  exact ⟨r, Store.circle_write (there r link) mem leads⟩

/-! ## Runs -/

variable {w : Moment} {last : Machine}

def Rule.clear (last : Machine) : Rule :=
  ⟨last, { Licence.full with write := Store.Clear }, Store.Tiered, fun closed work tiered => work.tiered closed tiered⟩

lemma Licence.allows_clear {tag : Builtin} {id : NodeId} {m : Machine}
    (clear : tag = .man → ∀ a, m.application? (m.forest.node id) = some a → ¬ a.Knots) :
    Licence.Allows { Licence.full with write := Store.Clear } tag id m := by
  cases tag with
  | store => exact fun _ _ => trivial
  | man =>
    refine ⟨fun _ _ => trivial, fun a found r c link contents u mem => ?_⟩
    refine (contents u mem).imp_right fun put leads => ?_
    exact clear rfl a found ⟨r, link, u, put, leads⟩
  | function => exact fun _ _ => trivial
  | load => exact fun _ _ _ => trivial
  | _ => trivial

lemma deeds_watchContainers (alarm : Run Unit) (last : Machine) :
    Deeds (.clear last) refuseKnots (watchContainers alarm) := by
  intro w walk walk' run run' tag id walks runs works
  refine Guarded.ensure (fun stands _ => ⟨stands.holds.acyclic, stands.holds.finite⟩) ?_
  refine Guarded.refuse fun clear => ?_
  exact Guarded.runBuiltin walks runs works (Licence.allows_clear clear)

lemma Store.tiered_empty : Store.Tiered .empty :=
  ⟨fun _ => 0, fun r q linked => by simp [Store.Links, Store.empty, Store.cell, Cell.refs, Cell.values] at linked⟩

lemma Moment.Stands.clear_errand (stands : w.Stands (.clear last)) {errand : Errand}
    (same : errand.runBy refuseKnots w.machine = errand.run w.machine) (alarm : Run Unit) :
    (∃ vault, Moment.Stands (.clear last) ⟨vault, (errand.run w.machine).2⟩) ∧
      (last = (errand.run w.machine).2 → errand.runBy (watchContainers alarm) w.machine = errand.run w.machine) := by
  obtain ⟨v, arrives⟩ := Guarded.errand (g := .clear last) (deeds_watchContainers alarm last) errand stands
  have here : v.machine = (errand.run w.machine).2 := by rw [arrives.machine, same]
  refine ⟨⟨v.vault, here ▸ stands.reach arrives.toReaches⟩, ?_⟩
  rintro rfl
  rw [arrives.alike ⟨v.vault, here ▸ le_refl v⟩, same]

lemma Unknotted.stands {m : Machine} (unknotted : Unknotted m) (last : Machine) :
    ∃ vault, Moment.Stands (.clear last) ⟨vault, m⟩ := by
  induction unknotted with
  | new settings world dir => exact ⟨_, Moment.sound_new settings world dir, Store.tiered_empty⟩
  | run errand same _ ih =>
    obtain ⟨vault, stands⟩ := ih
    exact (stands.clear_errand same (pure ())).1

/-- Let no method tie a knot in all that is asked of a machine. Then no container holds itself,
directly or through others, and every value stands for a finite tree; so it is at every element of
every run, since the run is the same as one that makes sure of it. This is all that is needed: a
method that ties a knot and comes to a value leaves a container that holds itself. -/
theorem containers_finite_of_unknotted (m : Machine) (a : Application) :
    (Unknotted m → (∀ r, ¬ Relation.TransGen m.store.Links r r) ∧ m.store.Finite) ∧
    (∀ errand : Errand, Unknotted m → errand.runBy refuseKnots m = errand.run m →
      ∀ alarm, errand.runBy (watchContainers alarm) m = errand.run m) ∧
    ∀ value t, a.Knots → a.value.Within (· < a.store.cells.size) →
      a.method.apply a.store a.value a.items = (.ok value, t) → ∃ r, Relation.TransGen t.Links r r := by
  refine ⟨fun unknotted => ?_, fun errand unknotted same alarm => ?_, ?_⟩
  · obtain ⟨vault, stands⟩ := unknotted.stands m
    exact ⟨stands.holds.acyclic, stands.holds.finite⟩
  · obtain ⟨vault, stands⟩ := unknotted.stands (errand.run m).2
    exact (stands.clear_errand same alarm).2 rfl
  · exact fun value t knots there applied => knots.circle there applied

/-! ## Single elements -/

section

variable {m : Machine} {id : NodeId} {b : Builtin}

lemma visitChildren_only {visit visit' : NodeId → Run (Option Signal)} {p : NodeId}
    (only : (m.forest.node p).childList = [id]) (same : visit id m = visit' id m) :
    visitChildren visit p m = visitChildren visit' p m := by
  simp only [visitChildren, visitAll, run_nodeOf_bind, only]
  split
  · rw [run_bind, run_bind, same]
  · rfl

/-- An element that runs no other and ties no knot is not refused. -/
lemma visitBy_refuseKnots (run run' : RunDocument) (depth : Nat)
    (element : (m.forest.node id).isElement = true)
    (handled : Assoc.get? (m.forest.node id).tag m.session.handlers = some (.builtin b))
    (leaf : ∀ walk walk', runBuiltin walk run b id = runBuiltin walk' run' b id)
    (clear : b = .man → ∀ a, m.application? (m.forest.node id) = some a → ¬ a.Knots) :
    visitBy refuseKnots run (depth + 1) id m = visitBy runBuiltin run' (depth + 1) id m := by
  have same : ∀ walk walk',
      elementBy walk (refuseKnots walk run) (m.forest.node id).tag id (m.enter (m.forest.node id).tag) =
        elementBy walk' (runBuiltin walk' run') (m.forest.node id).tag id
          (m.enter (m.forest.node id).tag) := by
    intro walk walk'
    have inside : (m.enter (m.forest.node id).tag).session.handlers = m.session.handlers := rfl
    unfold elementBy refuseKnots
    rw [run_get_bind, run_get_bind, inside, handled]
    simp only []
    rw [ensure_bind _ _ clear, leaf]
  rw [visitBy, visitBy, run_nodeOf_bind, run_nodeOf_bind, if_pos element, if_pos element]
  unfold within always recover
  rw [run_modify_bind, run_modify_bind, same]

variable (id b) in
lemma runBy_part {text : String} (tag : String)
    (made : (m.forest.parse text).toOption.map (fun made =>
      ((made.2.node made.1).childList, (made.2.node id).isElement, (made.2.node id).tag)) = some ([id], true, tag))
    (handled : Assoc.get? tag m.session.handlers = some (.builtin b))
    (leaf : ∀ walk run walk' run', runBuiltin walk run b id = runBuiltin walk' run' b id)
    (clear : b = .man → ∀ a,
      (m.forest.parse text).toOption.bind (fun made => m.application? (made.2.node id)) = some a → ¬ a.Knots) :
    (Errand.part text).runBy refuseKnots m = (Errand.part text).run m := by
  obtain ⟨depth, deep⟩ : ∃ depth, maxDepth = depth + 1 := ⟨_, rfl⟩
  rw [← Errand.runBy_runBuiltin]
  simp only [Errand.runBy]
  rw [run_bind, run_bind, parseSource_apply]
  generalize m.forest.parse text = parsed at made clear
  rcases parsed with fault | ⟨p, f⟩
  · rfl
  · simp only [Except.toOption, Option.map_some, Option.some.injEq, Prod.mk.injEq] at made
    obtain ⟨only, element, rfl⟩ := made
    simp only []
    rw [run_bind, run_bind, walkBy, walkBy, deep, visitChildren_only only]
    exact visitBy_refuseKnots _ _ depth element handled (fun _ _ => leaf _ _ _ _) clear

end

/-! ## A sequence that others are put into -/

def storing : Errand := .part "<store name='x' value='[true]'>"

def pushing : Errand := .part "<man name='x' operation='.push([true])'>"

def listing : Machine := (storing.run blank).2

lemma storing_refused : storing.runBy refuseKnots blank = storing.run blank :=
  runBy_part 1 Builtin.store "store" (by decide +kernel) (by decide +kernel) (fun _ _ _ _ => rfl)
    (by rintro ⟨⟩)

lemma pushing_refused : pushing.runBy refuseKnots listing = pushing.run listing := by
  refine runBy_part 3 Builtin.man "man" (by decide +kernel) (by decide +kernel) (fun _ _ _ _ => rfl) ?_
  rintro _ a found ⟨r, target, u, put, q, start, path⟩
  have applied : ((listing.forest.parse "<man name='x' operation='.push([true])'>").toOption.bind fun made =>
      listing.application? (made.2.node 3)).map (fun a =>
        (a.value.ref?, (a.method.puts a.store a.items).map Value.ref?, (a.store.cell 1).refs)) =
      some (some 0, [some 1], []) := by decide +kernel
  rw [found] at applied
  simp only [Option.map_some, Option.some.injEq, Prod.mk.injEq] at applied
  obtain ⟨value, puts, empty⟩ := applied
  obtain rfl : r = 0 := Option.some.inj (target.symm.trans value)
  have inner : u.ref? ∈ [some 1] := puts ▸ List.mem_map_of_mem put
  obtain rfl : q = 1 := Option.some.inj (start.symm.trans (List.mem_singleton.mp inner))
  -- the sequence that is put in leads nowhere
  obtain same | ⟨_, first, _⟩ := path.cases_head
  · cases same
  · rw [Store.Links, empty] at first
    cases first

def selfPush : Application := ⟨⟨#[.seq []], 0⟩, .seq 0, .push, [.seq 0]⟩

lemma selfPush_knots : selfPush.Knots :=
  ⟨0, rfl, .seq 0, List.mem_singleton.mpr rfl, 0, rfl, .refl⟩

/-- A sequence is put into another one, so that every value is finite afterwards; if it is put into
itself, it holds itself. -/
theorem containers_finite_of_unknotted_pushing :
    Unknotted listing ∧ pushing.runBy refuseKnots listing = pushing.run listing ∧
    ((pushing.run listing).2.store.items 0).map Value.ref? = [none, some 1] ∧
    ((∀ r, ¬ Relation.TransGen (pushing.run listing).2.store.Links r r) ∧
      (pushing.run listing).2.store.Finite) ∧
    (∀ alarm, pushing.runBy (watchContainers alarm) listing = pushing.run listing) ∧
    selfPush.Knots ∧ ∃ r, Relation.TransGen (Store.Links ⟨#[.seq [.seq 0]], 0⟩) r r := by
  have listed : Unknotted listing := .run storing storing_refused (.new _ _ _)
  have there : selfPush.value.Within (· < selfPush.store.cells.size) := by
    rintro r link
    cases link
    exact Nat.zero_lt_one
  exact ⟨listed, pushing_refused, by decide +kernel,
    (containers_finite_of_unknotted _ selfPush).1 (.run _ pushing_refused listed),
    (containers_finite_of_unknotted _ selfPush).2.1 _ listed pushing_refused, selfPush_knots,
    (containers_finite_of_unknotted blank selfPush).2.2 _ _ selfPush_knots there rfl⟩

end TagScript.Script
