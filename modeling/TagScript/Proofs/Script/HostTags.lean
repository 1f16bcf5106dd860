import TagScript.Proofs.Script.Watch

/-!
# The tags of hosts

A run begins by putting the tags of the host at hand in the place of those of the host before. What
a tag meant before a host took it is not put back, so the table depends on all hosts that runs have
begun with.
-/

namespace TagScript

open List Assoc

variable {table : Assoc Handler} {actions : List (String × HostAction)}

namespace Script

open Markup

/-! ## Tables -/

def withoutTags (tags : List String) (table : Assoc Handler) : Assoc Handler :=
  tags.foldl (fun table tag => Assoc.erase tag table) table

def withActions (host : HostId) (actions : List (String × HostAction)) (table : Assoc Handler) : Assoc Handler :=
  actions.foldl (fun table (tag, action) => Assoc.set tag (.host host action) table) table

section

variable {tag : String} {host : HostId}

section

variable (nodup : (Assoc.names table).Nodup)
include nodup

lemma nodup_withoutTags (tags : List String) : (Assoc.names (withoutTags tags table)).Nodup := by
  induction tags generalizing table with
  | nil => exact nodup
  | cons first rest ih => exact ih (nodup_erase nodup first)

lemma nodup_withActions
    (actions : List (String × HostAction)) : (Assoc.names (withActions host actions table)).Nodup := by
  induction actions generalizing table with
  | nil => exact nodup
  | cons first rest ih => exact ih (nodup_set nodup _ _)

lemma get?_withoutTags (tags : List String) :
    get? tag (withoutTags tags table) = if tag ∈ tags then none else get? tag table := by
  induction tags generalizing table with
  | nil => rfl
  | cons first rest ih =>
    refine (ih (nodup_erase nodup first)).trans ?_
    by_cases same : tag = first
    · subst same
      simp [get?_erase_self nodup]
    · simp [get?_erase_other same, same]

end

lemma get?_withActions_congr {table' : Assoc Handler}
    (same : tag ∉ actions.map Prod.fst → get? tag table = get? tag table') :
    get? tag (withActions host actions table) = get? tag (withActions host actions table') := by
  induction actions generalizing table table' with
  | nil => exact same not_mem_nil
  | cons first rest ih =>
    refine ih fun further => ?_
    by_cases here : tag = first.1
    · subst here
      rw [get?_set_self, get?_set_self]
    · rw [get?_set_other here, get?_set_other here]
      exact same (by simpa [here] using further)

lemma get?_withActions_other (other : tag ∉ actions.map Prod.fst)
    (table : Assoc Handler) : get? tag (withActions host actions table) = get? tag table := by
  induction actions generalizing table with
  | nil => rfl
  | cons first rest ih =>
    obtain ⟨apart, other⟩ := not_or.mp (mt List.mem_cons.mpr other)
    exact (ih other _).trans (get?_set_other apart _ _)

end

/-- The elements that the host at hand adds. -/
def Machine.hostActions (m : Machine) : List (String × HostAction) :=
  m.session.host.elim [] fun id => (m.hosts.getD id default).actions

/-- A table with the elements of the host at hand over what is there. -/
def Machine.overridden (m : Machine) (table : Assoc Handler) : Assoc Handler :=
  withActions (m.session.host.getD 0) m.hostActions table

lemma handlers_entered (m : Machine) (document : NodeId) :
    (m.entered document).session.handlers = m.overridden (withoutTags m.session.hostTags m.session.handlers) ∧
      (m.entered document).session.hostTags = m.hostActions.map Prod.fst := by
  unfold Machine.entered bindHostTags Machine.overridden Machine.hostActions
  simp only [Machine.mapSession]
  cases m.session.host <;> exact ⟨rfl, rfl⟩

/-! ## Histories -/

def Errand.begun (m : Machine) : Errand → List (List String)
  | source text => (m.forest.parse text).toOption.elim [] fun _ => [m.hostActions.map Prod.fst]
  | _ => []

/-- A machine of which things have been asked, with the tags of the hosts that runs have begun with,
last first. -/
inductive Hosted : Machine → List (List String) → Prop where
  | new (settings : Settings) (world : World) (sourceDir : Option String) :
    Hosted (Machine.new settings world sourceDir) []
  | run {m : Machine} {past : List (List String)} (errand : Errand) :
    Hosted m past → Hosted (errand.run m).2 (errand.begun m ++ past)

variable {m : Machine}

lemma reachable_errand (reachable : Reachable m) (errand : Errand) : Reachable (errand.run m).2 := by
  cases errand with
  | source text => exact (state_discard (runSource text) m).symm ▸ reachable.runSource text
  | part text => exact (state_discard (runPart text) m).symm ▸ reachable.runPart text
  | dispatch selector event detail =>
    exact (state_discard (dispatchTo selector event detail) m).symm ▸ reachable.dispatchTo selector event detail
  | dispatchAt target event detail =>
    exact (state_discard (dispatchAt target event detail) m).symm ▸ reachable.dispatchAt target event detail
  | host actions => exact reachable.changeHost actions

variable {past : List (List String)}

lemma Hosted.reachable (hosted : Hosted m past) : Reachable m := by
  induction hosted with
  | new settings world dir => exact .new settings world dir
  | run errand _ reachable => exact reachable_errand reachable errand

/-- What the table is between runs: the tags of the host that the last run began with aside, it is
that of a new session without the tags that hosts have had. -/
structure Machine.Tabled (m : Machine) (past : List (List String)) : Prop where
  nodup : (Assoc.names m.session.handlers).Nodup
  bound : m.session.hostTags = [] ∨ m.session.hostTags ∈ past
  others : ∀ tag, tag ∉ m.session.hostTags → get? tag m.session.handlers =
    if ∃ tags ∈ past, tag ∈ tags then none else get? tag builtinHandlers

namespace Machine.Tabled

variable {m n : Machine} {past : List (List String)}

variable (tabled : m.Tabled past)
include tabled

lemma of_eq (handlers : n.session.handlers = m.session.handlers)
    (tags : n.session.hostTags = m.session.hostTags) : n.Tabled past := by
  refine ⟨handlers ▸ tabled.nodup, tags ▸ tabled.bound, fun tag other => ?_⟩
  rw [handlers]
  exact tabled.others tag (tags ▸ other)

lemma get?_cleared (tag : String) : get? tag (withoutTags m.session.hostTags m.session.handlers) =
      if ∃ tags ∈ past, tag ∈ tags then none else get? tag builtinHandlers := by
  rw [get?_withoutTags tabled.nodup]
  split
  · rename_i mem
    rcases tabled.bound with none | among
    · rw [none] at mem
      cases mem
    · rw [if_pos ⟨_, among, mem⟩]
  · rename_i other
    exact tabled.others tag other

lemma entered (document : NodeId) : (m.entered document).Tabled (m.hostActions.map Prod.fst :: past) := by
  obtain ⟨handlers, tags⟩ := handlers_entered m document
  refine ⟨?_, .inr (tags ▸ mem_cons_self), fun tag other => ?_⟩
  · rw [handlers]
    exact nodup_withActions (nodup_withoutTags tabled.nodup _) _
  · rw [tags] at other
    rw [handlers, Machine.overridden, get?_withActions_other other, tabled.get?_cleared]
    simp only [mem_cons, exists_eq_or_imp, other, false_or]

lemma runSource (idle : m.outline.Idle) (text : String) :
    (runSource text m).2.Tabled ((Errand.source text).begun m ++ past) := by
  unfold Script.runSource
  rw [run_bind, parseSource_apply, Errand.begun]
  rcases m.forest.parse text with fault | ⟨document, forest⟩
  · exact tabled
  · have outline := outline_runDocumentBy (runDocument_runs moduleNesting) (m := { m with forest := forest }) idle.stacked
      maxDepth document
    have begun : Machine.Tabled { m with forest := forest } past := tabled.of_eq rfl rfl
    have left : (runDocument (moduleNesting + 1) document { m with forest := forest }).2.Tabled
        (m.hostActions.map Prod.fst :: past) :=
      (begun.entered document).of_eq (congrArg Outline.handlers outline) (congrArg Outline.hostTags outline)
    simp only []
    rw [run_bind]
    generalize runDocument (moduleNesting + 1) document { m with forest := forest } = ran at left ⊢
    obtain ⟨result, after⟩ := ran
    cases result <;> exact left

lemma errand (idle : m.outline.Idle) (errand : Errand) : (errand.run m).2.Tabled (errand.begun m ++ past) := by
  have kept : ∀ n : Machine, n.outline = m.outline → n.Tabled past := fun n same =>
    tabled.of_eq (congrArg Outline.handlers same) (congrArg Outline.hostTags same)
  cases errand with
  | source text => exact (state_discard (Script.runSource text) m).symm ▸ tabled.runSource idle text
  | part text =>
    obtain ⟨_, still, _⟩ := Steady.runPart idle.stacked text m (at_any rfl)
    exact (state_discard (runPart text) m).symm ▸ kept _ still.1
  | dispatch selector event detail =>
    obtain ⟨_, still, _⟩ := Steady.dispatchTo idle.stacked selector event detail m (at_any rfl)
    exact (state_discard (dispatchTo selector event detail) m).symm ▸ kept _ still.1
  | dispatchAt target event detail =>
    obtain ⟨_, still, _⟩ := Steady.dispatch idle.stacked event detail [target] m (at_any rfl)
    exact (state_discard (dispatchAt target event detail) m).symm ▸ kept _ still.1
  | host actions => cases actions <;> exact tabled.of_eq rfl rfl

end Machine.Tabled

lemma Hosted.tabled (hosted : Hosted m past) : m.Tabled past := by
  induction hosted with
  | new settings world dir =>
    refine ⟨show (Assoc.names builtinHandlers).Nodup by decide, .inl rfl, fun tag _ => (if_neg ?_).symm⟩
    exact fun ⟨_, never, _⟩ => not_mem_nil never
  | run errand hosted tabled => exact tabled.errand (idle_of_reachable hosted.reachable) errand

/-- Every machine between runs has a history of hosts. The table that a run of it begins with is
that of a new session with the elements of the host at hand over it, but for the tags that a host of
an earlier run had and the host at hand has not: these mean nothing, whatever they meant before. So
it depends on the host at hand alone exactly if the earlier hosts have taken no tag of the language
that it does not take itself. -/
theorem handlers_lack_tags_of_earlier_hosts (m : Machine) :
    (Reachable m → ∃ past, Hosted m past) ∧
    ∀ past document, Hosted m past →
      (∀ tag, Assoc.get? tag (m.entered document).session.handlers =
        if tag ∉ m.hostActions.map Prod.fst ∧ ∃ tags ∈ past, tag ∈ tags then none
        else Assoc.get? tag (m.overridden builtinHandlers)) ∧
      ((∀ tag, Assoc.get? tag (m.entered document).session.handlers = Assoc.get? tag (m.overridden builtinHandlers)) ↔
        ∀ tags ∈ past, ∀ tag ∈ tags, Assoc.has tag builtinHandlers → tag ∈ m.hostActions.map Prod.fst) := by
  refine ⟨fun reachable => ?_, fun past document hosted => ?_⟩
  · refine reachable_induction (P := fun m => ∃ past, Hosted m past) reachable (fun settings world dir =>
      ⟨_, .new settings world dir⟩) fun m errand ⟨past, hosted⟩ => ⟨_, hosted.run errand⟩
  have table : ∀ tag, Assoc.get? tag (m.entered document).session.handlers =
      if tag ∉ m.hostActions.map Prod.fst ∧ ∃ tags ∈ past, tag ∈ tags then none
      else Assoc.get? tag (m.overridden builtinHandlers) := by
    intro tag
    rw [(handlers_entered m document).1]
    split
    · rename_i lost
      rw [Machine.overridden, get?_withActions_other lost.1, hosted.tabled.get?_cleared, if_pos lost.2]
    · rename_i free
      refine get?_withActions_congr fun other => ?_
      rw [hosted.tabled.get?_cleared, if_neg fun lost => free ⟨other, lost⟩]
  refine ⟨table, fun same tags among tag member known => ?_, fun taken tag => ?_⟩
  · by_contra other
    have lost := (table tag).symm.trans (same tag)
    rw [if_pos ⟨other, tags, among, member⟩, Machine.overridden, get?_withActions_other other] at lost
    rw [Assoc.has, ← lost] at known
    cases known
  · rw [table tag]
    split
    · rename_i lost
      obtain ⟨other, tags, among, member⟩ := lost
      rw [Machine.overridden, get?_withActions_other other]
      cases known : Assoc.get? tag builtinHandlers with
      | none => rfl
      | some handler => exact absurd (taken tags among tag member (by rw [Assoc.has, known]; rfl)) other
    · rfl

/-- A run begins with a host that has an element of its own for `calc`, and then there is no host:
the next run knows nothing of that tag. -/
theorem handlers_lack_tags_of_earlier_hosts_calc : ∃ m, Hosted m [["calc"]] ∧
    Assoc.get? "calc" (m.entered 0).session.handlers = none ∧
    Assoc.get? "calc" (m.overridden builtinHandlers) = some (.builtin .calc) := by
  have hosted := (((Hosted.new ⟨some 3, false⟩ (World.new ⟨⟨"/", "/"⟩, [], [], []⟩ ⟨[], []⟩ .input [] true) none).run
    (.host (some [("calc", .capitalise)]))).run (.source "")).run (.host none)
  have past := ((handlers_lack_tags_of_earlier_hosts _).2 _ 0 hosted).1 "calc"
  exact ⟨_, hosted, past.trans rfl, rfl⟩

end Script

end TagScript
