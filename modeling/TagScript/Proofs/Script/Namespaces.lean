import TagScript.Proofs.Script.Course

/-!
# Functions moved into a namespace

The entries of a table are moved one after the other, within the table itself. So a function can be
moved to a name that is still to be moved on: it is lost there, and only there.
-/

namespace TagScript.Script

open List Assoc

variable {before after entries front back table : Assoc FunctionId} {space name : String} {f : FunctionId}

lemma inNamespace_ne (space name : String) : inNamespace space name ≠ name := by
  intro same
  have length := congrArg String.length same
  simp [inNamespace] at length

/-- The entries that are moved. -/
def renewed (before after : Assoc FunctionId) : Assoc FunctionId :=
  after.filter fun entry => get? entry.1 before ≠ some entry.2

/-- A function is moved to a name that is moved on later. -/
def Overrun (entries : Assoc FunctionId) (space name : String) : Prop :=
  ∃ front middle back f g, entries = front ++ (name, f) :: (middle ++ (inNamespace space name, g) :: back)

lemma namespaced_eq_foldl_renewed :
    namespaced before after space = (renewed before after).foldl (moved before space) after := by
  rw [renewed, foldl_filter, namespaced]
  congr 1
  funext table entry
  by_cases new : get? entry.1 before = some entry.2 <;> simp [moved, new]

section

variable (nodup : (Assoc.names (front ++ (name, f) :: back)).Nodup)
include nodup

lemma name_not_mem_back : ∀ entry ∈ back, entry.1 ≠ name := by
  rintro entry mem rfl
  rw [Assoc.names, map_append, map_cons] at nodup
  exact (List.nodup_cons.mp (List.nodup_append.mp nodup).2.1).1 (List.mem_map.mpr ⟨entry, mem, rfl⟩)

/-- A function is found where it was moved to, if that name is not moved on. -/
lemma get?_foldl_target
    (new : get? name before ≠ some f) (free : ∀ entry ∈ back, entry.1 ≠ inNamespace space name) :
    get? (inNamespace space name) ((front ++ (name, f) :: back).foldl (moved before space) table) = some f := by
  have single := name_not_mem_back nodup
  rw [foldl_append, foldl_cons, get?_foldl_moved, moved, if_neg new]
  · exact get?_set_self _ _ _
  · exact fun entry mem _ => ⟨fun same => single entry mem (inNamespace_injective same), free entry mem⟩

/-- A name that is moved means what it meant before, if nothing is moved to it later. -/
lemma get?_foldl_source (distinct : (Assoc.names table).Nodup) (new : get? name before ≠ some f)
    (free : ∀ entry ∈ back, inNamespace space entry.1 ≠ name) :
    get? name ((front ++ (name, f) :: back).foldl (moved before space) table) = get? name before := by
  have single := name_not_mem_back nodup
  rw [foldl_append, foldl_cons, get?_foldl_moved, moved, if_neg new]
  · refine (get?_set_other (inNamespace_ne space name).symm _ _).trans ?_
    cases get? name before with
    | none => exact get?_erase_self (nodup_foldl_moved distinct)
    | some g => exact get?_set_self _ _ _
  · exact fun entry mem _ => ⟨free entry mem, single entry mem⟩

end

/-- After functions have been moved into a namespace, each is found there, but for those that were
moved to a name that was then moved on: there stands what stood there before. Every other name means
what it meant before. -/
theorem namespaced_lookups (nodup : (Assoc.names after).Nodup)
    (kept : ∀ name, Assoc.has name before → Assoc.has name after) (space : String) :
    (∀ entry ∈ renewed before after, ¬ Overrun (renewed before after) space entry.1 →
      Assoc.get? (inNamespace space entry.1) (namespaced before after space) = some entry.2) ∧
    (∀ name, Overrun (renewed before after) space name →
      Assoc.get? (inNamespace space name) (namespaced before after space) =
        Assoc.get? (inNamespace space name) before) ∧
    ∀ name, (∀ entry ∈ renewed before after, inNamespace space entry.1 ≠ name) →
      Assoc.get? name (namespaced before after space) = Assoc.get? name before := by
  have single : (Assoc.names (renewed before after)).Nodup := nodup.sublist (List.filter_sublist.map _)
  have new : ∀ entry ∈ renewed before after, Assoc.get? entry.1 before ≠ some entry.2 := by
    intro entry member
    simpa using (List.mem_filter.mp member).2
  rw [namespaced_eq_foldl_renewed]
  generalize moving : renewed before after = entries at *
  refine ⟨fun entry member spared => ?_, fun name overrun => ?_, fun name free => ?_⟩
  · obtain ⟨front, back, rfl⟩ := List.append_of_mem member
    refine get?_foldl_target single (new entry member) fun later among same => spared ?_
    obtain ⟨middle, back, rfl⟩ := List.append_of_mem among
    exact ⟨front, middle, back, entry.2, later.2, by rw [← same]⟩
  · obtain ⟨front, middle, back, f, g, rfl⟩ := overrun
    have others := name_not_mem_back single
    rw [List.append_cons, ← List.append_assoc] at single new ⊢
    refine get?_foldl_source single nodup (new (_, g) (List.mem_append_right _ List.mem_cons_self)) fun later among same => ?_
    exact others later (by simp [among]) (inNamespace_injective same)
  · by_cases member : ∃ g, (name, g) ∈ entries
    · obtain ⟨g, member⟩ := member
      obtain ⟨front, back, rfl⟩ := List.append_of_mem member
      exact get?_foldl_source single nodup (new _ member) fun later among => free later (by simp [among])
    · rw [get?_foldl_moved fun entry among _ => ⟨free entry among, fun same => member ⟨entry.2, same ▸ among⟩⟩]
      cases now : Assoc.get? name after with
      | some g =>
        by_contra other
        refine member ⟨g, moving ▸ List.mem_filter.mpr ⟨Assoc.mem_of_get? now, ?_⟩⟩
        simpa using Ne.symm other
      | none =>
        have absent := mt (kept name)
        simp only [Assoc.has, now] at absent
        exact (by simpa using absent : Assoc.get? name before = none).symm

theorem namespaced_lookups_nested :
    Assoc.get? "n.f" (namespaced [("k", 0)] [("k", 0), ("f", 1), ("n.f", 2)] "n") = none ∧
      Assoc.get? "k" (namespaced [("k", 0)] [("k", 0), ("f", 1), ("n.f", 2)] "n") = some 0 := by
  have kept : ∀ name, Assoc.has name [("k", 0)] → Assoc.has name [("k", 0), ("f", 1), ("n.f", 2)] := by
    intro name
    simp only [Assoc.has, Assoc.get?]
    split <;> simp
  obtain ⟨_, overrun, others⟩ := @namespaced_lookups [("k", 0)] [("k", 0), ("f", 1), ("n.f", 2)] (by decide) kept "n"
  exact ⟨overrun "f" ⟨[], [], [], 1, 2, by decide⟩, others "k" (by decide)⟩

end TagScript.Script
