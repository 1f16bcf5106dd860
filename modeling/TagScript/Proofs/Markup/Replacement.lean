import TagScript.Proofs.Markup.Links

/-!
# Replacing a node
-/

namespace TagScript.Markup.Forest

open List

variable {f : Forest} {id p x : NodeId} {nodes before after : List NodeId}

namespace Linked

lemma nodup (linked : f.Linked) (x : NodeId) : (f.node x).childList.Nodup := by
  rw [nodup_iff_count_le_one]
  intro c
  rw [linked x c]
  split <;> simp

lemma replaceWith_links (linked : f.Linked) (parent : (f.node id).parent = some p)
    (row : (f.node p).childList = before ++ id :: after) (distinct : nodes.Nodup)
    (members : ∀ x ∈ nodes, x < f.nodes.size) (x : NodeId) :
    ((f.replaceWith id nodes).node x).childList =
        (if x = p then before.filter (· ∉ nodes) ++ nodes.filter (· != id) ++ after.filter (· ∉ nodes)
        else (f.node x).childList.filter (· ∉ nodes)) ∧
      ((f.replaceWith id nodes).node x).parent =
        if x ∈ nodes.filter (· != id) then some p else if x = id then none else (f.node x).parent := by
  have once := linked.nodup p
  rw [row, nodup_middle, nodup_cons, mem_append, not_or] at once
  have taken : ∀ row : List NodeId, id ∉ row → row.filter (· ∉ nodes.filter (· != id)) = row.filter (· ∉ nodes) := by
    refine fun row absent => filter_congr fun c mem => ?_
    have other : c ≠ id := fun same => absent (same ▸ mem)
    simp [other]
  have size := size_removeAll f (nodes.filter (· != id))
  have up : ((f.removeAll (nodes.filter (· != id))).node id).parent = some p := by
    rw [parent_removeAll, if_neg (by simp), parent]
  have left : ((f.removeAll (nodes.filter (· != id))).node p).childList =
      before.filter (· ∉ nodes) ++ id :: after.filter (· ∉ nodes) := by
    rw [childList_removeAll (linked.nodup _) _ fun _ _ => linked.mem_iff, row, filter_append, filter_cons, if_pos (by simp),
      taken before once.1.1,
      taken after once.1.2]
  have roots : ∀ y ∈ nodes.filter (· != id), ((f.removeAll (nodes.filter (· != id))).node y).parent = none := by
    intro y among
    rw [parent_removeAll, if_pos among]
  have known : ∀ y ∈ nodes.filter (· != id), y < (f.removeAll (nodes.filter (· != id))).nodes.size := by
    intro y among
    rw [size]
    exact members y (List.mem_filter.mp among).1
  obtain ⟨children, above⟩ := links_putInPlace up left (by simp [once.1.1]) roots known (distinct.filter _)
    (size ▸ linked.parent_lt parent) x
  refine ⟨children.trans ?_, above.trans ?_⟩
  · split
    · rfl
    · rename_i other
      rw [childList_removeAll (linked.nodup _) _ fun _ _ => linked.mem_iff, taken]
      rw [linked.mem_iff, parent]
      simpa using Ne.symm other
  · rw [parent_removeAll]
    split
    · rfl
    · rfl

end Linked

/-- What stands in the place of a node once it is replaced, and once it is unwrapped. -/
theorem replaceWith_and_unwrap (linked : f.Linked) (parent : (f.node id).parent = some p) :
    ∃ before after, (f.node p).childList = before ++ id :: after ∧
      (∀ nodes : List NodeId, nodes.Nodup → (∀ x ∈ nodes, x < f.nodes.size) →
        ((f.replaceWith id nodes).node p).childList =
            before.filter (· ∉ nodes) ++ nodes.filter (· != id) ++ after.filter (· ∉ nodes) ∧
          (∀ x ∈ nodes, x ≠ id → ((f.replaceWith id nodes).node x).parent = some p) ∧
          ((f.replaceWith id nodes).node id).parent = none ∧
          ∀ x, x ≠ p → ((f.replaceWith id nodes).node x).childList = (f.node x).childList.filter (· ∉ nodes)) ∧
      (p ∉ (f.node id).childList →
        ((f.unwrap id).node p).childList = before ++ (f.node id).childList ++ after ∧
          ((f.unwrap id).node id).parent = none ∧ ((f.unwrap id).node id).childList = []) := by
  obtain ⟨before, after, row⟩ := List.append_of_mem (linked.mem_iff.mpr parent)
  have once := linked.nodup p
  rw [row, List.nodup_middle, List.nodup_cons, List.mem_append, not_or] at once
  refine ⟨before, after, row, fun nodes distinct members => ?_, fun apart => ?_⟩
  · have links := linked.replaceWith_links parent row distinct members
    refine ⟨?_, fun x among other => ?_, ?_, fun x other => ?_⟩
    · rw [(links p).1, if_pos rfl]
    · rw [(links x).2, if_pos (by simp [among, other])]
    · rw [(links id).2, if_neg (by simp), if_pos rfl]
    · rw [(links x).1, if_neg other]
  · have below : p ≠ id := by
      rintro rfl
      exact apart (linked.mem_iff.mpr parent)
    have itself : id ∉ (f.node id).childList := by
      rw [linked.mem_iff, parent]
      simpa using below
    have unwrapped := node_unwrap parent row once.1.1 (fun x => linked.child_lt) itself apart (linked.nodup id) below
      (linked.parent_lt parent)
    simp [unwrapped, itself, apart, Ne.symm below]

def siblings : Forest :=
  ((twoElements.perform (.make "i" [] "")).2.perform (.insertAt 0 0 [1, 2])).2

/-- A node is replaced by the one behind it and itself. -/
theorem replaceWith_sibling : ∃ before after, (siblings.node 0).childList = before ++ 1 :: after ∧
    ((siblings.replaceWith 1 [2, 1]).node 0).childList =
      before.filter (· ∉ [2, 1]) ++ [2] ++ after.filter (· ∉ [2, 1]) := by
  have reached : siblings.Reached :=
    .perform _ (.perform _ (.perform _ (.perform _ .empty (by decide)) (by decide)) (by decide)) (by decide)
  have up : (siblings.node 1).parent = some 0 := by decide +kernel
  have size : siblings.nodes.size = 3 := by decide +kernel
  obtain ⟨before, after, row, replaced, _⟩ := replaceWith_and_unwrap reached.linked up
  exact ⟨before, after, row, (replaced [2, 1] (by decide) (by rw [size]; decide)).1⟩

end TagScript.Markup.Forest
