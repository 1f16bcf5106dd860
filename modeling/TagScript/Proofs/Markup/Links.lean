import Mathlib.Data.List.Nodup
import Mathlib.Data.List.Perm.Basic
import TagScript.Markup.Action
import TagScript.Proofs.Markup.Enclosure

/-!
# Links that agree

That parents and children agree is kept by every operation, whichever nodes it is given. All
operations are made of three steps: a node is taken out, a node of no tree is put in, and a node
gives children up.
-/

namespace TagScript.Markup

open List

variable {f g : Forest} {id child p c x : NodeId} {nodes : List NodeId}

namespace Forest

/-- Each child has its parent, and stands once among its children. -/
def Linked (f : Forest) : Prop :=
  ∀ p c, (f.node p).childList.count c = if (f.node c).parent = some p then 1 else 0

namespace Linked

lemma mem_iff (linked : f.Linked) : c ∈ (f.node p).childList ↔ (f.node c).parent = some p := by
  rw [← count_pos_iff, linked p c]
  split <;> simp_all

lemma child_lt (linked : f.Linked) (mem : c ∈ (f.node p).childList) : c < f.nodes.size :=
  lt_size_of_parent (linked.mem_iff.mp mem)

lemma parent_lt (linked : f.Linked) (up : (f.node c).parent = some p) : p < f.nodes.size := by
  by_contra beyond
  have member := linked.mem_iff.mpr up
  rw [node_of_size_le (Nat.le_of_not_lt beyond)] at member
  cases member

lemma congr (linked : f.Linked) (parents : ∀ x, (g.node x).parent = (f.node x).parent)
    (children : ∀ x, (g.node x).childList = (f.node x).childList) : g.Linked := by
  intro p c
  rw [children, parents]
  exact linked p c

lemma empty : Forest.empty.Linked := fun _ _ => rfl

/-! ## Taking out -/

lemma remove (linked : f.Linked) (id : NodeId) : (f.remove id).Linked := by
  intro p c
  rw [childList_remove, parent_remove]
  by_cases itself : c = id
  · subst itself
    split
    · rename_i up
      simp [count_erase_self, linked p c, up]
    · rename_i elsewhere
      simp [linked p c, elsewhere]
  · rw [if_neg itself, ← linked p c]
    split
    · exact count_erase_of_ne itself
    · rfl

lemma removeAll (linked : f.Linked) (ids : List NodeId) : (f.removeAll ids).Linked := by
  induction ids generalizing f with
  | nil => exact linked
  | cons id rest ih => exact ih (linked.remove id)

/-! ## Putting in -/

lemma placed (linked : f.Linked) (id child : NodeId) (root : (f.node child).parent = none)
    (parents : ∀ x, (g.node x).parent = if x = child then some id else (f.node x).parent)
    (children : (g.node id).childList.Perm (child :: (f.node id).childList))
    (others : ∀ x, x ≠ id → (g.node x).childList = (f.node x).childList) : g.Linked := by
  intro p c
  rw [parents]
  by_cases here : p = id
  · subst here
    rw [children.count_eq, count_cons, linked p c]
    by_cases itself : c = child
    · subst itself
      simp [root]
    · simp [itself, Ne.symm itself]
  · rw [others p here, linked p c]
    by_cases itself : c = child
    · subst itself
      simp [root, Ne.symm here]
    · simp [itself]

end Linked

lemma clampIndex_le (length : Nat) (index : Int) : clampIndex length index ≤ length := by
  unfold clampIndex
  split <;> omega

namespace Linked

section

variable (linked : f.Linked) (inside : id < f.nodes.size) (mem : child < f.nodes.size)
include linked inside mem

lemma put (change : Array NodeId → Array NodeId) (among : (change ((f.remove child).node id).children).toList.Perm
      (child :: ((f.remove child).node id).childList)) : (f.put id child change).Linked := by
  refine (linked.remove child).placed id child (f.parent_remove_self child) (fun x => ?_) ?_ fun x other => ?_
  · rw [parent_put f id mem, parent_remove]
    split <;> rfl
  · rw [childList_put f child inside, if_pos rfl]
    exact among
  · rw [childList_put f child inside, if_neg other]

lemma moveLast : (f.moveLast id child).Linked := by
  rw [moveLast_eq]
  refine linked.put inside mem _ ?_
  rw [Array.toList_push]
  exact perm_append_singleton child _

lemma insertOne (index : Int) : (f.insertOne id index child).Linked := by
  rw [insertOne_eq]
  refine linked.put inside mem _ ?_
  generalize ((f.remove child).node id) = n
  have within : clampIndex n.children.size index ≤ n.childList.length := by
    simpa [Node.childList] using clampIndex_le n.children.size index
  have listed := insertIdxIfInBounds_toArray n.children.toList (clampIndex n.children.size index) child
  rw [listed]
  exact perm_insertIdx child n.childList within

end

lemma insertAt (linked : f.Linked) (inside : id < f.nodes.size)
    (members : ∀ x ∈ nodes, x < f.nodes.size) (index : Int) : (f.insertAt id index nodes).Linked := by
  induction nodes generalizing f index with
  | nil => exact linked
  | cons child rest ih =>
    have size : (f.insertOne id index child).nodes.size = f.nodes.size := size_insertAt f id index [child]
    refine ih (linked.insertOne inside (members child mem_cons_self) index) ?_ (fun x among => ?_) (index + 1)
    · rwa [size]
    · rw [size]
      exact members x (mem_cons_of_mem _ among)

lemma putInPlace (linked : f.Linked) (members : ∀ x ∈ nodes, x < f.nodes.size) : (f.putInPlace id nodes).Linked := by
  unfold Forest.putInPlace
  split
  · exact linked
  · rename_i above up
    have inside := linked.parent_lt up
    refine (linked.remove id).insertAt ?_ (fun x among => ?_) _
    · rwa [size_remove]
    · rw [size_remove]
      exact members x among

lemma replaceWith (linked : f.Linked) (members : ∀ x ∈ nodes, x < f.nodes.size) : (f.replaceWith id nodes).Linked := by
  refine (linked.removeAll _).putInPlace fun x among => ?_
  rw [size_removeAll]
  exact members x (mem_filter.mp among).1

/-! ## Giving children up -/

section

variable (linked : f.Linked) (inside : id < f.nodes.size)
include linked inside

lemma release (below : nodes ⊆ (f.node id).childList) (change : Array NodeId → Array NodeId)
    (kept : ∀ c, (change (f.node id).children).toList.count c =
      if c ∈ nodes then 0 else (f.node id).childList.count c) :
    ((f.orphan nodes).modify id fun n => { n with children := change n.children }).Linked := by
  intro p c
  have parents : (((f.orphan nodes).modify id fun n => { n with children := change n.children }).node c).parent =
      if c ∈ nodes then none else (f.node c).parent := by
    rw [node_modify, node_orphan]
    split <;> split <;> rfl
  have children : (((f.orphan nodes).modify id fun n => { n with children := change n.children }).node p).childList =
      if p = id then (change (f.node id).children).toList else (f.node p).childList := by
    have same : ((f.orphan nodes).node p).children = (f.node p).children := by
      rw [node_orphan]
      split <;> rfl
    by_cases here : p = id
    · subst here
      rw [node_modify_of_lt (by rwa [size_orphan]), if_pos rfl, if_pos rfl]
      simp only [Node.childList, same]
    · rw [node_modify, if_neg (fun both => here both.1), if_neg here, Node.childList, same]
      rfl
  rw [parents, children]
  by_cases here : p = id
  · subst here
    rw [if_pos rfl, kept c]
    by_cases given : c ∈ nodes
    · simp [given]
    · simp [given, linked p c]
  · rw [if_neg here, linked p c]
    by_cases given : c ∈ nodes
    · have up := linked.mem_iff.mp (below given)
      simp [given, up, Ne.symm here]
    · simp [given]

lemma clearChildren : (f.clearChildren id).Linked := by
  refine linked.release inside (List.Subset.refl _) (fun _ => #[]) fun c => ?_
  split
  · rfl
  · rename_i absent
    exact (count_eq_zero.mpr absent).symm

lemma unwrap : (f.unwrap id).Linked := by
  refine Linked.putInPlace ?_ fun x among => ?_
  · refine linked.release inside (fun c among => (mem_filter.mp among).1) (·.filter (· == id)) fun c => ?_
    rw [Array.toList_filter]
    by_cases itself : c = id
    · subst itself
      rw [if_neg (by simp), count_filter (by simp), Node.childList]
    · rw [count_eq_zero.mpr (by simp [itself])]
      split
      · rfl
      · rename_i absent
        simp only [mem_filter, bne_iff_ne, ne_eq, itself, not_false_eq_true, and_true] at absent
        exact (count_eq_zero.mpr absent).symm
  · rw [size_modify, size_orphan]
    exact linked.child_lt (mem_filter.mp among).1

end

/-! ## New nodes -/

lemma add (linked : f.Linked) {n : Node} (childless : n.children = #[]) (root : n.parent = none) :
    (f.add n).2.Linked := by
  have beyond : f.node f.nodes.size = default := node_of_size_le (Nat.le_refl _)
  refine linked.congr (fun x => ?_) fun x => ?_
  · rw [node_add]
    split
    · rename_i new
      rw [new, beyond, root]
      rfl
    · rfl
  · rw [node_add]
    split
    · rename_i new
      rw [new, beyond, Node.childList, childless]
      rfl
    · rfl

lemma addUnder (linked : f.Linked) {n : Node} (childless : n.children = #[]) (up : n.parent = some p)
    (inside : p < f.nodes.size) (change : Array NodeId → Array NodeId)
    (among : (change (f.node p).children).toList.Perm (f.nodes.size :: (f.node p).childList)) :
    ((f.add n).2.modify p fun n => { n with children := change n.children }).Linked := by
  have other : p ≠ f.nodes.size := Nat.ne_of_lt inside
  have alone := linked.add (n := n.under none) childless rfl
  have before : ∀ x, ((f.add (n.under none)).2.node x).childList = ((f.add n).2.node x).childList := by
    intro x
    rw [node_add, node_add]
    split <;> rfl
  refine alone.placed p f.nodes.size ?_ (fun x => ?_) ?_ fun x elsewhere => ?_
  · rw [node_add, if_pos rfl]
    rfl
  · rw [parent_modify _ _ (fun n => { n with children := change n.children }) fun _ => rfl, node_add, node_add]
    split
    · exact up
    · rfl
  · rw [before, node_modify, if_pos ⟨rfl, by rw [size_add]; exact Nat.lt_succ_of_lt inside⟩, node_add, if_neg other]
    exact among
  · rw [before, node_modify, if_neg fun both => elsewhere both.1]

lemma setText (linked : f.Linked) (inside : id < f.nodes.size) (text : String) : (f.setText id text).Linked := by
  cases words : (f.node id).isText with
  | true =>
    rw [Forest.setText, if_pos words]
    refine linked.congr (fun x => ?_) fun x => ?_
    · rw [node_modify]
      split <;> rfl
    · rw [node_modify]
      split <;> rfl
  | false =>
    have cleared := linked.clearChildren inside
    cases blank : text.isEmpty with
    | true =>
      rw [setText_of_isEmpty words blank]
      exact cleared
    | false =>
      rw [setText_of_not_isEmpty words blank]
      have size := size_addText_clearChildren f id text
      generalize made : ((f.clearChildren id).addText text).2 = g at size
      have root : (g.node f.nodes.size).parent = none := by
        rw [← made, node_addText, size_clearChildren, if_pos rfl]
        rfl
      have bare : (g.node id).childList = [] := by
        rw [← made, node_addText, size_clearChildren, if_neg (Nat.ne_of_lt inside), Forest.clearChildren,
          node_modify_of_lt (by rwa [size_orphan]), if_pos rfl]
        rfl
      have linked : g.Linked := made ▸ cleared.add rfl rfl
      have there : id < g.nodes.size := by rw [size]; exact Nat.lt_succ_of_lt inside
      have new : f.nodes.size < g.nodes.size := by rw [size]; exact Nat.lt_succ_self _
      have put := linked.put there new (fun _ => [f.nodes.size].toArray) (by rw [remove_of_root root, bare])
      rw [Forest.put, remove_of_root root] at put
      exact put

lemma attach {b : Builder} (linked : b.forest.Linked) (inside : b.current < b.forest.nodes.size) {n : Node}
    (childless : n.children = #[]) : (b.attach n).2.forest.Linked := by
  refine linked.addUnder (n := n.under (some b.current)) childless rfl inside (·.push b.forest.nodes.size) ?_
  rw [Array.toList_push]
  exact perm_append_singleton _ _

lemma parse (linked : f.Linked) {source : String} (parsed : f.parse source = .ok (id, g)) : g.Linked :=
  parse_attaching parsed (linked.add rfl rfl) fun inside childless linked => linked.attach inside childless

end Linked

/-! ## Copies -/

lemma Linked.ends (linked : f.Linked) {depth : Nat} (ends : f.deeper depth id = false) : f.Ends depth id := by
  induction depth generalizing id with
  | zero => cases ends
  | succ depth ih =>
    intro c among
    simp only [deeper, any_eq_false, Bool.not_eq_true] at ends
    exact ⟨linked.child_lt among, ih (ends c among)⟩

lemma Linked.copyOf_clone (linked : f.Linked) (ends : f.isEndless id = false) :
    (f.clone id).1 = f.nodes.size ∧ CopyOf f (f.clone id).2 none id :=
  copyOf_cloneBelow none (linked.ends ends)

lemma CopyOf.linked (copied : CopyOf f g none id) (linked : f.Linked) : g.Linked := by
  intro p c
  by_cases old : p < f.nodes.size
  · rw [copied.kept p old, linked p c]
    by_cases known : c < f.nodes.size
    · rw [copied.kept c known]
    · have new := Nat.le_of_not_lt known
      rw [node_of_size_le new, if_neg (by exact nofun),
        if_neg fun up => Nat.not_lt.mpr (copied.parent_new new up).1 old]
  · rw [copied.links p (Nat.le_of_not_lt old) c]
    congr 1
    refine propext (and_iff_right_of_imp fun up => Nat.lt_of_not_le fun known => ?_)
    rcases Nat.eq_or_lt_of_le known with rfl | known
    · exact Nat.not_lt.mpr (Nat.le_of_not_lt old) (copied.parent_new (Nat.le_refl _) up).2
    · rw [copied.kept c known] at up
      exact old (linked.parent_lt up)

/-! ## Operations one after the other -/

lemma Linked.perform (linked : f.Linked) (a : Action) (known : ∀ id ∈ a.nodes, id < f.nodes.size) :
    (f.perform a).2.Linked := by
  cases a with
  | make tag attrs text =>
    simp only [Forest.perform, newNode]
    split
    · exact linked
    · exact linked.add rfl rfl
  | parse source =>
    simp only [Forest.perform]
    cases parsed : f.parse source with
    | error fault => exact linked
    | ok made => exact linked.parse parsed
  | appendChild id child =>
    simp only [Forest.perform, appendChild]
    split
    · exact linked
    · exact linked.moveLast (known id (by simp [Action.nodes])) (known child (by simp [Action.nodes]))
  | insertAt id index nodes =>
    exact linked.insertAt (known id mem_cons_self) (fun x among => known x (mem_cons_of_mem _ among)) index
  | remove id => exact linked.remove id
  | replaceWith id nodes => exact linked.replaceWith fun x among => known x (mem_cons_of_mem _ among)
  | unwrap id => exact linked.unwrap (known id mem_cons_self)
  | clearChildren id => exact linked.clearChildren (known id mem_cons_self)
  | setText id text => exact linked.setText (known id mem_cons_self) text
  | clone id =>
    simp only [Forest.perform]
    split
    · exact linked
    · rename_i ends
      exact (linked.copyOf_clone (by simpa using ends)).2.linked linked

/-- The forests that operations lead to, each on nodes that are there, whether it fails or not. -/
inductive Reached : Forest → Prop where
  | empty : Reached Forest.empty
  | perform {f : Forest} (a : Action) (before : Reached f) (known : ∀ id ∈ a.nodes, id < f.nodes.size) :
    Reached (f.perform a).2

lemma Reached.linked (reached : f.Reached) : f.Linked := by
  induction reached with
  | empty => exact Linked.empty
  | perform a _ known linked => exact linked.perform a known

lemma perform_error {a : Action} {fault : Fault} (failed : (f.perform a).1 = .error fault) : (f.perform a).2 = f := by
  have settled : ∀ {x : Except Fault (Option NodeId × Forest)}, (f.settled x).1 = .error fault → (f.settled x).2 = f := by
    intro x failed
    cases x with
    | error _ => rfl
    | ok made => cases failed
  cases a with
  | make | parse | appendChild => exact settled failed
  | clone id =>
    simp only [Forest.perform] at failed ⊢
    split at failed
    · rename_i endless
      rw [if_pos endless]
    · cases failed
  | _ => cases failed

/-- In every forest that operations lead to, whichever nodes they are given, a node is among the
children of its parent exactly once and among those of no other node; and an operation that fails
leaves the forest as it was. -/
theorem linked_and_failure_unchanged_of_reached (reached : f.Reached) :
    (∀ p c, (f.node p).childList.count c = if (f.node c).parent = some p then 1 else 0) ∧
      ∀ a fault, (f.perform a).1 = .error fault → (f.perform a).2 = f :=
  ⟨reached.linked, fun _ _ => perform_error⟩

def twoElements : Forest :=
  ((Forest.empty.perform (.make "p" [] "")).2.perform (.make "b" [] "")).2

def putIntoItself : Forest :=
  ((twoElements.perform (.insertAt 0 0 [1, 1])).2.perform (.insertAt 1 (-1) [1])).2

/-- Its links agree: it has left the first element, and is a child of itself once. -/
theorem linked_putIntoItself :
    putIntoItself.Reached ∧ (putIntoItself.node 0).childList.count 1 = 0 ∧
      (putIntoItself.node 1).childList.count 1 = 1 := by
  have two : twoElements.Reached := .perform _ (.perform _ .empty (by decide)) (by decide)
  have reached : putIntoItself.Reached := by
    refine .perform _ (.perform _ two (by decide)) ?_
    show ∀ id ∈ [1, 1], id < (twoElements.insertAt 0 0 [1, 1]).nodes.size
    rw [size_insertAt]
    decide
  have linked := (linked_and_failure_unchanged_of_reached reached).1
  have up : (putIntoItself.node 1).parent = some 1 := by decide +kernel
  refine ⟨reached, ?_, ?_⟩
  · rw [linked 0 1, up]
    rfl
  · rw [linked 1 1, up]
    rfl

end Forest

end TagScript.Markup
