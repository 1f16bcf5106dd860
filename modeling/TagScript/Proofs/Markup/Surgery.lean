import Mathlib.Order.Basic
import TagScript.Markup.Build

/-!
# What the operations on a forest do

For each operation it is said what every node is afterwards, given where the nodes it works on stand
before.
-/

namespace TagScript.Markup

lemma lower_textTag : Text.lower textTag = textTag := rfl

namespace Forest

/-! ## Reading behind a change -/

lemma node_modify (f : Forest) (id : NodeId) (change : Node → Node) (x : NodeId) :
    (f.modify id change).node x = if x = id ∧ x < f.nodes.size then change (f.node x) else f.node x := by
  unfold node modify
  by_cases inside : x < f.nodes.size
  · simp only [Array.getD_eq_getD_getElem?, Array.getElem?_modify]
    by_cases same : id = x
    · subst same
      simp [inside]
    · simp [same, Ne.symm same]
  · simp [inside]

lemma node_add (f : Forest) (n : Node) (x : NodeId) :
    (f.add n).2.node x = if x = f.nodes.size then n else f.node x := by
  unfold node add
  simp only [Array.getD_eq_getD_getElem?, Array.getElem?_push]
  split <;> rfl

@[simp] lemma size_modify (f : Forest) (id : NodeId) (change : Node → Node) :
    (f.modify id change).nodes.size = f.nodes.size := by
  simp [modify]

@[simp] lemma size_add (f : Forest) (n : Node) : (f.add n).2.nodes.size = f.nodes.size + 1 := by
  simp [add]

/-! ## What holds of all labels -/

def Labelled (p : String → Assoc String → Prop) (f : Forest) : Prop :=
  ∀ id, p (f.node id).tag (f.node id).attrs

end Forest

def Event.node? : Event → Option Node
  | .start tag attrs => some (Builder.elementNode tag attrs)
  | .selfClosing tag attrs => some (Builder.elementNode tag attrs)
  | .finish _ => none
  | .text data => some (Node.make textTag [] data)

/-! ## Nodes -/

open List Node

variable {after before nodes : List NodeId} {id x : NodeId} {text : String}

namespace Node

def under (n : Node) (parent : Option NodeId) : Node := { n with parent := parent }

def holding (n : Node) (children : List NodeId) : Node := { n with children := children.toArray }

variable (n : Node)
include n

@[simp] lemma under_childList (parent : Option NodeId) : (n.under parent).childList = n.childList := rfl

@[simp] lemma under_parent (parent : Option NodeId) : (n.under parent).parent = parent := rfl
@[simp] lemma under_under (first second : Option NodeId) : (n.under first).under second = n.under second := rfl

@[simp] lemma holding_parent (children : List NodeId) : (n.holding children).parent = n.parent := rfl

@[simp] lemma holding_childList (children : List NodeId) : (n.holding children).childList = children := by
  simp [holding, childList]

@[simp] lemma holding_holding (first second : List NodeId) : (n.holding first).holding second = n.holding second := rfl

@[simp] lemma holding_self : n.holding n.childList = n := by
  simp [holding, childList]

@[simp] lemma under_self : n.under n.parent = n := rfl
@[simp] lemma under_holding_self (parent : Option NodeId) : (n.under parent).holding n.childList = n.under parent :=
  holding_self (n.under parent)

end Node

namespace Forest

variable {f g h : Forest} {id p q child : NodeId}

lemma node_of_size_le (beyond : f.nodes.size ≤ id) : f.node id = default := by
  simp [node, Array.getD, Nat.not_lt.mpr beyond]

lemma lt_size_of_parent (parent : (f.node id).parent = some p) : id < f.nodes.size := by
  by_cases inside : id < f.nodes.size
  · exact inside
  · rw [node_of_size_le (Nat.le_of_not_lt inside)] at parent
    cases parent

lemma node_modify_of_lt (inside : id < f.nodes.size) (change : Node → Node) (x : NodeId) :
    (f.modify id change).node x = if x = id then change (f.node x) else f.node x := by
  rw [node_modify]
  by_cases same : x = id
  · subst same
    simp [inside]
  · simp [same]

lemma parent_modify (f : Forest) (id : NodeId) (change : Node → Node) (kept : ∀ n, (change n).parent = n.parent)
    (x : NodeId) : ((f.modify id change).node x).parent = (f.node x).parent := by
  rw [node_modify]
  split
  · exact kept _
  · rfl

/-! ## Other links -/

/-- Nothing but links has changed. -/
structure Relinked (f g : Forest) : Prop where
  size : g.nodes.size = f.nodes.size
  node : ∀ x, g.node x = ((f.node x).under (g.node x).parent).holding (g.node x).childList

namespace Relinked

lemma refl (f : Forest) : f.Relinked f := ⟨rfl, fun x => by simp⟩

lemma trans (first : f.Relinked g) (second : g.Relinked h) : f.Relinked h where
  size := second.size.trans first.size
  node x := by
    refine (second.node x).trans ?_
    rw [first.node x]
    rfl

lemma under (f : Forest) (id : NodeId) (parent : Option NodeId) :
    f.Relinked (f.modify id fun n => { n with parent := parent }) where
  size := size_modify _ _ _
  node x := by
    rw [node_modify]
    split
    · exact (holding_self _).symm
    · simp

lemma holding (f : Forest) (id : NodeId) (change : Array NodeId → Array NodeId) :
    f.Relinked (f.modify id fun n => { n with children := change n.children }) where
  size := size_modify _ _ _
  node x := by
    rw [node_modify]
    split
    · simp [Node.under, Node.holding, Node.childList]
    · simp

lemma foldl {step : Forest → NodeId → Forest} (each : ∀ (f : Forest) x, f.Relinked (step f x)) (f : Forest)
    (nodes : List NodeId) : f.Relinked (nodes.foldl step f) := by
  induction nodes generalizing f with
  | nil => exact .refl f
  | cons first rest ih => exact (each f first).trans (ih _)

lemma remove (f : Forest) (id : NodeId) : f.Relinked (f.remove id) := by
  unfold Forest.remove
  split
  · exact .refl f
  · cases f.indexInParent id with
    | none => exact under f id none
    | some index => exact (holding f _ (·.eraseIdxIfInBounds index)).trans (under _ id none)

lemma removeAll (f : Forest) (nodes : List NodeId) : f.Relinked (f.removeAll nodes) := foldl remove f nodes

lemma orphan (f : Forest) (nodes : List NodeId) : f.Relinked (f.orphan nodes) :=
  foldl (fun f child => under f child none) f nodes

end Relinked

lemma size_remove (f : Forest) (id : NodeId) : (f.remove id).nodes.size = f.nodes.size :=
  (Relinked.remove f id).size

lemma size_removeAll (f : Forest) (nodes : List NodeId) : (f.removeAll nodes).nodes.size = f.nodes.size :=
  (Relinked.removeAll f nodes).size

lemma size_orphan (f : Forest) (nodes : List NodeId) : (f.orphan nodes).nodes.size = f.nodes.size :=
  (Relinked.orphan f nodes).size

/-! ## Taking out -/

lemma remove_of_root (root : (f.node id).parent = none) : f.remove id = f := by
  simp [remove, root]

lemma indexInParent_eq (parent : (f.node id).parent = some p) :
    f.indexInParent id = (f.node p).childList.idxOf? id := by
  rw [indexInParent, parent, Option.bind_some, List.idxOf?, childList, ← findIdx?_toArray, Array.toArray_toList]

lemma childList_remove (f : Forest) (id x : NodeId) :
    ((f.remove id).node x).childList =
      if (f.node id).parent = some x then (f.node x).childList.erase id else (f.node x).childList := by
  unfold remove
  cases up : (f.node id).parent with
  | none => simp
  | some p =>
    simp only [indexInParent_eq up, erase_eq_eraseIdx, Option.some.injEq]
    have untouched : ∀ (g : Forest), ((g.modify id fun n => { n with parent := none }).node x).childList =
        (g.node x).childList := by
      intro g
      rw [node_modify]
      split <;> rfl
    cases found : (f.node p).childList.idxOf? id with
    | none =>
      rw [untouched]
      by_cases same : p = x
      · subst same
        simp [found]
      · simp [same]
    | some index =>
      rw [untouched, node_modify]
      by_cases same : p = x
      · subst same
        by_cases inside : p < f.nodes.size
        · rw [if_pos ⟨rfl, inside⟩, if_pos rfl, found]
          simp [childList]
        · rw [node_of_size_le (Nat.le_of_not_lt inside)] at found
          cases found
      · simp [same, Ne.symm same]

lemma parent_remove (f : Forest) (id x : NodeId) :
    ((f.remove id).node x).parent = if x = id then none else (f.node x).parent := by
  unfold remove
  cases up : (f.node id).parent with
  | none =>
    by_cases same : x = id
    · rw [if_pos same, same]
      exact up
    · rw [if_neg same]
  | some p =>
    have inside := lt_size_of_parent up
    cases f.indexInParent id with
    | none =>
      rw [node_modify_of_lt inside]
      split <;> rfl
    | some index =>
      rw [node_modify_of_lt (by simpa using inside)]
      split
      · rfl
      · exact parent_modify _ _ (fun n => { n with children := n.children.eraseIdxIfInBounds index }) (fun _ => rfl) x

lemma parent_remove_self (f : Forest) (id : NodeId) : ((f.remove id).node id).parent = none := by
  rw [parent_remove, if_pos rfl]

lemma node_remove (parent : (f.node id).parent = some p) (apart : p ≠ id) (x : NodeId) :
    (f.remove id).node x =
      if x = id then (f.node id).under none
      else if x = p then (f.node p).holding ((f.node p).childList.erase id) else f.node x := by
  rw [(Relinked.remove f id).node x, parent_remove, childList_remove, parent]
  by_cases itself : x = id
  · subst itself
    simp [apart]
  · by_cases above : x = p
    · subst above
      simp [itself]
    · simp [itself, above, Ne.symm above]

lemma node_remove_holding (f : Forest) (itself : x ≠ id) :
    (f.remove id).node x = (f.node x).holding ((f.remove id).node x).childList := by
  have same := (Relinked.remove f id).node x
  rwa [parent_remove, if_neg itself, under_self] at same

lemma node_remove_of_ne (f : Forest) (itself : x ≠ id)
    (above : (f.node id).parent ≠ some x) : (f.remove id).node x = f.node x := by
  rw [f.node_remove_holding itself, childList_remove, if_neg above, holding_self]

lemma parent_removeAll (f : Forest) (ids : List NodeId) (x : NodeId) :
    ((f.removeAll ids).node x).parent = if x ∈ ids then none else (f.node x).parent := by
  induction ids generalizing f with
  | nil => rfl
  | cons id rest ih =>
    rw [show f.removeAll (id :: rest) = (f.remove id).removeAll rest from rfl, ih, parent_remove]
    by_cases same : x = id <;> by_cases later : x ∈ rest <;> simp [same, later]

lemma attrs_removeAll (f : Forest) (nodes : List NodeId) (x : NodeId) :
    ((f.removeAll nodes).node x).attrs = (f.node x).attrs := by
  rw [(Relinked.removeAll f nodes).node x]
  rfl

lemma removeAll_append (f : Forest) (first second : List NodeId) :
    f.removeAll (first ++ second) = (f.removeAll first).removeAll second :=
  foldl_append

/-- A node loses those of its children that are taken out. -/
lemma childList_removeAll (distinct : (f.node x).childList.Nodup) (nodes : List NodeId)
    (up : ∀ c ∈ nodes, c ∈ (f.node x).childList ↔ (f.node c).parent = some x) :
    ((f.removeAll nodes).node x).childList = (f.node x).childList.filter (· ∉ nodes) := by
  induction nodes generalizing f with
  | nil => exact (List.filter_eq_self.mpr fun _ _ => by simp).symm
  | cons first rest ih =>
    have one : ((f.remove first).node x).childList = (f.node x).childList.filter (· != first) := by
      rw [← distinct.erase_eq_filter, childList_remove]
      split
      · rfl
      · rename_i elsewhere
        exact (erase_of_not_mem (mt (up first mem_cons_self).mp elsewhere)).symm
    rw [removeAll, foldl_cons, ← removeAll, ih (one ▸ distinct.filter _), one, filter_filter]
    · refine filter_congr fun c _ => Bool.eq_iff_iff.mpr ?_
      simp [and_comm]
    · intro c among
      rw [one, mem_filter, up c (mem_cons_of_mem _ among), parent_remove]
      by_cases same : c = first <;> simp [same]

lemma childList_removeAll_of_ne (away : ∀ c ∈ nodes, (f.node c).parent ≠ some x) :
    ((f.removeAll nodes).node x).childList = (f.node x).childList := by
  induction nodes generalizing f with
  | nil => rfl
  | cons first rest ih =>
    rw [removeAll, foldl_cons, ← removeAll, ih, childList_remove, if_neg (away first mem_cons_self)]
    intro c among
    rw [parent_remove]
    split
    · exact nofun
    · exact away c (mem_cons_of_mem _ among)

/-! ## Putting in -/

def put (f : Forest) (id child : NodeId) (change : Array NodeId → Array NodeId) : Forest :=
  ((f.remove child).modify child fun n => { n with parent := some id }).modify id
    fun n => { n with children := change n.children }

section

variable (f)

lemma moveLast_eq (id child : NodeId) : f.moveLast id child = f.put id child (·.push child) := rfl
lemma insertOne_eq (id : NodeId) (index : Int) (child : NodeId) : f.insertOne id index child =
      f.put id child fun ids => ids.insertIdxIfInBounds (clampIndex ids.size index) child := rfl

lemma parent_put_of_ne (id : NodeId) (change : Array NodeId → Array NodeId) (other : x ≠ child) :
    ((f.put id child change).node x).parent = (f.node x).parent := by
  rw [put, parent_modify _ _ (fun n => { n with children := change n.children }) fun _ => rfl, node_modify,
    if_neg fun same => other same.1, parent_remove, if_neg other]

lemma parent_put (id : NodeId) (mem : child < f.nodes.size) (change : Array NodeId → Array NodeId) (x : NodeId) :
    ((f.put id child change).node x).parent = if x = child then some id else (f.node x).parent := by
  split
  · rename_i same
    rw [put, parent_modify _ _ (fun n => { n with children := change n.children }) fun _ => rfl,
      node_modify_of_lt (by rwa [size_remove]), if_pos same]
  · rename_i other
    exact f.parent_put_of_ne id change other

lemma childList_put (child : NodeId) (inside : id < f.nodes.size)
    (change : Array NodeId → Array NodeId) (x : NodeId) :
    ((f.put id child change).node x).childList =
      if x = id then (change ((f.remove child).node id).children).toList
      else ((f.remove child).node x).childList := by
  have inner : (((f.remove child).modify child fun n => { n with parent := some id }).node x).children =
      ((f.remove child).node x).children := by
    rw [node_modify]
    split <;> rfl
  rw [put, node_modify_of_lt (by rwa [size_modify, size_remove])]
  split
  · rename_i same
    subst same
    simp only [childList, inner]
  · simp only [childList, inner]

lemma relinked_put (id child : NodeId) (change : Array NodeId → Array NodeId) : f.Relinked (f.put id child change) :=
  (Relinked.remove f child).trans ((Relinked.under _ child (some id)).trans (Relinked.holding _ id change))

lemma relinked_insertAt (p : NodeId) (index : Int) (nodes : List NodeId) : f.Relinked (f.insertAt p index nodes) := by
  induction nodes generalizing f index with
  | nil => exact .refl f
  | cons child rest ih =>
    exact (relinked_put f p child fun ids => ids.insertIdxIfInBounds (clampIndex ids.size index) child).trans
      (ih _ (index + 1))

lemma size_insertAt (p : NodeId) (index : Int) (nodes : List NodeId) :
    (f.insertAt p index nodes).nodes.size = f.nodes.size :=
  (relinked_insertAt f p index nodes).size

end

lemma clampIndex_ofNat {index length : Nat} (inside : index ≤ length) : clampIndex length (index : Int) = index := by
  unfold clampIndex
  rw [if_neg (by omega)]
  simp [inside]

lemma insertIdx_length (before after : List NodeId) (child : NodeId) :
    (before ++ after).insertIdx before.length child = before ++ child :: after := by
  induction before with
  | nil => simp
  | cons first rest ih => simp [ih]

lemma idxOf?_length (absent : id ∉ before) : (before ++ id :: after).idxOf? id = some before.length := by
  induction before with
  | nil => simp [idxOf?_cons]
  | cons first rest ih =>
    rw [mem_cons, not_or] at absent
    simp [idxOf?_cons, Ne.symm absent.1, ih absent.2]

lemma childList_insertOne (root : (f.node child).parent = none) (inside : p < f.nodes.size)
    (children : (f.node p).childList = before ++ after) (x : NodeId) :
    ((f.insertOne p (before.length : Int) child).node x).childList =
      if x = p then before ++ child :: after else (f.node x).childList := by
  have array : (f.node p).children = (before ++ after).toArray := by simp [← children, childList]
  rw [insertOne_eq, childList_put f child inside, remove_of_root root, array, clampIndex_ofNat (by simp),
    insertIdxIfInBounds_toArray, insertIdx_length]

lemma parent_insertAt (members : ∀ x ∈ nodes, x < f.nodes.size) (index : Int) (x : NodeId) :
    ((f.insertAt p index nodes).node x).parent = if x ∈ nodes then some p else (f.node x).parent := by
  induction nodes generalizing f index with
  | nil => rfl
  | cons child rest ih =>
    have size : (f.insertOne p index child).nodes.size = f.nodes.size := size_insertAt f p index [child]
    rw [insertAt, ih fun y among => size.symm ▸ members y (mem_cons_of_mem _ among), insertOne_eq,
      parent_put f p (members child mem_cons_self)]
    by_cases same : x = child <;> by_cases later : x ∈ rest <;> simp [same, later]

lemma childList_insertAt (roots : ∀ x ∈ nodes, (f.node x).parent = none) (members : ∀ x ∈ nodes, x < f.nodes.size)
    (distinct : nodes.Nodup) (inside : p < f.nodes.size) (children : (f.node p).childList = before ++ after)
    (x : NodeId) :
    ((f.insertAt p (before.length : Int) nodes).node x).childList =
      if x = p then before ++ nodes ++ after else (f.node x).childList := by
  induction nodes generalizing f before with
  | nil =>
    split
    · rename_i above
      rw [above, append_nil]
      exact children
    · rfl
  | cons child rest ih =>
    rw [nodup_cons] at distinct
    have one := childList_insertOne (roots child mem_cons_self) inside children
    have size : (f.insertOne p (before.length : Int) child).nodes.size = f.nodes.size := size_insertAt f p _ [child]
    have place : (before.length : Int) + 1 = ((before ++ [child]).length : Int) := by simp
    rw [insertAt, place, ih (fun y among => ?_) (fun y among => ?_) distinct.2 (size.symm ▸ inside)
      (by rw [one, if_pos rfl, append_assoc, singleton_append]), one]
    · split <;> simp
    · have other : y ≠ child := fun same => distinct.1 (same ▸ among)
      rw [insertOne_eq, parent_put f p (members child mem_cons_self), if_neg other]
      exact roots y (mem_cons_of_mem _ among)
    · rw [size]
      exact members y (mem_cons_of_mem _ among)

lemma relinked_putInPlace (f : Forest) (id : NodeId) (nodes : List NodeId) : f.Relinked (f.putInPlace id nodes) := by
  unfold putInPlace
  split
  · exact .refl f
  · exact (Relinked.remove f id).trans (relinked_insertAt _ _ _ nodes)

lemma putInPlace_of_root (root : (f.node id).parent = none) (nodes : List NodeId) : f.putInPlace id nodes = f := by
  rw [putInPlace, root]

lemma parent_putInPlace (parent : (f.node id).parent = some p) (members : ∀ x ∈ nodes, x < f.nodes.size) (x : NodeId) :
    ((f.putInPlace id nodes).node x).parent =
      if x ∈ nodes then some p else if x = id then none else (f.node x).parent := by
  rw [putInPlace, parent]
  refine (parent_insertAt (fun y among => ?_) _ x).trans ?_
  · rw [size_remove]
    exact members y among
  · rw [parent_remove]

lemma links_putInPlace (parent : (f.node id).parent = some p)
    (row : (f.node p).childList = before ++ id :: after) (once : id ∉ before)
    (roots : ∀ x ∈ nodes, (f.node x).parent = none) (members : ∀ x ∈ nodes, x < f.nodes.size)
    (distinct : nodes.Nodup) (inside : p < f.nodes.size) (x : NodeId) :
    ((f.putInPlace id nodes).node x).childList = (if x = p then before ++ nodes ++ after else (f.node x).childList) ∧
      ((f.putInPlace id nodes).node x).parent =
        if x ∈ nodes then some p else if x = id then none else (f.node x).parent := by
  have index : f.indexInParent id = some before.length := by
    rw [indexInParent_eq parent, row, idxOf?_length once]
  have left : ((f.remove id).node p).childList = before ++ after := by
    rw [childList_remove, if_pos parent, row, erase_append_right _ once, erase_cons_head]
  have rootsLeft : ∀ y ∈ nodes, ((f.remove id).node y).parent = none := by
    intro y among
    rw [parent_remove, roots y among, ite_self]
  refine ⟨?_, parent_putInPlace parent members x⟩
  unfold putInPlace
  rw [parent]
  simp only [index, Option.elim_some, Int.ofNat_eq_natCast]
  rw [childList_insertAt rootsLeft (by simpa only [size_remove] using members) distinct (by rwa [size_remove]) left]
  split
  · rfl
  · rename_i other
    rw [childList_remove, parent, if_neg fun same => other (Option.some.inj same).symm]

/-! ## Children as a whole -/

lemma node_orphan (f : Forest) (nodes : List NodeId) (x : NodeId) :
    (f.orphan nodes).node x = if x ∈ nodes then (f.node x).under none else f.node x := by
  induction nodes generalizing f with
  | nil => simp [orphan]
  | cons first rest ih =>
    have one : (f.modify first fun n => { n with parent := none }).node x =
        if x = first then (f.node x).under none else f.node x := by
      by_cases inside : first < f.nodes.size
      · rw [node_modify_of_lt inside]
        rfl
      · rw [node_modify]
        by_cases same : x = first
        · subst same
          have outside : f.node x = default := by simp [node, inside]
          simp only [inside, and_false, if_false, if_true, outside]
          rfl
        · simp [same]
    rw [orphan, foldl_cons, ← orphan, ih, one]
    by_cases same : x = first
    · subst same
      by_cases among : x ∈ rest <;> simp [among]
    · simp [same]

lemma parent_orphan (f : Forest) (nodes : List NodeId) (x : NodeId) :
    ((f.orphan nodes).node x).parent = if x ∈ nodes then none else (f.node x).parent := by
  rw [node_orphan]
  split <;> rfl

lemma size_clearChildren (f : Forest) (id : NodeId) : (f.clearChildren id).nodes.size = f.nodes.size := by
  rw [clearChildren, size_modify, size_orphan]

lemma node_clearChildren (inside : id < f.nodes.size) (apart : id ∉ (f.node id).childList) (x : NodeId) :
    (f.clearChildren id).node x =
      if x ∈ (f.node id).childList then (f.node x).under none
      else if x = id then (f.node id).holding [] else f.node x := by
  rw [clearChildren, node_modify_of_lt (by rwa [size_orphan]), node_orphan]
  by_cases same : x = id
  · subst same
    simp [apart, holding]
  · simp [same]

lemma relinked_unwrap (f : Forest) (id : NodeId) : f.Relinked (f.unwrap id) :=
  (Relinked.orphan f _).trans ((Relinked.holding _ id (·.filter (· == id))).trans (relinked_putInPlace _ id _))

lemma node_unwrap (parent : (f.node id).parent = some p)
    (children : (f.node p).childList = before ++ id :: after) (once : id ∉ before)
    (members : ∀ x ∈ (f.node id).childList, x < f.nodes.size) (itself : id ∉ (f.node id).childList)
    (apart : p ∉ (f.node id).childList) (distinct : (f.node id).childList.Nodup) (below : p ≠ id)
    (inside : p < f.nodes.size) (x : NodeId) :
    (f.unwrap id).node x =
      if x ∈ (f.node id).childList then (f.node x).under (some p)
      else if x = p then (f.node p).holding (before ++ (f.node id).childList ++ after)
      else if x = id then ((f.node id).under none).holding [] else f.node x := by
  have other : ∀ y ∈ (f.node id).childList, y ≠ id := fun y among same => itself (same ▸ among)
  have kept : (f.node id).childList.filter (· != id) = (f.node id).childList :=
    List.filter_eq_self.mpr fun y among => bne_iff_ne.mpr (other y among)
  have emptied : (f.node id).children.filter (· == id) = #[] := by
    rw [← Array.toList_inj, Array.toList_filter, Array.toList_empty, filter_eq_nil_iff]
    exact fun y among => by simpa using other y among
  generalize orphaned :
    ((f.orphan (f.node id).childList).modify id fun n => { n with children := n.children.filter (· == id) }) = g
  have links (y : NodeId) : (g.node y).childList = (if y = id then [] else (f.node y).childList) ∧
      (g.node y).parent = if y ∈ (f.node id).childList then none else (f.node y).parent := by
    rw [← orphaned, node_modify_of_lt (by rw [size_orphan]; exact lt_size_of_parent parent), node_orphan]
    by_cases same : y = id
    · subst same
      simp only [if_true, itself, if_false, emptied]
      exact ⟨rfl, trivial⟩
    · by_cases among : y ∈ (f.node id).childList <;> simp [same, among]
  have size : g.nodes.size = f.nodes.size := by rw [← orphaned, size_modify, size_orphan]
  have placed := links_putInPlace (by rw [(links id).2, if_neg itself, parent])
    (by rw [(links p).1, if_neg below, children]) once (fun y among => by rw [(links y).2, if_pos among])
    (by simpa only [size] using members) distinct (by rwa [size]) x
  have unfolded : f.unwrap id = g.putInPlace id (f.node id).childList := by rw [unwrap, kept, ← orphaned]
  rw [(relinked_unwrap f id).node x, unfolded, placed.1, placed.2, (links x).1, (links x).2]
  by_cases among : x ∈ (f.node id).childList
  · have above : x ≠ p := fun same => apart (same ▸ among)
    simp [among, above, other x among]
  · by_cases above : x = p
    · subst above
      simp [among, below]
    · by_cases same : x = id
      · subst same
        simp [itself, above]
      · simp [among, above, same]

lemma node_addText (f : Forest) (text : String) (x : NodeId) :
    (f.addText text).2.node x = if x = f.nodes.size then make textTag [] text else f.node x :=
  node_add f _ x

lemma setText_of_not_isEmpty (element : (f.node id).isText = false)
    (full : text.isEmpty = false) :
    f.setText id text =
      ((((f.clearChildren id).addText text).2.modify f.nodes.size fun n => n.under (some id)).modify id
        fun n => n.holding [f.nodes.size]) := by
  simp only [setText, element, full, Bool.false_eq_true, if_false]
  rw [← size_clearChildren f id]
  rfl

lemma size_addText_clearChildren (f : Forest) (id : NodeId) (text : String) :
    ((f.clearChildren id).addText text).2.nodes.size = f.nodes.size + 1 := by
  rw [← size_clearChildren f id]
  exact size_add _ _

section

variable (element : (f.node id).isText = false)
include element

lemma size_setText (full : text.isEmpty = false) : (f.setText id text).nodes.size = f.nodes.size + 1 := by
  rw [setText_of_not_isEmpty element full, size_modify, size_modify, size_addText_clearChildren]

lemma node_setText (full : text.isEmpty = false)
    (inside : id < f.nodes.size) (apart : id ∉ (f.node id).childList) (x : NodeId) :
    (f.setText id text).node x =
      if x = f.nodes.size then (make textTag [] text).under (some id)
      else if x ∈ (f.node id).childList then (f.node x).under none
      else if x = id then (f.node id).holding [f.nodes.size] else f.node x := by
  have size := size_clearChildren f id
  have grown := size_addText_clearChildren f id text
  rw [setText_of_not_isEmpty element full, node_modify_of_lt (by rw [size_modify, grown]; exact Nat.lt_succ_of_lt inside),
    node_modify_of_lt (by rw [grown]; exact Nat.lt_succ_self _), node_addText, size,
    node_clearChildren inside apart]
  by_cases new : x = f.nodes.size
  · have outside : x ≠ id := fun same => Nat.ne_of_gt inside (new.symm.trans same)
    rw [if_neg outside, if_pos new, if_pos new, if_pos new]
  · rw [if_neg new, if_neg new, if_neg new]
    by_cases same : x = id
    · subst same
      simp [apart]
    · simp only [if_neg same]

lemma setText_of_isEmpty (empty : text.isEmpty = true) : f.setText id text = f.clearChildren id := by
  simp [setText, element, empty]

end

lemma relinked_replaceWith (f : Forest) (id : NodeId) (nodes : List NodeId) : f.Relinked (f.replaceWith id nodes) :=
  (Relinked.removeAll f _).trans (relinked_putInPlace _ id _)

lemma node_replaceWith
    (children : (f.node q).childList = nodes) (parents : ∀ x ∈ nodes, (f.node x).parent = some q)
    (outer : q ∉ nodes) (distinct : nodes.Nodup)
    (parent : (f.node id).parent = some p) (row : (f.node p).childList = before ++ id :: after)
    (once : id ∉ before) (itself : id ∉ nodes) (apart : p ∉ nodes) (below : p ≠ id) (other : q ≠ p) (away : q ≠ id)
    (inside : p < f.nodes.size) (x : NodeId) :
    (f.replaceWith id nodes).node x =
      if x ∈ nodes then (f.node x).under (some p)
      else if x = p then (f.node p).holding (before ++ nodes ++ after)
      else if x = id then (f.node id).under none
      else if x = q then (f.node q).holding [] else f.node x := by
  have kept : nodes.filter (· != id) = nodes :=
    List.filter_eq_self.mpr fun y among => bne_iff_ne.mpr fun same => itself (same ▸ among)
  have size := size_removeAll f nodes
  have elsewhere : ∀ y, y ≠ q → ((f.removeAll nodes).node y).childList = (f.node y).childList := fun y away =>
    childList_removeAll_of_ne fun c among => by
      rw [parents c among]
      simpa using Ne.symm away
  have emptied : ((f.removeAll nodes).node q).childList = [] := by
    rw [childList_removeAll (children ▸ distinct) nodes fun c among => by simp [children, among, parents], children]
    exact List.filter_eq_nil_iff.mpr fun c among => by simpa using among
  have placed := links_putInPlace (by rw [parent_removeAll, if_neg itself, parent])
    (by rw [elsewhere p (Ne.symm other), row]) once (fun y among => by rw [parent_removeAll, if_pos among])
    (fun y among => by rw [size]; exact lt_size_of_parent (parents y among)) distinct (by rwa [size]) x
  rw [parent_removeAll] at placed
  rw [(relinked_replaceWith f id nodes).node x, replaceWith, kept, placed.1, placed.2]
  by_cases among : x ∈ nodes
  · have above : x ≠ p := fun same => apart (same ▸ among)
    have lower : x ≠ q := fun same => outer (same ▸ among)
    simp [among, above, elsewhere x lower]
  · by_cases above : x = p
    · subst above
      simp [among, below]
    · by_cases same : x = id
      · subst same
        simp [among, above, elsewhere x (Ne.symm away)]
      · by_cases holder : x = q
        · subst holder
          simp [among, above, same, emptied]
        · simp [among, above, same, holder, elsewhere x holder]

lemma size_replaceWith (f : Forest) (id : NodeId) (nodes : List NodeId) :
    (f.replaceWith id nodes).nodes.size = f.nodes.size :=
  (relinked_replaceWith f id nodes).size

lemma relinked_moveAll (f : Forest) (id : NodeId) (nodes : List NodeId) :
    f.Relinked (nodes.foldl (·.moveLast id) f) :=
  .foldl (fun f child => relinked_put f id child (·.push child)) f nodes

lemma size_moveAll (f : Forest) (id : NodeId) (nodes : List NodeId) :
    (nodes.foldl (·.moveLast id) f).nodes.size = f.nodes.size :=
  (relinked_moveAll f id nodes).size

lemma parent_moveLast (id : NodeId) (mem : child < f.nodes.size) (x : NodeId) :
    ((f.moveLast id child).node x).parent = if x = child then some id else (f.node x).parent :=
  parent_put f id mem (·.push child) x

lemma childList_moveLast (parent : (f.node child).parent = some q) (other : q ≠ id) (inside : id < f.nodes.size)
    (x : NodeId) :
    ((f.moveLast id child).node x).childList =
      if x = id then (f.node id).childList ++ [child]
      else if x = q then (f.node q).childList.erase child else (f.node x).childList := by
  have removed (y : NodeId) := childList_remove f child y
  rw [parent] at removed
  rw [moveLast_eq, childList_put f child inside, Array.toList_push]
  split
  · rw [← childList, removed, if_neg fun same => other (Option.some.inj same)]
  · rw [removed]
    split <;> split <;> simp_all

lemma node_moveAll (children : (f.node q).childList = nodes)
    (parents : ∀ x ∈ nodes, (f.node x).parent = some q) (outer : q ∉ nodes) (distinct : nodes.Nodup)
    (other : q ≠ id) (apart : id ∉ nodes) (inside : id < f.nodes.size) (x : NodeId) :
    (nodes.foldl (·.moveLast id) f).node x =
      if x ∈ nodes then (f.node x).under (some id)
      else if x = id then (f.node id).holding ((f.node id).childList ++ nodes)
      else if x = q then (f.node q).holding [] else f.node x := by
  have links : ((nodes.foldl (·.moveLast id) f).node x).childList =
        (if x = id then (f.node id).childList ++ nodes else if x = q then [] else (f.node x).childList) ∧
      ((nodes.foldl (·.moveLast id) f).node x).parent = if x ∈ nodes then some id else (f.node x).parent := by
    clear outer apart
    induction nodes generalizing f with
    | nil =>
      by_cases last : x = id
      · simp [last]
      · by_cases above : x = q
        · subst above
          simp [last, children]
        · simp [last, above]
    | cons first rest ih =>
      rw [nodup_cons] at distinct
      have up := parents first mem_cons_self
      have one := childList_moveLast up other inside
      have parent := parent_moveLast id (lt_size_of_parent up)
      have size : (f.moveLast id first).nodes.size = f.nodes.size := size_moveAll f id [first]
      obtain ⟨below, above⟩ := ih (by rw [one, if_neg other, if_pos rfl, children, erase_cons_head])
        (fun y among => by
          have different : y ≠ first := fun same => distinct.1 (same ▸ among)
          rw [parent, if_neg different, parents y (mem_cons_of_mem _ among)])
        distinct.2 (size.symm ▸ inside)
      rw [foldl_cons, below, above, one, one, parent, if_pos rfl]
      constructor
      · by_cases last : x = id
        · simp [last]
        · by_cases holder : x = q <;> simp [last, holder]
      · by_cases same : x = first <;> by_cases later : x ∈ rest <;> simp [same, later]
  rw [(relinked_moveAll f id nodes).node x, links.1, links.2]
  by_cases among : x ∈ nodes
  · have last : x ≠ id := fun same => apart (same ▸ among)
    have above : x ≠ q := fun same => outer (same ▸ among)
    simp [among, last, above]
  · by_cases last : x = id
    · subst last
      simp [among]
    · by_cases above : x = q
      · subst above
        simp [among, last]
      · simp [among, last, above]

end Forest

end TagScript.Markup
