import Mathlib.Data.List.Perm.Subperm
import TagScript.Proofs.Markup.Clone
import TagScript.Proofs.Markup.Hedge

/-!
# Where hedges stand

A hedge stands in a forest if its places are nodes that are what it says and are linked as its trees
are. It is looked at in the forest as it is by itself.
-/

namespace TagScript.Markup

open Forest List Option Node

variable {x : NodeId}

/-- A node is a text under a parent. -/
structure Node.TextUnder (n : Node) (content : String) (p : NodeId) : Prop where
  tag : n.tag = textTag
  text : n.text = content
  childless : n.childList = []
  parent : n.parent = some p

/-- A node is an element under a parent. -/
structure Node.ElementUnder (n : Node) (tag : String) (attrs : Assoc String) (children : List NodeId)
    (p : NodeId) : Prop where
  tag : n.tag = tag
  attrs : n.attrs = attrs
  element : n.isElement = true
  children : n.childList = children
  parent : n.parent = some p

variable {tag : String} {attrs : Assoc String}

lemma Node.ElementUnder.isText {n : Node} {children : List NodeId}
    {p : NodeId} (e : n.ElementUnder tag attrs children p) : n.isText = false := by
  have element := e.element
  simp only [isElement, Bool.not_eq_true', Bool.or_eq_false_iff] at element
  exact element.1

lemma Node.TextUnder.isText {n : Node} {content : String} {p : NodeId} (t : n.TextUnder content p) :
    n.isText = true := by
  simp [Node.isText, t.tag]

lemma textUnder_make (content : String) (p : NodeId) :
    ((Node.make textTag [] content).under (some p)).TextUnder content p := by
  have tag : (Node.make textTag [] content).tag = textTag := by
    exact lower_textTag
  exact ⟨tag, rfl, rfl, rfl⟩

namespace Hedge

/-- The places of a hedge are the nodes under a node that it shows. -/
def Stands (f : Forest) : Hedge NodeId → NodeId → Prop
  | nil, _ => True
  | text place content rest, p => (f.node place).TextUnder content p ∧ rest.Stands f p
  | element place tag attrs kids rest, p =>
    (f.node place).ElementUnder tag attrs kids.roots p ∧ kids.Stands f place ∧ rest.Stands f p

variable {f g : Forest} {p : NodeId}

lemma stands_append (h k : Hedge NodeId) : (h ++ k).Stands f p ↔ h.Stands f p ∧ k.Stands f p := by
  induction h with
  | nil => simp [Stands]
  | text place content rest ih => simp only [text_append, Stands, ih, and_assoc]
  | element place tag attrs kids rest _ ih => simp only [element_append, Stands, ih, and_assoc]

variable {h : Hedge NodeId}

lemma Stands.congr (same : ∀ x ∈ h.places, g.node x = f.node x) (stands : h.Stands f p) : h.Stands g p := by
  induction h generalizing p with
  | nil => exact stands
  | text place content rest ih =>
    refine ⟨?_, ih (fun x among => same x (by simp [places, among])) stands.2⟩
    rw [same place (by simp [places])]
    exact stands.1
  | element place tag attrs kids rest inner outer =>
    refine ⟨?_, inner (fun x among => same x (by simp [places, among])) stands.2.1,
      outer (fun x among => same x (by simp [places, among])) stands.2.2⟩
    rw [same place (by simp [places])]
    exact stands.1

lemma Stands.adopt {q : NodeId} (stands : h.Stands f p) (distinct : h.places.Nodup)
    (roots : ∀ x ∈ h.roots, g.node x = (f.node x).under (some q))
    (others : ∀ x ∈ h.places, x ∉ h.roots → g.node x = f.node x) : h.Stands g q := by
  induction h with
  | nil => trivial
  | text place content rest ih =>
    obtain ⟨alone, distinct⟩ := nodup_cons.mp distinct
    refine ⟨?_, ih stands.2 distinct ?_ ?_⟩
    · rw [roots place (by simp [Hedge.roots])]
      exact ⟨stands.1.tag, stands.1.text, stands.1.childless, rfl⟩
    · exact fun x among => roots x (by simp [Hedge.roots, among])
    · intro x among inner
      refine others x (by simp [places, among]) ?_
      simp only [Hedge.roots, mem_cons, inner, or_false]
      rintro rfl
      exact alone among
  | element place tag attrs kids rest _ ih =>
    obtain ⟨alone, distinct⟩ := nodup_cons.mp distinct
    rw [nodup_append] at distinct
    obtain ⟨_, restDistinct, apart⟩ := distinct
    refine ⟨?_, stands.2.1.congr ?_, ih stands.2.2 restDistinct ?_ ?_⟩
    · rw [roots place (by simp [Hedge.roots])]
      exact ⟨stands.1.tag, stands.1.attrs, stands.1.element, stands.1.children, rfl⟩
    · intro x among
      refine others x (by simp [places, among]) ?_
      simp only [Hedge.roots, mem_cons, not_or]
      constructor
      · rintro rfl
        exact alone (mem_append_left _ among)
      · exact fun root => apart x among x (rest.roots_sublist.subset root) rfl
    · exact fun x among => roots x (by simp [Hedge.roots, among])
    · intro x among inner
      refine others x (by simp [places, among]) ?_
      simp only [Hedge.roots, mem_cons, inner, or_false]
      rintro rfl
      exact alone (mem_append_right _ among)

lemma Stands.parent (stands : h.Stands f p) (root : x ∈ h.roots) : (f.node x).parent = some p := by
  induction h with
  | nil => cases root
  | text place content rest ih =>
    rcases mem_cons.mp root with rfl | later
    · exact stands.1.parent
    · exact ih stands.2 later
  | element place tag attrs kids rest _ ih =>
    rcases mem_cons.mp root with rfl | later
    · exact stands.1.parent
    · exact ih stands.2.2 later

lemma Stands.parent_mem (stands : h.Stands f p) {y : NodeId} (among : x ∈ h.places)
    (parent : (f.node x).parent = some y) : y ∈ p :: h.places := by
  induction h generalizing p with
  | nil => cases among
  | text place content rest ih =>
    rcases mem_cons.mp among with rfl | later
    · rw [stands.1.parent] at parent
      cases parent
      exact mem_cons_self
    · have found := ih stands.2 later
      simp only [places, mem_cons] at found ⊢
      exact found.imp_right Or.inr
  | element place tag attrs kids rest inner outer =>
    rcases mem_cons.mp among with rfl | later
    · rw [stands.1.parent] at parent
      cases parent
      exact mem_cons_self
    · rcases mem_append.mp later with below | behind
      · have found := inner stands.2.1 below
        simp only [places, mem_cons, mem_append] at found ⊢
        exact Or.inr (found.imp_right Or.inl)
      · have found := outer stands.2.2 behind
        simp only [places, mem_cons, mem_append] at found ⊢
        exact found.imp_right fun late => Or.inr (Or.inr late)

lemma Stands.lt_size (stands : h.Stands f p) (among : x ∈ h.places) : x < f.nodes.size := by
  induction h generalizing p with
  | nil => cases among
  | text place content rest ih =>
    rcases mem_cons.mp among with rfl | later
    · exact lt_size_of_parent stands.1.parent
    · exact ih stands.2 later
  | element place tag attrs kids rest inner outer =>
    rcases mem_cons.mp among with rfl | later
    · exact lt_size_of_parent stands.1.parent
    · rcases mem_append.mp later with below | behind
      · exact inner stands.2.1 below
      · exact outer stands.2.2 behind

def height : Hedge NodeId → Nat
  | nil => 0
  | text _ _ rest => max 1 rest.height
  | element _ _ _ kids rest => max (kids.height + 1) rest.height

lemma height_le_length_places (h : Hedge NodeId) : h.height ≤ h.places.length := by
  induction h with
  | nil => exact Nat.le_refl 0
  | text place content rest ih =>
    simp only [height, places, length_cons]
    omega
  | element place tag attrs kids rest inner outer =>
    simp only [height, places, length_cons, length_append]
    omega

lemma Stands.height_le_size (stands : h.Stands f p) (distinct : h.places.Nodup) : h.height ≤ f.nodes.size := by
  have among : h.places ⊆ List.range f.nodes.size :=
    fun x mem => mem_range.mpr (stands.lt_size mem)
  have few : h.places.length ≤ f.nodes.size := by
    simpa using (distinct.subperm among).length_le
  exact Nat.le_trans h.height_le_length_places few

end Hedge

/-- A node has a hedge for its children, and no node occurs twice in it. -/
structure Holds (f : Forest) (p : NodeId) (h : Hedge NodeId) : Prop where
  children : (f.node p).childList = h.roots
  stands : h.Stands f p
  distinct : (p :: h.places).Nodup
  inside : p < f.nodes.size

namespace Holds

variable {f g : Forest} {p : NodeId} {h : Hedge NodeId}

variable (holds : Holds f p h)
include holds

lemma apart : p ∉ h.places :=
  (nodup_cons.mp holds.distinct).1

lemma nodup : h.places.Nodup :=
  (nodup_cons.mp holds.distinct).2

lemma lt_size (among : x ∈ p :: h.places) : x < f.nodes.size := by
  rcases mem_cons.mp among with rfl | below
  · exact holds.inside
  · exact holds.stands.lt_size below

lemma congr (grows : f.nodes.size ≤ g.nodes.size)
    (same : ∀ x ∈ p :: h.places, g.node x = f.node x) : Holds g p h where
  children := by rw [same p mem_cons_self, holds.children]
  stands := holds.stands.congr fun x among => same x (mem_cons_of_mem _ among)
  distinct := holds.distinct
  inside := Nat.lt_of_lt_of_le holds.inside grows

lemma height_le_size : h.height ≤ f.nodes.size :=
  holds.stands.height_le_size holds.nodup

end Holds

/-! ## Looking around -/

namespace Hedge

variable {f : Forest} {p : NodeId}

variable {h : Hedge NodeId} (stands : h.Stands f p)
include stands

lemma Stands.flatMap_below {depth : Nat}
    (deep : h.height ≤ depth) : (h.roots.flatMap fun child => child :: f.below depth child) = h.places := by
  induction h generalizing p depth with
  | nil => rfl
  | text place content rest ih =>
    have childless : f.below depth place = [] := by
      cases depth with
      | zero => rfl
      | succ depth => simp [Forest.below, stands.1.childless]
    have later := ih stands.2 (Nat.le_trans (Nat.le_max_right _ _) deep)
    simp only [roots, places, flatMap_cons, childless, later, cons_append, List.nil_append]
  | element place tag attrs kids rest inner outer =>
    obtain ⟨depth, rfl⟩ : ∃ less, depth = less + 1 :=
      Nat.exists_eq_add_one_of_ne_zero (by simp only [height] at deep; omega)
    have below : f.below (depth + 1) place = kids.places := by
      rw [Forest.below, stands.1.children]
      exact inner stands.2.1 (by simp only [height] at deep; omega)
    have later := outer stands.2.2 (Nat.le_trans (Nat.le_max_right _ _) deep)
    simp only [roots, places, flatMap_cons, below, later, cons_append]

lemma Stands.filter_tag (named : tag ≠ textTag) :
    (h.places.filter fun x => (f.node x).tag == tag) = (h.tagged tag).map Prod.fst := by
  induction h generalizing p with
  | nil => rfl
  | text place content rest ih =>
    have other : ((f.node place).tag == tag) = false := by
      rw [stands.1.tag]
      simpa using Ne.symm named
    simp only [places, tagged, filter_cons, other, Bool.false_eq_true, if_false, ih stands.2]
  | element place found attrs kids rest inner outer =>
    have here : (f.node place).tag = found := stands.1.tag
    by_cases same : found = tag
    · simp [places, tagged, here, same, inner stands.2.1, outer stands.2.2]
    · simp [places, tagged, here, same, inner stands.2.1, outer stands.2.2]

lemma Stands.attrs_of_tagged (among : (x, attrs) ∈ h.tagged tag) : (f.node x).attrs = attrs := by
  induction h generalizing p with
  | nil => cases among
  | text place content rest ih => exact ih stands.2 among
  | element place found own kids rest inner outer =>
    simp only [tagged, mem_append] at among
    rcases among with here | below | behind
    · split at here
      · cases mem_singleton.mp here
        exact stands.1.attrs
      · cases here
    · exact inner stands.2.1 below
    · exact outer stands.2.2 behind

lemma Stands.find?_element (tag : String) :
    (h.roots.find? fun x => !(f.node x).isText).filter (fun x => (f.node x).tag == tag) =
      (h.partner tag).map Prod.fst := by
  induction h with
  | nil => rfl
  | text place content rest ih =>
    simp only [roots, partner, find?_cons, stands.1.isText, Bool.not_true, ih stands.2]
  | element place found attrs kids rest _ _ =>
    have here : (f.node place).tag = found := stands.1.tag
    simp only [roots, partner, find?_cons, stands.1.isText, Bool.not_false, filter_some, here]
    by_cases same : found = tag
    · simp [same]
    · simp [same]

end Hedge

namespace Holds

variable {f : Forest} {p : NodeId} {h : Hedge NodeId}

lemma descendants (holds : Holds f p h) : f.descendants p = h.places := by
  rw [Forest.descendants, Forest.bound, Forest.below, holds.children]
  exact holds.stands.flatMap_below holds.height_le_size

lemma findAll (holds : Holds f p h) (small : Text.lower tag = tag) (named : tag ≠ textTag) :
    f.findAll p tag = (h.tagged tag).map Prod.fst := by
  rw [Forest.findAll, holds.descendants, small]
  exact holds.stands.filter_tag named

lemma siblingTagged {before after kids : Hedge NodeId} {id : NodeId} {found : String}
    (holds : Holds f p (before ++ .element id found attrs kids after)) (small : Text.lower tag = tag) :
    f.siblingTagged id tag = (after.partner tag).map Prod.fst := by
  have stands := (Hedge.stands_append _ _).mp holds.stands
  have parent : (f.node id).parent = some p := stands.2.1.parent
  have row : (f.node p).childList = before.roots ++ id :: after.roots := by
    rw [holds.children, Hedge.roots_append, Hedge.roots]
  have once : id ∉ before.roots := by
    intro early
    have distinct := holds.nodup
    rw [Hedge.places_append, nodup_append] at distinct
    exact distinct.2.2 id (before.roots_sublist.subset early) id mem_cons_self rfl
  have index : f.indexInParent id = some before.roots.length := by
    rw [indexInParent_eq parent, row, Forest.idxOf?_length once]
  have behind : (f.node p).childList.drop (before.roots.length + 1) = after.roots := by
    rw [row, ← drop_drop, drop_left]
    rfl
  rw [Forest.siblingTagged, Forest.nextElementSibling, parent, bind_some, index, small]
  simp only [elim_some, behind]
  exact stands.2.2.2.find?_element tag

end Holds

/-! ## Copies -/

namespace Hedge

/-- A row of trees has been copied under a node: the copy shows the same and is made of new nodes,
numbered in document order. -/
structure RowCopied (f g : Forest) (h k : Hedge NodeId) (p : NodeId) : Prop where
  shape : k.shape = h.shape
  stands : k.Stands g p
  places : k.places = List.range' f.nodes.size h.places.length
  size : g.nodes.size = f.nodes.size + h.places.length
  same : ∀ x < f.nodes.size, g.node x = f.node x

/-- A node with a row of trees below it has been copied. -/
structure TreeCopied (f g : Forest) (n : Node) (parent : Option NodeId) (h k : Hedge NodeId) : Prop where
  shape : k.shape = h.shape
  root : g.node f.nodes.size = (Forest.blank n parent).holding k.roots
  stands : k.Stands g f.nodes.size
  places : k.places = List.range' (f.nodes.size + 1) h.places.length
  size : g.nodes.size = f.nodes.size + 1 + h.places.length
  same : ∀ x < f.nodes.size, g.node x = f.node x

variable {f : Forest} {id p copy : NodeId} {parent : Option NodeId} {h : Hedge NodeId} {depth : Nat}

lemma cloneBelow_of_row (children : (f.node id).childList = h.roots)
    (row : ∃ k g, h.roots.foldl (Forest.copyStep depth f.nodes.size)
      (#[], (f.add (Forest.blank (f.node id) parent)).2) = (#[] ++ k.roots.toArray, g) ∧
      RowCopied (f.add (Forest.blank (f.node id) parent)).2 g h k f.nodes.size) :
    ∃ k g, Forest.cloneBelow (depth + 1) parent f id = (f.nodes.size, g) ∧ TreeCopied f g (f.node id) parent h k := by
  obtain ⟨k, g, folded, copied⟩ := row
  have made : Forest.copied depth parent f id = (k.roots.toArray, g) := by
    rw [Forest.copied, children, folded]
    simp
  have added : (f.add (Forest.blank (f.node id) parent)).2.nodes.size = f.nodes.size + 1 :=
    size_add _ _
  have here : f.nodes.size < g.nodes.size := by
    rw [copied.size, added]
    omega
  have node (x : NodeId) := node_modify_of_lt here (fun n => n.holding k.roots) x
  refine ⟨k, g.modify f.nodes.size fun n => n.holding k.roots, ?_, copied.shape, ?_, ?_, ?_, ?_, ?_⟩
  · rw [cloneBelow_succ, made]
  · rw [node, if_pos rfl, copied.same _ (by rw [added]; omega), node_add, if_pos rfl]
  · refine copied.stands.congr fun x among => ?_
    have new : x ≠ f.nodes.size := by
      rw [copied.places, added, mem_range'_1] at among
      exact Nat.ne_of_gt among.1
    rw [node, if_neg new]
  · rw [copied.places, added]
  · rw [size_modify, copied.size, added]
  · intro x old
    have other : x ≠ f.nodes.size := Nat.ne_of_lt old
    rw [node, if_neg other, copied.same x (by rw [added]; exact Nat.lt_succ_of_lt old), node_add, if_neg other]

variable {g g' : Forest} {kids rest copiedKids copiedRest : Hedge NodeId} {tag content : String}
  {attrs : Assoc String}

lemma TreeCopied.element (tree : TreeCopied f g (f.node id) (some copy) kids copiedKids)
    (here : (f.node id).ElementUnder tag attrs kids.roots p) (row : RowCopied g g' rest copiedRest copy) :
    RowCopied f g' (.element id tag attrs kids rest) (.element f.nodes.size tag attrs copiedKids copiedRest) copy := by
  have new : f.nodes.size < g.nodes.size := by
    rw [tree.size]
    omega
  refine ⟨?_, ⟨?_, ?_, row.stands⟩, ?_, ?_, ?_⟩
  · simp only [Hedge.shape, tree.shape, row.shape]
  · rw [row.same _ new, tree.root]
    exact ⟨here.tag, here.attrs, here.element, holding_childList _ _, rfl⟩
  · exact tree.stands.congr fun x among => row.same x (tree.stands.lt_size among)
  · simp only [Hedge.places, length_cons, length_append, tree.places, row.places, tree.size,
      range'_succ, range'_append_1]
  · simp only [Hedge.places, length_cons, length_append, row.size, tree.size]
    omega
  · intro x old
    rw [row.same x (Nat.lt_trans old new), tree.same x old]

lemma TreeCopied.text (tree : TreeCopied f g (f.node id) (some copy) nil copiedKids)
    (here : (f.node id).TextUnder content p) (row : RowCopied g g' rest copiedRest copy) :
    RowCopied f g' (.text id content rest) (.text f.nodes.size content copiedRest) copy := by
  have new : f.nodes.size < g.nodes.size := by
    rw [tree.size]
    omega
  have none : copiedKids.roots = [] := by
    have empty : copiedKids.shape = nil := tree.shape
    cases copiedKids with
    | nil => rfl
    | text | element => cases empty
  refine ⟨?_, ⟨?_, row.stands⟩, ?_, ?_, ?_⟩
  · simp only [Hedge.shape, row.shape]
  · rw [row.same _ new, tree.root, none]
    exact ⟨here.tag, here.text, holding_childList _ _, rfl⟩
  · simp only [Hedge.places, length_cons, length_nil, row.places, tree.size, range'_succ, Nat.add_zero]
  · simp only [Hedge.places, length_cons, length_nil, row.size, tree.size]
    omega
  · intro x old
    rw [row.same x (Nat.lt_trans old new), tree.same x old]

lemma Stands.foldl_copyStep (stands : h.Stands f p) (deep : h.height ≤ depth) (copy : NodeId)
    (made : Array NodeId) :
    ∃ k g, h.roots.foldl (Forest.copyStep depth copy) (made, f) = (made ++ k.roots.toArray, g) ∧
      RowCopied f g h k copy := by
  induction h generalizing f p depth copy made with
  | nil =>
    exact ⟨nil, f, by simp [roots], rfl, trivial, rfl, rfl, fun _ _ => rfl⟩
  | text place content rest ih =>
    obtain ⟨depth, rfl⟩ : ∃ less, depth = less + 1 :=
      Nat.exists_eq_add_one_of_ne_zero (by simp only [height] at deep; omega)
    have bare : ∃ k g, Forest.cloneBelow (depth + 1) (some copy) f place = (f.nodes.size, g) ∧
        TreeCopied f g (f.node place) (some copy) nil k :=
      cloneBelow_of_row stands.1.childless ⟨nil, _, by simp [roots], rfl, trivial, rfl, rfl, fun _ _ => rfl⟩
    obtain ⟨copiedKids, g, cloned, tree⟩ := bare
    have later : rest.Stands g p := stands.2.congr fun x among => tree.same x (stands.2.lt_size among)
    obtain ⟨copiedRest, g', folded, row⟩ := ih later (Nat.le_trans (Nat.le_max_right _ _) deep) copy
      (made.push f.nodes.size)
    refine ⟨_, g', ?_, tree.text stands.1 row⟩
    rw [roots, foldl_cons, Forest.copyStep, cloned, folded, roots]
    simp
  | element place tag attrs kids rest inner outer =>
    obtain ⟨depth, rfl⟩ : ∃ less, depth = less + 1 :=
      Nat.exists_eq_add_one_of_ne_zero (by simp only [height] at deep; omega)
    have below : kids.Stands (f.add (Forest.blank (f.node place) (some copy))).2 place :=
      stands.2.1.congr fun x among => by
        rw [node_add, if_neg (Nat.ne_of_lt (stands.2.1.lt_size among))]
    have shallow : kids.height ≤ depth := by
      simp only [height] at deep
      omega
    obtain ⟨copiedKids, g, cloned, tree⟩ := cloneBelow_of_row stands.1.children (inner below shallow f.nodes.size #[])
    have later : rest.Stands g p := stands.2.2.congr fun x among => tree.same x (stands.2.2.lt_size among)
    obtain ⟨copiedRest, g', folded, row⟩ := outer later (Nat.le_trans (Nat.le_max_right _ _) deep) copy
      (made.push f.nodes.size)
    refine ⟨_, g', ?_, tree.element stands.1 row⟩
    rw [roots, foldl_cons, Forest.copyStep, cloned, folded, roots]
    simp

end Hedge

lemma Holds.clone {f : Forest} {id : NodeId} {h : Hedge NodeId} (holds : Holds f id h) :
    ∃ k g, f.clone id = (f.nodes.size, g) ∧ Hedge.TreeCopied f g (f.node id) none h k ∧ Holds g f.nodes.size k := by
  have stands : h.Stands (f.add (Forest.blank (f.node id) none)).2 id :=
    holds.stands.congr fun x among => by
      rw [node_add, if_neg (Nat.ne_of_lt (holds.stands.lt_size among))]
  obtain ⟨k, g, cloned, tree⟩ := Hedge.cloneBelow_of_row holds.children
    (stands.foldl_copyStep holds.height_le_size f.nodes.size #[])
  refine ⟨k, g, cloned, tree, ?_, tree.stands, ?_, ?_⟩
  · rw [tree.root, Node.holding_childList]
  · rw [tree.places, ← range'_succ]
    exact nodup_range'
  · rw [tree.size]
    exact Nat.lt_of_lt_of_le (Nat.lt_succ_self _) (Nat.le_add_right _ _)

/-! ## Writing -/

def attributesMarkup (attrs : Assoc String) : String :=
  String.join (attrs.map fun (name, value) => " " ++ name ++ "=\"" ++ escapeValue value ++ "\"")

namespace Hedge

/-- What is written for a row of trees. -/
def markup : Hedge ι → String
  | nil => ""
  | text _ content rest => escapeText content ++ rest.markup
  | element _ tag attrs kids rest =>
    "<" ++ tag ++ attributesMarkup attrs ++ ">" ++
      (if voidTags.contains tag && kids.roots.isEmpty then "" else kids.markup ++ "</" ++ tag ++ ">") ++ rest.markup

lemma markup_append (h k : Hedge ι) : (h ++ k).markup = h.markup ++ k.markup := by
  induction h with
  | nil => simp [markup]
  | text place content rest ih => simp only [text_append, markup, ih, String.append_assoc]
  | element place tag attrs kids rest _ ih => simp only [element_append, markup, ih, String.append_assoc]

lemma isEmpty_roots_shape (h : Hedge ι) : h.shape.roots.isEmpty = h.roots.isEmpty := by
  cases h with
  | _ => rfl

lemma markup_shape (h : Hedge ι) : h.shape.markup = h.markup := by
  induction h with
  | nil => rfl
  | text place content rest ih => rw [shape, markup, markup, ih]
  | element place tag attrs kids rest inner outer => rw [shape, markup, markup, isEmpty_roots_shape, inner, outer]

lemma Stands.join_markupBelow {f : Forest} {p : NodeId} {h : Hedge NodeId} (stands : h.Stands f p) {depth : Nat}
    (deep : h.height ≤ depth) : String.join (h.roots.map (f.markupBelow depth)) = h.markup := by
  induction h generalizing p depth with
  | nil => rfl
  | text place content rest ih =>
    rw [height] at deep
    obtain ⟨depth, rfl⟩ : ∃ less, depth = less + 1 := Nat.exists_eq_add_one_of_ne_zero (by omega)
    have here : f.markupBelow (depth + 1) place = escapeText content := by
      simp [Forest.markupBelow, stands.1.isText, stands.1.text]
    rw [roots, List.map_cons, String.join_cons, here, ih stands.2 (by omega), markup]
  | element place tag attrs kids rest inner outer =>
    rw [height] at deep
    obtain ⟨depth, rfl⟩ : ∃ less, depth = less + 1 := Nat.exists_eq_add_one_of_ne_zero (by omega)
    have below : String.join (kids.roots.map (f.markupBelow depth)) = kids.markup := inner stands.2.1 (by omega)
    have textual := stands.1.isText
    obtain ⟨rfl, rfl, element, children, _⟩ := stands.1
    have document : ((f.node place).tag == documentTag) = false := by
      simp only [Node.isElement, Bool.not_eq_true', Bool.or_eq_false_iff] at element
      exact element.2
    have empty : (f.node place).children.isEmpty = kids.roots.isEmpty := by
      rw [← children, Node.childList, Array.isEmpty_toList]
    rw [roots, List.map_cons, String.join_cons, outer stands.2.2 (by omega), markup]
    simp only [Forest.markupBelow, textual, document, children, below, empty, attributesMarkup, Bool.false_eq_true, if_false]
    split
    · simp only [String.append_empty]
    · simp only [String.append_assoc]

end Hedge

lemma Holds.markup {f : Forest} {p : NodeId} {h : Hedge NodeId} (holds : Holds f p h)
    (tag : (f.node p).tag = documentTag) : f.markup p = h.markup := by
  have textual : (f.node p).isText = false := by
    rw [Node.isText, tag]
    rfl
  rw [← holds.stands.join_markupBelow holds.height_le_size, ← holds.children]
  simp [Forest.markup, Forest.bound, Forest.markupBelow, textual, tag]

end TagScript.Markup
