import TagScript.Proofs.Markup.Links

/-!
# Copies and originals

A tree and its copy have no node in common, and no link leads from one to the other. So work on one
leaves the other as it was.
-/

namespace TagScript.Markup.Forest

open List

variable {f g h : Forest} {id : NodeId} {inner : NodeId → Prop}

/-- Operations one after the other on some nodes of a forest, all of which are there. -/
inductive Worked (inner : NodeId → Prop) (f : Forest) : Forest → Prop where
  | start : Worked inner f f
  | perform {g : Forest} (before : Worked inner f g) (a : Action) (among : ∀ x ∈ a.nodes, inner x ∧ x < g.nodes.size) :
    Worked inner f (g.perform a).2
  | setAttr {g : Forest} (before : Worked inner f g) {x : NodeId} (among : inner x) (name value : String) :
    Worked inner f (g.setAttr x name value)
  | listen {g : Forest} (before : Worked inner f g) {x : NodeId} (among : inner x) (event : String) (listener : Listener) :
    Worked inner f (g.listen x event listener)

/-- Links lead from the nodes of a set only to nodes of the set. -/
abbrev Secluded (inner : NodeId → Prop) : Regime := .enclosure (fun _ _ => True) inner

lemma Keeps.perform (keeps : f.Keeps (Secluded inner)) {a : Action}
    (among : ∀ x ∈ a.nodes, inner x ∧ x < f.nodes.size) : f.Follows (Secluded inner) (f.perform a).2 := by
  cases a with
  | make tag attrs text =>
    simp only [Forest.perform, newNode]
    split
    · exact keeps.follows
    · exact keeps.add trivial rfl rfl (by rintro _ ⟨⟩)
  | parse source =>
    simp only [Forest.perform]
    cases parsed : f.parse source with
    | error fault => exact keeps.follows
    | ok made => exact (keeps.parse trivial parsed fun _ _ _ _ _ _ => trivial).1
  | appendChild id child =>
    simp only [Forest.perform, appendChild]
    split
    · exact keeps.follows
    · exact keeps.moveLast (among id (by simp [Action.nodes])).1 trivial (among child (by simp [Action.nodes]))
  | insertAt id index nodes =>
    rw [Action.nodes, forall_mem_cons] at among
    exact keeps.insertAt among.1.1 index fun c mem => ⟨trivial, among.2 c mem⟩
  | remove id => exact keeps.remove (among id mem_cons_self).1
  | replaceWith id nodes =>
    rw [Action.nodes, forall_mem_cons] at among
    exact keeps.replaceWith among.1.1 fun c mem => ⟨trivial, among.2 c mem⟩
  | unwrap id => exact keeps.unwrap (among id mem_cons_self).1
  | clearChildren id => exact keeps.clearChildren (among id mem_cons_self).1
  | setText id text => exact keeps.setText (among id mem_cons_self).1 trivial trivial text
  | clone id =>
    simp only [Forest.perform]
    split
    · exact keeps.follows
    · refine (keeps.cloneBelow (fun _ _ => trivial) (fun _ _ => trivial) f.bound ?_ (among id mem_cons_self)).1
      rintro _ ⟨⟩

lemma Worked.follows (keeps : f.Keeps (Secluded inner)) (worked : f.Worked inner g) : f.Follows (Secluded inner) g := by
  induction worked with
  | start => exact keeps.follows
  | perform _ a among before => exact before.trans (before.keeps.perform among)
  | setAttr _ among _ _ before | listen _ among _ _ before =>
    exact before.trans (before.keeps.modify among (before.keeps.fits _))

/-! ## The two sides -/

lemma CopyOf.keeps_copy (copied : CopyOf f g none id) : g.Keeps (Secluded (f.nodes.size ≤ ·)) where
  there x old := Nat.lt_trans (Nat.lt_of_not_le old) copied.grows
  fits x new := by
    refine ⟨fun _ => trivial, fun c mem => ?_, fun q up => (copied.parent_new new up).1⟩
    exact (copied.child new mem).imp_left fun after => Nat.le_trans new (Nat.le_of_lt after)

lemma CopyOf.keeps_rest (copied : CopyOf f g none id) (linked : f.Linked) :
    g.Keeps (Secluded fun x => x < f.nodes.size ∨ g.nodes.size ≤ x) where
  there x new := Nat.lt_of_not_le fun beyond => new (.inr beyond)
  fits x here := by
    rcases here with old | beyond
    · rw [copied.kept x old]
      refine ⟨fun _ => trivial, fun c mem => ?_, fun q up => .inl (linked.parent_lt up)⟩
      exact ⟨.inl (linked.child_lt mem), Nat.lt_trans (linked.child_lt mem) copied.grows⟩
    · rw [node_of_size_le beyond]
      refine ⟨fun _ => trivial, fun c mem => ?_, fun q up => ?_⟩
      · cases mem
      · cases up

/-! ## What a copy is -/

/-- What a tree looks like down to some depth: tags, attributes and texts, and the children in
order. -/
inductive Sketch where
  | cut
  | node (tag : String) (attrs : Assoc String) (text : String) (children : List Sketch)

def sketch (f : Forest) : Nat → NodeId → Sketch := Survey.below ⟨.cut, .node⟩ f

lemma Linked.listen (linked : f.Linked) (id : NodeId) (event : String) (listener : Listener) :
    (f.listen id event listener).Linked := by
  refine linked.congr (fun x => ?_) fun x => ?_ <;>
    · rw [Forest.listen, node_modify]
      split <;> rfl

/-- A tree that ends is copied: the copy is by itself, of new nodes without listeners, and looks the
same; the nodes that were there stay as they were. Work on the nodes of the copy and on later ones
changes no older node, and work on older and later nodes changes none of the copy. A tree that does
not end cannot be copied. -/
theorem clone_alike_and_independent (linked : f.Linked) (known : id < f.nodes.size) :
    (f.isEndless id = true → f.perform (.clone id) = (.error (.endless false), f)) ∧
      (f.isEndless id = false → ∃ copy g, f.perform (.clone id) = (.ok (some copy), g) ∧
        copy = f.nodes.size ∧ (g.node copy).parent = none ∧ (∀ x < copy, g.node x = f.node x) ∧
        (∀ x ∈ copy :: g.descendants copy, copy ≤ x ∧ x < g.nodes.size ∧ (g.node x).listeners = []) ∧
        (∀ depth, g.sketch depth copy = f.sketch depth id) ∧ g.markup copy = f.markup id ∧
        (∀ h, g.Worked (copy ≤ ·) h → (∀ x < copy, h.node x = f.node x) ∧ h.markup id = f.markup id) ∧
        ∀ h, g.Worked (fun x => x < copy ∨ g.nodes.size ≤ x) h →
          (∀ x, copy ≤ x → x < g.nodes.size → h.node x = g.node x) ∧ h.markup copy = f.markup id) := by
  refine ⟨fun endless => ?_, fun finite => ?_⟩
  · rw [Forest.perform, if_pos endless]
  obtain ⟨copy, copied⟩ := linked.copyOf_clone finite
  have ends := linked.ends finite
  have markup := copied.markup_eq ends
  refine ⟨_, _, by rw [Forest.perform, finite, copy]; rfl, rfl, copied.root, copied.kept, fun x among => ?_,
    copied.looks _ _, markup, fun h worked => ?_, fun h worked => ?_⟩
  · have new : f.nodes.size ≤ x ∧ x < (f.clone id).2.nodes.size := by
      rcases List.mem_cons.mp among with rfl | below
      · exact ⟨Nat.le_refl _, copied.grows⟩
      · exact copied.keeps_copy.below _ (Nat.le_refl f.nodes.size) x below
    exact ⟨new.1, new.2, copied.listeners x new.1⟩
  · have follows := worked.follows copied.keeps_copy
    have same : ∀ x < f.nodes.size, h.node x = f.node x := fun x old =>
      (follows.same x (Nat.not_le.mpr old)).trans (copied.kept x old)
    exact ⟨same, markup_eq_of_ends ends (Nat.le_trans (Nat.le_of_lt copied.grows) follows.grows)
      (fun x _ c => linked.child_lt) same known⟩
  · have follows := worked.follows (copied.keeps_rest linked)
    have same : ∀ x, f.nodes.size ≤ x ∧ x < (f.clone id).2.nodes.size → h.node x = (f.clone id).2.node x :=
      fun x new => follows.same x fun other => other.elim (Nat.not_lt.mpr new.1) (Nat.not_le.mpr new.2)
    refine ⟨fun x new there => same x ⟨new, there⟩, Eq.trans ?_ markup⟩
    refine markup_eq_of_ends (ends_of_later (fun x new c => copied.child new) (Nat.le_refl _)) follows.grows
      (fun x new c member => ?_) same ⟨Nat.le_refl _, copied.grows⟩
    exact (copied.child new.1 member).imp_left fun after => Nat.le_trans new.1 (Nat.le_of_lt after)

/-- An element with another one in it. Both have a listener. -/
def heardPair : Forest :=
  ((twoElements.perform (.appendChild 0 1)).2.listen 0 "click" ⟨"click", 1⟩).listen 1 "click" ⟨"click", 0⟩

/-- The pair is copied without its listeners, and the copy emptied and renamed. -/
theorem clone_emptied : ∃ copy g, heardPair.perform (.clone 0) = (.ok (some copy), g) ∧
    (∀ x < 2, (heardPair.node x).listeners ≠ []) ∧ (g.node copy).listeners = [] ∧
    ((g.perform (.clearChildren copy)).2.setAttr copy "a" "b").markup 0 = heardPair.markup 0 := by
  have reached : (twoElements.perform (.appendChild 0 1)).2.Reached :=
    .perform _ (.perform _ (.perform _ .empty (by decide)) (by decide)) (by decide)
  have linked : heardPair.Linked := (reached.linked.listen 0 _ _).listen 1 _ _
  have known : 0 < heardPair.nodes.size := by decide +kernel
  obtain ⟨copy, g, made, _, _, _, fresh, _, _, apart, _⟩ :=
    (clone_alike_and_independent linked known).2 (by decide +kernel)
  have inside := fresh copy List.mem_cons_self
  refine ⟨copy, g, made, by decide +kernel, inside.2.2,
    (apart _ (.setAttr (.perform .start _ ?_) (Nat.le_refl copy) "a" "b")).2⟩
  intro x among
  obtain rfl := List.mem_singleton.mp among
  exact ⟨Nat.le_refl x, inside.2.1⟩

end TagScript.Markup.Forest
