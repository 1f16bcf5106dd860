import TagScript.Proofs.Markup.Enclosure

/-!
# Nodes that are set aside

Work on other nodes leaves templates as they are. A child always has a greater number than its
parent, so no node lies within itself; a copy is made of new nodes throughout, and may itself be set
aside.
-/

namespace TagScript.Markup

variable {aside : NodeId → Prop} {f g h : Forest} {id kid x : NodeId} {n : Node} {size : Nat}

/-- The links of a node stay on its own side: its children are there and come after it, its parent
comes before it, and what is registered at it is set aside. -/
structure Node.Fits (aside : NodeId → Prop) (size : Nat) (x : NodeId) (n : Node) : Prop where
  children : ∀ c ∈ n.childList, x < c ∧ c < size ∧ (aside c ↔ aside x)
  parent : ∀ p, n.parent = some p → p < x ∧ (aside p ↔ aside x)
  listeners : ∀ entry ∈ n.listeners, ∀ listener ∈ entry.2, aside listener.body

lemma Node.Fits.larger {size' : Nat} (fits : n.Fits aside size x) (grows : size ≤ size') : n.Fits aside size' x where
  children c member := by
    obtain ⟨after, there, side⟩ := fits.children c member
    exact ⟨after, Nat.lt_of_lt_of_le there grows, side⟩
  parent := fits.parent
  listeners := fits.listeners

lemma Node.Fits.under (fits : n.Fits aside size x) {above : Option NodeId}
    (upward : ∀ p, above = some p → p < x ∧ (aside p ↔ aside x)) : Node.Fits aside size x { n with parent := above } :=
  ⟨fits.children, upward, fits.listeners⟩

lemma Node.Fits.holding (fits : n.Fits aside size x) {children : Array NodeId}
    (downward : ∀ c ∈ children.toList, x < c ∧ c < size ∧ (aside c ↔ aside x)) :
    Node.Fits aside size x { n with children := children } :=
  ⟨downward, fits.parent, fits.listeners⟩

namespace Forest

/-- Nodes are set aside. -/
structure Parted (aside : NodeId → Prop) (f : Forest) : Prop where
  there : ∀ x, aside x → x < f.nodes.size
  fits : ∀ x, (f.node x).Fits aside f.nodes.size x

def Loose (aside : NodeId → Prop) (f : Forest) (x : NodeId) : Prop :=
  x < f.nodes.size ∧ ¬ aside x

/-- Work that leads from one forest to another and leaves the nodes that are set aside alone. -/
structure Beside (aside : NodeId → Prop) (f g : Forest) : Prop where
  parted : g.Parted aside
  grows : f.nodes.size ≤ g.nodes.size
  same : ∀ x, aside x → g.node x = f.node x

end Forest

/-- Nodes that are not set aside are worked on, a child always coming after its parent. -/
def Regime.parting (aside : NodeId → Prop) : Regime where
  fits size x n := n.Fits aside size x
  free x := ¬ aside x
  kid size c := c < size ∧ ¬ aside c
  above x y := x < y
  label _ _ := True
  larger fits grows _ := fits.larger grows
  kid_later kid grows := kid.imp_left (Nat.lt_of_lt_of_le · grows)
  kid_free kid := kid.2
  trans := Nat.lt_trans
  child fits loose member := by
    obtain ⟨after, there, side⟩ := fits.children _ member
    exact ⟨after, there, fun set => loose (side.mp set)⟩
  parent fits loose up := (fits.parent _ up).imp_right fun side set => loose (side.mp set)
  text _ fits := ⟨fits.children, fits.parent, fits.listeners⟩
  under fits loose upward := fits.under fun q up => (upward q up).imp_right fun free => iff_of_false free loose
  holding fits loose downward := fits.holding fun c member => by
    obtain ⟨after, there, free⟩ := downward c member
    exact ⟨after, there, iff_of_false free loose⟩
  above_new there := there
  kid_new loose := ⟨Nat.lt_succ_self _, loose⟩
  new _ childless bare loose upward := by
    refine ⟨fun c member => ?_, fun q up => ?_, fun entry member => ?_⟩
    · simp [Node.childList, childless] at member
    · exact (upward q up).imp_right fun free => iff_of_false free loose
    · rw [bare] at member
      cases member

namespace Forest

lemma Follows.beside (follows : f.Follows (.parting aside) g) : f.Beside aside g where
  parted := ⟨fun x set => follows.keeps.there x (not_not_intro set), follows.keeps.fits⟩
  grows := follows.grows
  same x set := follows.same x (not_not_intro set)

namespace Parted

variable (parted : f.Parted aside)
include parted

lemma keeps : f.Keeps (.parting aside) :=
  ⟨fun x set => parted.there x (Classical.not_not.mp set), parted.fits⟩

lemma listen (loose : ¬ aside id) (event : String) {listener : Listener} (set : aside listener.body) :
    f.Follows (.parting aside) (f.listen id event listener) := by
  have fits := parted.fits id
  refine parted.keeps.modify loose ⟨fits.children, fits.parent, ?_⟩
  intro entry mem other among
  rcases Assoc.mem_set mem with older | rfl
  · exact fits.listeners entry older other among
  · rcases List.mem_append.mp among with older | last
    · cases registered : Assoc.get? event (f.node id).listeners with
      | none =>
        rw [registered] at older
        cases older
      | some listeners =>
        rw [registered] at older
        exact fits.listeners _ (Assoc.mem_of_get? registered) other older
    · obtain rfl := List.mem_singleton.mp last
      exact set

lemma select (loose : ¬ aside id) (selectors : String) : ∀ c ∈ f.select id selectors, f.Loose aside c :=
  fun c mem => parted.keeps.below f.bound loose c (List.mem_filter.mp mem).1

end Parted

/-! ## Copies -/

section

variable (parted : f.Parted aside)
include parted

lemma Parted.ends (x : NodeId) : f.Ends f.bound x := by
  refine ends_of_later (fun x _ c mem => ?_) (Nat.zero_le x)
  obtain ⟨after, there, _⟩ := (parted.fits x).children c mem
  exact ⟨after, there⟩

lemma Parted.markup_eq (grows : f.nodes.size ≤ g.nodes.size)
    (same : ∀ x, aside x → g.node x = f.node x) (set : aside x) : g.markup x = f.markup x :=
  markup_eq_of_ends (parted.ends x) grows (fun x set c mem => ((parted.fits x).children c mem).2.2.mpr set) same set

lemma Parted.copyOf_clone (id : NodeId) : (f.clone id).1 = f.nodes.size ∧ CopyOf f (f.clone id).2 none id :=
  copyOf_cloneBelow none (parted.ends id)

lemma Parted.markup_clone (id : NodeId) : (f.clone id).2.markup (f.clone id).1 = f.markup id := by
  obtain ⟨copy, copied⟩ := parted.copyOf_clone id
  exact copied.markup_eq (parted.ends id)

end

section

variable (parted : f.Parted aside) (copied : CopyOf f g none id)
include parted copied

lemma CopyOf.parted_of {more : NodeId → Prop} (old : ∀ x, x < f.nodes.size → (more x ↔ aside x))
    (new : ∀ x y, f.nodes.size ≤ x → f.nodes.size ≤ y → x < g.nodes.size → y < g.nodes.size → (more x ↔ more y))
    (there : ∀ x, more x → x < g.nodes.size) : g.Parted more where
  there := there
  fits x := by
    by_cases before : x < f.nodes.size
    · rw [copied.kept x before]
      have fits := parted.fits x
      refine ⟨?_, ?_, ?_⟩
      · intro c mem
        obtain ⟨after, low, side⟩ := fits.children c mem
        exact ⟨after, Nat.lt_trans low copied.grows, (old c low).trans (side.trans (old x before).symm)⟩
      · intro p up
        obtain ⟨below, side⟩ := fits.parent p up
        exact ⟨below, (old p (Nat.lt_trans below before)).trans (side.trans (old x before).symm)⟩
      · intro entry mem listener among
        have set := fits.listeners entry mem listener among
        exact (old _ (parted.there _ set)).mpr set
    · have after := Nat.le_of_not_lt before
      refine ⟨?_, ?_, ?_⟩
      · intro c mem
        obtain ⟨later, low⟩ := copied.child after mem
        exact ⟨later, low, new c x (Nat.le_trans after (Nat.le_of_lt later)) after low (Nat.lt_trans later low)⟩
      · intro p up
        have inside := lt_size_of_parent up
        obtain ⟨low, below⟩ := copied.parent_new after up
        exact ⟨below, new p x low after (Nat.lt_trans below inside) inside⟩
      · intro entry mem
        rw [copied.listeners x after] at mem
        cases mem

lemma CopyOf.beside : f.Beside aside g where
  parted := copied.parted_of parted (fun _ _ => Iff.rfl)
    (fun x y after after' _ _ => iff_of_false (fun set => Nat.not_lt.mpr after (parted.there x set))
      fun set => Nat.not_lt.mpr after' (parted.there y set))
    fun x set => Nat.lt_trans (parted.there x set) copied.grows
  grows := Nat.le_of_lt copied.grows
  same x set := copied.kept x (parted.there x set)

lemma CopyOf.parted_aside : g.Parted fun x => aside x ∨ (f.nodes.size ≤ x ∧ x < g.nodes.size) := by
  refine copied.parted_of parted ?_ ?_ ?_
  · intro x before
    exact or_iff_left fun new => Nat.not_lt.mpr new.1 before
  · intro x y after after' low low'
    exact iff_of_true (.inr ⟨after, low⟩) (.inr ⟨after', low'⟩)
  · rintro x (set | ⟨_, low⟩)
    · exact Nat.lt_trans (parted.there x set) copied.grows
    · exact low

end

lemma Parted.parse (parted : f.Parted aside) {source : String} {made : NodeId × Forest}
    (parsed : f.parse source = .ok made) :
    f.Beside aside made.2 ∧ made.1 = f.nodes.size ∧ made.2.Loose aside made.1 := by
  obtain ⟨follows, root, there⟩ := parted.keeps.parse trivial parsed fun _ _ _ _ _ _ => trivial
  exact ⟨follows.beside, root, there, root ▸ parted.keeps.free_new⟩

end Forest

end TagScript.Markup
