import TagScript.Proofs.Markup.Regime

/-!
# Nodes that lie by themselves

A set of nodes is enclosed if links lead from its nodes only to each other. Work on such nodes stays
among them.
-/

namespace TagScript.Markup

variable {p : String → Assoc String → Prop} {inner : NodeId → Prop} {f : Forest} {id : NodeId}

namespace Forest

/-- Links lead from the nodes of a set only to nodes of the set, and all of them have labels that
are allowed. -/
structure Enclosed (p : String → Assoc String → Prop) (inner : NodeId → Prop) (f : Forest) : Prop where
  label : ∀ x, inner x → x < f.nodes.size → p (f.node x).tag (f.node x).attrs
  child : ∀ x, inner x → ∀ c ∈ (f.node x).childList, inner c ∧ c < f.nodes.size
  parent : ∀ x, inner x → ∀ q, (f.node x).parent = some q → inner q

end Forest

/-- Nodes of a set are worked on, and links lead from them only to each other. -/
def Regime.enclosure (p : String → Assoc String → Prop) (inner : NodeId → Prop) : Regime where
  fits size x n := inner x → (x < size → p n.tag n.attrs) ∧ (∀ c ∈ n.childList, inner c ∧ c < size) ∧
    ∀ q, n.parent = some q → inner q
  free := inner
  kid size c := inner c ∧ c < size
  above _ _ := True
  label := p
  larger fits grows either inside := by
    obtain ⟨label, children, parent⟩ := fits inside
    refine ⟨fun bound => label (either.resolve_right (Nat.not_le.mpr bound)), fun c member => ?_, parent⟩
    exact (children c member).imp_right (Nat.lt_of_lt_of_le · grows)
  kid_later kid grows := kid.imp_right (Nat.lt_of_lt_of_le · grows)
  kid_free kid := kid.1
  trans _ _ := trivial
  child fits inside member := ⟨trivial, (fits inside).2.1 _ member⟩
  parent fits inside up := ⟨trivial, (fits inside).2.2 _ up⟩
  text _ fits := fits
  under fits _ upward inside := ⟨(fits inside).1, (fits inside).2.1, fun q up => (upward q up).2⟩
  holding fits _ downward inside := ⟨(fits inside).1, fun c member => (downward c member).2, (fits inside).2.2⟩
  above_new _ := trivial
  kid_new inside := ⟨inside, Nat.lt_succ_self _⟩
  new label childless _ _ upward _ := by
    refine ⟨fun _ => label, fun c member => ?_, fun q up => (upward q up).2⟩
    simp [Node.childList, childless] at member

namespace Forest

lemma Enclosed.keeps (enclosed : f.Enclosed p inner) (fresh : ∀ x, f.nodes.size ≤ x → inner x) :
    f.Keeps (.enclosure p inner) where
  there x outside := Nat.lt_of_not_le fun beyond => outside (fresh x beyond)
  fits x inside := ⟨enclosed.label x inside, enclosed.child x inside, enclosed.parent x inside⟩

lemma Keeps.enclosed (keeps : f.Keeps (.enclosure p inner)) : f.Enclosed p inner where
  label x inside := (keeps.fits x inside).1
  child x inside := (keeps.fits x inside).2.1
  parent x inside := (keeps.fits x inside).2.2

lemma Enclosed.clone (enclosed : f.Enclosed p inner) (fresh : ∀ x, f.nodes.size ≤ x → inner x) (inside : inner id)
    (bound : id < f.nodes.size) : f.Follows (.enclosure p inner) (f.clone id).2 ∧
      inner (f.clone id).1 ∧ (f.clone id).1 < (f.clone id).2.nodes.size :=
  (enclosed.keeps fresh).cloneBelow (fun _ _ => trivial) (fun fits kid => (fits kid.1).1 kid.2) f.bound
    (nofun) ⟨inside, bound⟩

end Forest

end TagScript.Markup
