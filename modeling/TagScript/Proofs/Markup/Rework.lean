import TagScript.Proofs.Markup.Standing

/-!
# Working on the trees of a node

Whoever owns a node and the hedge below it may work on them and on nothing else. `Spoils` says what
is known when the work is given up half-way, `Reworks` when it is done. Some nodes are kept: they
belong to nobody.
-/

namespace TagScript.Markup

open Hedge Forest List Node Hedge

variable {shown : Hedge NodeId} {x : NodeId}

/-- A forest, and the nodes of it that are kept as they are. -/
structure Plot extends Forest where
  kept : NodeId → Prop

/-- The way up from a node. -/
def Climbs (f : Forest) : NodeId → List NodeId → Prop
  | id, [] => (f.node id).parent = none
  | id, above :: path => (f.node id).parent = some above ∧ Climbs f above path

lemma Climbs.congr {f g : Forest} {id : NodeId} {path : List NodeId} (climbs : Climbs f id path)
    (same : ∀ x ∈ id :: path, (g.node x).parent = (f.node x).parent) : Climbs g id path := by
  induction path generalizing id with
  | nil => exact (same id mem_cons_self).trans climbs
  | cons above path ih =>
    exact ⟨(same id mem_cons_self).trans climbs.1, ih climbs.2 fun x among => same x (mem_cons_of_mem _ among)⟩

lemma Climbs.ancestors_subset {f : Forest} {id : NodeId} {path : List NodeId} (climbs : Climbs f id path)
    (steps : Nat) : f.ancestors steps id ⊆ id :: path := by
  induction path generalizing id steps with
  | nil =>
    cases steps with
    | zero => exact nil_subset _
    | succ steps =>
      have root : (f.node id).parent = none := climbs
      simp [Forest.ancestors, root]
  | cons above path ih =>
    cases steps with
    | zero => exact nil_subset _
    | succ steps =>
      rw [Forest.ancestors, climbs.1]
      exact cons_subset_cons _ (ih climbs.2 steps)

/-- A node and its hedge are somebody's own: none of the nodes is kept, nor does one lie above. -/
structure Owns (P : Plot) (p : NodeId) (h : Hedge NodeId) : Prop extends Holds P.toForest p h where
  free : ∀ x ∈ p :: h.places, ¬ P.kept x
  path : ∃ path, Climbs P.toForest p path ∧ ∀ x ∈ path, x < P.nodes.size ∧ x ∉ p :: h.places

/-- Nothing has changed but the hedge of a node, and that may be in any state. -/
structure Spoils (P Q : Plot) (p : NodeId) (h : Hedge NodeId) : Prop where
  grows : P.nodes.size ≤ Q.nodes.size
  frame : ∀ x < P.nodes.size, x ∉ p :: h.places → Q.node x = P.node x
  crown : Q.node p = (P.node p).holding (Q.node p).childList
  keeps : ∀ x, P.kept x → Q.kept x
  newly : ∀ x, Q.kept x → P.kept x ∨ P.nodes.size ≤ x

/-- Nothing has changed but the hedge of a node, and that is now another one. -/
structure Reworks (P Q : Plot) (p : NodeId) (h k : Hedge NodeId) : Prop extends Spoils P Q p h where
  before : Owns P p h
  holds : Holds Q.toForest p k
  origin : ∀ x ∈ k.places, x ∈ h.places ∨ P.nodes.size ≤ x
  free : ∀ x ∈ k.places, ¬ Q.kept x

/-- Nothing has changed, but there may be new nodes. -/
structure Extends (P Q : Plot) : Prop where
  grows : P.nodes.size ≤ Q.nodes.size
  same : ∀ x < P.nodes.size, Q.node x = P.node x
  keeps : ∀ x, P.kept x → Q.kept x
  newly : ∀ x, Q.kept x → P.kept x ∨ P.nodes.size ≤ x

variable {P Q S : Plot} {p q id : NodeId} {h k l : Hedge NodeId}

namespace Spoils

lemma refl (P : Plot) (p : NodeId) (h : Hedge NodeId) : Spoils P P p h where
  grows := Nat.le_refl _
  frame _ _ _ := rfl
  crown := (holding_self _).symm
  keeps _ kept := kept
  newly _ kept := Or.inl kept

lemma not_kept (spoils : Spoils P Q p h) (old : x < P.nodes.size) (free : ¬ P.kept x) : ¬ Q.kept x := by
  intro kept
  rcases spoils.newly x kept with earlier | new
  · exact free earlier
  · exact Nat.not_lt.mpr new old

end Spoils

namespace Reworks

lemma refl (own : Owns P p h) : Reworks P P p h h where
  toSpoils := .refl P p h
  before := own
  holds := own.toHolds
  origin _ among := Or.inl among
  free x among := own.free x (mem_cons_of_mem _ among)

lemma outside (work : Reworks P Q p h k) (old : x < P.nodes.size) (out : x ∉ p :: h.places) : x ∉ p :: k.places := by
  intro among
  rcases mem_cons.mp among with rfl | below
  · exact out mem_cons_self
  · rcases work.origin x below with earlier | new
    · exact out (mem_cons_of_mem _ earlier)
    · exact Nat.not_lt.mpr new old

lemma owns (work : Reworks P Q p h k) : Owns Q p k where
  toHolds := work.holds
  free x among := by
    rcases mem_cons.mp among with rfl | below
    · exact work.not_kept work.before.inside (work.before.free x mem_cons_self)
    · exact work.free x below
  path := by
    obtain ⟨path, climbs, apart⟩ := work.before.path
    refine ⟨path, climbs.congr fun x among => ?_, fun x among => ?_⟩
    · rcases mem_cons.mp among with rfl | above
      · rw [work.crown, holding_parent]
      · rw [work.frame x (apart x above).1 (apart x above).2]
    · exact ⟨Nat.lt_of_lt_of_le (apart x among).1 work.grows, work.outside (apart x among).1 (apart x among).2⟩

lemma spoils (work : Reworks P Q p h k) (spoils : Spoils Q S p k) : Spoils P S p h where
  grows := Nat.le_trans work.grows spoils.grows
  frame x old out := by
    rw [spoils.frame x (Nat.lt_of_lt_of_le old work.grows) (work.outside old out), work.frame x old out]
  crown := by
    rw [spoils.crown, work.crown]
    simp
  keeps x kept := spoils.keeps x (work.keeps x kept)
  newly x kept := by
    rcases spoils.newly x kept with earlier | new
    · exact work.newly x earlier
    · exact Or.inr (Nat.le_trans work.grows new)

lemma trans (first : Reworks P Q p h k) (second : Reworks Q S p k l) : Reworks P S p h l where
  toSpoils := first.spoils second.toSpoils
  before := first.before
  holds := second.holds
  origin x among := by
    rcases second.origin x among with earlier | new
    · exact first.origin x earlier
    · exact Or.inr (Nat.le_trans first.grows new)
  free := second.free

/-- Work elsewhere, on nodes of the old hedge that are out of the new one or on new nodes, changes
nothing. -/
lemma aside (work : Reworks P Q p h k) (other : Spoils Q S q l)
    (within : ∀ x ∈ q :: l.places, x ∈ h.places ∨ P.nodes.size ≤ x)
    (apart : ∀ x ∈ q :: l.places, x ∉ p :: k.places) : Reworks P S p h k where
  grows := Nat.le_trans work.grows other.grows
  frame x old out := by
    have elsewhere : x ∉ q :: l.places := by
      intro among
      rcases within x among with earlier | new
      · exact out (mem_cons_of_mem _ earlier)
      · exact Nat.not_lt.mpr new old
    rw [other.frame x (Nat.lt_of_lt_of_le old work.grows) elsewhere, work.frame x old out]
  crown := by
    have elsewhere : p ∉ q :: l.places := fun among => apart p among mem_cons_self
    rw [other.frame p work.holds.inside elsewhere]
    exact work.crown
  keeps x kept := other.keeps x (work.keeps x kept)
  newly x kept := by
    rcases other.newly x kept with earlier | new
    · exact work.newly x earlier
    · exact Or.inr (Nat.le_trans work.grows new)
  before := work.before
  holds := work.holds.congr other.grows fun x among =>
    other.frame x (work.holds.lt_size among) fun elsewhere => apart x elsewhere among
  origin := work.origin
  free x among := other.not_kept (work.holds.stands.lt_size among) (work.free x among)

end Reworks

namespace Extends

lemma spoils (new : Extends P Q) (spoils : Spoils Q S q l) (fresh : ∀ x ∈ q :: l.places, P.nodes.size ≤ x) :
    Extends P S where
  grows := Nat.le_trans new.grows spoils.grows
  same x old := by
    rw [spoils.frame x (Nat.lt_of_lt_of_le old new.grows) fun among => Nat.not_lt.mpr (fresh x among) old,
      new.same x old]
  keeps x kept := spoils.keeps x (new.keeps x kept)
  newly x kept := by
    rcases spoils.newly x kept with earlier | later
    · exact new.newly x earlier
    · exact Or.inr (Nat.le_trans new.grows later)

lemma not_kept (new : Extends P Q) (old : x < P.nodes.size) (free : ¬ P.kept x) : ¬ Q.kept x := by
  intro kept
  rcases new.newly x kept with earlier | later
  · exact free earlier
  · exact Nat.not_lt.mpr later old

lemma reworks (new : Extends P Q) (own : Owns P p h) : Reworks P Q p h h where
  grows := new.grows
  frame x old _ := new.same x old
  crown := by rw [new.same p own.inside, holding_self]
  keeps := new.keeps
  newly := new.newly
  before := own
  holds := own.toHolds.congr new.grows fun x among => new.same x (own.lt_size among)
  origin _ among := Or.inl among
  free x among := new.not_kept (own.stands.lt_size among) (own.free x (mem_cons_of_mem _ among))

end Extends

/-! ## An element in its row -/

lemma fresh_apart {size : Nat} (fresh : ∀ x ∈ q :: shown.places, size ≤ x)
    (old : x < size) : x ∉ shown.roots ∧ x ≠ q := by
  refine ⟨fun root => ?_, ?_⟩
  · exact Nat.not_lt.mpr (fresh x (List.mem_cons_of_mem _ (shown.roots_sublist.subset root))) old
  · rintro rfl
    exact Nat.not_lt.mpr (fresh x List.mem_cons_self) old

section Row

variable {front back kids : Hedge NodeId} {tag : String} {attrs : Assoc String}

/-- A part of a list without repetitions gives way to another part. -/
lemma nodup_exchange {front middle shown back : List NodeId} (whole : (front ++ (middle ++ back)).Nodup)
    (distinct : shown.Nodup) (apart : ∀ x ∈ shown, x ∉ front ++ back) : (front ++ shown ++ back).Nodup := by
  rw [nodup_append, nodup_append] at whole
  obtain ⟨frontDistinct, ⟨_, backDistinct, _⟩, frontApart⟩ := whole
  rw [nodup_append, nodup_append]
  refine ⟨⟨frontDistinct, distinct, ?_⟩, backDistinct, ?_⟩
  · rintro x early _ here rfl
    exact apart x here (mem_append_left _ early)
  · rintro x among _ late rfl
    rcases mem_append.mp among with early | here
    · exact frontApart x early x (mem_append_right _ late) rfl
    · exact apart x here (mem_append_right _ late)

/-- A hedge was put into the row of a node, and nothing else has changed but nodes that were there.
-/
structure Exchange (P Q : Plot) (p : NodeId) (row gone : List NodeId) (shown : Hedge NodeId) : Prop where
  grows : P.nodes.size ≤ Q.nodes.size
  above : Q.node p = (P.node p).holding row
  elsewhere : ∀ x < P.nodes.size, x ≠ p → x ∉ gone → Q.node x = P.node x
  keeps : ∀ x, P.kept x → Q.kept x
  newly : ∀ x, Q.kept x → P.kept x ∨ P.nodes.size ≤ x
  stands : shown.Stands Q.toForest p
  distinct : shown.places.Nodup
  origin : ∀ x ∈ shown.places, x ∈ gone ∨ P.nodes.size ≤ x
  free : ∀ x ∈ shown.places, ¬ Q.kept x

lemma Owns.exchange {middle : Hedge NodeId} (own : Owns P p (front ++ middle ++ back))
    (done : Exchange P Q p (front.roots ++ shown.roots ++ back.roots) middle.places shown) :
    Reworks P Q p (front ++ middle ++ back) (front ++ shown ++ back) := by
  obtain ⟨grows, above, elsewhere, keeps, newly, stands, distinct, origin, free⟩ := done
  have places : (front ++ middle ++ back).places = front.places ++ (middle.places ++ back.places) := by
    rw [places_append, places_append, List.append_assoc]
  have whole : (p :: front.places ++ (middle.places ++ back.places)).Nodup := by simpa [places] using own.distinct
  have mem : ∀ x, x ∈ front.places ++ back.places ∨ x ∈ middle.places ↔ x ∈ (front ++ middle ++ back).places := by
    intro x
    simp only [places, mem_append]
    tauto
  have beside : ∀ x ∈ front.places ++ back.places, x < P.nodes.size ∧ x ≠ p ∧ x ∉ middle.places := by
    intro x among
    refine ⟨own.stands.lt_size ((mem x).mp (.inl among)), ?_, fun here => ?_⟩
    · rintro rfl
      exact own.apart ((mem x).mp (.inl among))
    · obtain ⟨_, behind, early⟩ := nodup_append.mp whole
      rcases mem_append.mp among with before | late
      · exact early x (mem_cons_of_mem _ before) x (mem_append_left _ here) rfl
      · exact (nodup_append.mp behind).2.2 x here x late rfl
  have spoils : Spoils P Q p (front ++ middle ++ back) := by
    refine ⟨grows, fun x old out => ?_, by rw [above, holding_childList], keeps, newly⟩
    exact elsewhere x old (fun same => out (same ▸ mem_cons_self))
      fun here => out (mem_cons_of_mem _ ((mem x).mp (.inr here)))
  have same : ∀ x ∈ front.places ++ back.places, Q.node x = P.node x := fun x among =>
    elsewhere x (beside x among).1 (beside x among).2.1 (beside x among).2.2
  have notKept : ∀ x ∈ front.places ++ back.places, ¬ Q.kept x := fun x among =>
    spoils.not_kept (beside x among).1 (own.free x (mem_cons_of_mem _ ((mem x).mp (.inl among))))
  have apart : ∀ x ∈ shown.places, x ∉ p :: front.places ++ back.places := by
    intro x among other
    rcases mem_cons.mp other with rfl | other
    · rcases origin x among with here | new
      · exact own.apart ((mem x).mp (.inr here))
      · exact Nat.not_lt.mpr new own.inside
    · rcases origin x among with here | new
      · exact (beside x other).2.2 here
      · exact Nat.not_lt.mpr new (beside x other).1
  have parts : ∀ x ∈ (front ++ shown ++ back).places, x ∈ front.places ++ back.places ∨ x ∈ shown.places := by
    intro x among
    simp only [places_append, mem_append] at among ⊢
    tauto
  have stood := own.stands
  simp only [stands_append] at stood
  refine ⟨spoils, own, ⟨?_, ?_, ?_, Nat.lt_of_lt_of_le own.inside grows⟩, ?_, ?_⟩
  · simp only [above, holding_childList, roots_append]
  · simp only [stands_append]
    exact ⟨⟨stood.1.1.congr fun x among => same x (mem_append_left _ among), stands⟩,
      stood.2.congr fun x among => same x (mem_append_right _ among)⟩
  · rw [places_append, places_append]
    exact nodup_exchange whole distinct apart
  · intro x among
    rcases parts x among with beside | here
    · exact .inl ((mem x).mp (.inl beside))
    · exact (origin x here).imp_left fun here => (mem x).mp (.inr here)
  · exact fun x among => (parts x among).elim (notKept x) (free x)

lemma Hedge.mem_row_of_inner (here : x ∈ id :: kids.places) :
    x ∈ (front ++ .element id tag attrs kids back).places := by
  simp only [places_append, places, mem_append, mem_cons]
  rcases mem_cons.mp here with rfl | lower
  · exact Or.inr (Or.inl rfl)
  · exact Or.inr (Or.inr (Or.inl lower))

namespace Owns

variable (own : Owns P p (front ++ .element id tag attrs kids back))

include own

lemma elementUnder : (P.node id).ElementUnder tag attrs kids.roots p :=
  ((stands_append _ _).mp own.stands).2.1

lemma row : (P.node p).childList = front.roots ++ id :: back.roots := by
  rw [own.children, roots_append, roots]

lemma places_nodup : (p :: (front.places ++ id :: (kids.places ++ back.places))).Nodup := by
  have distinct := own.distinct
  rwa [places_append, places] at distinct

lemma inner : Owns P id kids := by
  obtain ⟨_, _, below, _⟩ := (stands_append _ _).mp own.stands
  have distinct := own.places_nodup
  have among : ∀ x ∈ id :: kids.places, x ∈ p :: (front ++ .element id tag attrs kids back).places :=
    fun x here => mem_cons_of_mem _ (mem_row_of_inner here)
  refine ⟨⟨own.elementUnder.children, below, ?_, own.lt_size (among id mem_cons_self)⟩,
    fun x here => own.free x (among x here), ?_⟩
  · have behind := (nodup_append.mp (nodup_cons.mp distinct).2).2.1
    rw [← cons_append, nodup_append] at behind
    exact behind.1
  · obtain ⟨path, climbs, apart⟩ := own.path
    refine ⟨p :: path, ⟨own.elementUnder.parent, climbs⟩, fun x above => ?_⟩
    rcases mem_cons.mp above with rfl | higher
    · exact ⟨own.inside, fun here => own.apart (mem_row_of_inner here)⟩
    · exact ⟨(apart x higher).1, fun here => (apart x higher).2 (among x here)⟩

lemma spoils_inner (spoils : Spoils P Q id kids) :
    Spoils P Q p (front ++ .element id tag attrs kids back) where
  grows := spoils.grows
  frame x old out := spoils.frame x old fun here => out (mem_cons_of_mem _ (mem_row_of_inner here))
  crown := by
    rw [spoils.frame p own.inside fun here => own.apart (mem_row_of_inner here), holding_self]
  keeps := spoils.keeps
  newly := spoils.newly

lemma beside (among : x ∈ front.places ++ back.places) : x ∉ id :: kids.places := by
  have distinct := (nodup_cons.mp own.places_nodup).2
  rw [← cons_append, nodup_append, nodup_append] at distinct
  intro here
  rcases mem_append.mp among with early | late
  · exact distinct.2.2 x early x (mem_append_left _ here) rfl
  · exact distinct.2.1.2.2 x here x late rfl

lemma ne : p ≠ id := by
  rintro rfl
  exact own.apart (mem_row_of_inner mem_cons_self)

lemma once : id ∉ front.roots := fun early =>
  own.beside (mem_append_left _ (front.roots_sublist.subset early)) mem_cons_self

lemma replace
    (done : Exchange P Q p (front.roots ++ shown.roots ++ back.roots) (id :: kids.places) shown) :
    Reworks P Q p (front ++ .element id tag attrs kids back) (front ++ shown ++ back) := by
  have row : front ++ .element id tag attrs kids back = front ++ .element id tag attrs kids .nil ++ back := by
    rw [Hedge.append_assoc, element_append, Hedge.nil_append]
  have places : (Hedge.element id tag attrs kids .nil).places = id :: kids.places := by simp [Hedge.places]
  rw [row] at own ⊢
  exact own.exchange (places ▸ done)

lemma rework_inner (work : Reworks P Q id kids shown) :
    Reworks P Q p (front ++ .element id tag attrs kids back) (front ++ .element id tag attrs shown back) := by
  have here := own.elementUnder
  have places : (Hedge.element id tag attrs shown .nil).places = id :: shown.places := by
    simp [places]
  have above : Q.node p = (P.node p).holding
      (front.roots ++ (element id tag attrs shown .nil).roots ++ back.roots) := by
    rw [work.frame p own.inside fun here => own.apart (mem_row_of_inner here)]
    have whole := (P.node p).holding_self
    rw [own.row] at whole
    simp [roots, whole]
  have stands : (element id tag attrs shown .nil).Stands Q.toForest p := by
    refine ⟨?_, work.holds.stands, trivial⟩
    rw [work.crown, work.holds.children]
    exact ⟨here.tag, here.attrs, here.element, holding_childList _ _, here.parent⟩
  have origin : ∀ x ∈ (element id tag attrs shown .nil).places,
      x ∈ id :: kids.places ∨ P.nodes.size ≤ x := by
    intro x among
    rw [places] at among
    rcases mem_cons.mp among with rfl | below
    · exact Or.inl mem_cons_self
    · exact (work.origin x below).imp_left (mem_cons_of_mem _)
  have replaced := own.replace ⟨work.grows, above, fun x old _ out => work.frame x old out, work.keeps, work.newly,
    stands, by rw [places]; exact work.holds.distinct, origin, fun x among => work.owns.free x (places ▸ among)⟩
  rwa [Hedge.append_assoc, element_append, Hedge.nil_append] at replaced

lemma remove (spoils : Spoils P Q id kids) :
    Reworks P ⟨Q.remove id, Q.kept⟩ p (front ++ .element id tag attrs kids back) (front ++ back) ∧
      ((Q.remove id).node id).parent = none := by
  have parent : (Q.node id).parent = some p := by
    rw [spoils.crown, holding_parent, own.elementUnder.parent]
  have removed := node_remove parent own.ne
  have above : (Q.remove id).node p = (P.node p).holding (front.roots ++ back.roots) := by
    rw [removed, if_neg own.ne, if_pos rfl,
      spoils.frame p own.inside fun here => own.apart (mem_row_of_inner here), own.row,
      erase_append_right _ own.once, erase_cons_head]
  have elsewhere : ∀ x < P.nodes.size, x ≠ p → x ∉ id :: kids.places → (Q.remove id).node x = P.node x := by
    intro x old apart out
    have other : x ≠ id := fun same => out (same ▸ mem_cons_self)
    rw [removed, if_neg other, if_neg apart, spoils.frame x old out]
  constructor
  · have done : Exchange P ⟨Q.remove id, Q.kept⟩ p (front.roots ++ (Hedge.nil : Hedge NodeId).roots ++ back.roots)
        (id :: kids.places) .nil :=
      ⟨by rw [size_remove]; exact spoils.grows, by simpa [roots] using above, elsewhere, spoils.keeps,
        spoils.newly, trivial, nodup_nil, nofun, nofun⟩
    have replaced := own.replace done
    rwa [Hedge.append_nil] at replaced
  · rw [removed, if_pos rfl, under_parent]

lemma unwrap :
    Reworks P ⟨P.unwrap id, P.kept⟩ p (front ++ .element id tag attrs kids back) (front ++ kids ++ back) ∧
      ((P.unwrap id).node id).parent = none := by
  have inner := own.inner
  have lower : ∀ x ∈ kids.roots, x ∈ id :: kids.places :=
    fun x root => mem_cons_of_mem _ (kids.roots_sublist.subset root)
  have outer : p ∉ kids.roots := fun root => own.apart (mem_row_of_inner (lower p root))
  have itself : id ∉ kids.roots := fun root => inner.apart (kids.roots_sublist.subset root)
  have unwrapped (x : NodeId) : (P.unwrap id).node x =
      if x ∈ kids.roots then (P.node x).under (some p)
      else if x = p then (P.node p).holding (front.roots ++ kids.roots ++ back.roots)
      else if x = id then ((P.node id).under none).holding [] else P.node x := by
    have node := node_unwrap own.elementUnder.parent own.row own.once
    rw [inner.children] at node
    exact node (fun x root => inner.lt_size (lower x root)) itself outer
      (kids.roots_sublist.nodup inner.nodup) own.ne own.inside x
  have above : (P.unwrap id).node p = (P.node p).holding (front.roots ++ kids.roots ++ back.roots) := by
    rw [unwrapped, if_neg outer, if_pos rfl]
  have elsewhere : ∀ x, x ≠ p → x ≠ id → x ∉ kids.roots → (P.unwrap id).node x = P.node x := by
    intro x apart other out
    rw [unwrapped, if_neg out, if_neg apart, if_neg other]
  have stands : kids.Stands (P.unwrap id) p := by
    refine inner.stands.adopt inner.nodup (fun x root => by rw [unwrapped, if_pos root]) fun x among out => ?_
    refine elsewhere x ?_ ?_ out
    · rintro rfl
      exact own.apart (mem_row_of_inner (mem_cons_of_mem _ among))
    · rintro rfl
      exact inner.apart among
  have size := (relinked_unwrap P.toForest id).size
  generalize P.unwrap id = g at unwrapped above elsewhere stands size
  constructor
  · refine own.replace ⟨Nat.le_of_eq size.symm, above, fun x _ apart out => ?_, fun _ kept => kept,
      fun _ kept => Or.inl kept, stands, inner.nodup, fun x among => Or.inl (mem_cons_of_mem _ among),
      fun x among => inner.free x (mem_cons_of_mem _ among)⟩
    exact elsewhere x apart (fun same => out (same ▸ mem_cons_self)) fun root => out (lower x root)
  · rw [unwrapped, if_neg itself, if_neg (Ne.symm own.ne), if_pos rfl, holding_parent, under_parent]

variable (new : Extends P Q) (holds : Holds Q.toForest q shown) (fresh : ∀ x ∈ q :: shown.places, P.nodes.size ≤ x)
include new holds fresh

lemma node_replaceWith (x : NodeId) : (Q.replaceWith id shown.roots).node x =
      if x ∈ shown.roots then (Q.node x).under (some p)
      else if x = p then (Q.node p).holding (front.roots ++ shown.roots ++ back.roots)
      else if x = id then (Q.node id).under none
      else if x = q then (Q.node q).holding [] else Q.node x := by
  have older {x : NodeId} : x < P.nodes.size → x ∉ shown.roots ∧ x ≠ q := fresh_apart fresh
  have inside := own.inner.inside
  exact Forest.node_replaceWith holds.children (fun x root => holds.stands.parent root)
    (fun root => holds.apart (shown.roots_sublist.subset root)) (shown.roots_sublist.nodup holds.nodup)
    (by rw [new.same id inside, own.elementUnder.parent])
    (by rw [new.same p own.inside, own.row]) own.once (older inside).1 (older own.inside).1 own.ne
    (Ne.symm (older own.inside).2) (Ne.symm (older inside).2)
    (Nat.lt_of_lt_of_le own.inside new.grows) x

lemma replaceWith (free : ∀ x ∈ shown.places, ¬ Q.kept x) :
    Reworks P ⟨Q.replaceWith id shown.roots, Q.kept⟩ p (front ++ .element id tag attrs kids back)
      (front ++ shown ++ back) := by
  have older {x : NodeId} : x < P.nodes.size → x ∉ shown.roots ∧ x ≠ q := fresh_apart fresh
  have inside := own.inner.inside
  have replaced := own.node_replaceWith new holds fresh
  have above : (Q.replaceWith id shown.roots).node p =
      (P.node p).holding (front.roots ++ shown.roots ++ back.roots) := by
    rw [replaced, if_neg (older own.inside).1, if_pos rfl, new.same p own.inside]
  have stands : shown.Stands (Q.replaceWith id shown.roots) p := by
    refine holds.stands.adopt holds.nodup (fun x root => by rw [replaced, if_pos root]) fun x among out => ?_
    have later : P.nodes.size ≤ x := fresh x (mem_cons_of_mem _ among)
    have apart : x ≠ p := by
      rintro rfl
      exact Nat.not_lt.mpr later own.inside
    have other : x ≠ id := by
      rintro rfl
      exact Nat.not_lt.mpr later inside
    have below : x ≠ q := by
      rintro rfl
      exact holds.apart among
    rw [replaced, if_neg out, if_neg apart, if_neg other, if_neg below]
  refine own.replace ⟨?_, above, fun x old apart out => ?_, new.keeps, new.newly, stands, holds.nodup,
    fun x among => Or.inr (fresh x (mem_cons_of_mem _ among)), free⟩
  · rw [size_replaceWith]
    exact new.grows
  · have other : x ≠ id := fun same => out (same ▸ mem_cons_self)
    rw [replaced, if_neg (older old).1, if_neg apart, if_neg other, if_neg (older old).2, new.same x old]

end Owns

end Row

/-! ## What an element holds -/

namespace Owns

variable (own : Owns P id h)

include own

lemma apart_roots : id ∉ h.roots := fun root => own.apart (h.roots_sublist.subset root)

lemma refill {g : Forest} (grows : P.nodes.size ≤ g.nodes.size) (above : g.node id = (P.node id).holding shown.roots)
    (elsewhere : ∀ x < P.nodes.size, x ≠ id → x ∉ h.roots → g.node x = P.node x) (stands : shown.Stands g id)
    (distinct : shown.places.Nodup) (new : ∀ x ∈ shown.places, P.nodes.size ≤ x ∧ ¬ P.kept x) :
    Reworks P ⟨g, P.kept⟩ id h shown := by
  have alone : Owns P id (.nil ++ h ++ .nil) := by simpa using own
  have filled := alone.exchange (Q := ⟨g, P.kept⟩) ⟨grows, by simpa [roots] using above,
    fun x old other out => elsewhere x old other fun root => out (h.roots_sublist.subset root), fun _ kept => kept,
    fun _ kept => .inl kept, stands, distinct, fun x among => .inr (new x among).1, fun x among => (new x among).2⟩
  simpa using filled

lemma clearChildren : Reworks P ⟨P.clearChildren id, P.kept⟩ id h .nil := by
  have cleared := node_clearChildren own.inside
  rw [own.children] at cleared
  have cleared := cleared own.apart_roots
  refine own.refill (Nat.le_of_eq (size_clearChildren P.toForest id).symm) ?_ (fun x _ other out => ?_) trivial
    nodup_nil nofun
  · rw [cleared, if_neg own.apart_roots, if_pos rfl]
    rfl
  · rw [cleared, if_neg out, if_neg other]

lemma setText (element : (P.node id).isText = false) (bounded : ∀ x, P.kept x → x < P.nodes.size)
    (content : String) :
    Reworks P ⟨P.setText id content, P.kept⟩ id h (.ofText P.nodes.size content) := by
  by_cases empty : content.isEmpty = true
  · rw [setText_of_isEmpty element empty, ofText, if_pos empty]
    exact own.clearChildren
  · rw [ofText, if_neg empty]
    have new : P.nodes.size ≠ id := Nat.ne_of_gt own.inside
    have size := size_setText element (by simpa using empty)
    have shown := node_setText element (by simpa using empty) own.inside
    rw [own.children] at shown
    have shown := shown own.apart_roots
    refine own.refill (by rw [size]; exact Nat.le_succ _) ?_ (fun x old other out => ?_) ⟨?_, trivial⟩ ?_ fun x among => ?_
    · rw [shown, if_neg (Ne.symm new), if_neg own.apart_roots, if_pos rfl]
      rfl
    · rw [shown, if_neg (Nat.ne_of_lt old), if_neg out, if_neg other]
    · rw [shown, if_pos rfl]
      exact textUnder_make content id
    · simp [places]
    · rw [places, places, mem_singleton] at among
      exact ⟨Nat.le_of_eq among.symm, fun kept => Nat.lt_irrefl _ (among ▸ bounded x kept)⟩

variable (new : Extends P Q) (holds : Holds Q.toForest q shown) (fresh : ∀ x ∈ q :: shown.places, P.nodes.size ≤ x)
include new holds fresh

lemma node_append (x : NodeId) : (shown.roots.foldl (·.moveLast id) Q.toForest).node x =
      if x ∈ shown.roots then (Q.node x).under (some id)
      else if x = id then (Q.node id).holding (h.roots ++ shown.roots)
      else if x = q then (Q.node q).holding [] else Q.node x := by
  have still : Holds Q.toForest id h := own.toHolds.congr new.grows fun x among => new.same x (own.lt_size among)
  obtain ⟨outer, other⟩ := fresh_apart fresh own.inside
  have node := node_moveAll holds.children (fun x root => holds.stands.parent root)
    (fun root => holds.apart (shown.roots_sublist.subset root)) (shown.roots_sublist.nodup holds.nodup)
    (Ne.symm other) outer still.inside
  rw [still.children] at node
  exact node x

lemma append (free : ∀ x ∈ shown.places, ¬ Q.kept x) :
    Reworks P ⟨shown.roots.foldl (·.moveLast id) Q.toForest, Q.kept⟩ id h (h ++ shown) := by
  have older {x : NodeId} : x < P.nodes.size → x ∉ shown.roots ∧ x ≠ q := fresh_apart fresh
  have moved := own.node_append new holds fresh
  have stands : shown.Stands (shown.roots.foldl (·.moveLast id) Q.toForest) id := by
    refine holds.stands.adopt holds.nodup (fun x root => by rw [moved, if_pos root]) fun x among out => ?_
    have other : x ≠ id := by
      rintro rfl
      exact Nat.not_lt.mpr (fresh x (List.mem_cons_of_mem _ among)) own.inside
    have below : x ≠ q := by
      rintro rfl
      exact holds.apart among
    rw [moved, if_neg out, if_neg other, if_neg below]
  have alone : Owns P id (h ++ .nil ++ .nil) := by simpa using own
  have grown := alone.exchange (Q := ⟨shown.roots.foldl (·.moveLast id) Q.toForest, Q.kept⟩)
    ⟨by rw [size_moveAll]; exact new.grows, ?_, fun x old other _ => ?_, new.keeps, new.newly, stands,
      holds.nodup, fun x among => .inr (fresh x (mem_cons_of_mem _ among)), free⟩
  · simpa using grown
  · rw [moved, if_neg (older own.inside).1, if_pos rfl, new.same id own.inside, roots, List.append_nil]
  · rw [moved, if_neg (older old).1, if_neg other, if_neg (older old).2, new.same x old]

end Owns

/-! ## Taking out elements with a tag -/

lemma Owns.detached {front back kids : Hedge NodeId} {tag : String} {attrs : Assoc String}
    (own : Owns P p (front ++ .element id tag attrs kids back)) : Owns ⟨P.remove id, P.kept⟩ id kids := by
  have inner := own.inner
  have removed := node_remove own.elementUnder.parent own.ne
  refine ⟨⟨?_, ?_, inner.distinct, ?_⟩, inner.free, [], P.parent_remove_self id, nofun⟩
  · rw [removed, if_pos rfl, under_childList, inner.children]
  · refine inner.stands.congr fun x among => node_remove_of_ne _ ?_ ?_
    · rintro rfl
      exact inner.apart among
    · intro above
      cases own.elementUnder.parent.symm.trans above
      exact own.apart (mem_row_of_inner (mem_cons_of_mem _ among))
  · rw [size_remove]
    exact inner.inside

lemma Owns.removeAll_spoils (own : Owns P p h) {ids : List NodeId} (among : ∀ x ∈ ids, x ∈ h.places) :
    Spoils P ⟨P.removeAll ids, P.kept⟩ p h := by
  -- The parents of the nodes of the hedge stay among its own nodes, as nothing is put anywhere.
  suffices confined : ∀ f : Forest, f.nodes.size = P.nodes.size →
      (∀ x ∈ h.places, ∀ y, (f.node x).parent = some y → y ∈ p :: h.places) →
      (f.removeAll ids).nodes.size = P.nodes.size ∧
      (∀ x, x ∉ p :: h.places → (f.removeAll ids).node x = f.node x) ∧
      (f.removeAll ids).node p = (f.node p).holding ((f.removeAll ids).node p).childList by
    obtain ⟨size, frame, crown⟩ := confined P.toForest rfl fun x mem y => own.stands.parent_mem mem
    exact ⟨Nat.le_of_eq size.symm, fun x _ out => frame x out, crown, fun _ kept => kept, fun _ kept => Or.inl kept⟩
  induction ids with
  | nil => exact fun f size _ => ⟨size, fun _ _ => rfl, (holding_self _).symm⟩
  | cons id rest ih =>
    intro f size confined
    have mem : id ∈ h.places := among id mem_cons_self
    have other : p ≠ id := fun same => own.apart (same ▸ mem)
    have confined' : ∀ x ∈ h.places, ∀ y, ((f.remove id).node x).parent = some y → y ∈ p :: h.places := by
      intro x inside y parent
      by_cases itself : x = id
      · rw [itself, f.parent_remove_self id] at parent
        cases parent
      · rw [f.parent_remove, if_neg itself] at parent
        exact confined x inside y parent
    obtain ⟨size', frame, crown⟩ := ih (fun x later => among x (mem_cons_of_mem _ later)) (f.remove id)
      (by rw [size_remove, size]) confined'
    refine ⟨size', fun x out => ?_, ?_⟩
    · rw [Forest.removeAll, foldl_cons, ← Forest.removeAll, frame x out]
      refine f.node_remove_of_ne ?_ fun above => out (confined id mem x above)
      rintro rfl
      exact out (mem_cons_of_mem _ mem)
    · rw [Forest.removeAll, foldl_cons, ← Forest.removeAll, crown, f.node_remove_holding other]
      simp

lemma Owns.prune_row {front back : Hedge NodeId} (own : Owns P p (front ++ (h ++ back))) (tag : String) :
    Reworks P ⟨P.removeAll ((h.tagged tag).map Prod.fst), P.kept⟩ p (front ++ (h ++ back))
      (front ++ (h.prune tag ++ back)) := by
  induction h generalizing P p front back with
  | nil => exact Reworks.refl own
  | text place content rest ih =>
    have shift : ∀ more : Hedge NodeId, front ++ (.text place content more ++ back) =
        front ++ .text place content .nil ++ (more ++ back) := by
      intro more
      simp only [Hedge.append_assoc, text_append, Hedge.nil_append]
    rw [shift] at own
    rw [shift, Hedge.prune, shift]
    exact ih own
  | element place found attrs kids rest inner outer =>
    -- What lies in the element is dealt with by itself: it is a row without anything around it.
    have below : ∀ {P : Plot}, Owns P place kids →
        Reworks P ⟨P.removeAll ((kids.tagged tag).map Prod.fst), P.kept⟩ place kids (kids.prune tag) := by
      intro P own
      have alone : Owns P place (.nil ++ (kids ++ .nil)) := by simpa using own
      simpa using inner alone
    rw [element_append] at own ⊢
    by_cases same : found = tag
    · have removed := (own.remove (Spoils.refl _ _ _)).1
      have gone := removed.aside (below own.detached).toSpoils
        (fun x here => Or.inl (mem_row_of_inner here)) fun x here among => by
          rcases mem_cons.mp among with rfl | beside
          · exact own.apart (mem_row_of_inner here)
          · rw [places_append] at beside
            exact own.beside beside here
      simp only [tagged, prune, if_pos same, map_append, removeAll_append]
      exact gone.trans (outer gone.owns)
    · have pruned := own.rework_inner (below own.inner)
      have shift : ∀ more : Hedge NodeId, front ++ .element place found attrs (kids.prune tag) (more ++ back) =
          front ++ .element place found attrs (kids.prune tag) .nil ++ (more ++ back) := by
        intro more
        simp only [Hedge.append_assoc, element_append, Hedge.nil_append]
      rw [shift] at pruned
      simp only [Hedge.tagged, Hedge.prune, if_neg same, List.nil_append, map_append, removeAll_append,
        element_append, shift]
      exact pruned.trans (outer pruned.owns)

lemma Owns.prune (own : Owns P p h) (tag : String) :
    Reworks P ⟨P.removeAll ((h.tagged tag).map Prod.fst), P.kept⟩ p h (h.prune tag) := by
  have alone : Owns P p (.nil ++ (h ++ .nil)) := by simpa using own
  simpa using alone.prune_row tag

end TagScript.Markup
