import TagScript.Proofs.Value.Region

/-!
# Containers that are set aside

Work on other values leaves templates as they are. What is built or copied is made of new containers
that refer to each other alone, so it may be worked on or set aside in turn.
-/

namespace TagScript

open List

variable {aside : Ref → Prop} {s t u : Store} {v : Value}

lemma Value.Within.imp {P P' : Ref → Prop} (within : v.Within P) (implied : ∀ r, P r → P' r) : v.Within P' :=
  fun r link => implied r (within r link)

namespace Store

/-! ## New containers -/

/-- A container that has been added. -/
def New (s t : Store) (r : Ref) : Prop :=
  s.cells.size ≤ r ∧ r < t.cells.size

/-- Containers have been added that refer to each other alone. -/
structure Grown (s t : Store) : Prop where
  grows : s.cells.size ≤ t.cells.size
  kept : ∀ r, r < s.cells.size → t.cell r = s.cell r
  new : ∀ r, s.cells.size ≤ r → ∀ v ∈ (t.cell r).values, v.Within (s.New t)

lemma values_of_size_le {r : Ref} (beyond : s.cells.size ≤ r) : (s.cell r).values = [] := by
  simp [cell, Array.getD, not_lt.mpr beyond, Cell.values]

lemma New.later {r : Ref} (new : s.New t r) (grows : t.cells.size ≤ u.cells.size) : s.New u r :=
  ⟨new.1, lt_of_lt_of_le new.2 grows⟩

lemma Grown.push (grown : s.Grown t) {c : Cell} (within : ∀ v ∈ c.values, v.Within (s.New t)) :
    s.Grown { t with cells := t.cells.push c } ∧ s.New { t with cells := t.cells.push c } t.cells.size := by
  have size : ({ t with cells := t.cells.push c } : Store).cells.size = t.cells.size + 1 := Array.size_push ..
  have larger : ∀ {v : Value}, v.Within (s.New t) → v.Within (s.New { t with cells := t.cells.push c }) :=
    fun within => within.imp fun r new => new.later (by rw [size]; exact Nat.le_succ _)
  refine ⟨⟨?_, ?_, ?_⟩, ?_⟩
  · rw [size]
    exact Nat.le_succ_of_le grown.grows
  · intro r old
    have other : r ≠ t.cells.size := ne_of_lt (lt_of_lt_of_le old grown.grows)
    rw [cell_push, if_neg other, grown.kept r old]
  · intro r beyond v mem
    rw [cell_push] at mem
    split at mem
    · exact larger (within v mem)
    · exact larger (grown.new r beyond v mem)
  · exact ⟨grown.grows, by rw [size]; exact Nat.lt_succ_self _⟩

lemma Grown.territory (s : Store) : Territory s.Grown s.New where
  later grows new := new.later grows
  contents grown held := grown.new _ held.1
  push grown within := grown.push within
  mark _ grown := ⟨grown.grows, grown.kept, grown.new⟩

/-! ## What is built -/

section

variable {D : Store → Prop} {P : Store → Ref → Prop} {place : Nat → Ref} (territory : Territory D P)
include territory

mutual

lemma Territory.buildAt {t : Store} (kind : D t) :
    ∀ d : Datum, (∀ mark ∈ d.stampMarks, P t (place mark)) →
      D (t.buildAt place d).2 ∧ t.cells.size ≤ (t.buildAt place d).2.cells.size ∧
        (t.buildAt place d).1.Within (P (t.buildAt place d).2)
  | .none, _ | .bool _, _ | .int _, _ | .str _, _ | .error _, _ => ⟨kind, le_refl _, Value.within_of_leaf rfl⟩
  | .num n, _ => by
    unfold Store.buildAt
    split
    · exact ⟨territory.discipline.number _ kind, size_number t _, Value.within_of_leaf (ref?_number t _)⟩
    · exact ⟨kind, le_refl _, Value.within_of_leaf rfl⟩
  | .func _ _ _, _ => by
    obtain ⟨kept, new⟩ := territory.push (c := .hollow) kind (forall_mem_nil _)
    refine ⟨kept, ?_, within_of_ref rfl new⟩
    show t.cells.size ≤ (t.cells.push .hollow).size
    simp
  | .stamp t mark, placed => ⟨kind, le_refl _, within_of_ref rfl (placed mark mem_cons_self)⟩
  | .seq items, placed => by
    rw [Datum.stampMarks_seq] at placed
    obtain ⟨kept, grows, within⟩ := Territory.buildItemsAt kind items placed
    obtain ⟨made, new⟩ := territory.discipline.newSeq kept within
    exact ⟨made, le_trans grows (size_newSeq _ _), new⟩
  | .map entries, placed => by
    rw [Datum.stampMarks_map] at placed
    obtain ⟨kept, grows, within⟩ := Territory.buildEntriesAt kind entries placed
    obtain ⟨made, new⟩ := territory.discipline.newMap kept within
    exact ⟨made, le_trans grows (size_newMap _ _), new⟩

lemma Territory.buildItemsAt {t : Store} (kind : D t) :
    ∀ ds : List Datum, (∀ mark ∈ ds.flatMap Datum.stampMarks, P t (place mark)) →
      D (t.buildItemsAt place ds).2 ∧ t.cells.size ≤ (t.buildItemsAt place ds).2.cells.size ∧
        ∀ v ∈ (t.buildItemsAt place ds).1, v.Within (P (t.buildItemsAt place ds).2)
  | [], _ => ⟨kind, le_refl _, forall_mem_nil _⟩
  | d :: rest, placed => by
    rw [flatMap_cons, forall_mem_append] at placed
    obtain ⟨first, grows, within⟩ := Territory.buildAt kind d placed.1
    obtain ⟨others, further, inside⟩ :=
      Territory.buildItemsAt first rest fun mark mem => territory.later grows (placed.2 mark mem)
    exact ⟨others, le_trans grows further, forall_mem_cons.mpr ⟨territory.discipline.later further within, inside⟩⟩

lemma Territory.buildEntriesAt {t : Store} (kind : D t) :
    ∀ ds : List (String × Datum), (∀ mark ∈ ds.flatMap fun entry => entry.2.stampMarks, P t (place mark)) →
      D (t.buildEntriesAt place ds).2 ∧ t.cells.size ≤ (t.buildEntriesAt place ds).2.cells.size ∧
        ∀ entry ∈ (t.buildEntriesAt place ds).1, entry.2.Within (P (t.buildEntriesAt place ds).2)
  | [], _ => ⟨kind, le_refl _, forall_mem_nil _⟩
  | (name, d) :: rest, placed => by
    rw [flatMap_cons, forall_mem_append] at placed
    obtain ⟨first, grows, within⟩ := Territory.buildAt kind d placed.1
    obtain ⟨others, further, inside⟩ :=
      Territory.buildEntriesAt first rest fun mark mem => territory.later grows (placed.2 mark mem)
    exact ⟨others, le_trans grows further, forall_mem_cons.mpr ⟨territory.discipline.later further within, inside⟩⟩

end

end

lemma grown_allocMarks (s : Store) (marks : List Nat) :
    s.Grown (s.allocMarks marks).2 ∧ ∀ mark ∈ marks, s.New (s.allocMarks marks).2 ((s.allocMarks marks).1 mark) := by
  have size : (s.allocMarks marks).2.cells.size = s.cells.size + marks.length := by
    simp [allocMarks]
  refine ⟨⟨?_, ?_, ?_⟩, ?_⟩
  · rw [size]
    exact Nat.le_add_right _ _
  · intro r old
    rw [allocMarks, cell_append, if_pos old]
  · intro r beyond v mem
    rw [allocMarks, cell_append, if_neg (not_lt.mpr beyond), getElem?_map] at mem
    cases found : marks[r - s.cells.size]? with
    | none | some =>
      rw [found] at mem
      cases mem
  · intro mark mem
    have placed : (s.allocMarks marks).1 mark = s.cells.size + (marks.findIdx? (· == mark)).getD 0 := rfl
    rw [New, size, placed]
    cases found : marks.findIdx? (· == mark) with
    | none =>
      have absent := findIdx?_eq_none_iff.mp found mark mem
      simp at absent
    | some i =>
      obtain ⟨bound, _⟩ := findIdx?_eq_some_iff_findIdx_eq.mp found
      exact ⟨Nat.le_add_right _ _, Nat.add_lt_add_left bound _⟩

lemma grown_build (s : Store) (d : Datum) : s.Grown (s.build d).2 ∧ (s.build d).1.Within (s.New (s.build d).2) := by
  obtain ⟨grown, placed⟩ := s.grown_allocMarks d.stampMarks.eraseDups
  obtain ⟨kept, _, within⟩ := (Grown.territory s).buildAt grown d fun mark mem =>
    placed mark (mem_eraseDups.mpr mem)
  exact ⟨kept, within⟩

/-! ## Copies -/

/-- Entries in one store are a copy of those in another: they have the same names in the same order,
and each container that can be reached has one that is new in its place, with what it holds moved
likewise. -/
structure Relocation (s : Store) (entries : Assoc Value) (t : Store) (copies : Assoc Value) (move : Ref → Ref) :
    Prop where
  names : copies = entries.map fun entry => (entry.1, entry.2.mapRef move)
  cells : ∀ r ∈ s.reachable (entries.map Prod.snd), t.cell (move r) = (s.cell r).mapRefs move
  new : ∀ r ∈ s.reachable (entries.map Prod.snd), s.New t (move r)
  injective : ∀ r ∈ s.reachable (entries.map Prod.snd), ∀ q ∈ s.reachable (entries.map Prod.snd),
    move r = move q → r = q

lemma exists_renamed {copied : List Ref} {base : Nat} {r : Ref} (mem : r ∈ copied) :
    ∃ i, renamed copied base r = base + i ∧ copied[i]? = some r := by
  unfold renamed
  cases found : copied.findIdx? (· == r) with
  | none =>
    have absent := findIdx?_eq_none_iff.mp found r mem
    simp at absent
  | some i =>
    obtain ⟨bound, here, _⟩ := findIdx?_eq_some_iff_getElem.mp found
    have same : copied[i] = r := by simpa using here
    exact ⟨i, rfl, by rw [getElem?_eq_getElem bound, same]⟩

lemma relocation_copyEntries (s : Store) (entries : Assoc Value) :
    s.Relocation entries (s.copyEntries entries).2 (s.copyEntries entries).1
      (renamed (s.reachable (entries.map Prod.snd)) s.cells.size) := by
  have bound : ∀ {i : Nat} {r : Ref}, (s.reachable (entries.map Prod.snd))[i]? = some r →
      i < (s.reachable (entries.map Prod.snd)).length := fun found => (List.getElem?_eq_some_iff.mp found).1
  refine ⟨rfl, ?_, ?_, ?_⟩
  · intro r mem
    obtain ⟨i, place, found⟩ := @exists_renamed _ s.cells.size r mem
    rw [place, copyEntries, cell_append, if_neg (Nat.not_lt.mpr (Nat.le_add_right _ _)), Nat.add_sub_cancel_left,
      getElem?_map, found]
    rfl
  · intro r mem
    obtain ⟨i, place, found⟩ := @exists_renamed _ s.cells.size r mem
    rw [place]
    refine ⟨Nat.le_add_right _ _, ?_⟩
    simp [copyEntries, bound found]
  · intro r here q there same
    obtain ⟨i, place, found⟩ := @exists_renamed _ s.cells.size r here
    obtain ⟨j, place', found'⟩ := @exists_renamed _ s.cells.size q there
    rw [place, place'] at same
    obtain rfl := Nat.add_left_cancel same
    rw [found] at found'
    exact Option.some.inj found'

lemma grown_copyEntries (s : Store) (entries : Assoc Value) :
    s.Grown (s.copyEntries entries).2 ∧
      ∀ entry ∈ (s.copyEntries entries).1, entry.2.Within (s.New (s.copyEntries entries).2) := by
  have relocation := s.relocation_copyEntries entries
  refine ⟨⟨?_, ?_, ?_⟩, ?_⟩
  · simp [copyEntries]
  · intro r old
    rw [copyEntries, cell_append, if_pos old]
  · intro r beyond v mem
    rw [copyEntries, cell_append, if_neg (not_lt.mpr beyond), getElem?_map] at mem
    cases copied : (s.reachable (entries.map Prod.snd))[r - s.cells.size]? with
    | none =>
      rw [copied] at mem
      cases mem
    | some q =>
      rw [copied, Option.map_some, Option.getD_some, values_mapRefs] at mem
      obtain ⟨w, among, rfl⟩ := mem_map.mp mem
      refine within_mapRef fun x link => relocation.new x (reachable_closed (mem_of_getElem? copied) ?_)
      exact mem_filterMap.mpr ⟨w, among, link⟩
  · intro entry mem
    obtain ⟨source, among, rfl⟩ := mem_map.mp mem
    exact within_mapRef fun r link => relocation.new r (mem_reachable (mem_map_of_mem among) link)

section

variable {P K : Ref → Prop} {old : Store}

lemma Region.grown (region : Region P K old s) (grown : s.Grown t) (marks : s.nextMark ≤ t.nextMark) :
    Region P K old t where
  fresh r beyond := region.fresh r (le_trans grown.grows beyond)
  closed r inside v mem := by
    by_cases older : r < s.cells.size
    · rw [grown.kept r older] at mem
      exact region.closed r inside v mem
    · exact (grown.new r (not_lt.mp older) v mem).imp fun q new => region.fresh q new.1
  kept r held := by
    obtain ⟨there, same⟩ := region.kept r held
    exact ⟨lt_of_lt_of_le there grown.grows, (grown.kept r there).trans same⟩
  marks := le_trans region.marks marks

lemma Region.copyEntries (region : Region P K old s) (entries : Assoc Value) :
    Region P K old (s.copyEntries entries).2 ∧ ∀ entry ∈ (s.copyEntries entries).1, entry.2.Within P := by
  obtain ⟨grown, new⟩ := s.grown_copyEntries entries
  exact ⟨region.grown grown (le_refl _), fun entry mem => (new entry mem).imp fun q new => region.fresh q new.1⟩

end

/-! ## Containers at work and containers set aside -/

def Loose (aside : Ref → Prop) (s : Store) (v : Value) : Prop :=
  v.Within fun r => r < s.cells.size ∧ ¬ aside r

/-- Containers are set aside. -/
structure Parted (aside : Ref → Prop) (s : Store) : Prop where
  there : ∀ r, aside r → r < s.cells.size
  kept : ∀ r, aside r → ∀ v ∈ (s.cell r).values, v.Within aside
  loose : ∀ r, ¬ aside r → ∀ v ∈ (s.cell r).values, s.Loose aside v

/-- Work that leads from one store to another and leaves the containers that are set aside alone. -/
structure Beside (aside : Ref → Prop) (s t : Store) : Prop where
  parted : t.Parted aside
  grows : s.cells.size ≤ t.cells.size
  same : ∀ r, aside r → t.cell r = s.cell r

lemma Loose.later (loose : s.Loose aside v) (grows : s.cells.size ≤ t.cells.size) : t.Loose aside v :=
  loose.imp fun _ here => ⟨lt_of_lt_of_le here.1 grows, here.2⟩

lemma Parted.beside (parted : s.Parted aside) : s.Beside aside s :=
  ⟨parted, le_refl _, fun _ _ => rfl⟩

lemma Grown.parted (grown : s.Grown t) (parted : s.Parted aside) {more : Ref → Prop}
    (old : ∀ r, r < s.cells.size → (more r ↔ aside r)) (new : (∀ r, s.New t r → more r) ∨ ∀ r, s.New t r → ¬ more r)
    (there : ∀ r, more r → r < t.cells.size) : t.Parted more where
  there := there
  kept r set v member := by
    by_cases before : r < s.cells.size
    · rw [grown.kept r before] at member
      refine (parted.kept r ((old r before).mp set) v member).imp fun q held => ?_
      exact (old q (parted.there q held)).mpr held
    · have fresh := grown.new r (Nat.le_of_not_lt before) v member
      rcases new with all | none
      · exact fresh.imp all
      · exact absurd set (none r ⟨Nat.le_of_not_lt before, there r set⟩)
  loose r free v member := by
    by_cases before : r < s.cells.size
    · rw [grown.kept r before] at member
      refine (parted.loose r (fun set => free ((old r before).mpr set)) v member).imp fun q held => ?_
      exact ⟨lt_of_lt_of_le held.1 grown.grows, fun set => held.2 ((old q held.1).mp set)⟩
    · have fresh := grown.new r (Nat.le_of_not_lt before) v member
      rcases new with all | none
      · refine fresh.imp fun q new => ?_
        by_cases inside : r < t.cells.size
        · exact absurd (all r ⟨Nat.le_of_not_lt before, inside⟩) free
        · rw [values_of_size_le (Nat.le_of_not_lt inside)] at member
          cases member
      · exact fresh.imp fun q new => ⟨new.2, none q new⟩

section

variable (parted : s.Parted aside) (grown : s.Grown t)
include parted grown

omit grown in
lemma Parted.not_aside {r : Ref} (beyond : s.cells.size ≤ r) : ¬ aside r :=
  fun set => not_lt.mpr beyond (parted.there r set)

lemma Grown.beside : s.Beside aside t where
  parted := grown.parted parted (fun _ _ => Iff.rfl) (.inr fun _ new => parted.not_aside new.1)
    fun r set => lt_of_lt_of_le (parted.there r set) grown.grows
  grows := grown.grows
  same r set := grown.kept r (parted.there r set)

omit grown in
lemma Parted.loose_new (within : v.Within (s.New t)) : t.Loose aside v :=
  within.imp fun _ new => ⟨new.2, parted.not_aside new.1⟩

lemma Grown.parted_aside : t.Parted fun r => aside r ∨ s.New t r := by
  refine grown.parted parted ?_ (.inl fun _ => .inr) ?_
  · intro r before
    exact or_iff_left fun new => not_lt.mpr new.1 before
  · rintro r (set | new)
    · exact lt_of_lt_of_le (parted.there r set) grown.grows
    · exact new.2

end

lemma Beside.push (beside : s.Beside aside t) {c : Cell} (loose : ∀ v ∈ c.values, t.Loose aside v) :
    s.Beside aside { t with cells := t.cells.push c } ∧
      t.cells.size < ({ t with cells := t.cells.push c } : Store).cells.size ∧ ¬ aside t.cells.size := by
  have size : ({ t with cells := t.cells.push c } : Store).cells.size = t.cells.size + 1 := Array.size_push ..
  have larger : t.cells.size ≤ ({ t with cells := t.cells.push c } : Store).cells.size := by
    rw [size]
    exact Nat.le_succ _
  have old : ∀ r, aside r → ({ t with cells := t.cells.push c } : Store).cell r = t.cell r := by
    intro r set
    rw [cell_push, if_neg (ne_of_lt (beside.parted.there r set))]
  refine ⟨⟨⟨?_, ?_, ?_⟩, le_trans beside.grows larger, ?_⟩, ?_, beside.parted.not_aside (le_refl _)⟩
  · exact fun r set => lt_of_lt_of_le (beside.parted.there r set) larger
  · intro r set
    rw [old r set]
    exact beside.parted.kept r set
  · intro r free v mem
    rw [cell_push] at mem
    split at mem
    · exact (loose v mem).later larger
    · exact (beside.parted.loose r free v mem).later larger
  · exact fun r set => (old r set).trans (beside.same r set)
  · rw [size]
    exact Nat.lt_succ_self _

lemma Beside.territory (aside : Ref → Prop) (s : Store) :
    Territory (s.Beside aside) fun t r => r < t.cells.size ∧ ¬ aside r where
  later grows := And.imp_left fun here => lt_of_lt_of_le here grows
  contents beside held := beside.parted.loose _ held.2
  push beside loose := beside.push loose
  mark _ beside := ⟨⟨beside.parted.there, beside.parted.kept, beside.parted.loose⟩, beside.grows, beside.same⟩

lemma Beside.write (beside : s.Beside aside t) {r : Ref} {c : Cell} (held : t.Loose aside v)
    (link : v.ref? = some r) (contents : ∀ u ∈ c.values, t.Loose aside u) : s.Beside aside (t.write r c) := by
  have size : (t.write r c).cells.size = t.cells.size := Array.size_setIfInBounds
  have other : ∀ q, aside q → (t.write r c).cell q = t.cell q := by
    intro q set
    rw [cell_write, if_neg]
    rintro ⟨rfl, _⟩
    exact (held q link).2 set
  refine ⟨⟨?_, ?_, ?_⟩, ?_, ?_⟩
  · rw [size]
    exact beside.parted.there
  · intro q set
    rw [other q set]
    exact beside.parted.kept q set
  · intro q free u mem
    rw [cell_write] at mem
    split at mem
    · exact (contents u mem).later (le_of_eq size.symm)
    · exact (beside.parted.loose q free u mem).later (le_of_eq size.symm)
  · rw [size]
    exact beside.grows
  · exact fun q set => (other q set).trans (beside.same q set)

end Store

end TagScript
