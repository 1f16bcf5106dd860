import TagScript.Environment
import TagScript.Proofs.Value.Reach

/-!
# Regions of a store

A region is a set of containers, all new ones among them, that references do not lead out of.
Whoever holds only values of the region finds and makes only such values, and changes no container
outside.
-/

namespace TagScript

variable {P K : Ref → Prop} {old s : Store} {v : Value} {r : Ref}

/-- A value without a reference, or with one into the region. -/
def Value.Within (P : Ref → Prop) (v : Value) : Prop :=
  ∀ r, v.ref? = some r → P r

lemma Value.within_of_leaf (leaf : v.ref? = Option.none) : v.Within P := by
  intro r link
  rw [leaf] at link
  cases link

def Environment.Within (P : Ref → Prop) (env : Environment) : Prop :=
  ∀ name v, env.get? name = some v → v.Within P

namespace Store

/-- References lead out of no container of the region, and new containers belong to it. The
containers that are to be kept are there and are as they were, and no mark is given out twice. -/
structure Region (P K : Ref → Prop) (old s : Store) : Prop where
  fresh : ∀ r, s.cells.size ≤ r → P r
  closed : ∀ r, P r → ∀ v ∈ (s.cell r).values, v.Within P
  kept : ∀ r, K r → r < s.cells.size ∧ s.cell r = old.cell r
  marks : old.nextMark ≤ s.nextMark

lemma cell_push (s : Store) (c : Cell) (r : Ref) :
    Store.cell { s with cells := s.cells.push c } r = if r = s.cells.size then c else s.cell r := by
  simp only [cell, Array.getD_eq_getD_getElem?, Array.getElem?_push]
  split <;> rfl

lemma cell_write (s : Store) (q : Ref) (c : Cell) (r : Ref) :
    (s.write q c).cell r = if r = q ∧ r < s.cells.size then c else s.cell r := by
  simp only [cell, write, Array.getD_eq_getD_getElem?, Array.getElem?_setIfInBounds]
  by_cases same : q = r
  · subst same
    by_cases inside : q < s.cells.size <;> simp [inside]
  · simp [same, Ne.symm same]

lemma cell_append (s : Store) (cs : List Cell) (mark : Nat) (r : Ref) :
    Store.cell { cells := s.cells ++ cs.toArray, nextMark := mark } r =
      if r < s.cells.size then s.cell r else (cs[r - s.cells.size]?).getD (.seq []) := by
  simp only [cell, Array.getD_eq_getD_getElem?, Array.getElem?_append, List.getElem?_toArray]
  split <;> rfl

lemma mem_values_of_items (mem : v ∈ s.items r) : v ∈ (s.cell r).values := by
  unfold items at mem
  split at mem
  · rename_i items found
    rwa [found]
  · cases mem

lemma mem_values_of_entries {entry : String × Value} (mem : entry ∈ s.entries r) : entry.2 ∈ (s.cell r).values := by
  unfold entries at mem
  split at mem
  · rename_i entries found
    rw [found]
    exact List.mem_map_of_mem mem
  · cases mem

lemma Region.whole (s : Store) : Region (fun _ => True) (· < s.cells.size) s s where
  fresh _ _ := trivial
  closed _ _ _ _ _ _ := trivial
  kept _ bound := ⟨bound, rfl⟩
  marks := Nat.le_refl _

namespace Region

variable (region : Region P K old s)
include region

lemma push {c : Cell} (within : ∀ v ∈ c.values, v.Within P) :
    Region P K old { s with cells := s.cells.push c } where
  fresh r beyond := by
    rw [Array.size_push] at beyond
    exact region.fresh r (Nat.le_of_succ_le beyond)
  closed r inside v member := by
    have found := s.cell_push c r
    unfold cell at found member
    rw [found] at member
    split at member
    · exact within v member
    · exact region.closed r inside v member
  kept r held := by
    obtain ⟨there, same⟩ := region.kept r held
    have found := s.cell_push c r
    unfold cell at found same ⊢
    rw [found, if_neg (Nat.ne_of_lt there), Array.size_push]
    exact ⟨Nat.lt_succ_of_lt there, same⟩
  marks := region.marks

lemma write {q : Ref} (free : ¬ K q) {c : Cell} (within : ∀ v ∈ c.values, v.Within P) :
    Region P K old (s.write q c) where
  fresh r beyond := by
    rw [Store.write, Array.size_setIfInBounds] at beyond
    exact region.fresh r beyond
  closed r among v member := by
    rw [cell_write] at member
    split at member
    · exact within v member
    · exact region.closed r among v member
  kept r held := by
    have other : ¬(r = q ∧ r < s.cells.size) := fun same => free (same.1 ▸ held)
    rw [cell_write, if_neg other, Store.write, Array.size_setIfInBounds]
    exact region.kept r held
  marks := region.marks

end Region

/-- A kind of stores, and a kind of values in them that containers and new values keep to: the
contents of a container are of the kind if the container is, and what is made of such values is of
the kind too. -/
structure Discipline (D : Store → Prop) (W : Store → Value → Prop) : Prop where
  leaf : ∀ {s : Store} {v : Value}, v.ref? = Option.none → W s v
  later : ∀ {s t : Store} {v : Value}, s.cells.size ≤ t.cells.size → W s v → W t v
  items : ∀ {s : Store} {r : Ref}, D s → W s (.seq r) → ∀ v ∈ s.items r, W s v
  entries : ∀ {s : Store} {r : Ref}, D s → W s (.map r) → ∀ entry ∈ s.entries r, W s entry.2
  newSeq : ∀ {s : Store} {items : List Value}, D s → (∀ v ∈ items, W s v) →
    D (s.newSeq items).2 ∧ W (s.newSeq items).2 (s.newSeq items).1
  newMap : ∀ {s : Store} {entries : Assoc Value}, D s → (∀ entry ∈ entries, W s entry.2) →
    D (s.newMap entries).2 ∧ W (s.newMap entries).2 (s.newMap entries).1
  number : ∀ {s : Store} (x : Float), D s → D (s.number x).2

lemma size_newSeq (s : Store) (items : List Value) : s.cells.size ≤ (s.newSeq items).2.cells.size := by
  simp [Store.newSeq, Store.alloc]

lemma size_newMap (s : Store) (entries : Assoc Value) : s.cells.size ≤ (s.newMap entries).2.cells.size := by
  simp [Store.newMap, Store.alloc]

lemma size_number (s : Store) (x : Float) : s.cells.size ≤ (s.number x).2.cells.size := by
  unfold Store.number
  split <;> exact Nat.le_refl _

lemma ref?_number (s : Store) (x : Float) : (s.number x).1.ref? = Option.none := by
  unfold Store.number
  split <;> rfl

/-- A kind of stores, and the containers in them that values may refer to: what these hold refers to
such containers too, and every new container is one. -/
structure Territory (D : Store → Prop) (P : Store → Ref → Prop) : Prop where
  later : ∀ {s t : Store} {r : Ref}, s.cells.size ≤ t.cells.size → P s r → P t r
  contents : ∀ {s : Store} {r : Ref}, D s → P s r → ∀ v ∈ (s.cell r).values, v.Within (P s)
  push : ∀ {s : Store} {c : Cell}, D s → (∀ v ∈ c.values, v.Within (P s)) →
    D { s with cells := s.cells.push c } ∧ P { s with cells := s.cells.push c } s.cells.size
  mark : ∀ {s : Store} {mark : Nat}, s.nextMark ≤ mark → D s → D { s with nextMark := mark }

lemma within_of_ref (link : v.ref? = some r) (here : P r) : v.Within P := by
  intro q other
  rw [link] at other
  cases other
  exact here

lemma Territory.discipline {D : Store → Prop} {P : Store → Ref → Prop} (territory : Territory D P) :
    Discipline D fun s v => v.Within (P s) where
  leaf := Value.within_of_leaf
  later grows within r link := territory.later grows (within r link)
  items kind held v member := territory.contents kind (held _ rfl) v (mem_values_of_items member)
  entries kind held entry member := territory.contents kind (held _ rfl) entry.2 (mem_values_of_entries member)
  newSeq {t items} kind within := by
    obtain ⟨kept, new⟩ := territory.push (c := .seq items) kind within
    exact ⟨kept, within_of_ref rfl new⟩
  newMap {t entries} kind within := by
    obtain ⟨kept, new⟩ := territory.push (c := .map entries) kind (List.forall_mem_map.mpr within)
    exact ⟨kept, within_of_ref rfl new⟩
  number {t} x kind := by
    unfold Store.number
    split
    · exact territory.mark (Nat.le_succ _) kind
    · exact kind

lemma Region.territory : Territory (Region P K old) fun _ r => P r where
  later _ inside := inside
  contents region := region.closed _
  push region within := ⟨region.push within, region.fresh _ (Nat.le_refl _)⟩
  mark later region := { region with marks := Nat.le_trans region.marks later }

/-! ## Copies -/

lemma within_mapRef {f : Ref → Ref} (leads : ∀ r, v.ref? = some r → P (f r)) : (v.mapRef f).Within P := by
  intro r link
  cases v with
  | seq q | map q | func _ _ q | stamp _ q => cases link; exact leads q rfl
  | _ => cases link

lemma values_mapRefs (c : Cell) (f : Ref → Ref) : (c.mapRefs f).values = c.values.map (Value.mapRef f) := by
  cases c with
  | seq items => rfl
  | map entries => simp [Cell.mapRefs, Cell.values, Function.comp_def]
  | hollow => rfl

end Store

end TagScript
