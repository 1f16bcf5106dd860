import TagScript.Proofs.Value.Finite

/-!
# Entries that are the same in two stores

Entries are the same, down to which containers are one, if the containers that the ones lead to can
be moved to those that the others lead to.
-/

namespace TagScript

lemma Value.ref?_mapRef (v : Value) (move : Ref → Ref) : (v.mapRef move).ref? = v.ref?.map move := by
  cases v <;> rfl

namespace Store

variable {s t u : Store} {entries copies : Assoc Value} {P : Ref → Prop}

/-- References do not lead out of a set. -/
def Encloses (s : Store) (P : Ref → Prop) : Prop :=
  ∀ r, P r → ∀ v ∈ (s.cell r).values, v.Within P

lemma Encloses.of_leads (encloses : s.Encloses P) {v : Value} (within : v.Within P) {r : Ref} (leads : s.Leads v r) : P r := by
  obtain ⟨q, link, way⟩ := leads
  induction way with
  | refl => exact within q link
  | tail _ linked ih =>
    obtain ⟨u, mem, link⟩ := exists_of_links linked
    exact encloses _ ih u mem _ link

lemma Encloses.leads (encloses : s.Encloses P) (same : ∀ r, P r → t.cell r = s.cell r) {v : Value} (within : v.Within P) {r : Ref}
    (leads : t.Leads v r) : s.Leads v r := by
  obtain ⟨q, link, way⟩ := leads
  refine ⟨q, link, ?_⟩
  induction way with
  | refl => exact .refl
  | tail _ linked ih =>
    refine ih.tail ?_
    rw [Links, ← same _ (encloses.of_leads within ⟨q, link, ih⟩)]
    exact linked

/-- What some entries lead to has been moved to what others lead to. -/
structure Moved (s : Store) (entries : Assoc Value) (t : Store) (copies : Assoc Value) (move : Ref → Ref) : Prop where
  names : copies = entries.map fun entry => (entry.1, entry.2.mapRef move)
  cells : ∀ entry ∈ entries, ∀ r, s.Leads entry.2 r → t.cell (move r) = (s.cell r).mapRefs move
  injective : ∀ first ∈ entries, ∀ second ∈ entries, ∀ r q, s.Leads first.2 r → s.Leads second.2 q →
    move r = move q → r = q

/-- Entries in two stores are the same: they have the same names in the same order and stand for the
same values, and what is one container in the ones is one in the others. -/
def Replica (s : Store) (entries : Assoc Value) (t : Store) (copies : Assoc Value) : Prop :=
  ∃ move, Moved s entries t copies move

lemma mem_reachable_of_leads {entry : String × Value} (mem : entry ∈ entries) {r : Ref} (leads : s.Leads entry.2 r) :
    r ∈ s.reachable (entries.map Prod.snd) := by
  obtain ⟨q, link, way⟩ := leads
  induction way with
  | refl => exact mem_reachable (List.mem_map_of_mem mem) link
  | tail _ linked ih => exact reachable_closed ih linked

lemma replica_copyEntries (s : Store) (entries : Assoc Value) :
    s.Replica entries (s.copyEntries entries).2 (s.copyEntries entries).1 := by
  have relocation := s.relocation_copyEntries entries
  refine ⟨_, relocation.names, fun entry mem r leads => ?_, fun first mem second member' r q leads leads' => ?_⟩
  · exact relocation.cells r (mem_reachable_of_leads mem leads)
  · exact relocation.injective r (mem_reachable_of_leads mem leads) q (mem_reachable_of_leads member' leads')

lemma Replica.later (replica : s.Replica entries t copies) (within : ∀ entry ∈ copies, entry.2.Within P)
    (encloses : t.Encloses P) (same : ∀ r, P r → u.cell r = t.cell r) : s.Replica entries u copies := by
  obtain ⟨move, moved⟩ := replica
  have reached : ∀ entry ∈ entries, ∀ r, s.Leads entry.2 r → P (move r) := by
    rintro entry mem r ⟨q, link, way⟩
    induction way with
    | refl =>
      have copied : (entry.1, entry.2.mapRef move) ∈ copies := moved.names ▸ List.mem_map_of_mem mem
      refine within _ copied (move q) ?_
      rw [Value.ref?_mapRef, link]
      rfl
    | tail before linked ih =>
      obtain ⟨v, among, link'⟩ := exists_of_links linked
      refine encloses _ ih (v.mapRef move) ?_ _ ?_
      · rw [moved.cells entry mem _ ⟨q, link, before⟩, values_mapRefs]
        exact List.mem_map_of_mem among
      · rw [Value.ref?_mapRef, link']
        rfl
  refine ⟨move, moved.names, fun entry mem r leads => ?_, moved.injective⟩
  rw [same _ (reached entry mem r leads), moved.cells entry mem r leads]

lemma Replica.of_source (replica : s.Replica entries t copies) (within : ∀ entry ∈ entries, entry.2.Within P)
    (encloses : s.Encloses P) (same : ∀ r, P r → u.cell r = s.cell r) : u.Replica entries t copies := by
  obtain ⟨move, moved⟩ := replica
  have leads : ∀ entry ∈ entries, ∀ r, u.Leads entry.2 r → s.Leads entry.2 r :=
    fun entry mem r leads => encloses.leads same (within entry mem) leads
  refine ⟨move, moved.names, fun entry mem r leads' => ?_, fun first mem second member' r q leads' leads'' => ?_⟩
  · have before := leads entry mem r leads'
    rw [moved.cells entry mem r before, same r (encloses.of_leads (within entry mem) before)]
  · exact moved.injective first mem second member' r q (leads first mem r leads') (leads second member' q leads'')

end Store

end TagScript
