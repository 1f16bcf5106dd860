import TagScript.Proofs.Value.Depth

/-!
# Values that are trees

A value that is built of numbers, texts and truth values stands for a datum, and goes on doing so
while containers are only added.
-/

namespace TagScript

open List Datum

lemma forall₂_entries {α β : Type} {R : α → β → Prop} {as : List (String × α)} {bs : List (String × β)} :
    Forall₂ (fun a b => a.1 = b.1 ∧ R a.2 b.2) as bs ↔
      as.map Prod.fst = bs.map Prod.fst ∧ Forall₂ R (as.map Prod.snd) (bs.map Prod.snd) := by
  induction as generalizing bs with
  | nil => cases bs <;> simp
  | cons a as ih =>
    cases bs with
    | nil => simp
    | cons b bs =>
      simp only [forall₂_cons, ih, map_cons, List.cons.injEq]
      tauto

namespace Store

/-! ## Containers that are only added to -/

/-- The containers of a store are kept as they are, and no mark is given out twice. -/
structure Keeps (before after : Store) : Prop where
  cells : ∀ {r : Ref} {c : Cell}, before.cells[r]? = some c → after.cells[r]? = some c
  marks : before.nextMark ≤ after.nextMark

namespace Keeps

variable {first second third : Store}

lemma refl (s : Store) : Keeps s s := ⟨id, le_refl _⟩

lemma trans (one : Keeps first second) (other : Keeps second third) : Keeps first third :=
  ⟨fun here => other.cells (one.cells here), le_trans one.marks other.marks⟩

lemma push (s : Store) (c : Cell) : Keeps s { s with cells := s.cells.push c } := by
  refine ⟨fun {r d} here => ?_, le_refl _⟩
  rw [Array.getElem?_push]
  split
  · rename_i last
    subst last
    rw [Array.getElem?_size] at here
    cases here
  · exact here

lemma number (s : Store) (x : Float) : Keeps s (s.number x).2 := by
  unfold Store.number
  split
  · exact ⟨id, Nat.le_succ _⟩
  · exact .refl s

end Keeps

/-! ## Built values -/

/-- A value is built of numbers, texts and truth values, in sequences and mappings of any depth, and
stands for a datum. -/
inductive Built (s : Store) : Value → Datum → Prop where
  | bool (b : Bool) : Built s (.bool b) (.bool b)
  | str (text : String) : Built s (.str text) (.str text)
  | num {n : Num} (number : n.val.isNaN = false) : Built s (.num n) (.num n)
  | seq {r : Ref} {items : List Value} {ds : List Datum} (here : s.cells[r]? = some (.seq items))
    (length : items.length = ds.length) (each : ∀ v d, (v, d) ∈ items.zip ds → Built s v d) :
    Built s (.seq r) (.seq ds)
  | map {r : Ref} {entries : Assoc Value} {ds : List (String × Datum)} (here : s.cells[r]? = some (.map entries))
    (names : entries.map Prod.fst = ds.map Prod.fst) (distinct : (ds.map Prod.fst).Nodup)
    (each : ∀ v d, (v, d) ∈ (entries.map Prod.snd).zip (ds.map Prod.snd) → Built s v d) : Built s (.map r) (.map ds)

variable {s : Store} {v : Value} {d : Datum} {r : Ref}

lemma cell_of_getElem? {c : Cell} (here : s.cells[r]? = some c) : s.cell r = c := by
  rw [cell, Array.getD_eq_getD_getElem?, here]
  rfl

variable {ds : List Datum}

lemma built_seq {items : List Value} (here : s.cells[r]? = some (.seq items))
    (each : Forall₂ s.Built items ds) : s.Built (.seq r) (.seq ds) := by
  obtain ⟨length, pairs⟩ := forall₂_iff_zip.mp each
  exact .seq here length fun v d mem => pairs mem

lemma built_map {entries : Assoc Value} {ds : List (String × Datum)}
    (here : s.cells[r]? = some (.map entries)) (distinct : (ds.map Prod.fst).Nodup)
    (names : entries.map Prod.fst = ds.map Prod.fst)
    (each : Forall₂ s.Built (entries.map Prod.snd) (ds.map Prod.snd)) : s.Built (.map r) (.map ds) :=
  .map here names distinct fun _ _ mem => (forall₂_iff_zip.mp each).2 mem

namespace Built

lemma items (built : s.Built (.seq r) d) : ∃ ds, d = .seq ds ∧ Forall₂ s.Built (s.items r) ds := by
  cases built with
  | @seq r items ds here length each =>
    refine ⟨ds, rfl, ?_⟩
    rw [Store.items, cell_of_getElem? here]
    exact forall₂_iff_zip.mpr ⟨length, fun mem => each _ _ mem⟩

lemma entries (built : s.Built (.map r) d) : ∃ ds, d = .map ds ∧ (ds.map Prod.fst).Nodup ∧
      Forall₂ (fun entry d => entry.1 = d.1 ∧ s.Built entry.2 d.2) (s.entries r) ds := by
  cases built with
  | @map r entries ds here names distinct each =>
    refine ⟨ds, rfl, distinct, forall₂_entries.mpr ?_⟩
    rw [Store.entries, cell_of_getElem? here]
    refine ⟨names, forall₂_iff_zip.mpr ⟨?_, fun mem => each _ _ mem⟩⟩
    rw [length_map, length_map, ← length_map Prod.fst, names, length_map]

lemma later {first second : Store} (built : first.Built v d) (keeps : Keeps first second) : second.Built v d := by
  induction built with
  | bool b => exact .bool b
  | str text => exact .str text
  | num number => exact .num number
  | seq here length _ ih => exact .seq (keeps.cells here) length ih
  | map here names distinct _ ih => exact .map (keeps.cells here) names distinct ih

end Built

variable {vs : List Value}

lemma eq_of_forall₂ {B : Value → Datum → Prop} {ds es : List Datum}
    (only : Forall₂ (fun v d => ∀ {e}, B v e → d = e) vs ds) (other : Forall₂ B vs es) : ds = es := by
  induction only generalizing es with
  | nil =>
    cases other
    rfl
  | cons first _ ih =>
    cases other with
    | cons first' rest' => rw [first first', ih rest']

namespace Built

lemma unique {e : Datum} (built : s.Built v d) (other : s.Built v e) : d = e := by
  induction built generalizing e with
  | bool | str | num => cases other; rfl
  | seq here length _ ih =>
    obtain ⟨es, rfl, items⟩ := other.items
    rw [Store.items, cell_of_getElem? here] at items
    exact congrArg Datum.seq (eq_of_forall₂ (forall₂_iff_zip.mpr ⟨length, fun mem => ih _ _ mem⟩) items)
  | map here names distinct _ ih =>
    obtain ⟨es, rfl, _, entries⟩ := other.entries
    rw [Store.entries, cell_of_getElem? here] at entries
    obtain ⟨names', values⟩ := forall₂_entries.mp entries
    have length := congrArg List.length names
    have same := eq_of_forall₂ (forall₂_iff_zip.mpr ⟨by simpa using length, fun mem => ih _ _ mem⟩) values
    exact congrArg Datum.map ((zip_of_prod (names.symm.trans names') same).trans (zip_of_prod rfl rfl).symm)

end Built

lemma exists_depth (each : Forall₂ (fun v d => ∃ n, s.read n v = .ok d) vs ds) :
    ∃ n, Forall₂ (fun v d => s.read n v = .ok d) vs ds := by
  induction each with
  | nil => exact ⟨0, .nil⟩
  | cons first _ ih =>
    obtain ⟨m, head⟩ := first
    obtain ⟨n, tail⟩ := ih
    refine ⟨max m n, .cons (read_of_le (le_max_left m n) head) ?_⟩
    exact tail.imp fun _ _ => read_of_le (le_max_right m n)

namespace Built

lemma datum? (built : s.Built v d) : s.datum? v = some d := by
  have read : ∃ n, s.read n v = .ok d := by
    induction built with
    | bool | str | num => exact ⟨0, rfl⟩
    | seq here length _ ih =>
      obtain ⟨n, each⟩ := exists_depth (forall₂_iff_zip.mpr ⟨length, fun mem => ih _ _ mem⟩)
      refine ⟨n + 1, read_seq_eq_ok.mpr ⟨_, ?_, rfl⟩⟩
      rwa [Store.items, cell_of_getElem? here]
    | map here names _ _ ih =>
      have length := congrArg List.length names
      obtain ⟨n, each⟩ :=
        exists_depth (forall₂_iff_zip.mpr ⟨by simpa using length, fun mem => ih _ _ mem⟩)
      refine ⟨n + 1, read_map_eq_ok.mpr ⟨_, ?_, rfl⟩⟩
      rw [Store.entries, cell_of_getElem? here]
      exact forall₂_entries.mpr ⟨names, each⟩
  obtain ⟨n, read⟩ := read
  rw [Store.datum?, read_depth read]
  rfl

end Built

lemma built_newSeq (each : Forall₂ s.Built vs ds) : (s.newSeq vs).2.Built (s.newSeq vs).1 (.seq ds) := by
  refine built_seq (by simp [newSeq, alloc]) (each.imp fun _ _ built => built.later (Keeps.push s _))

lemma built_newMap {entries : Assoc Value} {ds : List (String × Datum)}
    (names : entries.map Prod.fst = ds.map Prod.fst) (distinct : (ds.map Prod.fst).Nodup)
    (each : Forall₂ s.Built (entries.map Prod.snd) (ds.map Prod.snd)) :
    (s.newMap entries).2.Built (s.newMap entries).1 (.map ds) := by
  refine built_map (by simp [newMap, alloc]) distinct names ?_
  exact each.imp fun _ _ built => built.later (Keeps.push s _)

end Store

end TagScript
