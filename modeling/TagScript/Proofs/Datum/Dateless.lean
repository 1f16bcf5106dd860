import TagScript.Proofs.Network
import TagScript.Format.Codec
import TagScript.Proofs.Value.Built

/-!
# Dateless data

Data without failures, functions and stamps can be written as JSON, and so can a value that is built
of them. What comes over the network is dateless.
-/

namespace TagScript

open List Option

variable {text : String} {r : Request}

/-- Data of which each part has a JSON text. -/
inductive Datum.Dateless : Datum → Prop where
  | none : Dateless .none
  | bool (b : Bool) : Dateless (.bool b)
  | num (n : Num) : Dateless (.num n)
  | int (i : Int) : Dateless (.int i)
  | str (s : String) : Dateless (.str s)
  | seq {items : List Datum} (each : ∀ d ∈ items, Dateless d) : Dateless (.seq items)
  | map {entries : List (String × Datum)} (each : ∀ entry ∈ entries, Dateless entry.2) : Dateless (.map entries)

namespace Datum

lemma normal?_seq (items : List Datum) : normal? (.seq items) = (items.mapM normal?).map .seq := by
  rw [normal?, fold_seq, mapM_map]
  rfl

lemma normal?_map (entries : List (String × Datum)) :
    normal? (.map entries) = Option.map .map (entries.mapM fun entry => entry.2.normal?.map (entry.1, ·)) := by
  rw [normal?, fold_map, mapM_map]
  rfl

lemma mem_of_mapM {α β : Type} {f : α → Option β} {xs : List α} {ys : List β} (all : xs.mapM f = some ys) {y : β}
    (mem : y ∈ ys) : ∃ x ∈ xs, f x = some y := by
  induction xs generalizing ys with
  | nil =>
    cases all
    cases mem
  | cons x rest ih =>
    rw [mapM_cons] at all
    obtain ⟨z, here, others⟩ := bind_eq_some_iff.mp all
    obtain ⟨zs, tail, same⟩ := bind_eq_some_iff.mp others
    cases same
    rcases mem_cons.mp mem with rfl | further
    · exact ⟨x, mem_cons_self, here⟩
    · obtain ⟨w, among, found⟩ := ih tail further
      exact ⟨w, mem_cons_of_mem _ among, found⟩

namespace Dateless

variable {d e : Datum}

lemma wire (dateless : d.Dateless) : d.wire.Dateless := by
  induction dateless with
  | none => exact .none
  | bool b => exact .bool b
  | int i => exact .int i
  | str s => exact .str s
  | num n =>
    show (wireNum n).Dateless
    unfold wireNum
    split
    · split
      · exact .int _
      · exact .num _
    · exact .none
  | seq _ ih =>
    rw [wire_seq]
    exact .seq (List.forall_mem_map.mpr ih)
  | map _ ih =>
    rw [wire_map]
    exact .map (List.forall_mem_map.mpr ih)

lemma normal (dateless : d.Dateless) (normal : d.normal? = some e) : e.Dateless := by
  induction dateless generalizing e with
  | none => cases normal; exact .none
  | bool b => cases normal; exact .bool b
  | num n => cases normal; exact .num n
  | str s => cases normal; exact .str s
  | int i =>
    obtain ⟨x, _, rfl⟩ := map_eq_some_iff.mp normal
    exact .num _
  | seq _ ih =>
    rw [normal?_seq] at normal
    obtain ⟨es, each, rfl⟩ := map_eq_some_iff.mp normal
    refine .seq fun e mem => ?_
    obtain ⟨d, among, found⟩ := mem_of_mapM each mem
    exact ih d among found
  | map _ ih =>
    rw [normal?_map] at normal
    obtain ⟨es, each, rfl⟩ := map_eq_some_iff.mp normal
    refine .map fun e mem => ?_
    obtain ⟨entry, among, found⟩ := mem_of_mapM each mem
    obtain ⟨_, part, rfl⟩ := map_eq_some_iff.mp found
    exact ih entry among part

lemma write (dateless : d.Dateless) (layout : Json.Layout) (level : Nat) :
    ∃ text, Json.write layout level d = .ok text := by
  induction dateless generalizing level with
  | none | bool | num | int | str => exact ⟨_, rfl⟩
  | seq _ ih =>
    obtain ⟨parts, each⟩ := exists_forall₂ fun d mem => ih d mem (level + 1)
    rw [Json.write_seq, mapM_eq_ok.mpr each]
    split <;> exact ⟨_, rfl⟩
  | map _ ih =>
    obtain ⟨parts, each⟩ := exists_forall₂
      (R := fun (entry : String × Datum) text =>
        (Json.write layout (level + 1) entry.2).map (Json.string entry.1 ++ layout.nameSeparator ++ ·) = .ok text)
      fun entry mem => by
        obtain ⟨text, written⟩ := ih entry mem (level + 1)
        exact ⟨_, by rw [written]; rfl⟩
    rw [Json.write_map, mapM_eq_ok.mpr each]
    split <;> exact ⟨_, rfl⟩

end Dateless

end Datum

/-! ## Values -/

namespace Store

variable {s t : Store} {v : Value} {d : Datum}

/-- A value stands for a datum, and goes on doing so while containers are only added. -/
def Stands (s : Store) (v : Value) (d : Datum) : Prop := ∀ t, Keeps s t → ∃ n, t.read n v = .ok d

lemma Stands.later (stands : s.Stands v d) (keeps : Keeps s t) : t.Stands v d :=
  fun u further => stands u (keeps.trans further)

lemma wire_of_read {n : Nat} (read : s.read n v = .ok d) : s.wire v = .ok d.wire := by
  simp [wire, read_depth read]

lemma textWithin_of_dateless {n : Nat} (done : s.read n v = .ok d) (dateless : d.wire.Dateless) :
    ∃ text, s.textWithin n v = .ok text := by
  induction n generalizing v d with
  | zero => cases v <;> cases done <;> exact ⟨_, rfl⟩
  | succ n ih =>
    cases v with
    | seq r =>
      obtain ⟨ds, items, rfl⟩ := read_seq_eq_ok.mp done
      rw [Datum.wire_seq] at dateless
      obtain ⟨texts, each⟩ := exists_forall₂ (R := fun v text => s.textWithin n v = .ok text) fun v mem => by
        obtain ⟨d, among, read⟩ := exists_of_forall₂ items mem
        cases dateless with
        | seq dateless => exact ih read (dateless _ (mem_map_of_mem among))
      exact ⟨_, by rw [textWithin, mapM_eq_ok.mpr each]; rfl⟩
    | map r =>
      obtain ⟨text, written⟩ := dateless.write Json.compact 0
      exact ⟨text, by rw [textWithin, wire_of_read done]; exact congrArg (Except.mapError _) written⟩
    | _ => exact ⟨_, rfl⟩

end Store

/-! ## Documents -/

namespace Json

end Json

variable {d : Datum}

namespace Request

end Request

end TagScript
