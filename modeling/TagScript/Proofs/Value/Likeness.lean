import TagScript.Proofs.Paired
import TagScript.Proofs.Value.Fuel

/-!
# Values that look alike

Two values in two stores look alike if their insides do, level by level, and whatever is no
container is the same but for something that is not written, such as a mark.
-/

namespace TagScript

open List

/-- A view of data leaves out what is not written of them. -/
structure Datum.View (N : Datum → Datum) : Prop where
  seq : ∀ items, N (.seq items) = .seq (items.map N)
  map : ∀ entries, N (.map entries) = .map (entries.map fun entry => (entry.1, N entry.2))
  wire : ∀ {d e}, N d = N e → d.wire.bare = e.wire.bare

lemma Datum.view_bare : View bare where
  seq items := by rw [bare, bareItems_eq]
  map entries := by rw [bare, bareEntries_eq]
  wire same := by rw [← wire_bare, same, wire_bare]

lemma Datum.view_unsigned : View unsigned where
  seq items := by rw [unsigned, unsignedItems_eq]
  map entries := by rw [unsigned, unsignedEntries_eq]
  wire same := by rw [← wire_unsigned, same, wire_unsigned]

/-- Two values look alike if what is directly inside them is related. -/
inductive Value.Level (N : Datum → Datum) (K : Value → Value → Prop) (s t : Store) : Value → Value → Prop where
  | seq {r q : Ref} (items : List.Forall₂ K (s.items r) (t.items q)) : Level N K s t (.seq r) (.seq q)
  | map {r q : Ref} (entries : List.Forall₂ (fun a b => a.1 = b.1 ∧ K a.2 b.2) (s.entries r) (t.entries q)) :
    Level N K s t (.map r) (.map q)
  | leaf {a b : Value} (flat : a.leaf.isContainer = false) (flat' : b.leaf.isContainer = false)
    (same : N a.leaf = N b.leaf) (text : a.leaf.text = b.leaf.text) : Level N K s t a b

namespace Store

lemma read_leaf {v : Value} (flat : v.leaf.isContainer = false) (s : Store) (n : Nat) : s.read n v = .ok v.leaf := by
  cases v with
  | seq | map => cases flat
  | _ => cases n <;> rfl

lemma textWithin_leaf {v : Value} (flat : v.leaf.isContainer = false) (s : Store) (n : Nat) :
    s.textWithin n v = v.leaf.text.mapError textWithin.unwritable := by
  cases v with
  | seq | map => cases flat
  | _ => cases n <;> rfl

lemma textWithin_map (s : Store) (n : Nat) (r : Ref) :
    s.textWithin n (.map r) = s.wire (.map r) >>= fun d =>
      (Json.write Json.compact 0 d).mapError textWithin.unwritable := by
  cases n <;> rfl

end Store

namespace Value

variable {N : Datum → Datum} {K : Value → Value → Prop} {s t : Store} {a b : Value}
  (view : Datum.View N) (level : ∀ {a b}, K a b → Level N K s t a b)
include view level

/-! ## Trees -/

lemma read_level (n : Nat) (alike : K a b) :
    Kindred (fun _ _ => True) (fun d e => N d = N e) (s.read n a) (t.read n b) := by
  induction n generalizing a b with
  | zero =>
    cases level alike with
    | seq | map => exact .error trivial
    | leaf flat flat' same text =>
      rw [s.read_leaf flat, t.read_leaf flat']
      exact .ok same
  | succ n ih =>
    cases level alike with
    | seq items =>
      rw [Store.read, Store.read]
      refine (Kindred.mapM items fun a b alike => ih alike).map fun ds es same => ?_
      have each : ds.map N = es.map N := by
        rwa [← forall₂_eq_eq_eq, forall₂_map_left_iff, forall₂_map_right_iff]
      rw [view.seq, view.seq, each]
    | map entries =>
      rw [Store.read, Store.read]
      have entry : ∀ a b : String × Value, a.1 = b.1 ∧ K a.2 b.2 →
          Kindred (fun _ _ => True) (fun d e : String × Datum => (d.1, N d.2) = (e.1, N e.2))
            ((s.read n a.2).map fun d => (a.1, d)) ((t.read n b.2).map fun d => (b.1, d)) := by
        rintro ⟨name, a⟩ ⟨_, b⟩ ⟨rfl, alike⟩
        exact (ih alike).map fun d e same => by rw [same]
      refine (Kindred.mapM entries entry).map fun ds es same => ?_
      have each : ds.map (fun d => (d.1, N d.2)) = es.map fun e => (e.1, N e.2) := by
        rwa [← forall₂_eq_eq_eq, forall₂_map_left_iff, forall₂_map_right_iff]
      rw [view.map, view.map, each]
    | leaf flat flat' same text =>
      rw [s.read_leaf flat, t.read_leaf flat']
      exact .ok same

lemma read_depth_level (alike : K a b) :
    Kindred (fun _ _ => True) (fun d e => N d = N e) (s.read s.depth a) (t.read t.depth b) := by
  cases here : s.read s.depth a with
  | ok d =>
    have kindred := read_level view level s.depth alike
    generalize there : t.read s.depth b = y at kindred
    rw [here] at kindred
    cases kindred with
    | ok same =>
      rw [Store.read_depth there]
      exact .ok same
  | error e =>
    cases there : t.read t.depth b with
    | error e' => exact .error trivial
    | ok d =>
      have kindred := read_level view level t.depth alike
      generalize other : s.read t.depth a = x at kindred
      rw [there] at kindred
      cases kindred with
      | ok same =>
        rw [Store.read_depth other] at here
        cases here

lemma datum_level (alike : K a b) : Paired (fun d e => N d = N e) (s.datum a) (t.datum b) := by
  have kindred := read_depth_level view level alike
  unfold Store.datum
  generalize s.read s.depth a = x at kindred
  generalize t.read t.depth b = y at kindred
  cases kindred with
  | ok same => exact .ok same
  | error => exact .error rfl

lemma wire_level (alike : K a b) : Paired (fun d e => d.bare = e.bare) (s.wire a) (t.wire b) := by
  have kindred := read_depth_level view level alike
  unfold Store.wire
  generalize here : s.read s.depth a = x at kindred
  generalize t.read t.depth b = y at kindred
  cases kindred with
  | ok same => exact .ok (view.wire same)
  | error =>
    cases level alike with
    | seq | map => exact .error rfl
    | leaf flat flat' same text =>
      rw [s.read_leaf flat] at here
      cases here

lemma datum?_level (alike : K a b) : (s.datum? a).map N = (t.datum? b).map N := by
  have kindred := read_depth_level view level alike
  unfold Store.datum?
  generalize s.read s.depth a = x at kindred
  generalize t.read t.depth b = y at kindred
  cases kindred with
  | ok same => exact congrArg some same
  | error => rfl

/-! ## Texts -/

lemma textWithin_map_level (n : Nat) {r q : Ref} (alike : K (.map r) (.map q)) :
    s.textWithin n (.map r) = t.textWithin n (.map q) := by
  have wires := wire_level view level alike
  rw [Store.textWithin_map, Store.textWithin_map]
  refine (wires.bind fun d e same => ?_).eq
  have written : Json.write Json.compact 0 d = Json.write Json.compact 0 e := by
    rw [← Json.write_bare, same, Json.write_bare]
  rw [written]
  exact Paired.same _

lemma textWithin_level (n : Nat) (alike : K a b) : s.textWithin n a = t.textWithin n b := by
  induction n generalizing a b with
  | zero =>
    cases level alike with
    | seq items => rfl
    | map entries => exact textWithin_map_level view level 0 alike
    | leaf flat flat' same text => rw [s.textWithin_leaf flat, t.textWithin_leaf flat', text]
  | succ n ih =>
    cases level alike with
    | seq items =>
      have texts := Kindred.mapM (E := Eq) (k := s.textWithin n) (l := t.textWithin n) (R := Eq) items fun a b alike => by
        rw [ih alike]
        exact Paired.same _
      rw [forall₂_eq_eq_eq] at texts
      rw [Store.textWithin, Store.textWithin, texts.eq]
    | map entries => exact textWithin_map_level view level (n + 1) alike
    | leaf flat flat' same text => rw [s.textWithin_leaf flat, t.textWithin_leaf flat', text]

lemma text_level (alike : K a b) : s.text a = t.text b := by
  have here : s.cells.size < s.cells.size + t.cells.size + 1 := by omega
  have there : t.cells.size < s.cells.size + t.cells.size + 1 := by omega
  rw [s.text_eq a here, t.text_eq b there]
  exact textWithin_level view level _ alike

end Value

end TagScript
