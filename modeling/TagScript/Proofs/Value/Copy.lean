import TagScript.Proofs.Value.Link

/-!
# Copies of twins

In joined stores a search from twins finds containers that go together, in the same order.
-/

namespace TagScript

open List Store

variable {w : Link} {s t : Store}

namespace Value

lemma Twin.ref? {a b : Value} (twin : a.Twin w b) : Option.Rel w.refs a.ref? b.ref? := by
  cases twin with
  | seq linked | map linked | func _ _ linked | stamp _ linked => exact .some linked
  | _ => exact .none

lemma forall₂_refs {xs ys : List Value} (twins : Forall₂ (Twin w) xs ys) :
    Forall₂ w.refs (xs.filterMap Value.ref?) (ys.filterMap Value.ref?) := by
  induction twins with
  | nil => exact .nil
  | @cons a b xs ys twin _ ih =>
    have related := twin.ref?
    rw [filterMap_cons, filterMap_cons]
    cases here : a.ref? with
    | none =>
      rw [here] at related
      cases there : b.ref? with
      | none => exact ih
      | some q =>
        rw [there] at related
        cases related
    | some r =>
      rw [here] at related
      cases there : b.ref? with
      | none =>
        rw [there] at related
        cases related
      | some q =>
        rw [there] at related
        cases related with
        | some linked => exact .cons linked ih

lemma Twin.mapRef {v : Link} {f g : Ref → Ref} {a b : Value} (twin : a.Twin w b) (later : w ≤ v)
    (leads : ∀ r q, a.ref? = some r → w.refs r q → v.refs (f r) (g q)) : (a.mapRef f).Twin v (b.mapRef g) := by
  cases twin with
  | seq linked => exact .seq (leads _ _ rfl linked)
  | map linked => exact .map (leads _ _ rfl linked)
  | func name params linked => exact .func name params (leads _ _ rfl linked)
  | stamp t linked => exact .stamp t (leads _ _ rfl linked)
  | num same => exact .num (same.later later)
  | none => exact .none
  | bool b => exact .bool b
  | int i => exact .int i
  | str s => exact .str s
  | error record => exact .error record

end Value

variable {xs ys : Assoc Value}

lemma Assoc.Twins.values (twins : Assoc.Twins w xs ys) :
    Forall₂ (Value.Twin w) (xs.map Prod.snd) (ys.map Prod.snd) := by
  induction twins with
  | nil => exact .nil
  | cons first _ ih => exact .cons first.2 ih

lemma Cell.Twin.values {c d : Cell} (twin : c.Twin w d) : Forall₂ (Value.Twin w) c.values d.values := by
  cases twin with
  | seq items => exact items
  | map entries => exact entries.values
  | hollow => exact .nil

lemma Cell.Twin.refs {c d : Cell} (twin : c.Twin w d) : Forall₂ w.refs c.refs d.refs :=
  Value.forall₂_refs twin.values

lemma Assoc.Twins.map {v : Link} {f g : Value → Value} (twins : Assoc.Twins w xs ys)
    (each : ∀ a ∈ xs, ∀ b, a.2.Twin w b → (f a.2).Twin v (g b)) :
    Assoc.Twins v (xs.map fun entry => (entry.1, f entry.2)) (ys.map fun entry => (entry.1, g entry.2)) := by
  induction twins with
  | nil => exact .nil
  | @cons a b xs ys first _ ih =>
    refine .cons ⟨first.1, each a mem_cons_self _ first.2⟩ (ih fun a mem => ?_)
    exact each a (mem_cons_of_mem _ mem)

lemma Cell.Twin.mapRefs {v : Link} {f g : Ref → Ref} {c d : Cell} (twin : c.Twin w d) (later : w ≤ v)
    (leads : ∀ r ∈ c.refs, ∀ q, w.refs r q → v.refs (f r) (g q)) : (c.mapRefs f).Twin v (d.mapRefs g) := by
  have each : ∀ a ∈ c.values, ∀ b, a.Twin w b → (a.mapRef f).Twin v (b.mapRef g) := by
    intro a mem b same
    exact same.mapRef later fun r q link linked => leads r (mem_filterMap.mpr ⟨a, mem, link⟩) q linked
  cases twin with
  | seq items =>
    refine .seq ?_
    clear leads
    induction items with
    | nil => exact .nil
    | @cons a b xs ys first _ ih =>
      refine .cons (each a mem_cons_self b first) (ih fun a mem => ?_)
      exact each a (mem_cons_of_mem _ mem)
  | map entries =>
    exact .map (entries.map fun a mem b same => each a.2 (mem_map_of_mem mem) b same)
  | hollow => exact .hollow

namespace Link.Joins

variable (joins : w.Joins s t)
include joins

lemma contains_iff {xs ys : List Ref} (pairs : Forall₂ w.refs xs ys) {r q : Ref} (linked : w.refs r q) :
    xs.contains r = ys.contains q := by
  induction pairs with
  | nil => rfl
  | @cons x y xs ys first _ ih =>
    have same : (r == x) = (q == y) := by
      by_cases eq : r = x
      · subst eq
        rw [joins.left linked first]
        simp
      · have other : q ≠ y := by
          rintro rfl
          exact eq (joins.right linked first)
        simp [eq, other]
    rw [contains_cons, contains_cons, same, ih]

lemma visit (depth : Nat) {seen seen' : List Ref} (pairs : Forall₂ w.refs seen seen') {r q : Ref}
    (linked : w.refs r q) : Forall₂ w.refs (s.visit depth seen r) (t.visit depth seen' q) := by
  induction depth generalizing seen seen' r q with
  | zero => exact pairs
  | succ depth ih =>
    unfold Store.visit
    rw [joins.contains_iff pairs linked]
    split
    · exact pairs
    · refine rel_foldl ?_ (.cons linked pairs) (joins.cells linked).refs
      intro _ _ found _ _ further
      exact ih found further

lemma reachable {xs ys : List Value} (twins : Forall₂ (Value.Twin w) xs ys) :
    Forall₂ w.refs (s.reachable xs) (t.reachable ys) := by
  have here : s.cells.size < s.cells.size + t.cells.size + 1 := by omega
  have there : t.cells.size < s.cells.size + t.cells.size + 1 := by omega
  rw [s.reachable_eq xs here, t.reachable_eq ys there]
  refine rel_foldl ?_ .nil (Value.forall₂_refs twins)
  intro _ _ found _ _ further
  exact joins.visit _ found further

lemma findIdx? {xs ys : List Ref} (pairs : Forall₂ w.refs xs ys) {r q : Ref} (linked : w.refs r q)
    (mem : r ∈ xs) : ∃ i, i < xs.length ∧ xs.findIdx? (· == r) = some i ∧ ys.findIdx? (· == q) = some i := by
  induction pairs with
  | nil => cases mem
  | @cons x y xs ys first _ ih =>
    rw [findIdx?_cons, findIdx?_cons]
    by_cases same : x = r
    · subst same
      obtain rfl := joins.left linked first
      exact ⟨0, by simp⟩
    · have other : y ≠ q := by
        rintro rfl
        exact same (joins.right first linked)
      have further : r ∈ xs := (mem_cons.mp mem).resolve_left fun eq => same eq.symm
      obtain ⟨i, inside, here, there⟩ := ih further
      refine ⟨i + 1, Nat.succ_lt_succ inside, ?_, ?_⟩
      · simp [same, here]
      · simp [other, there]

lemma copyEntries (twins : Assoc.Twins w xs ys) : Linked w Assoc.Twins (s.copyEntries xs) (t.copyEntries ys) := by
  have pairs := joins.reachable twins.values
  have closed : ∀ r ∈ s.reachable (xs.map Prod.snd), (s.cell r).refs ⊆ s.reachable (xs.map Prod.snd) :=
    fun _ mem => reachable_closed mem
  have roots : ∀ entry ∈ xs, ∀ r, entry.2.ref? = some r → r ∈ s.reachable (xs.map Prod.snd) :=
    fun entry mem _ link => mem_reachable (mem_map_of_mem mem) link
  unfold Store.copyEntries
  generalize s.reachable (xs.map Prod.snd) = copied at pairs closed roots
  generalize t.reachable (ys.map Prod.snd) = copied' at pairs
  -- The copy of the container in each place of one list goes with the copy of that of the other.
  let v : Link := { w with
    refs := fun r q => w.refs r q ∨ ∃ i, i < copied.length ∧ r = s.cells.size + i ∧ q = t.cells.size + i }
  have later : w ≤ v := ⟨fun _ _ => .inl, fun _ _ => id⟩
  have renames : ∀ r ∈ copied, ∀ q, w.refs r q →
      v.refs (Store.renamed copied s.cells.size r) (Store.renamed copied' t.cells.size q) := by
    intro r mem q linked
    obtain ⟨i, inside, here, there⟩ := joins.findIdx? pairs linked mem
    refine .inr ⟨i, inside, ?_, ?_⟩
    · rw [Store.renamed, here]
    · rw [Store.renamed, there]
  have length : copied'.length = copied.length := pairs.length_eq.symm
  refine ⟨v, later, joins.extend later rfl ?_ ?_ ?_ ?_ ?_ ?_ ?_ rfl rfl, ?_⟩
  · rintro r q (before | ⟨i, _, rfl, rfl⟩)
    · exact .inl before
    · exact .inr ⟨Nat.le_add_right _ _, Nat.le_add_right _ _⟩
  · intro r q q' first second beyond
    obtain ⟨i, _, rfl, rfl⟩ := first.resolve_left (joins.not_refs_left beyond)
    obtain ⟨j, _, same, rfl⟩ := second.resolve_left (joins.not_refs_left beyond)
    rw [Nat.add_left_cancel same]
  · intro r r' q first second beyond
    obtain ⟨i, _, rfl, rfl⟩ := first.resolve_left (joins.not_refs_right beyond)
    obtain ⟨j, _, rfl, same⟩ := second.resolve_left (joins.not_refs_right beyond)
    rw [Nat.add_left_cancel same]
  · rintro r q (before | ⟨i, inside, rfl, rfl⟩)
    · refine (joins.there before).imp (fun here => ?_) fun there => ?_
      · exact lt_of_lt_of_le here (by simp)
      · exact lt_of_lt_of_le there (by simp)
    · simpa [length] using inside
  · intro r here
    rw [cell_append, if_pos here]
  · intro q here
    rw [cell_append, if_pos here]
  · intro r q linked beyond
    obtain ⟨i, inside, rfl, rfl⟩ := linked.resolve_left (joins.not_refs_left beyond)
    have inside' : i < copied'.length := length ▸ inside
    have goes : w.refs copied[i] copied'[i] := Forall₂.get pairs inside inside'
    rw [Store.cell_append, Store.cell_append, if_neg (Nat.not_lt.mpr (Nat.le_add_right _ _)),
      if_neg (Nat.not_lt.mpr (Nat.le_add_right _ _)), Nat.add_sub_cancel_left, Nat.add_sub_cancel_left]
    simp only [getElem?_map, getElem?_eq_getElem inside, getElem?_eq_getElem inside', Option.map_some, Option.getD_some]
    refine (joins.cells goes).mapRefs later fun x mem y linked => ?_
    exact renames x (closed _ (getElem_mem inside) mem) y linked
  · refine twins.map fun entry mem b twin => ?_
    exact twin.mapRef later fun r q link linked => renames r (roots entry mem r link) q linked

end Link.Joins

end TagScript
