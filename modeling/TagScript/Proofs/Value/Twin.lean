import TagScript.Proofs.Value.Likeness
import TagScript.Proofs.Value.Link
import TagScript.Typing

/-!
# What twins have in common

Twins in joined stores cannot be told apart: they stand for the same tree but for marks, and compare
with other twins in the same way.
-/

namespace TagScript

open List Datum

def Link.Meets (u w : Link) (above below : List (Ref × Ref)) : Prop :=
  ∀ {r q r' q'}, u.refs r q → w.refs r' q' → above.contains (r, r') = below.contains (q, q')

variable {u w : Link} {s t : Store} {a b c d : Value}

lemma Store.exists_enough (s t : Store) :
    ∃ n, s.cells.size * s.cells.size < n ∧ t.cells.size * t.cells.size < n :=
  ⟨s.cells.size * s.cells.size + t.cells.size * t.cells.size + 1, by omega, by omega⟩

/-! ## Without a look inside -/

namespace Value.Twin

variable (twin : a.Twin w b)
include twin

lemma bare_leaf : a.leaf.bare = b.leaf.bare := by
  cases twin with
  | num same => simp [leaf, Datum.bare, same.val]
  | _ => rfl

lemma className_eq : a.className = b.className := by
  cases twin <;> rfl

lemma typeTag_eq : a.typeTag = b.typeTag := by
  cases twin <;> rfl

lemma qualifiedName_eq : a.leaf.qualifiedName = b.leaf.qualifiedName := by
  cases twin <;> rfl

lemma leaf_text_eq : a.leaf.text = b.leaf.text := by
  cases twin with
  | num same => simp [leaf, Datum.text, same.val]
  | _ => rfl

end Value.Twin

lemma Num.Twin.identical_eq {x y x' y' : Num} (joins : w.Joins s t) (first : x.Twin w y) (second : x'.Twin w y') :
    x.identical x' = y.identical y' := by
  unfold Num.identical
  rw [first.val, second.val]
  by_cases here : y.val.isNaN = true
  · by_cases there : y'.val.isNaN = true
    · have mark := first.mark (first.val ▸ here)
      have mark' := second.mark (second.val ▸ there)
      have same : x.mark = x'.mark ↔ y.mark = y'.mark := by
        constructor
        · intro eq
          rw [eq] at mark
          exact joins.marks_left mark mark'
        · intro eq
          rw [eq] at mark
          exact joins.marks_right mark mark'
      rw [decide_eq_decide.mpr same]
    · rw [Bool.eq_false_of_not_eq_true there, Bool.and_false, Bool.false_and, Bool.false_and]
  · rw [Bool.eq_false_of_not_eq_true here, Bool.false_and, Bool.false_and, Bool.false_and]

namespace Link.Joins

variable (joins : w.Joins s t)
include joins

lemma refs_beq {r q r' q' : Ref} (first : w.refs r q) (second : w.refs r' q') : (r == r') = (q == q') := by
  have same : r = r' ↔ q = q' := by
    constructor
    · rintro rfl
      exact joins.left first second
    · rintro rfl
      exact joins.right first second
  simp [same]

lemma identical_eq (first : a.Twin w b) (second : c.Twin w d) : a.identical c = b.identical d := by
  cases first with
  | num same =>
    cases second with
    | num same' => exact same.identical_eq joins same'
    | _ => rfl
  | seq linked | map linked =>
    cases second with
    | seq linked' | map linked' => first | exact joins.refs_beq linked linked' | rfl
    | _ => rfl
  | _ => rfl

lemma truthy_eq (twin : a.Twin w b) : s.truthy a = t.truthy b := by
  cases twin with
  | num same => simp [Store.truthy, same.val]
  | seq linked =>
    have items := joins.items linked
    rw [Store.truthy, Store.truthy]
    generalize s.items _ = xs at items
    generalize t.items _ = ys at items
    cases items <;> rfl
  | map linked =>
    have entries := joins.entries linked
    rw [Store.truthy, Store.truthy]
    generalize s.entries _ = xs at entries
    generalize t.entries _ = ys at entries
    cases entries <;> rfl
  | _ => rfl

/-! ## Trees and texts -/

section

variable (twin : a.Twin w b)
include twin

lemma level : Value.Level Datum.bare (Value.Twin w) s t a b := by
  cases twin with
  | seq linked => exact .seq (joins.items linked)
  | map linked => exact .map (joins.entries linked)
  | num same => exact .leaf rfl rfl (Value.Twin.bare_leaf (.num same)) (Value.Twin.leaf_text_eq (.num same))
  | _ => exact .leaf rfl rfl rfl rfl

lemma datum_twin : Paired (fun d e => d.bare = e.bare) (s.datum a) (t.datum b) :=
  Value.datum_level Datum.view_bare joins.level twin

lemma wire_twin : Paired (fun d e => d.bare = e.bare) (s.wire a) (t.wire b) :=
  Value.wire_level Datum.view_bare joins.level twin

lemma datum?_twin : (s.datum? a).map Datum.bare = (t.datum? b).map Datum.bare :=
  Value.datum?_level Datum.view_bare joins.level twin

lemma text_eq : s.text a = t.text b :=
  Value.text_level Datum.view_bare joins.level twin

end

/-! ## Comparisons -/

section

variable (first : a.Twin w b) (second : c.Twin w d)
include first second

omit joins in
lemma compareNumbers_eq : Datum.compareNumbers? a.leaf c.leaf = Datum.compareNumbers? b.leaf d.leaf := by
  rw [← compareNumbers?_bare, first.bare_leaf, second.bare_leaf, compareNumbers?_bare]

lemma leaf_equal_eq : a.leaf.equal c.leaf = b.leaf.equal d.leaf := by
  have numbers := compareNumbers_eq first second
  cases first with
  | func name params linked =>
    cases second with
    | func name' params' linked' =>
      have same := joins.refs_beq linked linked'
      simpa [Value.leaf, Datum.equal] using same
    | _ =>
      simp only [Value.leaf, Datum.equal] at numbers ⊢
      rw [numbers]
  | num same => cases second <;> simp only [Value.leaf, Datum.equal] at numbers ⊢ <;> rw [numbers]
  | _ =>
    cases second with
    | num same' =>
      simp only [Value.leaf, Datum.equal] at numbers ⊢
      rw [numbers]
    | _ => simp only [Value.leaf, Datum.equal] at numbers ⊢ <;> rw [numbers]

omit joins in
lemma leaf_before_eq : Datum.before? a.leaf c.leaf = Datum.before? b.leaf d.leaf := by
  have numbers := compareNumbers_eq first second
  cases first with
  | num same => cases second <;> exact congrArg (Option.map (· == some .lt)) numbers
  | _ =>
    cases second with
    | num same' => exact congrArg (Option.map (· == some .lt)) numbers
    | _ => rfl

end

section

variable (within : u ≤ w) {test test' : Value → Value → Except Fault Bool}
  (each : ∀ {a b c d : Value}, a.Twin u b → c.Twin w d → test a c = test' b d)
include within each

lemma sameItem_eq (first : a.Twin u b) (second : c.Twin w d) : Store.sameItem test a c = Store.sameItem test' b d := by
  unfold Store.sameItem
  rw [joins.identical_eq (first.later within) second, each first second]

variable {xs ys xs' ys' : List Value}

lemma sameItems_eq (first : Forall₂ (Value.Twin u) xs ys)
    (second : Forall₂ (Value.Twin w) xs' ys') : Store.sameItems test xs xs' = Store.sameItems test' ys ys' := by
  induction first generalizing xs' ys' with
  | nil => cases second <;> rfl
  | cons head _ ih =>
    cases second with
    | nil => rfl
    | cons head' rest' => rw [Store.sameItems, Store.sameItems, joins.sameItem_eq within each head head', ih rest']

lemma sameEntries_eq {xs ys others others' : Assoc Value} (first : Assoc.Twins u xs ys)
    (second : Assoc.Twins w others others') :
    Store.sameEntries test others xs = Store.sameEntries test' others' ys := by
  induction first with
  | nil => rfl
  | @cons x y _ _ head _ ih =>
    obtain ⟨name, a⟩ := x
    obtain ⟨_, b⟩ := y
    obtain ⟨rfl, twin⟩ := head
    have found := Assoc.Related.get? second name
    rw [Store.sameEntries, Store.sameEntries]
    generalize Assoc.get? name others = here at found
    generalize Assoc.get? name others' = there at found
    cases found with
    | none => rfl
    | some twin' => simp only [joins.sameItem_eq within each twin twin', ih]

lemma itemsBefore_eq {equal equal' : Value → Value → Except Fault Bool}
    (agree : ∀ {a b c d : Value}, a.Twin u b → c.Twin w d → equal a c = equal' b d)
    (first : Forall₂ (Value.Twin u) xs ys) (second : Forall₂ (Value.Twin w) xs' ys') :
    Store.itemsBefore equal test xs xs' = Store.itemsBefore equal' test' ys ys' := by
  induction first generalizing xs' ys' with
  | nil => cases second <;> rfl
  | cons head _ ih =>
    cases second with
    | nil => rfl
    | cons head' rest' =>
      rw [Store.itemsBefore, Store.itemsBefore, joins.sameItem_eq within agree head head', ih rest', each head head']

end

variable {above below : List (Ref × Ref)}

lemma meets_cons (inner : u.Joins s t) (met : u.Meets w above below)
    {r q r' q' : Ref} (first : u.refs r q) (second : w.refs r' q') :
    u.Meets w ((r, r') :: above) ((q, q') :: below) := by
  intro x y x' y' linked linked'
  have same : ((x, x') == (r, r')) = ((y, y') == (q, q')) := by
    change (x == r && x' == r') = (y == q && y' == q')
    rw [inner.refs_beq linked first, joins.refs_beq linked' second]
  rw [contains_cons, contains_cons, same, met linked linked']

/-- A comparison goes the same way for twins by one link on the left and twins by a greater one on
the right. -/
lemma equalWithin_eq (n : Nat) (inner : u.Joins s t) (within : u ≤ w)
    (met : u.Meets w above below) (first : a.Twin u b) (second : c.Twin w d) :
    s.equalWithin n above a c = t.equalWithin n below b d := by
  induction n generalizing above below a b c d with
  | zero =>
    have leaf := joins.leaf_equal_eq (first.later within) second
    cases first with
    | seq linked =>
      cases second with
      | seq linked' =>
        have items := inner.items linked
        have items' := joins.items linked'
        simp only [Store.equalWithin, items.length_eq, items'.length_eq, met linked linked']
      | _ => exact congrArg Except.ok leaf
    | map linked =>
      cases second with
      | map linked' =>
        have entries := inner.entries linked
        have entries' := joins.entries linked'
        simp only [Store.equalWithin, entries.length_eq, entries'.length_eq, met linked linked']
      | _ => exact congrArg Except.ok leaf
    | _ => exact congrArg Except.ok leaf
  | succ n ih =>
    have leaf := joins.leaf_equal_eq (first.later within) second
    cases first with
    | @seq r q linked =>
      cases second with
      | @seq r' q' linked' =>
        have items := inner.items linked
        have items' := joins.items linked'
        have deeper := joins.sameItems_eq within (ih (joins.meets_cons inner met linked linked')) items items'
        simp only [Store.equalWithin, items.length_eq, items'.length_eq, met linked linked', deeper]
      | _ => exact congrArg Except.ok leaf
    | @map r q linked =>
      cases second with
      | @map r' q' linked' =>
        have entries := inner.entries linked
        have entries' := joins.entries linked'
        have deeper := joins.sameEntries_eq within (ih (joins.meets_cons inner met linked linked')) entries entries'
        simp only [Store.equalWithin, entries.length_eq, entries'.length_eq, met linked linked', deeper]
      | _ => exact congrArg Except.ok leaf
    | _ => exact congrArg Except.ok leaf

lemma equal_eq (first : a.Twin w b) (second : c.Twin w d) : s.equal a c = t.equal b d := by
  obtain ⟨n, here, there⟩ := s.exists_enough t
  rw [s.equal_eq here, t.equal_eq there]
  exact joins.equalWithin_eq n joins (le_refl w) (fun _ _ => rfl) first second

lemma beforeWithin_eq (n : Nat) (first : a.Twin w b) (second : c.Twin w d) :
    s.beforeWithin n a c = t.beforeWithin n b d := by
  have equal : ∀ {a b c d : Value}, a.Twin w b → c.Twin w d → s.equal a c = t.equal b d := joins.equal_eq
  induction n generalizing a b c d with
  | zero =>
    have leaf := leaf_before_eq first second
    cases first with
    | seq linked =>
      cases second with
      | seq linked' => rfl
      | _ => exact congrArg (Option.elim · _ _) leaf
    | _ => exact congrArg (Option.elim · _ _) leaf
  | succ n ih =>
    have leaf := leaf_before_eq first second
    cases first with
    | seq linked =>
      cases second with
      | seq linked' => exact joins.itemsBefore_eq (le_refl w) ih equal (joins.items linked) (joins.items linked')
      | _ => exact congrArg (Option.elim · _ _) leaf
    | _ => exact congrArg (Option.elim · _ _) leaf

lemma before_eq (first : a.Twin w b) (second : c.Twin w d) : s.before a c = t.before b d := by
  obtain ⟨n, here, there⟩ := s.exists_enough t
  rw [s.before_eq here, t.before_eq there]
  exact joins.beforeWithin_eq n first second

end Link.Joins

end TagScript
