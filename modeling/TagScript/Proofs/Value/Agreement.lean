import TagScript.Proofs.Value.Built
import TagScript.Proofs.Value.Twin

/-!
# Comparing trees

A value that is built of numbers, texts and truth values is compared with another along the datum
that it stands for. So two data that differ in the signs of zeros agree with the same values.
-/

namespace TagScript

open List

variable {test : Value → Value → Except Fault Bool} {entries : Assoc Value} {ds : List (String × Datum)}

namespace Store

mutual

/-- Whether a datum and a value are equal. -/
def agrees (s : Store) : Datum → Value → Bool
  | .seq ds, .seq r => s.agreesItems ds (s.items r)
  | .map ds, .map r => ds.length = (s.entries r).length && s.agreesEntries (s.entries r) ds
  | .seq _, _ => false
  | .map _, _ => false
  | d, v => d.equal v.leaf

def agreesItems (s : Store) : List Datum → List Value → Bool
  | [], [] => true
  | d :: ds, v :: vs => s.agrees d v && s.agreesItems ds vs
  | [], _ :: _ => false
  | _ :: _, [] => false

def agreesEntries (s : Store) (entries : Assoc Value) : List (String × Datum) → Bool
  | [] => true
  | entry :: rest => s.agreesEntry entries entry && s.agreesEntries entries rest

def agreesEntry (s : Store) (entries : Assoc Value) : String × Datum → Bool
  | (name, d) =>
    match Assoc.get? name entries with
    | some v => s.agrees d v
    | none => false

end

variable {s : Store} {v c : Value} {d : Datum}

lemma agrees_flat (flat : d.isContainer = false) (c : Value) : s.agrees d c = d.equal c.leaf := by
  cases d with
  | seq | map => cases flat
  | _ => rw [agrees] <;> simp

lemma agreesItems_of_length {ds : List Datum} {vs : List Value} (different : ds.length ≠ vs.length) :
    s.agreesItems ds vs = false := by
  induction ds generalizing vs with
  | nil =>
    cases vs with
    | nil => exact absurd rfl different
    | cons v vs => rw [agreesItems]
  | cons d ds ih =>
    cases vs with
    | nil => rw [agreesItems]
    | cons v vs =>
      rw [agreesItems, ih fun same => different (congrArg Nat.succ same), Bool.and_false]

/-! ## A tree agrees with itself -/

lemma compareFloats_self {x : Float} (number : x.isNaN = false) : Datum.compareFloats x x = some .eq := by
  have equal : (x == x) = true := by
    rw [Float.isNaN_eq_decide_eq_nan, decide_eq_false_iff_not] at number
    exact Float.beq_self_iff.mpr number
  have order := equal
  rw [Binary64.beq_eq, beq_iff_eq] at order
  have smaller : ¬ x < x := by simp [Binary64.lt_eq, order]
  rw [Datum.compareFloats, if_neg smaller, if_neg smaller, if_pos equal]

lemma get?_of_forall₂ {R : Value → Datum → Prop}
    (each : Forall₂ (fun entry d => entry.1 = d.1 ∧ R entry.2 d.2) entries ds)
    (distinct : (ds.map Prod.fst).Nodup) {entry : String × Datum} (mem : entry ∈ ds) :
    ∃ v, Assoc.get? entry.1 entries = some v ∧ R v entry.2 := by
  induction each with
  | nil => cases mem
  | @cons x y _ _ first _ ih =>
    obtain ⟨name, v⟩ := x
    obtain ⟨_, d⟩ := y
    obtain ⟨rfl, related⟩ := first
    rw [map_cons, nodup_cons] at distinct
    rcases mem_cons.mp mem with rfl | further
    · exact ⟨v, by rw [Assoc.get?, if_pos rfl], related⟩
    · have other : name ≠ entry.1 := fun same => distinct.1 (mem_map.mpr ⟨entry, further, same.symm⟩)
      rw [Assoc.get?, if_neg other]
      exact ih distinct.2 further

lemma agreesEntries_of_forall
    (each : ∀ entry ∈ ds, s.agreesEntry entries entry = true) : s.agreesEntries entries ds = true := by
  induction ds with
  | nil => rw [agreesEntries]
  | cons entry rest ih =>
    rw [agreesEntries, each entry mem_cons_self, ih fun e mem => each e (mem_cons_of_mem _ mem)]
    rfl

namespace Built

lemma agrees_self (built : s.Built v d) : s.agrees d v = true := by
  induction built with
  | bool b =>
    rw [agrees_flat rfl]
    simp [Datum.equal, Value.leaf, Datum.compareNumbers?, Datum.whole?]
  | str text =>
    rw [agrees_flat rfl]
    simp [Datum.equal, Value.leaf]
  | num number =>
    rw [agrees_flat rfl]
    simp [Datum.equal, Value.leaf, Datum.compareNumbers?, compareFloats_self number]
  | @seq r items ds here length each ih =>
    have items_eq : s.items r = items := by rw [Store.items, cell_of_getElem? here]
    rw [agrees, items_eq]
    have all := forall₂_iff_zip.mpr ⟨length, fun {a b} mem => ih a b mem⟩
    clear each ih here length items_eq
    induction all with
    | nil => rw [agreesItems]
    | cons first _ ih => rw [agreesItems, first, ih]; rfl
  | @map r entries ds here names distinct each ih =>
    have entries_eq : s.entries r = entries := by rw [Store.entries, cell_of_getElem? here]
    have lengths := congrArg List.length names
    simp only [length_map] at lengths
    have all := forall₂_entries.mpr
      ⟨names, forall₂_iff_zip.mpr ⟨by simpa using lengths, fun {a b} mem => ih a b mem⟩⟩
    have found : s.agreesEntries entries ds = true := agreesEntries_of_forall fun entry mem => by
      obtain ⟨v, got, same⟩ := get?_of_forall₂ (R := fun v d => s.agrees d v = true) all distinct mem
      obtain ⟨name, d⟩ := entry
      simpa only [agreesEntry, got] using same
    rw [agrees, entries_eq, found, lengths]
    simp

lemma eq_of_identical (built : s.Built v d) (same : v.identical c = true) : c = v := by
  cases built with
  | bool | str => cases same
  | num number =>
    cases c with
    | num m =>
      rw [Value.identical, Num.identical, number, Bool.false_and, Bool.false_and] at same
      cases same
    | _ => cases same
  | seq | map =>
    cases c with
    | seq | map => first | exact congrArg _ (beq_iff_eq.mp same).symm | cases same
    | _ => cases same

end Built

/-! ## Comparison along a tree -/

lemma sameItems_agrees {vs : List Value} {ds : List Datum}
    (each : Forall₂ (fun v d => ∀ c, sameItem test v c = .ok (s.agrees d c)) vs ds) (cs : List Value) :
    sameItems test vs cs = .ok (s.agreesItems ds cs) := by
  induction each generalizing cs with
  | nil => cases cs <;> rw [sameItems, agreesItems] <;> simp
  | cons first _ ih =>
    cases cs with
    | nil => rw [sameItems, agreesItems] <;> simp
    | cons c cs =>
      rw [sameItems, agreesItems, first c]
      cases s.agrees _ c with
      | true => exact ih cs
      | false => rfl

lemma sameEntries_agrees
    (each : Forall₂ (fun entry d => entry.1 = d.1 ∧ ∀ c, sameItem test entry.2 c = .ok (s.agrees d.2 c)) entries ds)
    (others : Assoc Value) : sameEntries test others entries = .ok (s.agreesEntries others ds) := by
  induction each with
  | nil => rw [sameEntries, agreesEntries]
  | @cons x y _ _ first _ ih =>
    obtain ⟨name, v⟩ := x
    obtain ⟨_, d⟩ := y
    obtain ⟨rfl, same⟩ := first
    rw [sameEntries, agreesEntries, agreesEntry]
    cases Assoc.get? name others with
    | none => rfl
    | some c =>
      simp only [same c]
      cases s.agrees d c with
      | true => exact ih
      | false => rfl

namespace Built

lemma sameItem_eq (built : s.Built v d)
    (tested : ∀ c, test v c = .ok (s.agrees d c)) (c : Value) : sameItem test v c = .ok (s.agrees d c) := by
  unfold sameItem
  split
  · rename_i same
    rw [built.eq_of_identical same, built.agrees_self]
  · exact tested c

lemma eq_of_ref {u : Value} {e : Datum} (built : s.Built v d) (other : s.Built u e) {r : Ref}
    (link : v.ref? = some r) (link' : u.ref? = some r) : u = v := by
  cases built with
  | bool | str | num => cases link
  | seq here length each =>
    cases other with
    | seq here' length' each' => exact congrArg Value.seq (Option.some.inj (link'.trans link.symm))
    | map here' names' distinct' each' =>
      cases link
      cases link'
      cases here.symm.trans here'
    | _ => cases link'
  | map here names distinct each =>
    cases other with
    | map here' names' distinct' each' => exact congrArg Value.map (Option.some.inj (link'.trans link.symm))
    | seq here' length' each' =>
      cases link
      cases link'
      cases here.symm.trans here'
    | _ => cases link'

section

variable {above : List (Ref × Ref)} {r : Ref} (built : s.Built v d) (link : v.ref? = some r)
  (new : ∀ p ∈ above, ∀ u e, u.ref? = some p.1 → s.Built u e → sizeOf d < sizeOf e)
include built link new

lemma unmet (q : Ref) : above.contains (r, q) = false := by
  rw [Bool.eq_false_iff, Ne, contains_iff_mem]
  exact fun met => Nat.lt_irrefl _ (new _ met _ _ link built)

lemma new_cons {part : Datum} (smaller : sizeOf part < sizeOf d) {q : Ref} :
    ∀ p ∈ (r, q) :: above, ∀ u e, u.ref? = some p.1 → s.Built u e → sizeOf part < sizeOf e := by
  intro p mem u e link' other
  rcases mem_cons.mp mem with rfl | further
  · obtain rfl := built.eq_of_ref other link link'
    rw [← built.unique other]
    exact smaller
  · exact Nat.lt_trans smaller (new p further u e link' other)

end

/-- A built value is compared along its datum, if there are enough steps and no container that is
being compared already is a part of it. -/
lemma equalWithin_eq (built : s.Built v d) {n : Nat} {above : List (Ref × Ref)} (deep : sizeOf d ≤ n)
    (new : ∀ p ∈ above, ∀ u e, u.ref? = some p.1 → s.Built u e → sizeOf d < sizeOf e) (c : Value) :
    s.equalWithin n above v c = .ok (s.agrees d c) := by
  induction built generalizing n above c with
  | bool | str | num => cases c <;> rw [agrees_flat rfl, equalWithin] <;> simp [Value.leaf]
  | @seq r items ds here length each ih =>
    have whole : s.Built (.seq r) (.seq ds) := .seq here length each
    have items_eq : s.items r = items := by rw [Store.items, cell_of_getElem? here]
    cases c with
    | seq q =>
      cases n with
      | zero => simp at deep
      | succ n =>
        have deeper : ∀ v d, (v, d) ∈ items.zip ds → ∀ c,
            s.equalWithin n ((r, q) :: above) v c = .ok (s.agrees d c) := by
          intro v d mem
          have inside := sizeOf_lt_of_mem (of_mem_zip mem).2
          rw [Datum.seq.sizeOf_spec] at deep
          refine ih v d mem (by omega) (whole.new_cons rfl new ?_)
          rw [Datum.seq.sizeOf_spec]
          omega
        have step := sameItems_agrees
          (forall₂_iff_zip.mpr ⟨length, fun {v d} mem => (each v d mem).sameItem_eq (deeper v d mem)⟩)
          (s.items q)
        rw [equalWithin, agrees, items_eq, whole.unmet rfl new q, step]
        by_cases same : items.length = (s.items q).length
        · rw [if_neg (not_not.mpr same)]
          rfl
        · rw [if_pos same, agreesItems_of_length (length ▸ same)]
    | _ => rw [equalWithin, agrees] <;> simp [Value.leaf, Datum.equal, Datum.compareNumbers?, Datum.whole?]
  | @map r entries ds here names distinct each ih =>
    have whole : s.Built (.map r) (.map ds) := .map here names distinct each
    have entries_eq : s.entries r = entries := by rw [Store.entries, cell_of_getElem? here]
    have length := congrArg List.length names
    simp only [length_map] at length
    cases c with
    | map q =>
      cases n with
      | zero => simp at deep
      | succ n =>
        have deeper : ∀ v d, (v, d) ∈ (entries.map Prod.snd).zip (ds.map Prod.snd) → ∀ c,
            s.equalWithin n ((r, q) :: above) v c = .ok (s.agrees d c) := by
          intro v d mem
          obtain ⟨entry, among, rfl⟩ := mem_map.mp (of_mem_zip mem).2
          have inside := sizeOf_lt_of_mem among
          have part : sizeOf entry.2 < sizeOf entry := by
            obtain ⟨name, d⟩ := entry
            simp
          rw [Datum.map.sizeOf_spec] at deep
          refine ih v entry.2 mem (by omega) (whole.new_cons rfl new ?_)
          rw [Datum.map.sizeOf_spec]
          omega
        have step := sameEntries_agrees (forall₂_entries.mpr ⟨names, forall₂_iff_zip.mpr
          ⟨by simpa using length, fun {v d} mem => (each v d mem).sameItem_eq (deeper v d mem)⟩⟩) (s.entries q)
        rw [equalWithin, agrees, entries_eq, whole.unmet rfl new q, step, ← length]
        by_cases same : entries.length = (s.entries q).length
        · rw [if_neg (not_not.mpr same), decide_eq_true same]
          rfl
        · rw [if_pos same, decide_eq_false same]
          rfl
    | _ => rw [equalWithin, agrees] <;> simp [Value.leaf, Datum.equal, Datum.compareNumbers?, Datum.whole?]

lemma equal_eq (built : s.Built v d) (c : Value) : s.equal v c = .ok (s.agrees d c) := by
  have enough : s.cells.size * s.cells.size < s.cells.size * s.cells.size + sizeOf d + 1 := by omega
  rw [s.equal_eq enough]
  exact built.equalWithin_eq (by omega) (forall_mem_nil _) c

end Built

/-! ## Trees in two stores -/

/-- Values of data that differ in signs of zeros. -/
def Alike (s t : Store) (a b : Value) : Prop :=
  ∃ d e, s.Built a d ∧ t.Built b e ∧ d.unsigned = e.unsigned

variable {w : Link} {t : Store} {u c' : Value} {e : Datum}

lemma compareNumbers_of_close {m n : Num} (close : Binary64.Close m.val n.val) (twin : c.Twin w c') :
    Datum.compareNumbers? (.num m) c.leaf = Datum.compareNumbers? (.num n) c'.leaf := by
  cases twin with
  | num same => simp only [Value.leaf, Datum.compareNumbers?, same.val, Datum.compareFloats_of_close close]
  | bool | int => simp only [Value.leaf, Datum.compareNumbers?, Datum.compareWhole_of_close close]
  | _ => rfl

lemma equal_num_of_close {m n : Num} (close : Binary64.Close m.val n.val) (twin : c.Twin w c') :
    (Datum.num m).equal c.leaf = (Datum.num n).equal c'.leaf := by
  have compared := compareNumbers_of_close close twin
  cases twin <;> simp only [Value.leaf, Datum.equal] at compared ⊢ <;> rw [compared]

def Steadfast (w : Link) (s t : Store) (d : Datum) : Prop :=
  ∀ {u e c c'}, t.Built u e → d.unsigned = e.unsigned → c.Twin w c' → s.agrees d c = t.agrees e c'

lemma agreesItems_twin {ds es : List Datum} (each : ∀ d ∈ ds, Steadfast w s t d) {us : List Value}
    (built : Forall₂ t.Built us es) (same : ds.map Datum.unsigned = es.map Datum.unsigned)
    {cs cs' : List Value} (twins : Forall₂ (Value.Twin w) cs cs') :
    s.agreesItems ds cs = t.agreesItems es cs' := by
  induction built generalizing ds cs cs' with
  | nil =>
    obtain rfl : ds = [] := map_eq_nil_iff.mp same
    cases twins <;> rw [agreesItems, agreesItems]
  | cons first _ ih =>
    cases ds with
    | nil => cases same
    | cons d ds =>
      simp only [map_cons, List.cons.injEq] at same
      obtain ⟨head, rest⟩ := forall_mem_cons.mp each
      cases twins with
      | nil => rw [agreesItems, agreesItems]
      | cons twin twins => rw [agreesItems, agreesItems, head first same.1 twin, ih rest same.2 twins]

lemma agreesEntries_twin {es : List (String × Datum)} (each : ∀ d ∈ ds, Steadfast w s t d.2)
    (built : List.Forall₂ (fun entry d => entry.1 = d.1 ∧ t.Built entry.2 d.2) entries es)
    (same : ds.map (fun d => (d.1, d.2.unsigned)) = es.map fun e => (e.1, e.2.unsigned))
    {others others' : Assoc Value} (twins : Assoc.Twins w others others') :
    s.agreesEntries others ds = t.agreesEntries others' es := by
  induction built generalizing ds with
  | nil =>
    obtain rfl : ds = [] := List.map_eq_nil_iff.mp same
    rw [agreesEntries, agreesEntries]
  | @cons x e _ _ first _ ih =>
    cases ds with
    | nil => cases same
    | cons d ds =>
      obtain ⟨name, d⟩ := d
      obtain ⟨name', e⟩ := e
      simp only [List.map_cons, List.cons.injEq, Prod.mk.injEq] at same
      obtain ⟨⟨rfl, value⟩, rest⟩ := same
      obtain ⟨head, tail⟩ := List.forall_mem_cons.mp each
      have found := Assoc.Related.get? twins name
      rw [agreesEntries, agreesEntries, ih tail rest, agreesEntry, agreesEntry]
      generalize Assoc.get? name others = x at found
      generalize Assoc.get? name others' = y at found
      cases found with
      | none => rfl
      | some twin => simp only [head first.2 value twin]

lemma forall_of_forall₂ {α β : Type} {P : β → Prop} {xs : List α} {ys : List β}
    (each : Forall₂ (fun _ y => P y) xs ys) : ∀ y ∈ ys, P y := by
  intro y mem
  obtain ⟨_, _, holds⟩ := exists_of_forall₂ each.flip mem
  exact holds

lemma Built.steadfast (joins : w.Joins s t) (built : s.Built v d) : Steadfast w s t d := by
  induction built with
  | bool | str =>
    intro u e c c' built' same twin
    cases built' <;> simp only [Datum.unsigned, reduceCtorEq, Datum.bool.injEq, Datum.str.injEq] at same
    subst same
    rw [agrees_flat rfl, agrees_flat rfl]
    first | exact joins.leaf_equal_eq (.bool _) twin | exact joins.leaf_equal_eq (.str _) twin
  | num number =>
    intro u e c c' built' same twin
    cases built' <;> simp only [Datum.unsigned, reduceCtorEq, Datum.num.injEq, Num.mk.injEq, and_true] at same
    rw [agrees_flat rfl, agrees_flat rfl]
    exact equal_num_of_close (Binary64.unsigned_eq_iff.mp same) twin
  | @seq r items ds here length each ih =>
    intro u e c c' built' same twin
    have parts : ∀ d ∈ ds, Steadfast w s t d :=
      forall_of_forall₂ (forall₂_iff_zip.mpr ⟨length, fun mem => ih _ _ mem⟩)
    cases built' with
    | seq here' length' each' =>
      simp only [Datum.unsigned, Datum.seq.injEq, Datum.unsignedItems_eq] at same
      cases twin with
      | seq linked =>
        rw [agrees, agrees]
        exact agreesItems_twin parts (forall₂_iff_zip.mpr ⟨length', fun mem => each' _ _ mem⟩) same (joins.items linked)
      | _ => rw [agrees, agrees] <;> simp
    | _ => simp [Datum.unsigned] at same
  | @map r entries ds here names distinct each ih =>
    intro u e c c' built' same twin
    have length := congrArg List.length names
    simp only [length_map] at length
    have parts : ∀ d ∈ ds, Steadfast w s t d.2 :=
      forall_mem_map.mp (forall_of_forall₂ (forall₂_iff_zip.mpr ⟨by simpa using length, fun mem => ih _ _ mem⟩))
    obtain ⟨q, rfl⟩ : ∃ q, u = .map q := by
      cases built' with
      | map => exact ⟨_, rfl⟩
      | _ => simp [Datum.unsigned] at same
    obtain ⟨es, rfl, _, built'⟩ := built'.entries
    simp only [Datum.unsigned, Datum.map.injEq, Datum.unsignedEntries_eq] at same
    have lengths := congrArg List.length same
    simp only [length_map] at lengths
    cases twin with
    | map linked =>
      have twins := joins.entries linked
      rw [agrees, agrees, agreesEntries_twin parts built' same twins, lengths, twins.length_eq]
    | _ => rw [agrees, agrees] <;> simp

end Store

end TagScript
