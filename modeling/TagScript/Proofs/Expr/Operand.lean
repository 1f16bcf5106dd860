import TagScript.Proofs.Expr.Twin
import TagScript.Proofs.Value.Agreement

/-!
# Another first operand

An expression comes to the same if its first operand is replaced by one that is built alike: by a
copy of a tree, with the signs of zeros lost. It is always on the left of an operator, where the
sign of a zero does not matter.
-/

namespace TagScript

open List Datum

open Binary64 (Close)

variable {x y : Float} {xs ys : List Value}

variable {w v : Link} {s t : Store} {a b c d : Value}

/-! ## Trees in two stores -/

namespace Store.Alike

lemma later {s' t' : Store} (alike : s.Alike t a b) (keeps : s.Keeps s') (keeps' : t.Keeps t') : s'.Alike t' a b := by
  obtain ⟨d, e, here, there, same⟩ := alike
  exact ⟨d, e, here.later keeps, there.later keeps', same⟩

lemma forall₂ {vs us : List Value} {ds es : List Datum} (here : Forall₂ s.Built vs ds)
    (there : Forall₂ t.Built us es) (same : ds.map Datum.unsigned = es.map Datum.unsigned) :
    Forall₂ (s.Alike t) vs us := by
  induction here generalizing us es with
  | nil =>
    obtain rfl : es = [] := map_eq_nil_iff.mp same.symm
    cases there
    exact .nil
  | cons first _ ih =>
    cases there with
    | nil => cases same
    | cons first' rest' =>
      simp only [map_cons, List.cons.injEq] at same
      exact .cons ⟨_, _, first, first', same.1⟩ (ih rest' same.2)

lemma level (alike : s.Alike t a b) : Value.Level Datum.unsigned (s.Alike t) s t a b := by
  obtain ⟨d, e, here, there, same⟩ := alike
  cases id here with
  | bool | str =>
    cases there <;> simp only [Datum.unsigned, reduceCtorEq, Datum.bool.injEq, Datum.str.injEq] at same
    exact .leaf rfl rfl (by rw [same]) (by rw [same])
  | num number =>
    cases there <;> simp only [Datum.unsigned, reduceCtorEq] at same
    refine .leaf rfl rfl same ?_
    simp only [Datum.num.injEq, Num.mk.injEq, and_true] at same
    simp only [Value.leaf, Datum.text, numberText_of_close (Binary64.unsigned_eq_iff.mp same)]
  | seq =>
    obtain ⟨q, rfl⟩ : ∃ q, b = .seq q := by
      cases there with
      | seq => exact ⟨_, rfl⟩
      | _ => simp [Datum.unsigned] at same
    obtain ⟨ds, whole, items⟩ := here.items
    obtain ⟨es, rfl, items'⟩ := there.items
    cases whole
    simp only [Datum.unsigned, Datum.seq.injEq, unsignedItems_eq] at same
    exact .seq (forall₂ items items' same)
  | map =>
    obtain ⟨q, rfl⟩ : ∃ q, b = .map q := by
      cases there with
      | map => exact ⟨_, rfl⟩
      | _ => simp [Datum.unsigned] at same
    obtain ⟨ds, whole, _, entries⟩ := here.entries
    obtain ⟨es, rfl, _, entries'⟩ := there.entries
    cases whole
    simp only [Datum.unsigned, Datum.map.injEq, unsignedEntries_eq] at same
    obtain ⟨names, values⟩ := forall₂_entries.mp entries
    obtain ⟨names', values'⟩ := forall₂_entries.mp entries'
    have keys := congrArg (List.map Prod.fst) same
    have inner := congrArg (List.map Prod.snd) same
    simp only [map_map] at keys inner
    refine .map (forall₂_entries.mpr ⟨?_, ?_⟩)
    · rw [names, names']
      exact keys
    · refine forall₂ values values' ?_
      rw [map_map, map_map]
      exact inner

end Store.Alike

namespace Expr

/-! ## First operands -/

def Part (w : Link) (s t : Store) (a b : Value) : Prop := a.Twin w b ∨ s.Alike t a b

/-- What the first operand has become: twins, numbers that are close, values that are built alike,
or sequences of such values and of twins that were joined, and that nothing else leads to. -/
inductive Operand (w : Link) (s t : Store) : Value → Value → Prop where
  | twin {a b : Value} (same : a.Twin w b) : Operand w s t a b
  | num {m n : Num} (close : Close m.val n.val) : Operand w s t (.num m) (.num n)
  | tree {a b : Value} (alike : s.Alike t a b) : Operand w s t a b
  | joined {u : Link} {r q : Ref} {xs ys : List Value} (within : u ≤ w) (joins : u.Joins s t)
    (new : ∀ x, ¬ u.refs r x) (new' : ∀ x, ¬ u.refs x q) (here : s.cells[r]? = some (.seq xs))
    (there : t.cells[q]? = some (.seq ys)) (items : Forall₂ (Part u s t) xs ys) :
    Operand w s t (.seq r) (.seq q)

variable {s' t' : Store}

lemma Part.later (part : Part w s t a b) (later : w ≤ v) (keeps : s.Keeps s') (keeps' : t.Keeps t') :
    Part v s' t' a b :=
  part.imp (·.later later) (·.later keeps keeps')

lemma joins_later (joins : w.Joins s t) (keeps : s.Keeps s') (keeps' : t.Keeps t') : w.Joins s' t' := by
  have kept : ∀ {s s' : Store}, s.Keeps s' → ∀ r, r < s.cells.size → r < s'.cells.size ∧ s'.cell r = s.cell r := by
    intro s s' keeps r bound
    have found := keeps.cells (Array.getElem?_eq_getElem bound)
    refine ⟨(Array.getElem?_eq_some_iff.mp found).1, ?_⟩
    rw [Store.cell_of_getElem? found, Store.cell_of_getElem? (Array.getElem?_eq_getElem bound)]
  exact joins.grow (kept keeps) keeps.marks (kept keeps') keeps'.marks

namespace Operand

lemma later (operand : Operand w s t a b) (later : w ≤ v) (keeps : s.Keeps s')
    (keeps' : t.Keeps t') : Operand v s' t' a b := by
  cases operand with
  | twin same => exact .twin (same.later later)
  | num close => exact .num close
  | tree alike => exact .tree (alike.later keeps keeps')
  | joined within joins new new' here there items =>
    exact .joined (le_trans within later) (joins_later joins keeps keeps') new new' (keeps.cells here)
      (keeps'.cells there) (items.imp fun _ _ part => part.later (le_refl _) keeps keeps')

section

variable (joins : w.Joins s t)
include joins

lemma items {r q : Ref} (operand : Operand w s t (.seq r) (.seq q)) : Forall₂ (Part w s t) (s.items r) (t.items q) := by
  cases operand with
  | twin same =>
    cases same with
    | seq linked => exact (joins.items linked).imp fun _ _ => .inl
  | tree alike =>
    cases alike.level with
    | seq items => exact items.imp fun _ _ => .inr
    | leaf flat => cases flat
  | joined within _ _ _ here there items =>
    rw [Store.items, Store.cell_of_getElem? here, Store.items, Store.cell_of_getElem? there]
    exact items.imp fun _ _ part => part.later within (.refl s) (.refl t)

lemma level (operand : Operand w s t a b) : Value.Level Datum.unsigned (Operand w s t) s t a b := by
  have part : ∀ a b, Part w s t a b → Operand w s t a b := fun _ _ part => part.elim .twin .tree
  cases id operand with
  | twin same =>
    cases same with
    | seq linked => exact .seq ((joins.items linked).imp fun _ _ => .twin)
    | map linked => exact .map ((joins.entries linked).imp fun _ _ entry => ⟨entry.1, .twin entry.2⟩)
    | num same =>
      refine .leaf rfl rfl ?_ (Value.Twin.leaf_text_eq (.num same))
      simp only [Value.leaf, Datum.unsigned, same.val]
    | _ => exact .leaf rfl rfl rfl rfl
  | num close =>
    refine .leaf rfl rfl ?_ ?_
    · simp only [Value.leaf, Datum.unsigned, Binary64.unsigned_eq_iff.mpr close]
    · simp only [Value.leaf, Datum.text, numberText_of_close close]
  | tree alike =>
    cases alike.level with
    | seq items => exact .seq (items.imp fun _ _ => .tree)
    | map entries => exact .map (entries.imp fun _ _ entry => ⟨entry.1, .tree entry.2⟩)
    | leaf flat flat' same text => exact .leaf flat flat' same text
  | joined => exact .seq ((operand.items joins).imp part)

/-- Two first operands stand for trees that are the same but for marks and the signs of zeros, or
both for none. -/
lemma datum?_eq (operand : Operand w s t a b) :
    (s.datum? a).map Datum.unsigned = (t.datum? b).map Datum.unsigned :=
  Value.datum?_level view_unsigned (level joins) operand

lemma text_eq (operand : Operand w s t a b) : s.text a = t.text b :=
  Value.text_level view_unsigned (level joins) operand

end

end Operand

lemma Operand.shape (operand : Operand w s t a b) : Shape Close a b := by
  cases operand with
  | twin same =>
    cases same with
    | num same => exact .num (.inl same.val)
    | seq => exact .seq _ _
    | map => exact .map _ _
    | func => exact .func _ _ _ _
    | stamp => exact .stamp _ _ _
    | _ => exact .flat rfl
  | num close => exact .num close
  | tree alike =>
    obtain ⟨d, e, here, there, same⟩ := alike
    cases here <;> cases there <;> simp only [Datum.unsigned, reduceCtorEq, Datum.bool.injEq, Datum.str.injEq,
      Datum.num.injEq, Num.mk.injEq, and_true] at same
    · subst same
      exact .flat rfl
    · subst same
      exact .flat rfl
    · exact .num (Binary64.unsigned_eq_iff.mp same)
    · exact .seq _ _
    · exact .map _ _
  | joined => exact .seq _ _

lemma Shape.compareNumbers_eq (shape : Shape Close a b) (twin : c.Twin w d) :
    Datum.compareNumbers? a.leaf c.leaf = Datum.compareNumbers? b.leaf d.leaf := by
  cases shape with
  | num close => exact Store.compareNumbers_of_close close twin
  | flat leaf =>
    have same : a.Twin w a ∨ ∃ n, a = .num n := by
      cases a with
      | none => exact .inl .none
      | bool x => exact .inl (.bool x)
      | int i => exact .inl (.int i)
      | str x => exact .inl (.str x)
      | error record => exact .inl (.error record)
      | num n => exact .inr ⟨n, rfl⟩
      | _ => cases leaf
    rcases same with same | ⟨n, rfl⟩
    · exact Link.Joins.compareNumbers_eq same twin
    · exact Store.compareNumbers_of_close (.inl rfl) twin
  | _ => cases twin <;> rfl

/-! ## Comparison -/

lemma sameItems_congr {P : Value → Value → Prop} {test test' : Value → Value → Except Fault Bool}
    (each : ∀ a b, P a b → ∀ c d, c.Twin w d → Store.sameItem test a c = Store.sameItem test' b d)
    {cs ds : List Value} (items : Forall₂ P xs ys) (twins : Forall₂ (Value.Twin w) cs ds) :
    Store.sameItems test xs cs = Store.sameItems test' ys ds := by
  induction items generalizing cs ds with
  | nil => cases twins <;> rfl
  | cons first _ ih =>
    cases twins with
    | nil => rfl
    | cons twin twins => rw [Store.sameItems, Store.sameItems, each _ _ first _ _ twin, ih twins]

lemma exists_sizes (items : Forall₂ (Part w s t) xs ys) :
    ∃ n, Forall₂ (fun a b => a.Twin w b ∨ ∃ d e, s.Built a d ∧ t.Built b e ∧ d.unsigned = e.unsigned ∧
      sizeOf d ≤ n ∧ sizeOf e ≤ n) xs ys := by
  induction items with
  | nil => exact ⟨0, .nil⟩
  | cons first _ ih =>
    obtain ⟨n, rest⟩ := ih
    rcases first with twin | ⟨d, e, here, there, same⟩
    · exact ⟨n, .cons (.inl twin) rest⟩
    · refine ⟨max n (max (sizeOf d) (sizeOf e)), .cons (.inr ⟨d, e, here, there, same, by omega, by omega⟩) ?_⟩
      refine rest.imp fun a b part => part.imp_right ?_
      rintro ⟨d, e, here, there, same, small, small'⟩
      exact ⟨d, e, here, there, same, by omega, by omega⟩

lemma size_lt_of_mem {r : Ref} (here : s.cells[r]? = some (.seq xs)) {part : Datum} (mem : a ∈ xs)
    (built : s.Built a part) {u : Value} {e : Datum} (link : u.ref? = some r) (whole : s.Built u e) :
    sizeOf part < sizeOf e := by
  cases whole with
  | seq here' length each =>
    cases link
    cases here.symm.trans here'
    obtain ⟨d, among, same⟩ := exists_of_forall₂ (forall₂_iff_zip.mpr ⟨length, fun {v d} => each v d⟩) mem
    rw [built.unique same, Datum.seq.sizeOf_spec]
    have := sizeOf_lt_of_mem among
    omega
  | map here' names distinct each =>
    cases link
    cases here.symm.trans here'
  | _ => cases link

/-- Joined sequences are compared alike with sequences that go together: their parts are, and
neither sequence is met again on the way down. -/
lemma equal_joined {u : Link} {r q r' q' : Ref} (joins : w.Joins s t) (within : u ≤ w)
    (inner : u.Joins s t) (new : ∀ x, ¬ u.refs r x) (new' : ∀ x, ¬ u.refs x q) (here : s.cells[r]? = some (.seq xs))
    (there : t.cells[q]? = some (.seq ys)) (items : Forall₂ (Part u s t) xs ys) (linked : w.refs r' q') :
    s.equal (.seq r) (.seq r') = t.equal (.seq q) (.seq q') := by
  obtain ⟨size, sized⟩ := exists_sizes items
  obtain ⟨n, enough, enough'⟩ : ∃ n, (s.cells.size * s.cells.size < n + 1 ∧ t.cells.size * t.cells.size < n + 1) ∧
      size ≤ n := ⟨s.cells.size * s.cells.size + t.cells.size * t.cells.size + size, by omega, by omega⟩
  obtain ⟨length, pairs⟩ := forall₂_iff_zip.mp sized
  have parts : Forall₂ (fun a b => (a, b) ∈ xs.zip ys) xs ys := forall₂_iff_zip.mpr ⟨length, id⟩
  have met : u.Meets w [(r, r')] [(q, q')] := by
    intro x y x' y' link _
    have left : x ≠ r := fun same => new y (same ▸ link)
    have right : y ≠ q := fun same => new' x (same ▸ link)
    simp [left, right]
  have twins := joins.items linked
  have each : ∀ a b, (a, b) ∈ xs.zip ys → ∀ c d, c.Twin w d →
      Store.sameItem (s.equalWithin n [(r, r')]) a c = Store.sameItem (t.equalWithin n [(q, q')]) b d := by
    intro a b mem c d second
    obtain ⟨among, among'⟩ := of_mem_zip mem
    rcases pairs mem with first | ⟨d', e', built, built', same, small, small'⟩
    · exact joins.sameItem_eq within (joins.equalWithin_eq n inner within met) first second
    · have left : ∀ c, s.equalWithin n [(r, r')] a c = .ok (s.agrees d' c) := by
        refine built.equalWithin_eq (Nat.le_trans small enough') fun p mem v e link whole => ?_
        obtain rfl := mem_singleton.mp mem
        exact size_lt_of_mem here among built link whole
      have right : ∀ c, t.equalWithin n [(q, q')] b c = .ok (t.agrees e' c) := by
        refine built'.equalWithin_eq (Nat.le_trans small' enough') fun p mem v e link whole => ?_
        obtain rfl := mem_singleton.mp mem
        exact size_lt_of_mem there among' built' link whole
      rw [built.sameItem_eq left, built'.sameItem_eq right, built.steadfast joins built' same second]
  have compared := sameItems_congr each parts twins
  have items_eq : s.items r = xs := by rw [Store.items, Store.cell_of_getElem? here]
  have items_eq' : t.items q = ys := by rw [Store.items, Store.cell_of_getElem? there]
  rw [s.equal_eq enough.1, t.equal_eq enough.2]
  simp only [Store.equalWithin, items_eq, items_eq', items.length_eq, twins.length_eq, contains_nil, compared]

namespace Operand

section

variable (joins : w.Joins s t)
include joins

lemma equal_eq (operand : Operand w s t a b) (twin : c.Twin w d) : s.equal a c = t.equal b d := by
  cases operand with
  | twin same => exact joins.equal_eq same twin
  | num close =>
    exact congrArg Except.ok (Store.equal_num_of_close close twin)
  | tree alike =>
    obtain ⟨d, e, here, there, same⟩ := alike
    rw [here.equal_eq, there.equal_eq, here.steadfast joins there same twin]
  | joined within inner new new' here there items =>
    cases twin with
    | seq linked => exact equal_joined joins within inner new new' here there items linked
    | _ => rw [Store.equal, Store.equal, Store.equalWithin, Store.equalWithin] <;>
        simp [Value.leaf, Datum.equal, Datum.compareNumbers?, Datum.whole?]

lemma truthy_eq (operand : Operand w s t a b) : s.truthy a = t.truthy b := by
  have level := operand.level joins
  cases operand.shape with
  | flat leaf =>
    cases a with
    | seq | map => cases leaf
    | _ => rfl
  | num close =>
    simp only [Store.truthy, close.isNaN_eq, bne, close.beq_zero_eq]
  | seq r q =>
    cases level with
    | seq items =>
      rw [Store.truthy, Store.truthy]
      generalize s.items r = xs at items
      generalize t.items q = ys at items
      cases items <;> rfl
    | leaf flat => cases flat
  | map r q =>
    cases level with
    | map entries =>
      rw [Store.truthy, Store.truthy]
      generalize s.entries r = xs at entries
      generalize t.entries q = ys at entries
      cases entries <;> rfl
    | leaf flat => cases flat
  | func | stamp => rfl

end

end Operand

/-! ## Operators -/

def Become (w : Link) (x y : Value × Store) : Prop :=
  ∃ v, w ≤ v ∧ v.Joins x.2 y.2 ∧ Operand v x.2 y.2 x.1 y.1

/-- First operands in a scene. -/
def Scene.First (g : Scene) : Value → Value → Prop := Operand g.link g.here g.there

section

variable {g : Scene}

lemma first_twin {x y : Value × Store} (made : Scene.kinship.Made g Scene.kinship.kin x y) :
    Scene.kinship.Made g Scene.First x y := by
  obtain ⟨h, later, here, there, twin⟩ := made
  exact ⟨h, later, here, there, .twin twin⟩

section

variable (close : Close x y)
include close

lemma first_ofFloat : Scene.kinship.Made g Scene.First (.ofFloat x, g.here) (.ofFloat y, g.there) :=
  .same (.num close)

lemma first_number : Scene.kinship.Made g Scene.First (g.here.number x) (g.there.number y) := by
  rcases id close with rfl | zero
  · exact first_twin (Scene.kinship.number x)
  · have number : x.isNaN = false := by
      rcases Binary64.beq_zero_iff.mp zero.1 with rfl | rfl <;> decide
    have number' : y.isNaN = false := by rw [← close.isNaN_eq, number]
    simp only [Store.number, number, number', Bool.false_eq_true, if_false]
    exact first_ofFloat close

lemma first_divide (z : Float) : Scene.kinship.Made g Scene.First (divide g.here x z) (divide g.there y z) := by
  rcases id close with rfl | ⟨zero, zero'⟩
  · exact first_twin (Scene.kinship.divide x z)
  · unfold divide
    rw [zero, zero', Bool.true_or, if_pos rfl]
    split
    · exact .same (.twin Scene.kinship.notANumber)
    · exact first_number (close.div z)

lemma first_remainder (z : Float) :
    Kindred Eq (Scene.kinship.Made g Scene.First) (remainder g.here x z) (remainder g.there y z) := by
  unfold remainder
  rw [close.isNaN_eq, close.isFinite_eq]
  split
  · exact .ok (first_number (close.add z))
  · split
    · exact .error rfl
    · split
      · exact .ok (first_number close)
      · exact .ok (first_number (close.remainder z))

lemma first_power (z : Float) : Scene.kinship.Made g Scene.First (power g.here x z) (power g.there y z) := by
  rcases id close with rfl | ⟨zero, zero'⟩
  · exact first_twin (Scene.kinship.power x z)
  · unfold power powerOfZero
    simp only [zero, zero', if_true]
    split
    · exact first_twin (Scene.kinship.number z)
    · split
      · exact first_ofFloat (.inl rfl)
      · split
        · exact first_ofFloat (.inl rfl)
        · split
          · exact first_ofFloat close
          · exact first_ofFloat (.inl rfl)

end

lemma first_newSeq (items : Forall₂ (Part g.link g.here g.there) xs ys) :
    Scene.kinship.Made g Scene.First (g.here.newSeq xs) (g.there.newSeq ys) := by
  have keeps := Store.Keeps.push g.here (.seq xs)
  have keeps' := Store.Keeps.push g.there (.seq ys)
  have after := joins_later g.joins keeps keeps'
  have here : (g.here.newSeq xs).2.cells[g.here.cells.size]? = some (.seq xs) := Array.getElem?_push_size
  have there : (g.there.newSeq ys).2.cells[g.there.cells.size]? = some (.seq ys) := Array.getElem?_push_size
  refine ⟨⟨g.link, _, _, after⟩, ⟨le_refl _, keeps, keeps'⟩, rfl, rfl, .joined (le_refl _) after ?_ ?_ here there ?_⟩
  · exact fun x => g.joins.not_refs_left (Nat.le_refl _)
  · exact fun x => g.joins.not_refs_right (Nat.le_refl _)
  · exact items.imp fun _ _ part => part.later (le_refl _) keeps keeps'

end

/-- First operands do on the left of an operator. -/
lemma first_operands : Scene.kinship.Operands Close Scene.First where
  kin := .twin
  later operand later := Operand.later operand later.1 later.2.1 later.2.2
  shape := Operand.shape
  text {g} _ _ operand := Kindred.of_eq (Operand.text_eq g.joins operand)
  truthy {g} _ _ := Operand.truthy_eq g.joins
  equal {g} _ _ _ _ operand twin := Kindred.of_eq (Operand.equal_eq g.joins operand twin)
  compare operand twin := (Operand.shape operand).compareNumbers_eq twin
  joined {g} _ _ _ _ operand twin :=
    first_newSeq (rel_append (Operand.items g.joins operand) ((Scene.kinship.items twin).imp fun _ _ => .inl))
  refl _ := .inl rfl
  add := Close.add
  sub := Close.sub
  mul := Close.mul
  neg := Close.neg
  number := first_number
  divide := first_divide
  remainder := first_remainder
  power := first_power

lemma oneValue_runItems_operand {env env' : Environment} (joins : w.Joins s t) (bound : env.Twin w env')
    (operand : Operand w s t a b) (items : List Item) :
    Paired (Become w) (oneValue (runItems env s [a] items)) (oneValue (runItems env' t [b] items)) :=
  Kindred.paired (first_operands.oneValue (first_operands.runItems (akin joins bound) (.bottom operand) items))
    fun h later _ _ operand => ⟨h.link, later.1, h.joins, operand⟩

end Expr

end TagScript
