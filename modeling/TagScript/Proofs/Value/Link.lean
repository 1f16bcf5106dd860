import Mathlib.Order.Basic
import TagScript.Proofs.Paired
import TagScript.Proofs.Value.Region

/-!
# Two stores side by side

A link says which containers of two stores go together, and which marks. Two values are twins if
they are the same but for what goes together; the stores are joined if containers that go together
hold twins.
-/

namespace TagScript

open Store

variable {α β : Type}

/-- Which containers, and which marks, of two stores go together. -/
structure Link where
  refs : Ref → Ref → Prop
  marks : Nat → Nat → Prop

instance : Preorder Link where
  le w v := (∀ r q, w.refs r q → v.refs r q) ∧ ∀ a b, w.marks a b → v.marks a b
  le_refl _ := ⟨fun _ _ => id, fun _ _ => id⟩
  le_trans _ _ _ first second :=
    ⟨fun r q linked => second.1 r q (first.1 r q linked), fun a b linked => second.2 a b (first.2 a b linked)⟩

/-- The same double; two that are not numbers have marks that go together. -/
structure Num.Twin (w : Link) (a b : Num) : Prop where
  val : a.val = b.val
  mark : a.val.isNaN = true → w.marks a.mark b.mark

/-- Two values that are the same but for what goes together. -/
inductive Value.Twin (w : Link) : Value → Value → Prop where
  | none : Twin w .none .none
  | bool (b : Bool) : Twin w (.bool b) (.bool b)
  | num {a b : Num} (same : a.Twin w b) : Twin w (.num a) (.num b)
  | int (i : Int) : Twin w (.int i) (.int i)
  | str (s : String) : Twin w (.str s) (.str s)
  | seq {r q : Ref} (linked : w.refs r q) : Twin w (.seq r) (.seq q)
  | map {r q : Ref} (linked : w.refs r q) : Twin w (.map r) (.map q)
  | error (record : ErrorRecord) : Twin w (.error record) (.error record)
  | func (name : String) (params : List String) {r q : Ref} (linked : w.refs r q) :
    Twin w (.func name params r) (.func name params q)
  | stamp (t : Stamp) {r q : Ref} (linked : w.refs r q) : Twin w (.stamp t r) (.stamp t q)

/-- The same number, text or truth value. -/
inductive Value.SameLeaf (w : Link) : Value → Value → Prop where
  | bool (b : Bool) : SameLeaf w (.bool b) (.bool b)
  | num {a b : Num} (same : a.Twin w b) : SameLeaf w (.num a) (.num b)
  | str (s : String) : SameLeaf w (.str s) (.str s)

lemma Value.SameLeaf.twin {w : Link} {a b : Value} (same : a.SameLeaf w b) : a.Twin w b := by
  cases same with
  | bool b => exact .bool b
  | num same => exact .num same
  | str s => exact .str s

/-- Entries with the same names, in the same order, whose values are related. -/
abbrev Assoc.Related {α β : Type} (R : α → β → Prop) : Assoc α → Assoc β → Prop :=
  List.Forall₂ fun a b => a.1 = b.1 ∧ R a.2 b.2

abbrev Assoc.Twins (w : Link) : Assoc Value → Assoc Value → Prop :=
  List.Forall₂ fun a b => a.1 = b.1 ∧ a.2.Twin w b.2

/-- Two containers that hold twins. -/
inductive Cell.Twin (w : Link) : Cell → Cell → Prop where
  | seq {xs ys : List Value} (items : List.Forall₂ (Value.Twin w) xs ys) : Twin w (.seq xs) (.seq ys)
  | map {xs ys : Assoc Value} (entries : Assoc.Twins w xs ys) : Twin w (.map xs) (.map ys)
  | hollow : Twin w .hollow .hollow

variable {w v : Link}

lemma Num.Twin.later {a b : Num} (same : a.Twin w b) (later : w ≤ v) : a.Twin v b :=
  ⟨same.val, fun nan => later.2 _ _ (same.mark nan)⟩

lemma Value.Twin.later {a b : Value} (twin : a.Twin w b) (later : w ≤ v) : a.Twin v b := by
  cases twin with
  | none => exact .none
  | bool b => exact .bool b
  | num same => exact .num (same.later later)
  | int i => exact .int i
  | str s => exact .str s
  | seq linked => exact .seq (later.1 _ _ linked)
  | map linked => exact .map (later.1 _ _ linked)
  | error record => exact .error record
  | func name params linked => exact .func name params (later.1 _ _ linked)
  | stamp t linked => exact .stamp t (later.1 _ _ linked)

lemma Assoc.Twins.later {xs ys : Assoc Value} (twins : Assoc.Twins w xs ys) (later : w ≤ v) :
    Assoc.Twins v xs ys :=
  twins.imp fun _ _ same => ⟨same.1, same.2.later later⟩

namespace Assoc.Related

variable {α β : Type} {R : α → β → Prop} {xs : Assoc α} {ys : Assoc β} {a : α} {b : β}

section

variable (related : Assoc.Related R xs ys) (name : String)
include related name

lemma get? : Option.Rel R (Assoc.get? name xs) (Assoc.get? name ys) := by
  induction related with
  | nil => exact .none
  | @cons x y _ _ head _ ih =>
    obtain ⟨key, a⟩ := x
    obtain ⟨_, b⟩ := y
    obtain ⟨rfl, value⟩ := head
    unfold Assoc.get?
    by_cases same : key = name
    · rw [if_pos same, if_pos same]
      exact .some value
    · rw [if_neg same, if_neg same]
      exact ih

lemma set (value : R a b) : Assoc.Related R (Assoc.set name a xs) (Assoc.set name b ys) := by
  induction related with
  | nil => exact .cons ⟨rfl, value⟩ .nil
  | @cons x y _ _ head rest ih =>
    obtain ⟨key, old⟩ := x
    obtain ⟨_, old'⟩ := y
    obtain ⟨rfl, _⟩ := id head
    unfold Assoc.set
    by_cases same : key = name
    · rw [if_pos same, if_pos same]
      exact .cons ⟨rfl, value⟩ rest
    · rw [if_neg same, if_neg same]
      exact .cons head ih

lemma erase : Assoc.Related R (Assoc.erase name xs) (Assoc.erase name ys) := by
  induction related with
  | nil => exact .nil
  | @cons x y _ _ head rest ih =>
    obtain ⟨key, old⟩ := x
    obtain ⟨_, old'⟩ := y
    obtain ⟨rfl, _⟩ := id head
    unfold Assoc.erase
    by_cases same : key = name
    · rw [if_pos same, if_pos same]
      exact rest
    · rw [if_neg same, if_neg same]
      exact .cons head ih

end

lemma merge {more : Assoc α} {more' : Assoc β} (related : Assoc.Related R xs ys)
    (others : Assoc.Related R more more') : Assoc.Related R (Assoc.merge xs more) (Assoc.merge ys more') := by
  induction others generalizing xs ys with
  | nil => exact related
  | @cons x y _ _ head _ ih =>
    obtain ⟨key, a⟩ := x
    obtain ⟨_, b⟩ := y
    obtain ⟨rfl, value⟩ := head
    exact ih (set related key value)

end Assoc.Related

lemma Cell.Twin.later {c d : Cell} (twin : c.Twin w d) (later : w ≤ v) : c.Twin v d := by
  cases twin with
  | seq items => exact .seq (items.imp fun _ _ same => same.later later)
  | map entries => exact .map (entries.later later)
  | hollow => exact .hollow

/-! ## Joined stores -/

/-- Links are one to one and lead to what is there, and containers that go together hold twins. -/
structure Link.Joins (w : Link) (s t : Store) : Prop where
  left : ∀ {r q q'}, w.refs r q → w.refs r q' → q = q'
  right : ∀ {r r' q}, w.refs r q → w.refs r' q → r = r'
  there : ∀ {r q}, w.refs r q → r < s.cells.size ∧ q < t.cells.size
  cells : ∀ {r q}, w.refs r q → (s.cell r).Twin w (t.cell q)
  marks_left : ∀ {a b b'}, w.marks a b → w.marks a b' → b = b'
  marks_right : ∀ {a a' b}, w.marks a b → w.marks a' b → a = a'
  marks_there : ∀ {a b}, w.marks a b → a < s.nextMark ∧ b < t.nextMark
  constant : w.marks Num.constantMark Num.constantMark

def Linked (w : Link) (Q : Link → α → β → Prop) (x : α × Store) (y : β × Store) : Prop :=
  ∃ v, w ≤ v ∧ v.Joins x.2 y.2 ∧ Q v x.1 y.1

lemma Linked.same {Q : Link → α → β → Prop} {s t : Store} {x : α} {y : β} (joins : w.Joins s t)
    (related : Q w x y) : Linked w Q (x, s) (y, t) :=
  ⟨w, le_refl w, joins, related⟩

def Link.withRef (w : Link) (r q : Ref) : Link :=
  { w with refs := fun x y => w.refs x y ∨ (x = r ∧ y = q) }

def Link.withMark (w : Link) (a b : Nat) : Link :=
  { w with marks := fun x y => w.marks x y ∨ (x = a ∧ y = b) }

lemma Link.le_withRef (w : Link) (r q : Ref) : w ≤ w.withRef r q :=
  ⟨fun _ _ => .inl, fun _ _ => id⟩

lemma Link.le_withMark (w : Link) (a b : Nat) : w ≤ w.withMark a b :=
  ⟨fun _ _ => id, fun _ _ => .inl⟩

namespace Link.Joins

variable {s t : Store} (joins : w.Joins s t) {r q : Ref}

include joins

lemma items (linked : w.refs r q) : List.Forall₂ (Value.Twin w) (s.items r) (t.items q) := by
  have twin := joins.cells linked
  unfold Store.items
  generalize s.cell r = c at twin
  generalize t.cell q = d at twin
  cases twin with
  | seq items => exact items
  | map | hollow => exact .nil

lemma entries (linked : w.refs r q) : Assoc.Twins w (s.entries r) (t.entries q) := by
  have twin := joins.cells linked
  unfold Store.entries
  generalize s.cell r = c at twin
  generalize t.cell q = d at twin
  cases twin with
  | seq items => exact .nil
  | map entries => exact entries
  | hollow => exact .nil

lemma not_refs_left (beyond : s.cells.size ≤ r) : ¬ w.refs r q :=
  fun linked => Nat.not_lt.mpr beyond (joins.there linked).1

lemma not_refs_right (beyond : t.cells.size ≤ q) : ¬ w.refs r q :=
  fun linked => Nat.not_lt.mpr beyond (joins.there linked).2

lemma extend {v : Link} {s' t' : Store} (later : w ≤ v) (marks : v.marks = w.marks)
    (old : ∀ {r q}, v.refs r q → w.refs r q ∨ (s.cells.size ≤ r ∧ t.cells.size ≤ q))
    (left : ∀ {r q q'}, v.refs r q → v.refs r q' → s.cells.size ≤ r → q = q')
    (right : ∀ {r r' q}, v.refs r q → v.refs r' q → t.cells.size ≤ q → r = r')
    (there : ∀ {r q}, v.refs r q → r < s'.cells.size ∧ q < t'.cells.size)
    (kept : ∀ r, r < s.cells.size → s'.cell r = s.cell r) (kept' : ∀ q, q < t.cells.size → t'.cell q = t.cell q)
    (new : ∀ {r q}, v.refs r q → s.cells.size ≤ r → (s'.cell r).Twin v (t'.cell q))
    (nextMark : s'.nextMark = s.nextMark) (nextMark' : t'.nextMark = t.nextMark) : v.Joins s' t' where
  left first second := by
    rcases old first with before | ⟨beyond, _⟩
    · rcases old second with before' | ⟨beyond, _⟩
      · exact joins.left before before'
      · exact absurd before (joins.not_refs_left beyond)
    · exact left first second beyond
  right first second := by
    rcases old first with before | ⟨_, beyond⟩
    · rcases old second with before' | ⟨_, beyond⟩
      · exact joins.right before before'
      · exact absurd before (joins.not_refs_right beyond)
    · exact right first second beyond
  there := there
  cells {r q} linked := by
    rcases old linked with before | ⟨beyond, _⟩
    · obtain ⟨here, there⟩ := joins.there before
      rw [kept r here, kept' q there]
      exact (joins.cells before).later later
    · exact new linked beyond
  marks_left := marks ▸ joins.marks_left
  marks_right := marks ▸ joins.marks_right
  marks_there linked := by
    rw [marks] at linked
    rw [nextMark, nextMark']
    exact joins.marks_there linked
  constant := marks ▸ joins.constant

lemma grow {s' t' : Store} (kept : ∀ r, r < s.cells.size → r < s'.cells.size ∧ s'.cell r = s.cell r)
    (marks : s.nextMark ≤ s'.nextMark) (kept' : ∀ q, q < t.cells.size → q < t'.cells.size ∧ t'.cell q = t.cell q)
    (marks' : t.nextMark ≤ t'.nextMark) : w.Joins s' t' :=
  { joins with
    there := fun linked => (joins.there linked).imp (fun here => (kept _ here).1) fun there => (kept' _ there).1
    cells := fun linked => by
      rw [(kept _ (joins.there linked).1).2, (kept' _ (joins.there linked).2).2]
      exact joins.cells linked
    marks_there := fun linked => (joins.marks_there linked).imp (fun here => lt_of_lt_of_le here marks)
      fun there => lt_of_lt_of_le there marks' }

lemma alloc {c d : Cell} (twin : c.Twin w d) :
    (w.withRef s.cells.size t.cells.size).Joins (s.alloc c).2 (t.alloc d).2 := by
  have later := w.le_withRef s.cells.size t.cells.size
  refine joins.extend later rfl ?_ ?_ ?_ ?_ ?_ ?_ ?_ rfl rfl
  · intro r q linked
    exact linked.imp_right fun new => ⟨le_of_eq new.1.symm, le_of_eq new.2.symm⟩
  · intro r q q' first second beyond
    rw [(first.resolve_left (joins.not_refs_left beyond)).2, (second.resolve_left (joins.not_refs_left beyond)).2]
  · intro r r' q first second beyond
    rw [(first.resolve_left (joins.not_refs_right beyond)).1, (second.resolve_left (joins.not_refs_right beyond)).1]
  · intro r q linked
    simp only [Store.alloc, Array.size_push]
    rcases linked with before | ⟨rfl, rfl⟩
    · exact (joins.there before).imp Nat.lt_succ_of_lt Nat.lt_succ_of_lt
    · exact ⟨Nat.lt_succ_self _, Nat.lt_succ_self _⟩
  · intro r here
    rw [Store.alloc, cell_push, if_neg (ne_of_lt here)]
  · intro q here
    rw [Store.alloc, cell_push, if_neg (ne_of_lt here)]
  · intro r q linked beyond
    obtain ⟨rfl, rfl⟩ := linked.resolve_left (joins.not_refs_left beyond)
    rw [Store.alloc, Store.alloc, cell_push, cell_push, if_pos rfl, if_pos rfl]
    exact twin.later later

lemma newSeq {xs ys : List Value} (items : List.Forall₂ (Value.Twin w) xs ys) :
    Linked w Value.Twin (s.newSeq xs) (t.newSeq ys) :=
  ⟨_, w.le_withRef _ _, joins.alloc (.seq items), .seq (.inr ⟨rfl, rfl⟩)⟩

lemma newMap {xs ys : Assoc Value} (entries : Assoc.Twins w xs ys) :
    Linked w Value.Twin (s.newMap xs) (t.newMap ys) :=
  ⟨_, w.le_withRef _ _, joins.alloc (.map entries), .map (.inr ⟨rfl, rfl⟩)⟩

lemma ofFloat (x : Float) : (Value.ofFloat x).Twin w (Value.ofFloat x) :=
  .num ⟨rfl, fun _ => joins.constant⟩

lemma number (x : Float) : Linked w Value.Twin (s.number x) (t.number x) := by
  unfold Store.number
  split
  · refine ⟨w.withMark s.nextMark t.nextMark, w.le_withMark _ _, ?_, .num ⟨rfl, fun _ => .inr ⟨rfl, rfl⟩⟩⟩
    have old : ∀ {a b}, w.marks a b → a ≠ s.nextMark ∧ b ≠ t.nextMark :=
      fun linked => (joins.marks_there linked).imp ne_of_lt ne_of_lt
    exact {
      left := joins.left
      right := joins.right
      there := joins.there
      cells := fun linked => (joins.cells linked).later (w.le_withMark _ _)
      marks_left := by
        intro a b b' first second
        rcases first with before | ⟨rfl, rfl⟩
        · exact joins.marks_left before (second.resolve_right fun new => (old before).1 new.1)
        · exact (second.resolve_left fun before => (old before).1 rfl).2.symm
      marks_right := by
        intro a a' b first second
        rcases first with before | ⟨rfl, rfl⟩
        · exact joins.marks_right before (second.resolve_right fun new => (old before).2 new.2)
        · exact (second.resolve_left fun before => (old before).2 rfl).1.symm
      marks_there := by
        intro a b linked
        rcases linked with before | ⟨rfl, rfl⟩
        · exact (joins.marks_there before).imp Nat.lt_succ_of_lt Nat.lt_succ_of_lt
        · exact ⟨Nat.lt_succ_self _, Nat.lt_succ_self _⟩
      constant := .inl joins.constant }
  · exact ⟨w, le_refl w, joins, joins.ofFloat x⟩

lemma write (linked : w.refs r q) {c d : Cell} (twin : c.Twin w d) : w.Joins (s.write r c) (t.write q d) where
  left := joins.left
  right := joins.right
  there linked := by
    simp only [Store.write, Array.size_setIfInBounds]
    exact joins.there linked
  cells {x y} other := by
    rw [cell_write, cell_write]
    obtain ⟨here, there⟩ := joins.there other
    by_cases same : x = r
    · subst same
      obtain rfl := joins.left other linked
      rw [if_pos ⟨rfl, here⟩, if_pos ⟨rfl, there⟩]
      exact twin
    · have same' : y ≠ q := by
        rintro rfl
        exact same (joins.right other linked)
      rw [if_neg fun both => same both.1, if_neg fun both => same' both.1]
      exact joins.cells other
  marks_left := joins.marks_left
  marks_right := joins.marks_right
  marks_there := joins.marks_there
  constant := joins.constant

end Link.Joins

end TagScript
