import TagScript.Proofs.Expr.Twin
import TagScript.Proofs.Sorting
import TagScript.Script.Run
import TagScript.Script.Method

/-!
# Methods on twins

A method on twins, with twins for arguments, comes to twins, or fails in the same way.
-/

namespace TagScript.Script.Method

open List

variable {w : Link} {s t : Store} {a b : Value} {xs ys args args' : List Value}

lemma forall₂_dropLast (items : Forall₂ (Value.Twin w) xs ys) : Forall₂ (Value.Twin w) xs.dropLast ys.dropLast := by
  rw [dropLast_eq_take, dropLast_eq_take, items.length_eq]
  exact forall₂_take _ items

lemma find?_eq (twin : a.Twin w b) (name : String) : find? a name = find? b name := by
  cases twin <;> rfl

lemma toInt_eq (twin : a.Twin w b) : a.leaf.toInt = b.leaf.toInt := by
  cases twin with
  | num same => simp only [Value.leaf, Datum.toInt, same.val]
  | _ => rfl

lemma bounds_eq (twins : Forall₂ (Value.Twin w) args args') : bounds args = bounds args' := by
  have bound : ∀ {a b : Value}, a.Twin w b → boundOf a = boundOf b := by
    intro a b twin
    unfold boundOf
    rw [toInt_eq twin]
  cases twins with
  | nil => rfl
  | cons first rest =>
    cases rest with
    | nil => simp only [bounds, bound first]
    | cons second rest =>
      cases rest with
      | nil =>
        have last := bound second
        cases second <;> simp only [bounds, bound first, last]
      | cons third rest => cases second <;> rfl

section

variable (joins : w.Joins s t)
include joins

lemma argumentText_eq (twin : a.Twin w b) : argumentText s a = argumentText t b := by
  unfold argumentText
  rw [joins.text_eq twin]

lemma without_twin (twin : a.Twin w b) (items : Forall₂ (Value.Twin w) xs ys) :
    Paired (Forall₂ (Value.Twin w)) (without s a xs) (without t b ys) := by
  induction items with
  | nil => exact .ok .nil
  | cons first rest ih =>
    unfold without
    rw [joins.sameItem_eq (le_refl _) joins.equal_eq first twin]
    refine (Paired.same _).bind ?_
    rintro same _ rfl
    split
    · exact .ok rest
    · exact ih.bind fun _ _ others => .ok (.cons first others)

abbrev Alike (w : Link) (x y : Outcome) : Prop := Linked w (fun v => Paired (Value.Twin v)) x y

lemma alike_failed (failure : Failure) : Alike w (.error failure, s) (.error failure, t) :=
  .same joins (.error rfl)

lemma alike_sortItems {r q : Ref} (linked : w.refs r q) : Alike w (sortItems s r) (sortItems t q) := by
  have emptied := joins.write linked (.seq .nil)
  obtain ⟨failures, items⟩ := Sorting.sorted_forall₂ (R := Value.Twin w) emptied.before_eq (joins.items linked)
  unfold sortItems
  simp only [failures]
  refine ⟨w, le_refl w, joins.write linked (.seq items), ?_⟩
  split
  · exact .ok (.seq linked)
  · exact .error rfl

section

variable {r q : Ref} (linked : w.refs r q) (method : Method) (twins : Forall₂ (Value.Twin w) args args')
include linked method twins

lemma alike_onSequence : Alike w (onSequence s r method args) (onSequence t q method args') := by
  have items := joins.items linked
  have changed : ∀ {xs ys : List Value}, Forall₂ (Value.Twin w) xs ys →
      Alike w (.ok (.seq r), s.write r (.seq xs)) (.ok (.seq q), t.write q (.seq ys)) :=
    fun items => ⟨w, le_refl w, joins.write linked (.seq items), .ok (.seq linked)⟩
  cases method with
  | push => exact changed (rel_append items twins)
  | unshift => exact changed (rel_append twins items)
  | slice =>
    unfold onSequence
    simp only [bounds_eq twins]
    split
    · exact alike_failed joins _
    · rename_i start stop _
      have part : Forall₂ (Value.Twin w) (sliceOf (s.items r) start stop) (sliceOf (t.items q) start stop) := by
        unfold sliceOf
        rw [items.length_eq]
        exact forall₂_drop _ (forall₂_take _ items)
      obtain ⟨v, later, joins, twin⟩ := joins.newSeq part
      exact ⟨v, later, joins, .ok twin⟩
  | pop =>
    cases twins with
    | nil => exact changed (forall₂_dropLast items)
    | cons first rest => exact alike_failed joins _
  | shift =>
    cases twins with
    | nil => exact changed (forall₂_drop 1 items)
    | cons first rest => exact alike_failed joins _
  | reverse =>
    cases twins with
    | nil => exact changed (rel_reverse items)
    | cons first rest => exact alike_failed joins _
  | sort =>
    cases twins with
    | nil => exact alike_sortItems joins linked
    | cons first rest => exact alike_failed joins _
  | concat =>
    cases twins with
    | nil => exact alike_failed joins _
    | cons first rest =>
      cases rest with
      | nil =>
        cases first with
        | seq other => exact changed (rel_append items (joins.items other))
        | _ => exact alike_failed joins _
      | cons second rest => cases first <;> exact alike_failed joins _
  | remove =>
    cases twins with
    | nil => exact alike_failed joins _
    | @cons a b _ _ first rest =>
      cases rest with
      | nil =>
        have left := without_twin joins first items
        unfold onSequence
        simp only []
        generalize without s a (s.items r) = x at left
        generalize without t b (t.items q) = y at left
        cases left with
        | error same => exact same ▸ alike_failed joins _
        | ok items => exact changed items
      | cons second rest => exact alike_failed joins _
  | clear =>
    cases twins with
    | nil => exact changed .nil
    | cons first rest => exact alike_failed joins _
  | put | delete | upper | lower | trim | replace => exact alike_failed joins _

lemma alike_onMapping : Alike w (onMapping s r method args) (onMapping t q method args') := by
  have entries := joins.entries linked
  have changed : ∀ {xs ys : Assoc Value}, Assoc.Twins w xs ys →
      Alike w (.ok (.map r), s.write r (.map xs)) (.ok (.map q), t.write q (.map ys)) :=
    fun entries => ⟨w, le_refl w, joins.write linked (.map entries), .ok (.map linked)⟩
  cases method with
  | put =>
    cases twins with
    | nil => exact alike_failed joins _
    | cons key rest =>
      cases rest with
      | nil => exact alike_failed joins _
      | cons value rest =>
        cases rest with
        | nil =>
          unfold onMapping
          simp only [argumentText_eq joins key]
          split
          · exact alike_failed joins _
          · exact changed (Assoc.Related.set entries _ value)
        | cons third rest => exact alike_failed joins _
  | delete =>
    cases twins with
    | nil => exact alike_failed joins _
    | cons key rest =>
      cases rest with
      | nil =>
        unfold onMapping
        simp only [argumentText_eq joins key]
        split
        · exact alike_failed joins _
        · exact changed (Assoc.Related.erase entries _)
      | cons second rest => exact alike_failed joins _
  | clear =>
    cases twins with
    | nil => exact changed .nil
    | cons first rest => exact alike_failed joins _
  | _ => exact alike_failed joins _

end

lemma onText_eq (text : String) (method : Method) (twins : Forall₂ (Value.Twin w) args args') :
    onText s text method args = onText t text method args' := by
  cases method with
  | slice => simp only [onText, bounds_eq twins]
  | concat =>
    have texts := Kindred.mapM (E := Eq) (k := argumentText s) twins fun a b twin => by
      rw [argumentText_eq joins twin]
      exact Paired.same _
    rw [forall₂_eq_eq_eq] at texts
    simp only [onText, texts.eq]
  | replace =>
    cases twins with
    | nil => rfl
    | cons first rest =>
      cases rest with
      | nil => rfl
      | cons second rest =>
        cases rest with
        | nil => simp only [onText, argumentText_eq joins first, argumentText_eq joins second]
        | cons third rest => cases second <;> rfl
  | trim =>
    cases twins with
    | nil => rfl
    | cons first rest =>
      cases rest with
      | nil | cons => cases first <;> rfl
  | _ => cases twins <;> rfl

lemma alike_apply (twin : a.Twin w b) (method : Method) (twins : Forall₂ (Value.Twin w) args args') :
    Alike w (method.apply s a args) (method.apply t b args') := by
  cases twin with
  | seq linked => exact alike_onSequence joins linked method twins
  | map linked => exact alike_onMapping joins linked method twins
  | str text =>
    refine .same joins ?_
    rw [onText_eq joins text method twins]
    exact (Paired.same (onText t text method args')).map fun x _ same => same ▸ .str x
  | _ => exact alike_failed joins _

lemma spread?_twin (twin : a.Twin w b) : Option.Rel (Forall₂ (Value.Twin w)) (spread? s a) (spread? t b) := by
  cases twin with
  | seq linked => exact .some (joins.items linked)
  | str text => exact .some (forall₂_same.mpr fun v mem => by
      obtain ⟨c, _, rfl⟩ := mem_map.mp mem
      exact .str _)
  | map linked =>
    refine .some ?_
    rw [forall₂_map_left_iff, forall₂_map_right_iff]
    refine (joins.entries linked).imp fun x y same => ?_
    rw [same.1]
    exact .str _
  | _ => exact .none

end

end TagScript.Script.Method
