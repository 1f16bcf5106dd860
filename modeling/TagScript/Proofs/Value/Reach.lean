import Mathlib.Data.Finset.Card
import Mathlib.Data.Finset.Range
import TagScript.Value

/-!
# What can be reached

The search goes down no further than there are containers left to find, so the depth it is given is
enough.
-/

namespace TagScript.Store

open List

variable {s : Store} {seen : List Ref} {r : Ref} {depth : Nat}

def unseen (s : Store) (seen : List Ref) : Nat :=
  (Finset.range s.cells.size \ seen.toFinset).card

lemma unseen_le_of_subset {more : List Ref} (subset : seen ⊆ more) : s.unseen more ≤ s.unseen seen := by
  refine Finset.card_le_card (Finset.sdiff_subset_sdiff (Finset.Subset.refl _) ?_)
  intro x mem
  exact List.mem_toFinset.mpr (subset (List.mem_toFinset.mp mem))

lemma card_sdiff_cons_lt {α : Type} [DecidableEq α] {all : Finset α} {x : α} {seen : List α} (inside : x ∈ all)
    (new : x ∉ seen) : (all \ (x :: seen).toFinset).card < (all \ seen.toFinset).card := by
  refine Finset.card_lt_card (Finset.ssubset_iff_of_subset ?_ |>.mpr ⟨x, ?_, ?_⟩)
  · refine Finset.sdiff_subset_sdiff (Finset.Subset.refl _) ?_
    intro y mem
    exact List.mem_toFinset.mpr (mem_cons_of_mem _ (List.mem_toFinset.mp mem))
  · simp [inside, new]
  · simp

lemma unseen_cons_lt (inside : r < s.cells.size) (new : r ∉ seen) : s.unseen (r :: seen) < s.unseen seen :=
  card_sdiff_cons_lt (Finset.mem_range.mpr inside) new

lemma unseen_le_size (s : Store) (seen : List Ref) : s.unseen seen ≤ s.cells.size := by
  refine le_trans (Finset.card_le_card Finset.sdiff_subset) ?_
  rw [Finset.card_range]

lemma refs_of_size_le (outside : s.cells.size ≤ r) : (s.cell r).refs = [] := by
  have absent : s.cell r = .seq [] := by simp [cell, Array.getD, Nat.not_lt.mpr outside]
  rw [absent]
  rfl

/-- A search adds to what was seen a set that is closed but for what was seen before. -/
structure Searched (s : Store) (seen : List Ref) (targets : List Ref) (found : List Ref) : Prop where
  keeps : seen ⊆ found
  covers : targets ⊆ found
  closed : ∀ x ∈ found, x ∈ seen ∨ (s.cell x).refs ⊆ found

lemma Searched.foldl {search : List Ref → Ref → List Ref} {bound : Nat}
    (each : ∀ seen r, s.unseen seen ≤ bound → s.Searched seen [r] (search seen r)) (targets : List Ref)
    (few : s.unseen seen ≤ bound) : s.Searched seen targets (targets.foldl search seen) := by
  induction targets generalizing seen with
  | nil => exact ⟨List.Subset.refl _, nil_subset _, fun x mem => .inl mem⟩
  | cons r rest ih =>
    have first := each seen r few
    have later := ih (le_trans (unseen_le_of_subset first.keeps) few)
    refine ⟨List.Subset.trans first.keeps later.keeps, ?_, ?_⟩
    · intro x mem
      rcases List.mem_cons.mp mem with rfl | further
      · exact later.keeps (first.covers (List.mem_singleton.mpr rfl))
      · exact later.covers further
    · intro x mem
      rcases later.closed x mem with before | closed
      · exact (first.closed x before).imp_right fun closed => List.Subset.trans closed later.keeps
      · exact .inr closed

lemma searched_visit (enough : s.unseen seen < depth) : s.Searched seen [r] (s.visit depth seen r) := by
  induction depth generalizing seen r with
  | zero => exact absurd enough (Nat.not_lt_zero _)
  | succ depth ih =>
    unfold visit
    split
    · rename_i known
      have mem : r ∈ seen := by simpa using known
      exact ⟨List.Subset.refl _, by simpa using mem, fun x mem => .inl mem⟩
    · rename_i unknown
      have new : r ∉ seen := by simpa using unknown
      have below : s.Searched (r :: seen) (s.cell r).refs ((s.cell r).refs.foldl (s.visit depth) (r :: seen)) := by
        by_cases inside : r < s.cells.size
        · have fewer : s.unseen (r :: seen) < depth :=
            lt_of_lt_of_le (unseen_cons_lt inside new) (Nat.le_of_lt_succ enough)
          exact Searched.foldl (fun seen x few => ih (lt_of_le_of_lt few fewer)) _ (le_refl _)
        · rw [refs_of_size_le (Nat.le_of_not_lt inside)]
          exact ⟨List.Subset.refl _, nil_subset _, fun x mem => .inl mem⟩
      refine ⟨List.Subset.trans (subset_cons_self r seen) below.keeps, ?_, ?_⟩
      · intro x mem
        exact below.keeps (List.mem_singleton.mp mem ▸ mem_cons_self)
      · intro x mem
        rcases below.closed x mem with before | closed
        · rcases List.mem_cons.mp before with rfl | older
          · exact .inr below.covers
          · exact .inl older
        · exact .inr closed

lemma visit_of_enough (enough : s.unseen seen < depth) {more : Nat} (above : depth ≤ more) :
    s.visit more seen r = s.visit depth seen r := by
  induction depth generalizing seen r more with
  | zero => exact absurd enough (Nat.not_lt_zero _)
  | succ depth ih =>
    cases more with
    | zero => exact absurd above (Nat.not_succ_le_zero _)
    | succ more =>
      unfold visit
      by_cases known : seen.contains r
      · rw [if_pos known, if_pos known]
      · have new : r ∉ seen := by simpa using known
        by_cases inside : r < s.cells.size
        · have few : s.unseen (r :: seen) < depth :=
            lt_of_lt_of_le (unseen_cons_lt inside new) (Nat.le_of_lt_succ enough)
          generalize r :: seen = found at few
          induction (s.cell r).refs generalizing found with
          | nil => rfl
          | cons x rest ih' =>
            rw [foldl_cons, foldl_cons, ih few (Nat.le_of_succ_le_succ above)]
            have fewer : s.unseen (s.visit depth found x) ≤ s.unseen found :=
              unseen_le_of_subset (searched_visit few).keeps
            exact ih' _ (lt_of_le_of_lt fewer few)
        · rw [refs_of_size_le (Nat.le_of_not_lt inside)]
          rfl

lemma reachable_eq (s : Store) (vs : List Value) {more : Nat} (above : s.cells.size < more) :
    s.reachable vs = (vs.filterMap Value.ref?).foldl (s.visit more) [] := by
  unfold reachable
  congr 1
  funext seen r
  exact (visit_of_enough (Nat.lt_succ_of_le (s.unseen_le_size seen)) above).symm

lemma searched_reachable (s : Store) (vs : List Value) :
    s.Searched [] (vs.filterMap Value.ref?) (s.reachable vs) :=
  Searched.foldl (fun _ _ few => searched_visit (Nat.lt_succ_of_le few)) _ (s.unseen_le_size [])

lemma reachable_closed {vs : List Value} {x : Ref} (mem : x ∈ s.reachable vs) :
    (s.cell x).refs ⊆ s.reachable vs :=
  ((s.searched_reachable vs).closed x mem).resolve_left (not_mem_nil)

lemma mem_reachable {vs : List Value} {v : Value} (mem : v ∈ vs) (link : v.ref? = some r) :
    r ∈ s.reachable vs :=
  (s.searched_reachable vs).covers (List.mem_filterMap.mpr ⟨v, mem, link⟩)

end TagScript.Store
