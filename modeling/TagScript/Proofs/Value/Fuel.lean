import Mathlib.Data.Finset.Prod
import TagScript.Proofs.Value.Depth
import TagScript.Proofs.Value.Reach

/-!
# How deep texts and comparisons go

From any greater bound than the one they are given, texts and comparisons come to the same.
-/

namespace TagScript

open List

variable {ε α β : Type} {above : List (Ref × Ref)} {n : Nat}

/-! ## Computations by steps -/

lemma steady_of_descent {F : Nat → α → Except ε β} {endless : ε} (nodes : Finset α)
    (more : ∀ n a, F n a ≠ .error endless → F (n + 1) a = F n a)
    (descent : ∀ n a, F (n + 2) a ≠ .error endless → F (n + 1) a = .error endless →
      a ∈ nodes ∧ ∃ b, F (n + 1) b ≠ .error endless ∧ F n b = .error endless)
    {m : Nat} (enough : nodes.card < n) (above : n ≤ m) (a : α) : F m a = F n a := by
  have stays : ∀ {n m}, n ≤ m → F n a ≠ .error endless → F m a = F n a := by
    intro n m above done
    induction above with
    | refl => rfl
    | step _ ih => rw [more _ _ (ih ▸ done), ih]
  by_cases done : F n a = .error endless
  · rw [done]
    by_contra other
    have reached := enough_of_descent (fun n a => F n a ≠ .error endless) nodes
      (fun n a done => by rw [more n a done]; exact done)
      (fun n a done short => (descent n a done (not_not.mp short)).imp_right fun ⟨b, here, there⟩ =>
        ⟨b, here, not_not.mpr there⟩) other
    exact reached ((stays enough reached).symm.trans done)
  · exact stays above done

variable {f g : α → Except ε β} {endless : ε}

lemma mapM_steady (more : ∀ x, f x ≠ .error endless → g x = f x) {xs : List α}
    (done : xs.mapM f ≠ .error endless) : xs.mapM g = xs.mapM f := by
  induction xs with
  | nil => rfl
  | cons x rest ih =>
    rw [mapM_cons] at done
    rw [mapM_cons, mapM_cons]
    have first : f x ≠ .error endless := by
      intro failed
      rw [failed] at done
      exact done rfl
    rw [more x first]
    cases found : f x with
    | error e => rfl
    | ok y =>
      rw [found] at done
      have others : rest.mapM f ≠ .error endless := by
        intro failed
        rw [failed] at done
        exact done rfl
      rw [ih others]

lemma exists_of_mapM (more : ∀ x, f x ≠ .error endless → g x = f x) {xs : List α}
    (short : xs.mapM f = .error endless) (done : xs.mapM g ≠ .error endless) :
    ∃ x ∈ xs, f x = .error endless ∧ g x ≠ .error endless := by
  by_contra none
  have same : ∀ x ∈ xs, g x = f x := by
    intro x mem
    by_cases first : f x = .error endless
    · rw [first]
      by_contra other
      exact none ⟨x, mem, first, other⟩
    · exact more x first
  exact done ((mapM_congr same).trans short)

lemma map_eq_error {γ : Type} {x : Except ε β} {h : β → γ} {e : ε} : x.map h = .error e ↔ x = .error e := by
  cases x <;> simp [Except.map]

namespace Store

variable {s : Store}

/-! ## Texts -/

lemma textWithin_more (n : Nat) (v : Value) (done : s.textWithin n v ≠ .error (.endless false)) :
    s.textWithin (n + 1) v = s.textWithin n v := by
  induction n generalizing v with
  | zero =>
    cases v with
    | seq r => exact absurd rfl done
    | _ => rfl
  | succ n ih =>
    cases v with
    | seq r =>
      have items : (s.items r).mapM (s.textWithin n) ≠ .error (.endless false) := by
        intro failed
        rw [textWithin, failed] at done
        exact done rfl
      rw [textWithin, textWithin, mapM_steady ih items]
    | _ => rfl

lemma textWithin_descent (n : Nat) (v : Value) (done : s.textWithin (n + 2) v ≠ .error (.endless false))
    (short : s.textWithin (n + 1) v = .error (.endless false)) :
    v ∈ s.containers ∧
      ∃ u, s.textWithin (n + 1) u ≠ .error (.endless false) ∧ s.textWithin n u = .error (.endless false) := by
  cases v with
  | seq r =>
    rw [textWithin, map_eq_error] at short
    rw [textWithin, Ne, map_eq_error] at done
    obtain ⟨u, mem, here, there⟩ := exists_of_mapM (fun v => textWithin_more n v) short done
    exact ⟨seq_mem_containers mem, u, there, here⟩
  | _ => exact absurd short done

lemma text_eq (s : Store) (v : Value) (enough : s.cells.size < n) : s.text v = s.textWithin n v := by
  have steady : ∀ {n m}, s.containers.card < n → n ≤ m → s.textWithin m v = s.textWithin n v :=
    fun enough above => steady_of_descent s.containers textWithin_more textWithin_descent enough above v
  have few := s.card_containers
  rcases le_total s.depth n with above | below
  · exact (steady (Nat.lt_succ_of_le few) above).symm
  · exact steady (lt_of_le_of_lt few enough) below

/-! ## Equality -/

def unmet (s : Store) (above : List (Ref × Ref)) : Nat :=
  ((Finset.range s.cells.size ×ˢ Finset.range s.cells.size) \ above.toFinset).card

lemma unmet_cons_lt {r q : Ref} (here : r < s.cells.size) (there : q < s.cells.size)
    (new : (r, q) ∉ above) : s.unmet ((r, q) :: above) < s.unmet above :=
  card_sdiff_cons_lt (by simp [here, there]) new

lemma unmet_nil (s : Store) : s.unmet [] = s.cells.size * s.cells.size := by
  simp [unmet]

lemma items_of_size_le {r : Ref} (beyond : s.cells.size ≤ r) : s.items r = [] := by
  rw [items, cell_of_le beyond]

lemma entries_of_size_le {r : Ref} (beyond : s.cells.size ≤ r) : s.entries r = [] := by
  rw [entries, cell_of_le beyond]

/-- A comparison comes to the same from any number of steps that exceeds the pairs left. -/
lemma equalWithin_of_enough {m : Nat} (enough : s.unmet above < n) (more : n ≤ m)
    (a b : Value) : s.equalWithin m above a b = s.equalWithin n above a b := by
  induction n generalizing above m a b with
  | zero => exact absurd enough (Nat.not_lt_zero _)
  | succ n ih =>
    cases m with
    | zero => exact absurd more (Nat.not_succ_le_zero _)
    | succ m =>
      have deeper : ∀ {r q}, r < s.cells.size → q < s.cells.size → ¬ above.contains (r, q) = true →
          s.equalWithin m ((r, q) :: above) = s.equalWithin n ((r, q) :: above) := by
        intro r q here there new
        have fewer := unmet_cons_lt here there (by simpa using new)
        funext a b
        exact ih (lt_of_lt_of_le fewer (Nat.le_of_lt_succ enough)) (Nat.le_of_succ_le_succ more) a b
      cases a with
      | seq r =>
        cases b with
        | seq q =>
          simp only [equalWithin]
          split
          · rfl
          · rename_i same
            split
            · rfl
            · rename_i new
              by_cases here : r < s.cells.size
              · by_cases there : q < s.cells.size
                · rw [deeper here there new]
                · have empty := items_of_size_le (Nat.le_of_not_lt there)
                  have empty' : s.items r = [] := by simpa [empty] using same
                  rw [empty, empty']
                  rfl
              · have empty := items_of_size_le (Nat.le_of_not_lt here)
                have length := not_not.mp same
                rw [empty] at length
                rw [empty, List.length_eq_zero_iff.mp length.symm]
                rfl
        | _ => rfl
      | map r =>
        cases b with
        | map q =>
          simp only [equalWithin]
          split
          · rfl
          · rename_i same
            split
            · rfl
            · rename_i new
              by_cases here : r < s.cells.size
              · by_cases there : q < s.cells.size
                · rw [deeper here there new]
                · have empty := entries_of_size_le (Nat.le_of_not_lt there)
                  have empty' : s.entries r = [] := by simpa [empty] using same
                  rw [empty, empty']
                  rfl
              · have empty := entries_of_size_le (Nat.le_of_not_lt here)
                rw [empty]
                rfl
        | _ => rfl
      | _ => rfl

lemma size_mul_size_lt (s : Store) : s.cells.size * s.cells.size < s.comparisonDepth :=
  Nat.mul_lt_mul_of_lt_of_lt (Nat.lt_succ_self _) (Nat.lt_succ_self _)

lemma equal_eq (s : Store) (enough : s.cells.size * s.cells.size < n) : s.equal = s.equalWithin n [] := by
  funext a b
  rcases le_total s.comparisonDepth n with above | below
  · exact (equalWithin_of_enough (s.unmet_nil ▸ s.size_mul_size_lt) above a b).symm
  · exact equalWithin_of_enough (s.unmet_nil ▸ enough) below a b

/-! ## Order -/

section

variable {equal f g : Value → Value → Except Fault Bool} {endless : Fault}

lemma itemsBefore_steady (more : ∀ a b, f a b ≠ .error endless → g a b = f a b) {xs ys : List Value}
    (done : itemsBefore equal f xs ys ≠ .error endless) :
    itemsBefore equal g xs ys = itemsBefore equal f xs ys := by
  induction xs generalizing ys with
  | nil => rfl
  | cons a as ih =>
    cases ys with
    | nil => rfl
    | cons b bs =>
      unfold itemsBefore at done ⊢
      cases same : sameItem equal a b with
      | error e => rfl
      | ok agree =>
        rw [same] at done
        cases agree with
        | true => exact ih done
        | false => exact more a b done

lemma exists_of_itemsBefore {xs ys : List Value}
    (short : itemsBefore equal f xs ys = .error endless) (done : itemsBefore equal g xs ys ≠ .error endless) :
    ∃ a ∈ xs, ∃ b ∈ ys, f a b = .error endless ∧ g a b ≠ .error endless := by
  induction xs generalizing ys with
  | nil => exact absurd short done
  | cons a as ih =>
    cases ys with
    | nil => exact absurd short done
    | cons b bs =>
      unfold itemsBefore at short done
      cases same : sameItem equal a b with
      | error e =>
        rw [same] at short done
        exact absurd short done
      | ok agree =>
        rw [same] at short done
        cases agree with
        | true =>
          obtain ⟨x, among, y, among', here, there⟩ := ih short done
          exact ⟨x, mem_cons_of_mem _ among, y, mem_cons_of_mem _ among', here, there⟩
        | false => exact ⟨a, mem_cons_self, b, mem_cons_self, short, done⟩

end

lemma beforeWithin_more (n : Nat) (a b : Value) (done : s.beforeWithin n a b ≠ .error (.endless true)) :
    s.beforeWithin (n + 1) a b = s.beforeWithin n a b := by
  induction n generalizing a b with
  | zero =>
    cases a with
    | seq r =>
      cases b with
      | seq q => exact absurd rfl done
      | _ => rfl
    | _ => rfl
  | succ n ih =>
    cases a with
    | seq r =>
      cases b with
      | seq q => exact itemsBefore_steady ih done
      | _ => rfl
    | _ => rfl

lemma beforeWithin_descent (n : Nat) (a b : Value) (done : s.beforeWithin (n + 2) a b ≠ .error (.endless true))
    (short : s.beforeWithin (n + 1) a b = .error (.endless true)) :
    (a, b) ∈ s.containers ×ˢ s.containers ∧ ∃ x y,
      s.beforeWithin (n + 1) x y ≠ .error (.endless true) ∧ s.beforeWithin n x y = .error (.endless true) := by
  cases a with
  | seq r =>
    cases b with
    | seq q =>
      obtain ⟨x, among, y, among', here, there⟩ := exists_of_itemsBefore short done
      exact ⟨Finset.mem_product.mpr ⟨seq_mem_containers among, seq_mem_containers among'⟩, x, y, there, here⟩
    | _ => exact absurd short done
  | _ => exact absurd short done

lemma before_eq (s : Store) (enough : s.cells.size * s.cells.size < n) : s.before = s.beforeWithin n := by
  have steady : ∀ {n m}, (s.containers ×ˢ s.containers).card < n → n ≤ m → ∀ x : Value × Value,
      s.beforeWithin m x.1 x.2 = s.beforeWithin n x.1 x.2 := by
    intro n m enough above
    exact steady_of_descent (F := fun n (x : Value × Value) => s.beforeWithin n x.1 x.2)
      (s.containers ×ˢ s.containers) (fun n x => beforeWithin_more n x.1 x.2)
      (fun n x done short => (beforeWithin_descent n x.1 x.2 done short).imp_right fun ⟨a, b, rest⟩ => ⟨(a, b), rest⟩)
      enough above
  have few : (s.containers ×ˢ s.containers).card ≤ s.cells.size * s.cells.size := by
    rw [Finset.card_product]
    exact Nat.mul_le_mul s.card_containers s.card_containers
  funext a b
  rcases le_total s.comparisonDepth n with above | below
  · exact (steady (lt_of_le_of_lt few s.size_mul_size_lt) above (a, b)).symm
  · exact steady (lt_of_le_of_lt few enough) below (a, b)

end Store

end TagScript
