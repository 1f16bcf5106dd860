import Mathlib.Data.Finset.Card
import Mathlib.Order.Interval.Finset.Nat
import TagScript.Proofs.Datum.Bare
import TagScript.Value.Comparison

/-!
# The depth is enough

Of the containers on a way down no two need the same depth, so there are no more levels than
containers.
-/

namespace TagScript

open List

variable {d : Datum} {n : Nat} {r : Ref} {v : Value} {α β : Type}

/-- A recursion over finitely many nodes: more depth keeps an end that was reached, and what needs a
depth has a part that needs one less. Then every end is reached within as many steps as there are
nodes. -/
lemma enough_of_descent (ends : Nat → α → Prop) (nodes : Finset α) (more : ∀ n a, ends n a → ends (n + 1) a)
    (descent : ∀ n a, ends (n + 2) a → ¬ ends (n + 1) a → a ∈ nodes ∧ ∃ b, ends (n + 1) b ∧ ¬ ends n b)
    {a : α} (reached : ends n a) : ends (nodes.card + 1) a := by
  classical
  have later : ∀ {m n a}, m ≤ n → ends m a → ends n a := by
    intro m n a below holds
    induction below with
    | refl => exact holds
    | step _ ih => exact more _ _ ih
  by_contra short
  -- Below a node that needs a great depth there is one for every lesser depth.
  have level : ∀ k a, ends (k + 1) a → ¬ ends k a → ∀ j, j ≤ k → ∃ b, ends (j + 1) b ∧ ¬ ends j b := by
    intro k
    induction k with
    | zero =>
      intro a holds fails j least
      obtain rfl : j = 0 := by omega
      exact ⟨a, holds, fails⟩
    | succ k ih =>
      intro a holds fails j below
      rcases Nat.lt_or_ge k j with top | lower
      · obtain rfl : j = k + 1 := by omega
        exact ⟨a, holds, fails⟩
      · obtain ⟨_, b, holds, fails⟩ := descent k a holds fails
        exact ih b holds fails j lower
  obtain ⟨k, far, holds, fails⟩ : ∃ k, nodes.card + 1 ≤ k ∧ ends (k + 1) a ∧ ¬ ends k a := by
    have exists_depth : ∃ n, ends n a := ⟨n, reached⟩
    have least := Nat.find_spec exists_depth
    have far : nodes.card + 1 < Nat.find exists_depth := by
      by_contra near
      exact short (later (Nat.le_of_not_lt near) least)
    refine ⟨Nat.find exists_depth - 1, by omega, ?_, Nat.find_min exists_depth (by omega)⟩
    rwa [Nat.sub_add_cancel (by omega)]
  have node : ∀ j : Nat, ∃ b, j < nodes.card + 1 → b ∈ nodes ∧ ends (j + 2) b ∧ ¬ ends (j + 1) b := by
    intro j
    by_cases below : j < nodes.card + 1
    · obtain ⟨b, holds, fails⟩ := level k a holds fails (j + 1) (by omega)
      exact ⟨b, fun _ => ⟨(descent j b holds fails).1, holds, fails⟩⟩
    · exact ⟨a, fun above => absurd above below⟩
  choose pick picked using node
  obtain ⟨i, inRange, j, inRange', different, same⟩ :=
    Finset.exists_ne_map_eq_of_card_lt_of_maps_to (s := Finset.range (nodes.card + 1)) (t := nodes) (f := pick)
      (by simp) fun j mem => (picked j (Finset.mem_range.mp mem)).1
  have apart : ∀ {i j}, i < j → i < nodes.card + 1 → j < nodes.card + 1 → pick i ≠ pick j := by
    intro i j below first second same
    obtain ⟨_, holds, _⟩ := picked i first
    obtain ⟨_, _, fails⟩ := picked j second
    rw [same] at holds
    exact fails (later (by omega) holds)
  rcases Nat.lt_or_gt_of_ne different with below | above
  · exact apart below (Finset.mem_range.mp inRange) (Finset.mem_range.mp inRange') same
  · exact apart above (Finset.mem_range.mp inRange') (Finset.mem_range.mp inRange) same.symm

/-! ## Reading -/

variable {xs : List α}

lemma mapM_eq_ok {ε : Type} {f : α → Except ε β} {ys : List β} :
    xs.mapM f = .ok ys ↔ List.Forall₂ (fun x y => f x = .ok y) xs ys := by
  induction xs generalizing ys with
  | nil => cases ys <;> simp [pure, Except.pure]
  | cons x xs ih =>
    rw [mapM_cons]
    cases first : f x with
    | error e => cases ys <;> simp [bind, Except.bind, first]
    | ok y =>
      cases rest : xs.mapM f with
      | error e => cases ys <;> simp [bind, Except.bind, ← ih, rest, first]
      | ok zs => cases ys <;> simp [bind, Except.bind, pure, Except.pure, ← ih, rest, first]

lemma exists_forall₂ {R : α → β → Prop} (each : ∀ x ∈ xs, ∃ y, R x y) : ∃ ys, List.Forall₂ R xs ys := by
  induction xs with
  | nil => exact ⟨[], .nil⟩
  | cons x xs ih =>
    obtain ⟨y, first⟩ := each x mem_cons_self
    obtain ⟨ys, rest⟩ := ih fun x mem => each x (mem_cons_of_mem _ mem)
    exact ⟨y :: ys, .cons first rest⟩

lemma exists_of_forall₂ {R : α → β → Prop} {ys : List β}
    (related : List.Forall₂ R xs ys) {x : α} (mem : x ∈ xs) : ∃ y ∈ ys, R x y := by
  induction related with
  | nil => cases mem
  | cons first _ ih =>
    rcases List.mem_cons.mp mem with rfl | mem
    · exact ⟨_, mem_cons_self .., first⟩
    · obtain ⟨y, inside, holds⟩ := ih mem
      exact ⟨y, mem_cons_of_mem _ inside, holds⟩

lemma map_eq_ok {ε : Type} {x : Except ε α} {f : α → β} {y : β} : x.map f = .ok y ↔ ∃ a, x = .ok a ∧ f a = y := by
  cases x <;> simp [Except.map]

namespace Store

variable {s : Store}

lemma read_seq_eq_ok:
    s.read (n + 1) (.seq r) = .ok d ↔
      ∃ ds, List.Forall₂ (fun v d => s.read n v = .ok d) (s.items r) ds ∧ .seq ds = d := by
  rw [read, map_eq_ok]
  simp only [mapM_eq_ok]

lemma read_map_eq_ok:
    s.read (n + 1) (.map r) = .ok d ↔
      ∃ es, List.Forall₂ (fun entry e => entry.1 = e.1 ∧ s.read n entry.2 = .ok e.2) (s.entries r) es ∧
        .map es = d := by
  have each : ∀ {entry : String × Value} {e : String × Datum},
      ((s.read n entry.2).map fun d => (entry.1, d)) = .ok e ↔ entry.1 = e.1 ∧ s.read n entry.2 = .ok e.2 := by
    intro entry e
    rw [map_eq_ok]
    constructor
    · rintro ⟨d, read, rfl⟩
      exact ⟨rfl, read⟩
    · rintro ⟨name, read⟩
      exact ⟨e.2, read, by rw [name]⟩
  rw [read, map_eq_ok]
  simp only [mapM_eq_ok, each]

lemma read_more (done : s.read n v = .ok d) : s.read (n + 1) v = .ok d := by
  induction n generalizing v d with
  | zero => cases v <;> simp [read] at done ⊢ <;> exact done
  | succ n ih =>
    cases v with
    | seq r =>
      rw [read_seq_eq_ok] at done ⊢
      obtain ⟨ds, items, rfl⟩ := done
      exact ⟨ds, items.imp fun _ _ => ih, rfl⟩
    | map r =>
      rw [read_map_eq_ok] at done ⊢
      obtain ⟨es, entries, rfl⟩ := done
      exact ⟨es, entries.imp fun _ _ same => ⟨same.1, ih same.2⟩, rfl⟩
    | _ => simpa [read] using done

lemma read_of_le {m : Nat} (below : m ≤ n) (done : s.read m v = .ok d) : s.read n v = .ok d := by
  induction below with
  | refl => exact done
  | step _ ih => exact read_more ih

noncomputable def containers (s : Store) : Finset Value :=
  open Classical in (Finset.range s.cells.size).image fun r =>
    match s.cell r with
    | .map _ => .map r
    | _ => .seq r

lemma card_containers (s : Store) : s.containers.card ≤ s.cells.size := by
  classical
  unfold containers
  exact Finset.card_image_le.trans (Finset.card_range _).le

lemma cell_of_le (outside : s.cells.size ≤ r) : s.cell r = .seq [] := by
  simp [cell, outside]

lemma seq_mem_containers (mem : v ∈ s.items r) : .seq r ∈ s.containers := by
  classical
  have inside : r < s.cells.size := by
    by_contra outside
    rw [items, cell_of_le (Nat.le_of_not_lt outside)] at mem
    cases mem
  refine Finset.mem_image.mpr ⟨r, Finset.mem_range.mpr inside, ?_⟩
  unfold items at mem
  split at mem
  · rename_i same
    rw [same]
  · cases mem

lemma map_mem_containers {entry : String × Value} (mem : entry ∈ s.entries r) : .map r ∈ s.containers := by
  classical
  have inside : r < s.cells.size := by
    by_contra outside
    rw [entries, cell_of_le (Nat.le_of_not_lt outside)] at mem
    cases mem
  refine Finset.mem_image.mpr ⟨r, Finset.mem_range.mpr inside, ?_⟩
  cases same : s.cell r with
  | map inner => rfl
  | _ =>
    rw [entries, same] at mem
    cases mem

lemma read_descent (done : ∃ d, s.read (n + 2) v = .ok d)
    (short : ¬ ∃ d, s.read (n + 1) v = .ok d) :
    v ∈ s.containers ∧ ∃ w, (∃ d, s.read (n + 1) w = .ok d) ∧ ¬ ∃ d, s.read n w = .ok d := by
  obtain ⟨d, done⟩ := done
  cases v with
  | seq r =>
    obtain ⟨ds, items, -⟩ := read_seq_eq_ok.mp done
    have unread : ∃ v ∈ s.items r, ¬ ∃ d, s.read n v = .ok d := by
      by_contra none
      push Not at none
      obtain ⟨ds, items⟩ := exists_forall₂ none
      exact short ⟨_, read_seq_eq_ok.mpr ⟨ds, items, rfl⟩⟩
    obtain ⟨v, mem, unread⟩ := unread
    obtain ⟨d, _, read⟩ := exists_of_forall₂ items mem
    exact ⟨seq_mem_containers mem, v, ⟨d, read⟩, unread⟩
  | map r =>
    obtain ⟨es, entries, -⟩ := read_map_eq_ok.mp done
    have unread : ∃ entry ∈ s.entries r, ¬ ∃ d, s.read n entry.2 = .ok d := by
      by_contra none
      push Not at none
      obtain ⟨es, entries⟩ := exists_forall₂
        (R := fun (entry : String × Value) (e : String × Datum) => entry.1 = e.1 ∧ s.read n entry.2 = .ok e.2)
        fun entry mem => by
          obtain ⟨d, read⟩ := none entry mem
          exact ⟨(entry.1, d), rfl, read⟩
      exact short ⟨_, read_map_eq_ok.mpr ⟨es, entries, rfl⟩⟩
    obtain ⟨entry, mem, unread⟩ := unread
    obtain ⟨e, _, _, read⟩ := exists_of_forall₂ entries mem
    exact ⟨map_mem_containers mem, entry.2, ⟨e.2, read⟩, unread⟩
  | _ => exact absurd ⟨d, by simpa [read] using done⟩ short

lemma read_depth (done : s.read n v = .ok d) : s.read s.depth v = .ok d := by
  obtain ⟨e, read⟩ := enough_of_descent (fun n v => ∃ d, s.read n v = .ok d) s.containers
    (fun n v ⟨d, done⟩ => ⟨d, read_more done⟩) (fun n v => read_descent) ⟨d, done⟩
  have read := read_of_le (Nat.add_le_add_right s.card_containers 1) read
  have one := read_of_le (Nat.le_max_left n s.depth) done
  have other := read_of_le (Nat.le_max_right n s.depth) read
  rw [one] at other
  cases other
  exact read

end Store

end TagScript
