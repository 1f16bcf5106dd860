import Mathlib.Data.List.Forall2
import Mathlib.Data.List.InsertIdx
import TagScript.Sorting

/-!
# Sorting looks at items through comparisons alone

If items are exchanged for others and comparisons come to the same, sorting takes the same course.
So what is sorted are the items that were there, and two lists that compare alike are sorted alike.
-/

namespace TagScript.Sorting

open List Option

variable {ε α β : Type}

abbrev along (before : β → β → Except ε Bool) (f : α → β) : α → α → Except ε Bool :=
  fun x y => before (f x) (f y)

variable (before : β → β → Except ε Bool) (f : α → β)

/-! ## Runs and insertion -/

lemma runLength_go_map (falling : Bool) (last : α) (count : Nat) (xs : List α) :
    runLength.go before falling (f last) count (xs.map f) = runLength.go (along before f) falling last count xs := by
  induction xs generalizing last count with
  | nil => rfl
  | cons x xs ih => simp only [map_cons, runLength.go, ih]

lemma runLength_map (xs : List α) : runLength before (xs.map f) = runLength (along before f) xs := by
  match xs with
  | [] => rfl
  | [x] => rfl
  | x :: y :: rest => simp only [map_cons, runLength, runLength_go_map]

lemma place_map (sorted : Array α) (x : α) (fuel low high : Nat) :
    place before (sorted.map f) (f x) fuel low high = place (along before f) sorted x fuel low high := by
  induction fuel generalizing low high with
  | zero => rfl
  | succ fuel ih =>
    simp only [place, Array.getElem?_map]
    split
    · cases sorted[low + (high - low) / 2]? with
      | none => rfl
      | some y => simp only [map_some, ih]
    · rfl

lemma insertIdxIfInBounds_map (xs : Array α) (i : Nat) (x : α) :
    (xs.map f).insertIdxIfInBounds i (f x) = (xs.insertIdxIfInBounds i x).map f := by
  obtain ⟨xs⟩ := xs
  simp only [map_toArray, insertIdxIfInBounds_toArray, map_insertIdx]

lemma insertAll_map (sorted : Array α) (xs : List α) :
    insertAll before (sorted.map f) (xs.map f) =
      ((insertAll (along before f) sorted xs).1, (insertAll (along before f) sorted xs).2.map f) := by
  induction xs generalizing sorted with
  | nil => simp [insertAll]
  | cons x rest ih =>
    simp only [map_cons, insertAll, place_map, Array.size_map]
    cases place (along before f) sorted x (sorted.size + 1) 0 sorted.size with
    | error e => simp
    | ok i => simp only [insertIdxIfInBounds_map, ih]

/-! ## Leads -/

section

variable (leads : β → Except ε Bool)

lemma halve_map (fromBack : Bool) (xs : Array α) (fuel low high : Nat) :
    halve leads fromBack (xs.map f) fuel low high = halve (fun x => leads (f x)) fromBack xs fuel low high := by
  induction fuel generalizing low high with
  | zero => rfl
  | succ fuel ih =>
    simp only [halve, Array.getElem?_map]
    split
    · generalize (if fromBack = true then high - 1 - (high - low) / 2 else low + (high - low) / 2) = middle
      cases xs[middle]? with
      | none => rfl
      | some x => simp only [map_some, ih]
    · rfl

lemma stride_map (xs : Array α) (fuel last next : Nat) :
    stride leads (xs.map f) fuel last next = stride (fun x => leads (f x)) xs fuel last next := by
  induction fuel generalizing last next with
  | zero => rfl
  | succ fuel ih =>
    simp only [stride, Array.getElem?_map, Array.size_map]
    cases xs[next]? with
    | none => rfl
    | some x => simp only [map_some, ih]

lemma leadLength_map (fromBack : Bool) (xs : List α) :
    leadLength leads fromBack (xs.map f) = leadLength (fun x => leads (f x)) fromBack xs := by
  cases xs with
  | nil => rfl
  | cons x rest =>
    have array : ((x :: rest).map f).toArray = (x :: rest).toArray.map f := by simp
    simp only [map_cons, leadLength]
    rw [← map_cons, array, Array.size_map]
    simp only [stride_map, halve_map]

end

/-! ## Merging two runs -/

def Merge.map (m : Merge α) : Merge β := ⟨m.held.map f, m.moved.map f, m.out.map f, m.patience⟩

def Progress.map : Progress ε α → Progress ε β
  | .onward m => .onward (m.map f)
  | .settled m => .settled (m.map f)
  | .stuck e m => .stuck e (m.map f)

def Merged.map (m : Merged ε α) : Merged ε β := ⟨m.failure, m.items.map f, m.patience⟩

namespace Merge

variable (m : Merge α)

lemma close_map (failure : Option ε) : (m.map f).close failure = (m.close failure).map f := by
  simp [close, map, Merged.map]

lemma putHeld_map (n : Nat) : (m.map f).putHeld n = (m.putHeld n).map f := by
  simp [putHeld, map, map_take, map_drop]

lemma putMoved_map (n : Nat) : (m.map f).putMoved n = (m.putMoved n).map f := by
  simp [putMoved, map, map_take, map_drop]

lemma progress_map : (m.map f).progress = (m.progress : Progress ε α).map f := by
  obtain ⟨held, moved, out, patience⟩ := m
  match held, moved with
  | [], _ => rfl
  | [_], [] => rfl
  | _ :: _ :: _, [] => rfl
  | [_], _ :: _ => simp [progress, map, Progress.map]
  | _ :: _ :: _, _ :: _ => rfl

lemma held_map : (m.map f).held = m.held.map f := rfl

lemma moved_map : (m.map f).moved = m.moved.map f := rfl

lemma strideHeld_map (fromBack : Bool) :
    (m.map f).strideHeld before fromBack =
      ((m.strideHeld (along before f) fromBack).1.map f, (m.strideHeld (along before f) fromBack).2) := by
  unfold strideHeld
  cases moved : m.moved with
  | nil => simp [map, moved, Progress.map]
  | cons key rest =>
    have lead : leadLength (fun x => (before (f key) x).map (!·)) fromBack (m.map f).held =
        leadLength (fun x => (along before f key x).map (!·)) fromBack m.held := leadLength_map f _ fromBack m.held
    simp only [moved_map, moved, map_cons, lead]
    cases leadLength (fun x => (along before f key x).map (!·)) fromBack m.held with
    | error e => rfl
    | ok lead =>
      simp only [putHeld_map, progress_map (ε := ε)]
      cases ((m.putHeld lead).progress : Progress ε α) with
      | onward next => simp only [Progress.map, putMoved_map, progress_map (ε := ε)]
      | settled | stuck => rfl

lemma strideMoved_map (fromBack : Bool) :
    (m.map f).strideMoved before fromBack =
      ((m.strideMoved (along before f) fromBack).1.map f, (m.strideMoved (along before f) fromBack).2) := by
  unfold strideMoved
  cases held : m.held with
  | nil => simp [map, held, Progress.map]
  | cons key rest =>
    have lead : leadLength (fun x => before x (f key)) fromBack (m.map f).moved =
        leadLength (fun x => along before f x key) fromBack m.moved := leadLength_map f _ fromBack m.moved
    simp only [held_map, held, map_cons, lead]
    cases leadLength (fun x => along before f x key) fromBack m.moved with
    | error e => rfl
    | ok lead =>
      simp only [putMoved_map, progress_map (ε := ε)]
      cases ((m.putMoved lead).progress : Progress ε α) with
      | onward next => simp only [Progress.map, putHeld_map, progress_map (ε := ε)]
      | settled | stuck => rfl

lemma strideBoth_map (fromBack : Bool) :
    (m.map f).strideBoth before fromBack =
      ((m.strideBoth (along before f) fromBack).1.map f, (m.strideBoth (along before f) fromBack).2) := by
  unfold strideBoth
  cases fromBack with
  | true =>
    simp only [if_true, strideMoved_map]
    rcases m.strideMoved (along before f) true with ⟨progress, lead⟩
    cases progress with
    | onward next => simp only [Progress.map, strideHeld_map]
    | settled | stuck => rfl
  | false =>
    simp only [Bool.false_eq_true, if_false, strideHeld_map]
    rcases m.strideHeld (along before f) false with ⟨progress, lead⟩
    cases progress with
    | onward next => simp only [Progress.map, strideMoved_map]
    | settled | stuck => rfl

lemma run_map (fromBack : Bool) (fuel : Nat) (pace : Pace) :
    (m.map f).run before fromBack fuel pace = (m.run (along before f) fromBack fuel pace).map f := by
  induction fuel generalizing m pace with
  | zero => exact close_map f m none
  | succ fuel ih =>
    have patient : ∀ (m : Merge α) n, { m.map f with patience := n } = Merge.map f { m with patience := n } :=
      fun _ _ => rfl
    cases pace with
    | strides =>
      unfold run
      have patience : (m.map f).patience = m.patience := rfl
      rw [patience, patient, strideBoth_map]
      rcases Merge.strideBoth (along before f) fromBack
        { m with patience := if m.patience > 1 then m.patience - 1 else m.patience } with ⟨progress, long⟩
      cases progress with
      | onward next =>
        cases long with
        | true => exact ih next .strides
        | false => exact ih { next with patience := next.patience + 1 } (.items 0 0)
      | settled next => exact close_map f next none
      | stuck e next => exact close_map f next (some e)
    | items heldWins movedWins =>
      -- One item is put out, and the merge goes on as its progress says.
      have onward : ∀ (next : Merge α) (wins : Nat) (pace : Pace),
          (match (next.map f).progress with
            | .onward m =>
              if m.patience ≤ wins then { m with patience := m.patience + 1 }.run before fromBack fuel .strides
              else m.run before fromBack fuel pace
            | .settled m => m.close none
            | .stuck e m => m.close (some e) : Merged ε β) =
          (match next.progress with
            | .onward m =>
              if m.patience ≤ wins then { m with patience := m.patience + 1 }.run (along before f) fromBack fuel .strides
              else m.run (along before f) fromBack fuel pace
            | .settled m => m.close none
            | .stuck e m => m.close (some e) : Merged ε α).map f := by
        intro next wins pace
        rw [progress_map (ε := ε)]
        cases (next.progress : Progress ε α) with
        | onward m =>
          have patience : (m.map f).patience = m.patience := rfl
          simp only [Progress.map, patience]
          split
          · exact ih { m with patience := m.patience + 1 } .strides
          · exact ih m pace
        | settled m => exact close_map f m none
        | stuck e m => exact close_map f m (some e)
      unfold run
      rw [held_map, moved_map]
      cases m.held with
      | nil => exact close_map f m _
      | cons x xs =>
        cases m.moved with
        | nil => exact close_map f m _
        | cons y ys =>
          simp only [map_cons, along]
          cases before (f y) (f x) with
          | error e => exact close_map f m (some e)
          | ok movedFirst =>
            cases movedFirst with
            | true =>
              simp only [if_true, putMoved_map]
              exact onward _ _ _
            | false =>
              simp only [Bool.false_eq_true, if_false, putHeld_map]
              exact onward _ _ _

lemma start_map (fromBack : Bool) (patience : Nat) (held moved : List α) :
    start before fromBack patience (held.map f) (moved.map f) =
      (start (along before f) fromBack patience held moved).map f := by
  unfold start
  have initial : Merge.mk (held.map f) (moved.map f) [] patience = (Merge.mk held moved [] patience).map f := rfl
  rw [initial, putMoved_map, progress_map (ε := ε)]
  cases (((Merge.mk held moved [] patience).putMoved 1).progress : Progress ε α) with
  | onward m =>
    simp only [Progress.map, length_map]
    exact run_map before f m fromBack _ _
  | settled m => exact close_map f m none
  | stuck e m => exact close_map f m (some e)

end Merge

lemma mergeRuns_map (patience : Nat) (left right : List α) :
    mergeRuns before patience (left.map f) (right.map f) = (mergeRuns (along before f) patience left right).map f := by
  unfold mergeRuns
  simp only [head?_map]
  cases right.head? with
  | none => simp [Merged.map]
  | some first =>
    simp only [map_some, leadLength_map]
    cases leadLength (fun x => (along before f first x).map (!·)) false left with
    | error e => simp [Merged.map]
    | ok inFront =>
      simp only [← map_drop, getLast?_map]
      cases (left.drop inFront).getLast? with
      | none => simp [Merged.map]
      | some last =>
        simp only [map_some, ← map_reverse, leadLength_map, length_map]
        cases leadLength (fun x => (along before f x last).map (!·)) true right.reverse with
        | error e => simp [Merged.map]
        | ok behind =>
          simp only [← map_take, isEmpty_map, length_map]
          split
          · simp [Merged.map]
          · split
            · rw [Merge.start_map]
              simp [Merged.map, map_drop, map_take]
            · rw [← map_reverse, Merge.start_map (fun x y => before y x)]
              simp [Merged.map, map_drop, map_take]

/-! ## Which runs are merged -/

def Run.map (run : Run α) : Run β := ⟨run.items.map f, run.depth⟩

def Pile.map (p : Pile α) : Pile β := ⟨p.runs.map (Run.map f), p.patience⟩

namespace Pile

lemma items_map (p : Pile α) : (p.map f).items = p.items.map f := by
  simp [items, map, Run.map, map_flatten, Function.comp_def]

lemma mergeDeeper_map (depth patience : Nat) (last : List α) (runs : List (Run α)) :
    mergeDeeper before depth patience (last.map f) (runs.map (Run.map f)) =
      ((mergeDeeper (along before f) depth patience last runs).1,
        (mergeDeeper (along before f) depth patience last runs).2.map f) := by
  induction runs generalizing patience last with
  | nil => rfl
  | cons run runs ih =>
    simp only [map_cons, mergeDeeper, Run.map, mergeRuns_map]
    split
    · generalize mergeRuns (along before f) patience run.items last = merged
      obtain ⟨_ | e, items, patience⟩ := merged
      · exact ih patience items
      · rfl
    · rfl

lemma push_map (length : Nat) (p : Pile α) (items : List α) :
    (p.map f).push before length (items.map f) =
      ((p.push (along before f) length items).1, (p.push (along before f) length items).2.map f) := by
  obtain ⟨runs, patience⟩ := p
  cases runs with
  | nil => rfl
  | cons last runs =>
    have start : ({ runs := runs.map (Run.map f), patience := patience } : Pile β).items.length =
        ({ runs := runs, patience := patience } : Pile α).items.length := by
      have mapped := items_map f ⟨runs, patience⟩
      rw [map] at mapped
      rw [mapped, length_map]
    simp only [map, map_cons, push, start, length_map, Run.map]
    have merged := mergeDeeper_map before f
      (boundaryDepth length ({ runs := runs, patience := patience } : Pile α).items.length last.items.length items.length)
      patience last.items runs
    simp only [map] at merged
    rw [merged]

lemma mergeAll_map (fuel : Nat) (p : Pile α) :
    (p.map f).mergeAll before fuel = ((p.mergeAll (along before f) fuel).1, (p.mergeAll (along before f) fuel).2.map f) := by
  induction fuel generalizing p with
  | zero => simp [mergeAll, items_map]
  | succ fuel ih =>
    obtain ⟨runs, patience⟩ := p
    match runs with
    | [] => simp [mergeAll, map, items]
    | [run] => simp [mergeAll, map, items, Run.map]
    | [second, first] => simp [mergeAll, map, Run.map, mergeRuns_map, Merged.map]
    | third :: second :: first :: runs =>
      simp only [map, map_cons, mergeAll, Run.map, length_map, mergeRuns_map]
      split
      · generalize mergeRuns (along before f) patience first.items second.items = merged
        obtain ⟨_ | e, items, patience⟩ := merged
        · exact ih ⟨third :: ⟨items, 0⟩ :: runs, patience⟩
        · exact congrArg (Prod.mk _) (items_map f ⟨third :: ⟨items, 0⟩ :: runs, patience⟩)
      · generalize mergeRuns (along before f) patience second.items third.items = merged
        obtain ⟨_ | e, items, patience⟩ := merged
        · exact ih ⟨⟨items, 0⟩ :: first :: runs, patience⟩
        · exact congrArg (Prod.mk _) (items_map f ⟨⟨items, 0⟩ :: first :: runs, patience⟩)

end Pile

/-! ## Sorting -/

lemma sortRest_nil (length fuel : Nat) (p : Pile α) :
    sortRest before length fuel (p.map f) [] =
      ((sortRest (along before f) length fuel p []).1, (sortRest (along before f) length fuel p []).2.map f) := by
  have runs : (p.map f).runs.length = p.runs.length := by simp [Pile.map]
  cases fuel <;> simp only [sortRest, runs, Pile.mergeAll_map]

lemma sortRest_map (length fuel : Nat) (p : Pile α) (xs : List α) :
    sortRest before length fuel (p.map f) (xs.map f) =
      ((sortRest (along before f) length fuel p xs).1, (sortRest (along before f) length fuel p xs).2.map f) := by
  induction fuel generalizing p xs with
  | zero =>
    cases xs with
    | nil => exact sortRest_nil before f length 0 p
    | cons x rest => simp [sortRest, Pile.items_map]
  | succ fuel ih =>
    cases xs with
    | nil => exact sortRest_nil before f length (fuel + 1) p
    | cons x rest =>
      rw [map_cons, sortRest, sortRest, ← map_cons, runLength_map]
      · generalize x :: rest = xs
        cases runLength (along before f) xs with
        | error e => simp [Pile.items_map]
        | ok found =>
          obtain ⟨count, falling⟩ := found
          have front : (if falling = true then ((xs.take count).map f).reverse else (xs.take count).map f).toArray =
              (if falling = true then (xs.take count).reverse else xs.take count).toArray.map f := by
            split <;> simp
          simp only [length_map, ← map_take, ← map_drop]
          rw [front]
          generalize (if falling = true then (xs.take count).reverse else xs.take count).toArray = initial
          simp only [insertAll_map, Pile.push_map, Pile.items_map]
          split
          · simp
          · split
            · simp
            · exact ih _ _
      · exact nofun
      · exact nofun

lemma sorted_map (xs : List α) :
    sorted before (xs.map f) = ((sorted (along before f) xs).1, (sorted (along before f) xs).2.map f) := by
  have whole := sortRest_map before f xs.length xs.length ⟨[], longLead⟩ xs
  unfold sorted
  rw [length_map]
  exact whole

lemma sorted_forall₂ {R : α → β → Prop} {before : α → α → Except ε Bool} {before' : β → β → Except ε Bool}
    (agree : ∀ {a b c d}, R a b → R c d → before a c = before' b d) {xs : List α} {ys : List β}
    (items : List.Forall₂ R xs ys) :
    (sorted before xs).1 = (sorted before' ys).1 ∧ List.Forall₂ R (sorted before xs).2 (sorted before' ys).2 := by
  have zipped : ∃ pairs : List { p : α × β // R p.1 p.2 }, xs = pairs.map (·.1.1) ∧ ys = pairs.map (·.1.2) := by
    induction items with
    | nil => exact ⟨[], rfl, rfl⟩
    | @cons a b _ _ first _ ih =>
      obtain ⟨pairs, rfl, rfl⟩ := ih
      exact ⟨⟨(a, b), first⟩ :: pairs, rfl, rfl⟩
  obtain ⟨pairs, rfl, rfl⟩ := zipped
  have same : along before (fun p : { p : α × β // R p.1 p.2 } => p.1.1) = along before' (·.1.2) := by
    funext p q
    exact agree p.2 q.2
  rw [sorted_map, sorted_map, same]
  refine ⟨rfl, ?_⟩
  rw [forall₂_map_left_iff, forall₂_map_right_iff]
  exact List.forall₂_same.mpr fun p _ => p.2

end TagScript.Sorting
