import Mathlib.Logic.Relation
import TagScript.Proofs.Value.Fuel
import TagScript.Proofs.Value.Template

/-!
# Containers that do not contain themselves

If nothing that is newly put into a container leads back to it, containers have heights: what is in
one is lower than the container itself. Then every value stands for a finite tree.
-/

namespace TagScript

open List Option

variable {s t u : Store} {r q : Ref} {v : Value} {c : Cell}

namespace Store

/-- One container holds another. -/
def Links (s : Store) (r q : Ref) : Prop :=
  q ∈ (s.cell r).refs

/-- A container can be reached from a value. -/
def Leads (s : Store) (v : Value) (r : Ref) : Prop :=
  ∃ q, v.ref? = some q ∧ Relation.ReflTransGen s.Links q r

/-- All containers that are referred to are there. -/
def Closed (s : Store) : Prop :=
  ∀ r, ∀ v ∈ (s.cell r).values, v.Within (· < s.cells.size)

/-- What is in a container is lower than it. -/
def Tiered (s : Store) : Prop :=
  ∃ height : Ref → Nat, ∀ r q, s.Links r q → height q < height r

lemma links_of_mem (mem : v ∈ (s.cell r).values) (link : v.ref? = some q) : s.Links r q :=
  mem_filterMap.mpr ⟨v, mem, link⟩

lemma exists_of_links (linked : s.Links r q) : ∃ v ∈ (s.cell r).values, v.ref? = some q :=
  mem_filterMap.mp linked

lemma Closed.lt (closed : s.Closed) (linked : s.Links r q) : q < s.cells.size := by
  obtain ⟨v, mem, link⟩ := exists_of_links linked
  exact closed r v mem q link

lemma le_of_reaches {height : Ref → Nat} (lower : ∀ r q, s.Links r q → height q < height r)
    (way : Relation.ReflTransGen s.Links r q) : height q ≤ height r := by
  induction way with
  | refl => exact le_refl _
  | tail _ linked ih => exact le_trans (le_of_lt (lower _ _ linked)) ih

/-- Where there are heights, no container holds itself, neither directly nor through others. -/
lemma Tiered.acyclic (tiered : s.Tiered) (r : Ref) : ¬ Relation.TransGen s.Links r r := by
  obtain ⟨height, lower⟩ := tiered
  intro circle
  obtain ⟨q, linked, back⟩ := Relation.TransGen.head'_iff.mp circle
  exact lt_irrefl _ (lt_of_le_of_lt (le_of_reaches lower back) (lower r q linked))

/-! ## Work -/

/-- What work on values does to a store, where contents may be exchanged as stated. -/
inductive Work (may : Store → Ref → Cell → Prop) : Store → Store → Prop where
  | refl (s : Store) : Work may s s
  | trans {s t u : Store} : Work may s t → Work may t u → Work may s u
  | mark {s : Store} {mark : Nat} (later : s.nextMark ≤ mark) : Work may s { s with nextMark := mark }
  | make {s : Store} {c : Cell} (bounded : ∀ v ∈ c.values, v.Within (· < s.cells.size)) :
    Work may s { s with cells := s.cells.push c }
  | copy (s : Store) (entries : Assoc Value) : Work may s (s.copyEntries entries).2
  | write {s : Store} {r : Ref} {c : Cell} (bounded : ∀ v ∈ c.values, v.Within (· < s.cells.size))
    (allowed : may s r c) : Work may s (s.write r c)

/-- Nothing new that leads back to a container is put into it. -/
def Clear (s : Store) (r : Ref) (c : Cell) : Prop :=
  ∀ v ∈ c.values, v ∈ (s.cell r).values ∨ ¬ s.Leads v r

variable {may : Store → Ref → Cell → Prop}

lemma size_write (s : Store) (r : Ref) (c : Cell) : (s.write r c).cells.size = s.cells.size :=
  Array.size_setIfInBounds

lemma Work.marks (work : Work may s t) : s.nextMark ≤ t.nextMark := by
  induction work with
  | trans _ _ first second => exact le_trans first second
  | mark later => exact later
  | _ => exact le_refl _

lemma Grown.closed (grown : s.Grown t) (closed : s.Closed) : t.Closed := by
  intro r v mem
  by_cases old : r < s.cells.size
  · rw [grown.kept r old] at mem
    exact (closed r v mem).imp fun q here => lt_of_lt_of_le here grown.grows
  · exact (grown.new r (Nat.le_of_not_lt old) v mem).imp fun q new => new.2

lemma Closed.make (closed : s.Closed) (bounded : ∀ v ∈ c.values, v.Within (· < s.cells.size)) :
    Closed { s with cells := s.cells.push c } := by
  intro r v mem
  have size : ({ s with cells := s.cells.push c } : Store).cells.size = s.cells.size + 1 := Array.size_push ..
  have inside : v.Within (· < s.cells.size) := by
    rw [cell_push] at mem
    split at mem
    · exact bounded v mem
    · exact closed r v mem
  rw [size]
  exact inside.imp fun q here => Nat.lt_succ_of_lt here

lemma Work.closed (work : Work may s t) (closed : s.Closed) : t.Closed := by
  induction work with
  | refl s => exact closed
  | trans _ _ first second => exact second (first closed)
  | mark later => exact closed
  | make bounded => exact closed.make bounded
  | copy s entries => exact (s.grown_copyEntries entries).1.closed closed
  | write bounded allowed =>
    intro q v mem
    rw [size_write]
    rw [cell_write] at mem
    split at mem
    · exact bounded v mem
    · exact closed q v mem

/-! ## Heights -/

lemma exists_bound (refs : List Ref) (height : Ref → Nat) : ∃ top, ∀ q ∈ refs, height q < top := by
  induction refs with
  | nil => exact ⟨0, forall_mem_nil _⟩
  | cons q rest ih =>
    obtain ⟨top, below⟩ := ih
    refine ⟨max top (height q + 1), forall_mem_cons.mpr ⟨?_, fun x mem => ?_⟩⟩
    · exact lt_of_lt_of_le (Nat.lt_succ_self _) (le_max_right _ _)
    · exact lt_of_lt_of_le (below x mem) (le_max_left _ _)

lemma Tiered.make (tiered : s.Tiered) (closed : s.Closed) (bounded : ∀ v ∈ c.values, v.Within (· < s.cells.size)) :
    Tiered { s with cells := s.cells.push c } := by
  obtain ⟨height, lower⟩ := tiered
  obtain ⟨top, below⟩ := exists_bound c.refs height
  refine ⟨fun r => if r = s.cells.size then top else height r, fun r q linked => ?_⟩
  unfold Links at linked
  rw [cell_push] at linked
  split at linked
  · rename_i made
    obtain ⟨v, mem, link⟩ := mem_filterMap.mp linked
    have other : q ≠ s.cells.size := ne_of_lt (bounded v mem q link)
    simp only [made, if_true, other, if_false]
    exact below q linked
  · rename_i old
    have other : q ≠ s.cells.size := ne_of_lt (closed.lt linked)
    simp only [old, if_false, other]
    exact lower r q linked

lemma Tiered.copy (tiered : s.Tiered) (closed : s.Closed) (entries : Assoc Value) :
    Tiered (s.copyEntries entries).2 := by
  obtain ⟨height, lower⟩ := tiered
  have grown := (s.grown_copyEntries entries).1
  let copied := s.reachable (entries.map Prod.snd)
  refine ⟨fun r => if r < s.cells.size then height r else height ((copied[r - s.cells.size]?).getD 0), ?_⟩
  intro r q linked
  by_cases old : r < s.cells.size
  · have before : s.Links r q := by
      unfold Links at linked ⊢
      rwa [grown.kept r old] at linked
    simp only [old, if_true, closed.lt before]
    exact lower r q before
  · unfold Links at linked
    rw [copyEntries, cell_append, if_neg old, getElem?_map] at linked
    cases found : copied[r - s.cells.size]? with
    | none =>
      rw [found] at linked
      cases linked
    | some x =>
      -- What the copy of `x` holds is the copy of what `x` holds.
      rw [found, map_some, getD_some] at linked
      obtain ⟨v, mem, link⟩ := mem_filterMap.mp linked
      rw [values_mapRefs] at mem
      obtain ⟨w, among, rfl⟩ := List.mem_map.mp mem
      obtain ⟨y, before, rfl⟩ : ∃ y, w.ref? = some y ∧ renamed copied s.cells.size y = q := by
        cases w <;> cases link <;> exact ⟨_, rfl, rfl⟩
      have linked : s.Links x y := links_of_mem among before
      obtain ⟨i, place, here⟩ := @exists_renamed copied s.cells.size y (reachable_closed (mem_of_getElem? found) linked)
      have new : ¬ s.cells.size + i < s.cells.size := Nat.not_lt.mpr (Nat.le_add_right _ _)
      simp only [place, old, new, if_false, Nat.add_sub_cancel_left, here, found, getD_some]
      exact lower x y linked

/-- Contents of which nothing new leads back: whatever leads to the container is lifted above them.
-/
lemma Tiered.write (tiered : s.Tiered) (clear : s.Clear r c) : (s.write r c).Tiered := by
  classical
  obtain ⟨height, lower⟩ := tiered
  obtain ⟨top, below⟩ := exists_bound c.refs height
  have apart : ∀ q ∈ c.refs, ¬ Relation.ReflTransGen s.Links q r := by
    intro q mem back
    obtain ⟨v, among, link⟩ := mem_filterMap.mp mem
    rcases clear v among with old | new
    · have linked := links_of_mem old link
      exact lt_irrefl _ (lt_of_le_of_lt (le_of_reaches lower back) (lower r q linked))
    · exact new ⟨q, link, back⟩
  refine ⟨fun x => if Relation.ReflTransGen s.Links x r then height x + top else height x, fun x y linked => ?_⟩
  unfold Links at linked
  rw [cell_write] at linked
  split at linked
  · rename_i here
    have top' := below y linked
    simp only [here.1, Relation.ReflTransGen.refl, if_true, apart y linked, if_false]
    exact lt_of_lt_of_le top' (Nat.le_add_left _ _)
  · have linked : s.Links x y := linked
    have less := lower x y linked
    by_cases back : Relation.ReflTransGen s.Links y r
    · have further : Relation.ReflTransGen s.Links x r := .head linked back
      simp only [back, further, if_true]
      exact Nat.add_lt_add_right less top
    · simp only [back, if_false]
      split
      · exact Nat.lt_of_lt_of_le less (Nat.le_add_right _ _)
      · exact less

lemma Work.tiered (work : Work Clear s t) (closed : s.Closed) (tiered : s.Tiered) : t.Tiered := by
  induction work with
  | refl s => exact tiered
  | trans first _ ih ih' => exact ih' (first.closed closed) (ih closed tiered)
  | mark later => exact tiered
  | make bounded => exact tiered.make closed bounded
  | copy s entries => exact tiered.copy closed entries
  | write bounded clear => exact tiered.write clear

/-- If something that is put into a container leads back to it, the container holds itself
afterwards. -/
lemma circle_write (there : r < s.cells.size) (mem : v ∈ c.values) (leads : s.Leads v r) :
    Relation.TransGen (s.write r c).Links r r := by
  obtain ⟨q, link, way⟩ := leads
  have linked : (s.write r c).Links r q := by
    unfold Links
    rw [cell_write, if_pos ⟨rfl, there⟩]
    exact mem_filterMap.mpr ⟨v, mem, link⟩
  -- up to the container itself, the way back is there as before
  have back : Relation.ReflTransGen (s.write r c).Links q r := by
    clear linked link
    induction way using Relation.ReflTransGen.head_induction_on with
    | refl => exact .refl
    | @head x y step _ ih =>
      by_cases same : x = r
      · rw [same]
      · refine .head ?_ ih
        unfold Links
        rw [cell_write, if_neg fun both => same both.1]
        exact step
  exact .head' linked back

/-! ## Finite trees -/

/-- Every value stands for a tree, and to write it out comes to an end. -/
structure Finite (s : Store) : Prop where
  datum : ∀ v, ∃ d, s.datum v = .ok d
  wire : ∀ v, ∃ d, s.wire v = .ok d
  text : ∀ v compared, s.text v ≠ .error (.endless compared)

lemma Tiered.exists_read (tiered : s.Tiered) (v : Value) : ∃ n d, s.read n v = .ok d := by
  obtain ⟨height, lower⟩ := tiered
  have container : ∀ n r, height r < n → (∃ d, s.read n (.seq r) = .ok d) ∧ ∃ d, s.read n (.map r) = .ok d := by
    intro n
    induction n with
    | zero => exact fun r never => absurd never (Nat.not_lt_zero _)
    | succ n ih =>
      intro r below
      have inner : ∀ v ∈ (s.cell r).values, ∃ d, s.read n v = .ok d := by
        intro v mem
        have less : ∀ q, v.ref? = some q → height q < n := fun q link =>
          lt_of_lt_of_le (lower r q (links_of_mem mem link)) (Nat.le_of_lt_succ below)
        cases v with
        | seq q => exact (ih q (less q rfl)).1
        | map q => exact (ih q (less q rfl)).2
        | _ => cases n <;> exact ⟨_, rfl⟩
      constructor
      · obtain ⟨ds, items⟩ := exists_forall₂ fun v mem => inner v (mem_values_of_items mem)
        exact ⟨_, read_seq_eq_ok.mpr ⟨ds, items, rfl⟩⟩
      · obtain ⟨es, entries⟩ := exists_forall₂
          (R := fun (entry : String × Value) (e : String × Datum) => entry.1 = e.1 ∧ s.read n entry.2 = .ok e.2)
          fun entry mem => by
            obtain ⟨d, read⟩ := inner entry.2 (mem_values_of_entries mem)
            exact ⟨(entry.1, d), rfl, read⟩
        exact ⟨_, read_map_eq_ok.mpr ⟨es, entries, rfl⟩⟩
  cases v with
  | seq r => exact ⟨_, (container _ r (Nat.lt_succ_self _)).1⟩
  | map r => exact ⟨_, (container _ r (Nat.lt_succ_self _)).2⟩
  | _ => exact ⟨0, _, rfl⟩

lemma mem_of_mapM_error {α β ε : Type} {f : α → Except ε β} {xs : List α} {e : ε} (failed : xs.mapM f = .error e) :
    ∃ x ∈ xs, f x = .error e := by
  induction xs with
  | nil => cases failed
  | cons x rest ih =>
    rw [mapM_cons] at failed
    cases first : f x with
    | error other =>
      rw [first] at failed
      cases failed
      exact ⟨x, mem_cons_self, first⟩
    | ok y =>
      cases others : rest.mapM f with
      | error other =>
        rw [first, others] at failed
        cases failed
        obtain ⟨z, mem, found⟩ := ih others
        exact ⟨z, mem_cons_of_mem _ mem, found⟩
      | ok ys =>
        rw [first, others] at failed
        cases failed

lemma textWithin_ends (wired : ∀ v, ∃ d, s.wire v = .ok d) {n : Nat} {v : Value} {d : Datum}
    (done : s.read n v = .ok d) (compared : Bool) : s.textWithin n v ≠ .error (.endless compared) := by
  have unwritable : ∀ {α : Type} (x : Except String α),
      x.mapError textWithin.unwritable ≠ .error (.endless compared) := by
    intro α x failed
    cases x <;> cases failed
  induction n generalizing v d with
  | zero =>
    cases v with
    | seq | map => cases done
    | _ => exact unwritable _
  | succ n ih =>
    cases v with
    | seq r =>
      obtain ⟨ds, items, -⟩ := read_seq_eq_ok.mp done
      intro failed
      rw [textWithin, map_eq_error] at failed
      obtain ⟨v, mem, found⟩ := mem_of_mapM_error failed
      obtain ⟨d, _, read⟩ := exists_of_forall₂ items mem
      exact ih read found
    | map r =>
      obtain ⟨d, written⟩ := wired (.map r)
      intro failed
      rw [textWithin, written] at failed
      exact unwritable _ failed
    | _ => exact unwritable _

lemma Tiered.finite (tiered : s.Tiered) : s.Finite := by
  have read : ∀ v, ∃ d, s.read s.depth v = .ok d := fun v => by
    obtain ⟨n, d, done⟩ := tiered.exists_read v
    exact ⟨d, read_depth done⟩
  have wired : ∀ v, ∃ d, s.wire v = .ok d := fun v => by
    obtain ⟨d, done⟩ := read v
    exact ⟨d.wire, by simp [wire, done]⟩
  refine ⟨fun v => ?_, wired, fun v compared => ?_⟩
  · obtain ⟨d, done⟩ := read v
    exact ⟨d, by rw [datum, done]; rfl⟩
  · obtain ⟨d, done⟩ := read v
    exact textWithin_ends wired done compared

/-! ## What is made -/

lemma Parted.closed {aside : Ref → Prop} (parted : s.Parted aside) : s.Closed := by
  intro r v mem
  by_cases set : aside r
  · exact (parted.kept r set v mem).imp fun q held => parted.there q held
  · exact (parted.loose r set v mem).imp fun q held => held.1

lemma Work.territory (may : Store → Ref → Cell → Prop) (s : Store) :
    Territory (fun t => Work may s t ∧ t.Closed) fun t r => r < t.cells.size where
  later grows here := lt_of_lt_of_le here grows
  contents kind _ := kind.2 _
  push kind within := by
    refine ⟨⟨kind.1.trans (.make within), kind.2.make within⟩, ?_⟩
    exact lt_of_lt_of_eq (Nat.lt_succ_self _) (Array.size_push ..).symm
  mark later kind := ⟨kind.1.trans (.mark later), kind.2⟩

lemma Beside.working (aside : Ref → Prop) (may : Store → Ref → Cell → Prop) (s : Store) :
    Territory (fun t => s.Beside aside t ∧ Work may s t) fun t r => r < t.cells.size ∧ ¬ aside r where
  later := (Beside.territory aside s).later
  contents kind := (Beside.territory aside s).contents kind.1
  push kind loose := by
    obtain ⟨beside, new⟩ := (Beside.territory aside s).push kind.1 loose
    exact ⟨⟨beside, kind.2.trans (.make fun v mem => (loose v mem).imp fun _ here => here.1)⟩, new⟩
  mark later kind := ⟨(Beside.territory aside s).mark later kind.1, kind.2.trans (.mark later)⟩

lemma Work.append (s : Store) (marks : List Nat) :
    Work may s { s with cells := s.cells ++ (marks.map fun _ => Cell.hollow).toArray } := by
  induction marks generalizing s with
  | nil => simpa using Work.refl s
  | cons mark rest ih =>
    have first : Work may s { s with cells := s.cells.push .hollow } := .make nofun
    have cells : s.cells ++ ((mark :: rest).map fun _ => Cell.hollow).toArray =
        s.cells.push .hollow ++ (rest.map fun _ => Cell.hollow).toArray := by
      rw [map_cons, toArray_cons, ← Array.append_assoc, Array.append_singleton]
    rw [cells]
    exact first.trans (ih _)

lemma Work.build (closed : s.Closed) (d : Datum) : Work may s (s.build d).2 := by
  obtain ⟨_, placed⟩ := s.grown_allocMarks d.stampMarks.eraseDups
  have marked : Work may s (s.allocMarks d.stampMarks.eraseDups).2 := .append s _
  exact ((Work.territory may s).buildAt ⟨marked, marked.closed closed⟩ d fun mark mem =>
    (placed mark (mem_eraseDups.mpr mem)).2).1.1

end Store

end TagScript
