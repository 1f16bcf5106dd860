import TagScript.Proofs.Sorting
import TagScript.Proofs.Value.Finite
import TagScript.Script.Method
import TagScript.Script.Run

/-!
# Operations that keep to a kind

If the values an operation works on are of a kind that containers keep to, all that it leaves is of
the kind.
-/

namespace TagScript.Script

open List

open Store (Discipline)

variable {D : Store → Prop} {W : Store → Value → Prop} {s : Store} {args : List Value} {v : Value}

lemma mem_of_mem_sorted {α : Type} {before : α → α → Except Fault Bool} {xs : List α} {x : α}
    (mem : x ∈ (Sorting.sorted before xs).2) : x ∈ xs := by
  rw [← attach_map_subtype_val xs, Sorting.sorted_map] at mem
  obtain ⟨⟨y, among⟩, _, rfl⟩ := mem_map.mp mem
  exact among

lemma mem_of_without {item : Value} {xs ys : List Value} (left : Method.without s item xs = .ok ys) {x : Value}
    (mem : x ∈ ys) : x ∈ xs := by
  induction xs generalizing ys with
  | nil =>
    cases left
    cases mem
  | cons y rest ih =>
    rw [Method.without] at left
    cases same : Store.sameItem s.equal y item with
    | error fault =>
      rw [same] at left
      cases left
    | ok equal =>
      rw [same] at left
      cases equal with
      | true =>
        cases left
        exact mem_cons_of_mem _ mem
      | false =>
        cases further : Method.without s item rest with
        | error fault =>
          rw [further] at left
          cases left
        | ok zs =>
          rw [further] at left
          cases left
          rcases mem_cons.mp mem with rfl | among
          · exact mem_cons_self
          · exact mem_cons_of_mem _ (ih further among)

/-! ## What an operation does -/

/-- What an operation puts into a container. -/
def Method.puts (s : Store) (method : Method) (args : List Value) : List Value :=
  match method, args with
  | .push, args => args
  | .unshift, args => args
  | .concat, [.seq other] => s.items other
  | .put, [_, value] => [value]
  | _, _ => []

/-- What a container holds, if the value is one. -/
def inside (s : Store) : Value → List Value
  | .seq r => s.items r
  | .map r => (s.entries r).map Prod.snd
  | _ => []

lemma mem_values_of_inside {u : Value} {r : Ref} (link : v.ref? = some r) (mem : u ∈ inside s v) :
    u ∈ (s.cell r).values := by
  cases v with
  | seq =>
    cases link
    exact Store.mem_values_of_items mem
  | map =>
    cases link
    obtain ⟨entry, among, rfl⟩ := mem_map.mp mem
    exact Store.mem_values_of_entries among
  | _ => cases mem

/-- An operation gives no container and leaves the store as it is, or exchanges the contents of the
container it is applied to for values that were there and values that it puts there, or makes a
sequence of values that were there. -/
inductive Done (s : Store) (v : Value) (added : List Value) : Method.Outcome → Prop where
  | same {result : Except Method.Failure Value} (leaf : ∀ u, result = .ok u → u.ref? = none) : Done s v added (result, s)
  | changed {r : Ref} {c : Cell} {result : Except Method.Failure Value} (link : v.ref? = some r)
    (contents : ∀ u ∈ c.values, u ∈ inside s v ∨ u ∈ added) (itself : ∀ u, result = .ok u → u = v) :
    Done s v added (result, s.write r c)
  | made {r : Ref} {items : List Value} (link : v.ref? = some r) (contents : ∀ u ∈ items, u ∈ inside s v) :
    Done s v added (.ok (s.newSeq items).1, (s.newSeq items).2)

lemma Done.failed {added : List Value} (failure : Method.Failure) : Done s v added (.error failure, s) :=
  .same nofun

lemma done_onSequence (r : Ref) (method : Method) (args : List Value) :
    Done s (.seq r) (method.puts s args) (method.onSequence s r args) := by
  have changed : ∀ {xs : List Value}, (∀ u ∈ xs, u ∈ s.items r ∨ u ∈ method.puts s args) →
      Done s (.seq r) (method.puts s args) (.ok (.seq r), s.write r (.seq xs)) :=
    fun {xs} contents => .changed rfl contents fun _ same => (Except.ok.inj same).symm
  have fewer : ∀ {xs : List Value}, (∀ u ∈ xs, u ∈ s.items r) →
      Done s (.seq r) (method.puts s args) (.ok (.seq r), s.write r (.seq xs)) :=
    fun kept => changed fun u mem => .inl (kept u mem)
  unfold Method.onSequence
  simp only []
  split
  · exact changed fun _ => mem_append.mp
  · exact fewer fun _ mem => dropLast_subset _ mem
  · exact fewer fun _ => mem_of_mem_drop
  · exact changed fun _ mem => (mem_append.mp mem).symm
  · exact fewer fun _ => mem_reverse.mp
  · refine .changed rfl (fun _ mem => .inl (mem_of_mem_sorted mem)) fun u same => ?_
    split at same
    · exact (Except.ok.inj same).symm
    · cases same
  · split
    · exact .failed _
    · exact .made rfl fun _ mem => mem_of_mem_take (mem_of_mem_drop mem)
  · exact changed fun _ => mem_append.mp
  · exact .failed _
  · split
    · exact .failed _
    · rename_i left
      exact fewer fun _ => mem_of_without left
  · exact fewer nofun
  · exact .failed _

lemma done_onMapping (r : Ref) (method : Method) (args : List Value) :
    Done s (.map r) (method.puts s args) (method.onMapping s r args) := by
  have changed : ∀ {es : Assoc Value}, (∀ e ∈ es, e ∈ s.entries r ∨ e.2 ∈ method.puts s args) →
      Done s (.map r) (method.puts s args) (.ok (.map r), s.write r (.map es)) := by
    intro es contents
    refine .changed rfl (forall_mem_map.mpr fun e mem => ?_) fun _ same =>
      (Except.ok.inj same).symm
    exact (contents e mem).imp_left fun among => mem_map.mpr ⟨e, among, rfl⟩
  unfold Method.onMapping
  split
  · split
    · exact .failed _
    · refine changed fun e mem => (Assoc.mem_set mem).imp_right ?_
      rintro rfl
      exact mem_singleton_self _
  · split
    · exact .failed _
    · exact changed fun _ mem => .inl (Assoc.mem_of_mem_erase mem)
  · exact changed nofun
  · exact .failed _

lemma done_apply (v : Value) (method : Method) (args : List Value) :
    Done s v (method.puts s args) (method.apply s v args) := by
  unfold Method.apply
  split
  · exact done_onSequence _ method args
  · exact done_onMapping _ method args
  · refine .same fun u same => ?_
    cases made : Method.onText s _ method args <;> rw [made] at same <;> cases same
    rfl
  · exact .failed _

/-! ## Keeping to a kind -/

/-- An operation left a store of the kind and gave a value of the kind, or failed. -/
structure Conducts (D : Store → Prop) (W : Store → Value → Prop) (outcome : Method.Outcome) : Prop where
  kind : D outcome.2
  value : ∀ v, outcome.1 = .ok v → W outcome.2 v

def Writable (D : Store → Prop) (W : Store → Value → Prop) : Prop :=
  ∀ {s : Store} {v : Value} {r : Ref} {c : Cell}, D s → W s v → v.ref? = some r → (∀ u ∈ c.values, W s u) →
    D (s.write r c)

section

variable (tends : Discipline D W) (kind : D s)
include tends kind

lemma inside_kind (held : W s v) : ∀ u ∈ inside s v, W s u := by
  cases v with
  | seq => exact tends.items kind held
  | map => exact forall_mem_map.mpr (tends.entries kind held)
  | _ => exact forall_mem_nil _

lemma puts_kind (method : Method) (given : ∀ v ∈ args, W s v) : ∀ u ∈ method.puts s args, W s u := by
  intro u mem
  unfold Method.puts at mem
  split at mem
  · exact given u mem
  · exact given u mem
  · exact tends.items kind (given _ mem_cons_self) u mem
  · rw [mem_singleton.mp mem]
    exact given _ (mem_cons_of_mem _ mem_cons_self)
  · cases mem

lemma conducts_apply (writable : Writable D W) (held : W s v) (method : Method)
    (given : ∀ v ∈ args, W s v) : Conducts D W (method.apply s v args) := by
  have old := inside_kind tends kind held
  have done := done_apply (s := s) v method args
  generalize method.apply s v args = outcome at done ⊢
  cases done with
  | same leaf => exact ⟨kind, fun u same => tends.leaf (leaf u same)⟩
  | changed link contents itself =>
    refine ⟨writable kind held link fun u mem => ?_, fun u same => ?_⟩
    · exact (contents u mem).elim (old u) (puts_kind tends kind method given u)
    · rw [itself u same]
      exact tends.later (Nat.le_of_eq (s.size_write _ _).symm) held
  | made link contents =>
    obtain ⟨kept, new⟩ := tends.newSeq kind fun u mem => old u (contents u mem)
    refine ⟨kept, ?_⟩
    rintro u ⟨⟩
    exact new

lemma spread_kind (held : W s v) {items : List Value} (found : spread? s v = some items) :
    ∀ item ∈ items, W s item := by
  unfold spread? at found
  split at found
  · cases found
    exact tends.items kind held
  · cases found
    intro item mem
    obtain ⟨c, _, rfl⟩ := mem_map.mp mem
    exact tends.leaf rfl
  · cases found
    intro item mem
    obtain ⟨entry, _, rfl⟩ := mem_map.mp mem
    exact tends.leaf rfl
  · cases found

end

lemma work_apply {may : Store → Ref → Cell → Prop} (closed : s.Closed) (v : Value) (method : Method)
    (given : ∀ a ∈ args, a.Within (· < s.cells.size))
    (allowed : ∀ r c, v.ref? = some r → (∀ u ∈ c.values, u ∈ (s.cell r).values ∨ u ∈ method.puts s args) → may s r c) :
    Store.Work may s (method.apply s v args).2 := by
  have added := puts_kind (Store.Work.territory may s).discipline ⟨.refl s, closed⟩ method given
  have done := done_apply (s := s) v method args
  generalize method.apply s v args = outcome at done ⊢
  cases done with
  | same => exact .refl s
  | changed link contents =>
    have contents := fun u mem => (contents u mem).imp_left (mem_values_of_inside link)
    exact .write (fun u mem => (contents u mem).elim (closed _ u) (added u)) (allowed _ _ link contents)
  | made link contents =>
    exact .make fun u mem => closed _ u (mem_values_of_inside link (contents u mem))

lemma puts_of_apply {u value : Value} {r : Ref} {method : Method} {t : Store}
    (link : v.ref? = some r) (put : u ∈ method.puts s args) (applied : method.apply s v args = (.ok value, t)) :
    ∃ c : Cell, t = s.write r c ∧ u ∈ c.values := by
  unfold Method.puts at put
  cases v with
  | seq q =>
    cases link
    split at put
    · cases applied
      exact ⟨_, rfl, mem_append_right _ put⟩
    · cases applied
      exact ⟨_, rfl, mem_append_left _ put⟩
    · cases applied
      exact ⟨_, rfl, mem_append_right _ put⟩
    · cases applied
    · cases put
  | map q =>
    cases link
    split at put
    · cases applied
    · cases applied
    · cases applied
    · rename_i key _
      change Method.onMapping s r .put [key, _] = _ at applied
      unfold Method.onMapping at applied
      simp only [] at applied
      split at applied
      · cases applied
      · cases applied
        refine ⟨_, rfl, ?_⟩
        rw [mem_singleton.mp put]
        exact mem_map.mpr ⟨_, Assoc.mem_of_get? (Assoc.get?_set_self _ _ _), rfl⟩
    · cases put
  | func | stamp => cases applied
  | _ => cases link

end TagScript.Script
