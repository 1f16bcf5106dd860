import TagScript.Proofs.Datum.Dateless
import TagScript.Proofs.Expr.Confined
import TagScript.Proofs.Value.Finite

/-!
# How evaluation can fail

Evaluation over finite trees of numbers, texts, truth values and failures comes to such a tree or
fails, and it fails with a fault of expressions but for four cases.
-/

namespace TagScript

open List

namespace Store

variable {s : Store} {v : Value}

/-! ## Finite trees -/

/-- Neither a function nor a point in time, and a container only if it is there. -/
def Plain (s : Store) (v : Value) : Prop :=
  ∀ r, v.ref? = some r → (v = .seq r ∨ v = .map r) ∧ r < s.cells.size

/-- Containers hold plain values, and none holds itself. -/
structure Orderly (s : Store) : Prop where
  tiered : s.Tiered
  plain : ∀ r, ∀ v ∈ (s.cell r).values, s.Plain v

lemma Orderly.make {c : Cell} (orderly : s.Orderly) (plain : ∀ v ∈ c.values, s.Plain v) :
    Orderly { s with cells := s.cells.push c } where
  tiered := orderly.tiered.make (fun r v mem q link => (orderly.plain r v mem q link).2)
    fun v mem q link => (plain v mem q link).2
  plain r v mem q link := by
    have old : s.Plain v := by
      rw [cell_push] at mem
      split at mem
      · exact plain v mem
      · exact orderly.plain r v mem
    exact (old q link).imp_right fun here => by simpa using Nat.lt_succ_of_lt here

lemma Orderly.discipline : Discipline Orderly Plain where
  leaf bare r link := by simp [bare] at link
  later grows plain r link := (plain r link).imp_right fun here => Nat.lt_of_lt_of_le here grows
  items orderly _ v member := orderly.plain _ v (mem_values_of_items member)
  entries orderly _ entry member := orderly.plain _ entry.2 (mem_values_of_entries member)
  newSeq {t items} orderly plain := by
    refine ⟨orderly.make plain, fun r link => ?_⟩
    cases link
    exact ⟨.inl rfl, by simp [newSeq, alloc]⟩
  newMap {t entries} orderly plain := by
    refine ⟨orderly.make (List.forall_mem_map.mpr plain), fun r link => ?_⟩
    cases link
    exact ⟨.inr rfl, by simp [newMap, alloc]⟩
  number x orderly := by
    unfold Store.number
    split
    · exact ⟨orderly.tiered, orderly.plain⟩
    · exact orderly

section

variable (orderly : s.Orderly)
include orderly

lemma Orderly.wire_dateless {n : Nat} {d : Datum} (plain : s.Plain v) (read : s.read n v = .ok d) :
    d.wire.Dateless := by
  have leaf : ∀ {v}, s.Plain v → v.leaf.wire.Dateless := by
    intro v plain
    cases v with
    | num n => exact (Datum.Dateless.num n).wire
    | error r => exact .map (List.forall_mem_cons.mpr ⟨.str _, List.forall_mem_singleton.mpr (.str _)⟩)
    | seq | map => exact (by constructor; exact forall_mem_nil _)
    | func | stamp => exact absurd (plain _ rfl).1 (by simp)
    | _ => constructor
  induction n generalizing v d with
  | zero =>
    cases v with
    | seq | map => cases read
    | _ =>
      cases read
      exact leaf plain
  | succ n ih =>
    cases v with
    | seq r =>
      obtain ⟨ds, items, rfl⟩ := read_seq_eq_ok.mp read
      rw [Datum.wire_seq]
      refine .seq (List.forall_mem_map.mpr fun d mem => ?_)
      obtain ⟨v, among, read⟩ := exists_of_forall₂ items.flip mem
      exact ih (orderly.plain r v (mem_values_of_items among)) read
    | map r =>
      obtain ⟨es, entries, rfl⟩ := read_map_eq_ok.mp read
      rw [Datum.wire_map]
      refine .map (List.forall_mem_map.mpr fun e mem => ?_)
      obtain ⟨entry, among, _, read⟩ := exists_of_forall₂ entries.flip mem
      exact ih (orderly.plain r _ (mem_values_of_entries among)) read
    | _ =>
      cases read
      exact leaf plain

lemma Orderly.exists_text (plain : s.Plain v) : ∃ text, s.text v = .ok text := by
  obtain ⟨n, d, read⟩ := orderly.tiered.exists_read v
  exact textWithin_of_dateless (read_depth read) (orderly.wire_dateless plain read)

end

/-! ## Comparison -/

section

variable {test : Value → Value → Except Fault Bool}

lemma exists_sameItem {a b : Value} (done : ∃ x, test a b = .ok x) : ∃ x, sameItem test a b = .ok x := by
  unfold sameItem
  split
  · exact ⟨true, rfl⟩
  · exact done

lemma exists_sameItems {xs : List Value} (ys : List Value) (done : ∀ a ∈ xs, ∀ b, ∃ x, test a b = .ok x) :
    ∃ x, sameItems test xs ys = .ok x := by
  induction xs generalizing ys with
  | nil => cases ys <;> exact ⟨_, rfl⟩
  | cons a xs ih =>
    cases ys with
    | nil => exact ⟨_, rfl⟩
    | cons b ys =>
      obtain ⟨x, same⟩ := exists_sameItem (done a mem_cons_self b)
      rw [sameItems, same]
      cases x
      · exact ⟨false, rfl⟩
      · exact ih ys fun a mem => done a (mem_cons_of_mem _ mem)

lemma exists_sameEntries {others entries : Assoc Value} (done : ∀ e ∈ entries, ∀ b, ∃ x, test e.2 b = .ok x) :
    ∃ x, sameEntries test others entries = .ok x := by
  induction entries with
  | nil => exact ⟨_, rfl⟩
  | cons e rest ih =>
    obtain ⟨name, a⟩ := e
    rw [sameEntries]
    split
    · exact ⟨false, rfl⟩
    · rename_i b _
      obtain ⟨x, same⟩ := exists_sameItem (done _ mem_cons_self b)
      rw [same]
      cases x
      · exact ⟨false, rfl⟩
      · exact ih fun e mem => done e (mem_cons_of_mem _ mem)

end

lemma Tiered.exists_equal (tiered : s.Tiered) (a b : Value) : ∃ x, s.equal a b = .ok x := by
  obtain ⟨height, lower⟩ := tiered
  -- a container lies lower than those it is compared within, so it is none of them
  have within : ∀ n above a b, (∀ r, a.ref? = some r → height r < n ∧ ∀ p ∈ above, height r < height p.1) →
      ∃ x, s.equalWithin n above a b = .ok x := by
    intro n
    induction n with
    | zero =>
      intro above a b below
      cases a with
      | seq r | map r => exact absurd (below r rfl).1 (Nat.not_lt_zero _)
      | _ => exact ⟨_, by rw [equalWithin] <;> simp⟩
    | succ n ih =>
      intro above a b below
      have new : ∀ {r q : Ref}, a.ref? = some r → above.contains (r, q) = false := fun link => by
        rw [contains_eq_mem, decide_eq_false_iff_not]
        exact fun mem => Nat.lt_irrefl _ ((below _ link).2 _ mem)
      have inner : ∀ {r q : Ref}, a.ref? = some r → ∀ v ∈ (s.cell r).values, ∀ b,
          ∃ x, s.equalWithin n ((r, q) :: above) v b = .ok x := by
        intro r q link v mem b
        refine ih _ v b fun x inside => ?_
        have less := lower r x (links_of_mem mem inside)
        obtain ⟨bound, outer⟩ := below r link
        exact ⟨by omega, List.forall_mem_cons.mpr ⟨less, fun p among => Nat.lt_trans less (outer p among)⟩⟩
      cases a with
      | seq r =>
        cases b with
        | seq q =>
          rw [equalWithin, new rfl]
          split
          · exact ⟨false, rfl⟩
          · exact exists_sameItems _ fun v mem => inner rfl v (mem_values_of_items mem)
        | _ => exact ⟨_, by rw [equalWithin] <;> simp⟩
      | map r =>
        cases b with
        | map q =>
          rw [equalWithin, new rfl]
          split
          · exact ⟨false, rfl⟩
          · exact exists_sameEntries fun e mem => inner rfl e.2 (mem_values_of_entries mem)
        | _ => exact ⟨_, by rw [equalWithin] <;> simp⟩
      | _ => exact ⟨_, by rw [equalWithin] <;> simp⟩
  obtain ⟨n, deep, enough⟩ : ∃ n, (∀ r, a.ref? = some r → height r < n) ∧ s.cells.size * s.cells.size < n := by
    cases a.ref? with
    | none => exact ⟨_, by rintro _ ⟨⟩, Nat.lt_succ_self _⟩
    | some r =>
      refine ⟨height r + s.cells.size * s.cells.size + 1, ?_, by omega⟩
      rintro _ ⟨⟩
      omega
  rw [s.equal_eq enough]
  exact within n [] a b fun r link => ⟨deep r link, forall_mem_nil _⟩

end Store

namespace Expr

/-! ## Conversion -/

variable {pending : List Pending} {out : List Item} {fault : Fault} {env : Environment} {s : Store}

/-- How evaluation can fail: with a fault of expressions, or because an operator of no precedence,
an exclamation mark, stands behind an operand while another operator waits, because of the remainder
of an infinite number, because of a whole number that is too large for a double, or because of an
index with too many digits. -/
inductive Excused : Fault → Prop where
  | lex (cause : LexFault) : Excused (.lex cause)
  | undefined (path : String) : Excused (.undefined path)
  | type (cause : TypeFault) : Excused (.type cause)
  | bang {symbol : Symbol} (weak : symbol.precedence? = none) : Excused (.unknownKey symbol.text)
  | domain {a : Float} (infinite : (!Binary64.isFinite a) = true) : Excused .domain
  | tooLarge {i : Int} (large : Binary64.ofInt? i = none) : Excused .tooLarge
  | index {segment message : String} (digits : Text.allDigits segment = true)
    (unread : Reading.int segment = .error message) : Excused (.value message)

lemma excused_release {symbol : Symbol} (failed : release symbol pending out = .error fault) : Excused fault := by
  induction pending generalizing out with
  | nil => cases failed
  | cons op rest ih =>
    cases op with
    | paren pos => cases failed
    | unary | binary =>
      rw [release] at failed
      grind [Excused]

lemma excused_finish (failed : finish pending out = .error fault) : Excused fault := by
  fun_induction finish pending out <;> grind [Excused]

lemma excused_convert : ∀ pending out operand tokens fault, convert pending out operand tokens = .error fault →
    Excused fault := by
  apply convert.induct (fun pending out operand tokens => ∀ fault, convert pending out operand tokens = .error fault →
      Excused fault) (fun entries => ∀ fault, convertEntries entries = .error fault → Excused fault)
    (fun elements => ∀ fault, convertElements elements = .error fault → Excused fault)
  case case1 =>
    intro pending out operand fault failed
    rw [convert] at failed
    exact excused_finish failed
  all_goals intros
  all_goals grind [convert, convertElements, convertEntries, Excused, excused_release]

lemma upkeep_orderly : Upkeep Store.Orderly Store.Plain Excused :=
  { Store.Orderly.discipline with
    lex := .lex
    undefined := .undefined
    type := .type
    converted := excused_convert _ _ _ _ _
    domain := .domain
    tooLarge := .tooLarge
    index := .index
    text := fun orderly plain failed => by
      obtain ⟨text, done⟩ := orderly.exists_text plain
      rw [done] at failed
      cases failed
    equal := fun orderly _ _ failed => by
      obtain ⟨x, done⟩ := orderly.tiered.exists_equal _ _
      rw [done] at failed
      cases failed }

/-- Over finite trees, every text comes to such a tree, or fails in one of the ways above. -/
theorem evaluate_plain_or_excused (orderly : s.Orderly) (bound : ∀ name v, env.get? name = some v → s.Plain v)
    (text : String) : (∃ v t, evaluate env s text = .ok (v, t) ∧ t.Orderly ∧ t.Plain v) ∨
      ∃ fault, evaluate env s text = .error fault ∧ Excused fault := by
  have tended := tended_evaluate upkeep_orderly bound orderly text
  match made : evaluate env s text, tended with
  | .ok (v, t), ⟨orderly, _, plain⟩ => exact .inl ⟨v, t, rfl, orderly, plain⟩
  | .error fault, excused => exact .inr ⟨fault, rfl, excused⟩

def listStore : Store := ⟨#[.seq [.int 1]], 0⟩

def listNames : Environment := ⟨#[[("xs", .seq 0)]], 0, [0]⟩

/-- With a list at hand, an exclamation mark behind an operand fails as a key that is not known. -/
theorem exclamation_excused :
    evaluate listNames listStore "xs - xs !" = .error (.unknownKey "!") ∧ Excused (.unknownKey "!") := by
  have flat : ∀ r, ∀ v ∈ (listStore.cell r).values, v.ref? = none := by
    intro r v member
    cases r with
    | zero =>
      cases List.mem_singleton.mp member
      rfl
    | succ r => cases member
  have orderly : listStore.Orderly := by
    refine ⟨⟨fun _ => 0, fun r q linked => ?_⟩, fun r v member q link => ?_⟩
    · obtain ⟨v, member, link⟩ := Store.exists_of_links linked
      cases (flat r v member).symm.trans link
    · cases (flat r v member).symm.trans link
  have bound : ∀ name v, listNames.get? name = some v → listStore.Plain v := by
    intro name v found
    obtain ⟨id, owner, found⟩ := Option.bind_eq_some_iff.mp found
    obtain rfl : id = 0 := List.mem_singleton.mp (List.mem_of_find?_eq_some owner)
    cases List.mem_singleton.mp (Assoc.mem_of_get? found)
    rintro r ⟨⟩
    exact ⟨.inl rfl, by decide⟩
  have tokens : tokenize "xs - xs !" =
      .ok [⟨.identifier "xs", 0⟩, ⟨.operator .sub, 3⟩, ⟨.identifier "xs", 5⟩, ⟨.operator .bang, 8⟩] := by
    cbv
  have failed : evaluate listNames listStore "xs - xs !" = .error (.unknownKey "!") := by
    rw [evaluate, if_neg (by decide +kernel), tokens]
    simp [toPostfix, convert, release, Symbol.precedence?, Symbol.text]
  refine ⟨failed, ?_⟩
  obtain ⟨v, t, made, _⟩ | ⟨fault, known, excused⟩ := evaluate_plain_or_excused orderly bound "xs - xs !"
  · cases failed.symm.trans made
  · cases failed.symm.trans known
    exact excused

end Expr

end TagScript
