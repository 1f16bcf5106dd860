import TagScript.Proofs.Expr.Grouped
import TagScript.Proofs.Expr.Nesting

/-!
# Lists of arguments

As long as the text of a list does not close the literal it stands in, the list has a value exactly
if its items have.
-/

namespace TagScript.Expr

open List

variable {env : Environment} {s : Store} {tokens : List Token} {rows : List (List Token)}

/-- Every item is evaluated by itself, in the store that the items before it leave. -/
def evaluateEach (env : Environment) (s : Store) : List (List Token) → Except Fault (List Value × Store)
  | [] => .ok ([], s)
  | row :: rows => do
    let items ← toPostfix row
    let (value, s) ← runWhole env s items
    (evaluateEach env s rows).map fun (values, s) => (value :: values, s)

/-- The text before the closer of a literal closes the literal, and more follows. -/
def Escapes (tokens : List Token) : Prop :=
  ∃ before pos after, tokens = before ++ ⟨.mark .rbracket, pos⟩ :: after ∧ Nested true [] before

lemma bind_eq_ok {ε α β : Type} {x : Except ε α} {f : α → Except ε β} {b : β} :
    x >>= f = .ok b ↔ ∃ a, x = .ok a ∧ f a = .ok b := by
  refine ⟨ok_of_bind, ?_⟩
  rintro ⟨a, rfl, found⟩
  exact found

lemma Both.ok_iff {ε ε' α : Type} {x : Except ε α} {y : Except ε' α} (both : Both Eq x y) {a : α} :
    x = .ok a ↔ y = .ok a := by
  cases both with
  | ok same => simp [same]
  | error => simp

variable {made : List Value × Store}

lemma evaluateEach_eq_ok : evaluateEach env s rows = .ok made ↔
    ∃ elements, convertElements rows = .ok elements ∧ runElements env s elements = .ok made := by
  induction rows generalizing s made with
  | nil =>
    simp only [evaluateEach, convertElements, Except.ok.injEq, exists_eq_left', runElements]
  | cons row rows ih =>
    simp only [evaluateEach, convertElements_cons_eq, bind_eq_ok, map_eq_ok, ih]
    constructor
    · rintro ⟨items, made, ⟨value, s'⟩, ran, ⟨values, s''⟩, ⟨elements, others, further⟩, rfl⟩
      refine ⟨items :: elements, ⟨items, made, elements, others, rfl⟩, ?_⟩
      rw [runElements, bind_eq_ok]
      exact ⟨_, ran, map_eq_ok.mpr ⟨_, further, rfl⟩⟩
    · rintro ⟨_, ⟨items, made, elements, others, rfl⟩, ran⟩
      rw [runElements, bind_eq_ok] at ran
      obtain ⟨⟨value, s'⟩, ran, further⟩ := ran
      simp only [map_eq_ok] at further
      obtain ⟨behind, further, rfl⟩ := further
      exact ⟨items, made, (value, s'), ran, behind, ⟨elements, others, further⟩, rfl⟩

lemma filled_of_evaluateEach (done : evaluateEach env s rows = .ok made) : ∀ row ∈ rows, row ≠ [] := by
  induction rows generalizing s made with
  | nil => exact nofun
  | cons row rows ih =>
    simp only [evaluateEach, bind_eq_ok, map_eq_ok] at done
    obtain ⟨items, made, first, ran, _, further, _⟩ := done
    refine List.forall_mem_cons.mpr ⟨?_, ih further⟩
    rintro rfl
    rw [toPostfix, convert] at made
    cases made
    cases ran

/-! ## The text between brackets -/

def enclosed (tokens : List Token) : List Token := ⟨.mark .lbracket, 0⟩ :: (tokens ++ [⟨.mark .rbracket, 0⟩])

lemma runWhole_sequence (elements : List (List Item)) (pos : Nat) :
    runWhole env s [.sequence elements pos] = (runElements env s elements).map fun made => made.2.newSeq made.1 := by
  simp only [runWhole, runItems, runItem]
  cases runElements env s elements <;> rfl

lemma evaluate_enclosed (closed : ¬ Escapes tokens) {result : Value × Store} :
    toPostfix (enclosed tokens) >>= runWhole env s = .ok result ↔ ∃ rows values after, Items rows tokens ∧
      evaluateEach env s rows = .ok (values, after) ∧ result = after.newSeq values := by
  simp only [toPostfix, enclosed, convert_sequence, bind_eq_ok]
  constructor
  · rintro ⟨items, ⟨⟨rows, after⟩, found, elements, made, tail⟩, ran⟩
    have each := convertElements_nested rows made
    obtain ⟨body, pos, same, listing⟩ := splitGroup_listing (ok_of_mapError found)
    obtain rfl | ⟨front, last, rfl⟩ := after.eq_nil_or_concat
    · obtain ⟨rfl, _⟩ := append_inj' same rfl
      rw [convert, finish] at tail
      cases tail
      rw [reverse_singleton, runWhole_sequence] at ran
      obtain ⟨⟨values, after⟩, found, rfl⟩ := map_eq_ok.mp ran
      have done := evaluateEach_eq_ok.mpr ⟨elements, made, found⟩
      exact ⟨rows, values, after, ⟨listing, filled_of_evaluateEach done, each⟩, done, rfl⟩
    · have shorter : tokens = body ++ ⟨.mark .rbracket, pos⟩ :: front := by
        rw [concat_eq_append, ← cons_append, ← append_assoc] at same
        exact (append_inj' same rfl).1
      exact absurd ⟨body, pos, front, shorter, .listing listing each⟩ closed
  · rintro ⟨rows, values, after, items, done, rfl⟩
    obtain ⟨elements, made, ran⟩ := evaluateEach_eq_ok.mp done
    refine ⟨[.sequence elements 0], ⟨(rows, []), ?_, elements, made, ?_⟩, ?_⟩
    · rw [items.splitGroup rfl 0 []]
      rfl
    · rw [convert]
      rfl
    · rw [runWhole_sequence, ran]
      rfl

lemma evaluateList_same {text : String} (solid : Text.allBlank text = false) :
    Both Eq ((tokenize text).mapError Fault.lex >>= fun tokens => toPostfix (enclosed tokens) >>= runWhole env s)
      (evaluateList env s (some text)) := by
  have letters : ("[" ++ text ++ "]").toList = [Mark.lbracket.char] ++ (text.toList ++ [Mark.rbracket.char]) := by
    simp [Mark.char]
  have around : Text.allBlank ("[" ++ text ++ "]") = false := by
    rw [Text.allBlank, letters]
    rfl
  have tail : Tail [Mark.rbracket.char] := ⟨fun c head => by cases head; exact ⟨by decide, by decide, by simp [Mark.char]⟩, by simp [Mark.char]⟩
  have closer : ∀ pos, ∃ tokens, scan pos [Mark.rbracket.char] = .ok tokens ∧ ∃ q, tokens = [⟨.mark .rbracket, q⟩] := by
    intro pos
    obtain ⟨tokens, one, scanned⟩ := scans_mark .rbracket pos [] trivial
    refine ⟨tokens, ?_, one⟩
    rw [append_nil, scan] at scanned
    simpa [Except.map] using scanned
  obtain ⟨_, ⟨p, rfl⟩, scanned⟩ := scans_mark .lbracket 0 (text.toList ++ [Mark.rbracket.char]) trivial
  rw [evaluateList, Option.getD_some, if_neg (by rw [solid]; decide), evaluate_eq around, tokenize, tokenize, letters, scanned]
  have both := scan_append tail closer text.toList 0 (0 + [Mark.lbracket.char].length)
  generalize scan 0 text.toList = x at both
  generalize scan (0 + _) (text.toList ++ [Mark.rbracket.char]) = y at both
  cases both with
  | error => exact .error trivial
  | @ok xs _ related =>
    obtain ⟨zs, _, same, ⟨q, rfl⟩, rfl⟩ := related
    have around : List.Forall₂ Token.Same (enclosed xs) (⟨.mark .lbracket, p⟩ :: (zs ++ [⟨.mark .rbracket, q⟩])) :=
      .cons rfl (rel_append same (.cons rfl .nil))
    refine (convert_same true .nil ⟨[], [], .nil, rfl, rfl⟩ _ _ around).bind ?_
    rintro items items' _ ⟨_, _, each, rfl, rfl⟩
    exact (runItems_same s [] _ _ each).oneValue

/-- A list of arguments has a value exactly if its brackets stand in pairs, its items are not empty
and each of them has a value; the value is the sequence of theirs. -/
theorem evaluateList_eq_ok_iff {text : String} (solid : Text.allBlank text = false)
    (closed : ∀ tokens, tokenize text = .ok tokens → ¬ Escapes tokens) (result : Value × Store) :
    evaluateList env s (some text) = .ok result ↔
      ∃ tokens rows values after, tokenize text = .ok tokens ∧ Nested true [] tokens ∧ Items rows tokens ∧
        evaluateEach env s rows = .ok (values, after) ∧ result = after.newSeq values := by
  rw [← (evaluateList_same solid).ok_iff, bind_eq_ok]
  constructor
  · rintro ⟨tokens, found, done⟩
    have scanned := ok_of_mapError found
    obtain ⟨rows, values, after, items, each, same⟩ := (evaluate_enclosed (closed tokens scanned)).mp done
    exact ⟨tokens, rows, values, after, scanned, items.nested, items, each, same⟩
  · rintro ⟨tokens, rows, values, after, scanned, _, items, each, same⟩
    refine ⟨tokens, by rw [scanned]; rfl, ?_⟩
    exact (evaluate_enclosed (closed tokens scanned)).mpr ⟨rows, values, after, items, each, same⟩

theorem evaluateList_group_and_name :
    evaluateList .empty .empty (some "(true), false,") = .ok (Store.empty.newSeq [.bool true, .bool false]) := by
  have scanned : tokenize "(true), false," = .ok [⟨.mark .lparen, 0⟩, ⟨.boolean true, 1⟩, ⟨.mark .rparen, 5⟩,
      ⟨.mark .comma, 6⟩, ⟨.boolean false, 8⟩, ⟨.mark .comma, 13⟩] := by
    cbv
  have group : Nested false [] [⟨.mark .lparen, 0⟩, ⟨.boolean true, 1⟩, ⟨.mark .rparen, 5⟩] :=
    .opened rfl 0 (.plain rfl (by rintro ⟨⟩) (.closed rfl 5 .done))
  have name : Nested false [] [⟨.boolean false, 8⟩] := .plain rfl (by rintro ⟨⟩) .done
  have items : Items _ _ := .more (by simp) group 6 (.more (by simp) name 13 .none)
  refine (evaluateList_eq_ok_iff (by decide +kernel) ?_ _).mpr
    ⟨_, _, _, .empty, scanned, items.nested, items, ?_, rfl⟩
  · rintro _ found ⟨before, pos, after, same, _⟩
    rw [scanned] at found
    cases found
    have member : (⟨.mark .rbracket, pos⟩ : Token) ∈ before ++ ⟨.mark .rbracket, pos⟩ :: after := by simp
    rw [← same] at member
    simp at member
  · cbv

end TagScript.Expr
