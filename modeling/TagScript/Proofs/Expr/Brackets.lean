import Mathlib.Order.Basic
import TagScript.Expr.Postfix

/-!
# Brackets in pairs

Where brackets stand in pairs, a group ends at its own closer, and is split at its own commas.
-/

namespace TagScript.Expr

open List

/-- Rows of tokens with commas between them, and perhaps one behind the last. -/
inductive Listing : List (List Token) → List Token → Prop where
  | none : Listing [] []
  | last (row : List Token) : Listing [row] row
  | more {rows : List (List Token)} {tokens : List Token} (row : List Token) (comma : Nat) (others : Listing rows tokens) :
    Listing (row :: rows) (row ++ ⟨.mark .comma, comma⟩ :: tokens)

def Mark.closer? : Mark → Option Mark
  | .lparen => some .rparen
  | .lbracket => some .rbracket
  | .lbrace => some .rbrace
  | _ => none

def Token.isBracket (t : Token) : Bool :=
  match t.lexeme with
  | .mark m => m.isOpener || m.isCloser
  | _ => false

/-- Brackets stand in pairs. `due` are the closers still to come, innermost first: an opener makes
the closer of its own kind due, and no other closer may stand than the one due next. Commas outside
all brackets are allowed or not. -/
inductive Nested (commas : Bool) : List Mark → List Token → Prop where
  | done : Nested commas [] []
  | plain {due rest} {t : Token} (is : t.isBracket = false)
    (inside : t.lexeme = .mark .comma → commas = true ∨ due ≠ []) (more : Nested commas due rest) :
    Nested commas due (t :: rest)
  | opened {due rest} {m closer : Mark} (pair : m.closer? = some closer) (pos : Nat)
    (more : Nested commas (closer :: due) rest) : Nested commas due (⟨.mark m, pos⟩ :: rest)
  | closed {due rest} {m : Mark} (closes : m.isCloser = true) (pos : Nat) (more : Nested commas due rest) :
    Nested commas (m :: due) (⟨.mark m, pos⟩ :: rest)

/-- The items of a list: what stands between its commas outside all brackets. One comma may stand
behind the last. -/
structure Items (rows : List (List Token)) (tokens : List Token) : Prop where
  listing : Listing rows tokens
  filled : ∀ row ∈ rows, row ≠ []
  apart : ∀ row ∈ rows, Nested false [] row

namespace Nested

variable {commas free : Bool} {due stack : List Mark} {row body rest tokens : List Token} {rows : List (List Token)}

lemma append (inner : Nested free stack body) (outside : free = true → commas = true ∨ due ≠ [])
    (outer : Nested commas due rest) : Nested commas (stack ++ due) (body ++ rest) := by
  induction inner with
  | done => exact outer
  | plain is inside _ ih =>
    refine .plain is (fun comma => ?_) ih
    rcases inside comma with out | some
    · exact (outside out).imp_right (append_ne_nil_of_right_ne_nil _)
    · exact .inr (append_ne_nil_of_left_ne_nil some _)
  | opened pair pos _ ih => exact .opened pair pos ih
  | closed closes pos _ ih => exact .closed closes pos ih

lemma listed (nested : Nested commas due tokens) : Nested true due tokens := by
  simpa using nested.append (fun _ => .inl rfl) .done

lemma group {opener closer : Mark} (pair : opener.closer? = some closer) (pos closed : Nat)
    (inner : Nested free [] body) (outer : Nested commas due rest) :
    Nested commas due (⟨.mark opener, pos⟩ :: (body ++ ⟨.mark closer, closed⟩ :: rest)) := by
  have closes : closer.isCloser = true := by
    cases opener <;> cases pair <;> rfl
  have behind : Nested commas (closer :: due) (⟨.mark closer, closed⟩ :: rest) := .closed closes closed outer
  exact .opened pair pos (inner.append (fun _ => .inr (cons_ne_nil closer due)) behind)

lemma named {lexeme : Lexeme} {key : String} (named : lexeme.key? = some key) (pos colon : Nat)
    (value : Nested commas due rest) : Nested commas due (⟨lexeme, pos⟩ :: ⟨.mark .colon, colon⟩ :: rest) := by
  have plain : Token.isBracket ⟨lexeme, pos⟩ = false ∧ lexeme ≠ .mark .comma := by
    cases lexeme <;> simp [Lexeme.key?, Token.isBracket] at named ⊢
  exact .plain plain.1 (absurd · plain.2) (.plain rfl nofun value)

lemma listing (listing : Listing rows tokens) (each : ∀ row ∈ rows, Nested commas [] row) : Nested true [] tokens := by
  induction listing with
  | none => exact .done
  | last row => exact (each row mem_cons_self).listed
  | more row comma _ ih =>
    rw [forall_mem_cons] at each
    exact each.1.append (fun _ => .inl rfl) (.plain rfl (fun _ => .inl rfl) (ih each.2))

lemma splitGroup_append (nested : Nested commas due tokens) {depth : Nat}
    (free : commas = true → 0 < depth) (closer : Mark) (current rest : List Token) :
    splitGroup closer (due.length + depth) current (tokens ++ rest) =
      splitGroup closer depth (tokens.reverse ++ current) rest := by
  induction nested generalizing current with
  | done => simp
  | @plain due _ t is inside _ ih =>
    have step : ∀ more, splitGroup closer (due.length + depth) current (t :: more) =
        splitGroup closer (due.length + depth) (t :: current) more := by
      intro more
      obtain ⟨lexeme, pos⟩ := t
      cases lexeme with
      | mark m =>
        have inner : ¬ (m = .comma ∧ due.length + depth = 0) := by
          rintro ⟨rfl, none⟩
          rcases inside rfl with listed | some
          · have := free listed
            omega
          · exact some (List.length_eq_zero_iff.mp (by omega))
        simp only [Token.isBracket, Bool.or_eq_false_iff] at is
        rw [splitGroup]
        simp only [is, Bool.false_eq_true, if_false]
        rw [if_neg (by simpa using inner)]
      | _ => rfl
    rw [cons_append, step, ih, reverse_cons, append_assoc]
    rfl
  | @opened due _ m _ pair pos _ ih =>
    have opens : m.isOpener = true := by cases m <;> first | rfl | cases pair
    rw [cons_append, splitGroup, reverse_cons, append_assoc]
    simp only [opens, if_true]
    rw [length_cons, Nat.add_right_comm] at ih
    exact ih _
  | @closed due _ m closes pos _ ih =>
    have opens : m.isOpener = false := by cases m <;> first | rfl | cases closes
    rw [length_cons, Nat.add_right_comm, cons_append, splitGroup, reverse_cons, append_assoc]
    simp only [opens, closes, Bool.false_eq_true, if_false, if_true, Nat.add_one_ne_zero, Nat.add_one_sub_one]
    exact ih _

lemma passes (nested : Nested false [] tokens) (closer : Mark) (rest : List Token) :
    splitGroup closer 0 [] (tokens ++ rest) = splitGroup closer 0 tokens.reverse rest := by
  have free : false = true → 0 < 0 := nofun
  simpa using nested.splitGroup_append free closer [] rest

end Nested

namespace Items

variable {row tokens : List Token} {rows : List (List Token)}

lemma none : Items [] [] := ⟨.none, nofun, nofun⟩

lemma last (filled : row ≠ []) (apart : Nested false [] row) : Items [row] row :=
  ⟨.last row, List.forall_mem_singleton.mpr filled, List.forall_mem_singleton.mpr apart⟩

lemma more (filled : row ≠ []) (apart : Nested false [] row) (comma : Nat) (others : Items rows tokens) :
    Items (row :: rows) (row ++ ⟨.mark .comma, comma⟩ :: tokens) :=
  ⟨others.listing.more row comma, List.forall_mem_cons.mpr ⟨filled, others.filled⟩,
    List.forall_mem_cons.mpr ⟨apart, others.apart⟩⟩

lemma nested (items : Items rows tokens) : Nested true [] tokens :=
  .listing items.listing items.apart

lemma splitGroup (items : Items rows tokens) {closer : Mark} (closes : closer.isCloser = true) (pos : Nat)
    (after : List Token) : splitGroup closer 0 [] (tokens ++ ⟨.mark closer, pos⟩ :: after) = .ok (rows, after) := by
  have opens : closer.isOpener = false := by cases closer <;> first | rfl | cases closes
  obtain ⟨listing, filled, apart⟩ := items
  induction listing with
  | none => simp [Expr.splitGroup, opens, closes]
  | last row =>
    rw [(apart row mem_cons_self).passes, Expr.splitGroup]
    simp [opens, closes, filled row mem_cons_self]
  | more row comma _ ih =>
    rw [forall_mem_cons] at filled apart
    rw [append_assoc, cons_append, apart.1.passes, Expr.splitGroup]
    simp [Mark.isOpener, Mark.isCloser, filled.1, ih filled.2 apart.2]

end Items

end TagScript.Expr
