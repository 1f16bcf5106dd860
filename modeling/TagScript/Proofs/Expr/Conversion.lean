import TagScript.Proofs.Expr.Brackets
import TagScript.Proofs.Expr.Grammar

/-!
# Conversion of written trees

The conversion to postfix order undoes writing. Of the operators that still wait it is known that
whatever may follow the tree releases them, and that this completes the postfix order; what waited
before stays where it is.
-/

namespace TagScript.Expr

open List

variable {items : List Item} {level : Nat} {symbol : Symbol} {tokens : List Token}
  {ops : List Pending} {p : Nat} {rest : List (List Token)}

lemma Writes.ne_nil {t : Tree} (written : Writes level t tokens) : tokens ≠ [] := by
  cases written <;> simp

lemma WritesEntry.ne_nil {entry : String × Tree} (written : WritesEntry entry tokens) : tokens ≠ [] := by
  cases written
  simp

/-! ## Operators that wait -/

def drain : List Pending → List Item → List Item
  | [], out => out
  | .paren _ :: rest, out => drain rest out
  | .unary sign pos :: rest, out => drain rest (.unary sign pos :: out)
  | .binary symbol pos :: rest, out => drain rest (.binary symbol pos :: out)

lemma drain_append (first second : List Pending) (out : List Item) :
    drain (first ++ second) out = drain second (drain first out) := by
  induction first generalizing out with
  | nil => rfl
  | cons top rest ih => cases top <;> simp [drain, ih]

lemma drain_append_out (ops : List Pending) (out below : List Item) :
    drain ops (out ++ below) = drain ops out ++ below := by
  induction ops generalizing out with
  | nil => rfl
  | cons top rest ih =>
    cases top with
    | paren => exact ih out
    | unary | binary => exact ih (_ :: out)

/-- The operators of a tree at a level that still wait bind at least as tightly as the level or as a
prefix operator. None waits at a level that only operands without operators have. -/
def Settled (level : Nat) (ops : List Pending) : Prop :=
  ∀ op ∈ ops, ∃ p, op.precedence? = some p ∧ min level Sign.precedence ≤ p ∧ level ≤ 8

def Blocks (level : Nat) (pending : List Pending) : Prop :=
  ∀ symbol p out, symbol.precedence? = some p → level ≤ p → release symbol pending out = .ok (pending, out)

lemma Blocks.mono {low high : Nat} {pending : List Pending} (blocks : Blocks low pending)
    (above : low ≤ high) : Blocks high pending := by
  intro symbol p out binds fits
  exact blocks symbol p out binds (Nat.le_trans above fits)

lemma Blocks.nil (level : Nat) : Blocks level [] := by
  intro symbol p out _ _
  simp [release]

lemma Blocks.paren (level pos : Nat) (pending : List Pending) : Blocks level (.paren pos :: pending) := by
  intro symbol p out _ _
  simp [release]

lemma Symbol.precedence_cases (binds : symbol.precedence? = some p) :
    (symbol.rightAssociative = true ∧ p = 8) ∨ (symbol.rightAssociative = false ∧ 1 ≤ p ∧ p ≤ 6) := by
  cases symbol <;> simp [Symbol.precedence?, Symbol.rightAssociative] at binds ⊢ <;> omega

/-- A prefix operator that waits stays while its operand is read. -/
lemma Blocks.unary (sign : Sign) (pos : Nat) (pending : List Pending) :
    Blocks Sign.precedence (.unary sign pos :: pending) := by
  intro symbol p out binds fits
  have cases := Symbol.precedence_cases binds
  simp only [release, binds, Sign.precedence] at fits ⊢
  rcases cases with ⟨associates, rfl⟩ | ⟨_, _, small⟩
  · simp
  · omega

/-- An infix operator that waits stays while its right operand is read. -/
lemma Blocks.binary (binds : symbol.precedence? = some p) (pos : Nat)
    (pending : List Pending) : Blocks (symbol.rightLevel p) (.binary symbol pos :: pending) := by
  intro arriving q out arrives fits
  have own := Symbol.precedence_cases binds
  have other := Symbol.precedence_cases arrives
  simp only [release, binds, arrives]
  rcases own with ⟨right, rfl⟩ | ⟨left, low, high⟩
  · rcases other with ⟨associates, rfl⟩ | ⟨_, _, small⟩
    · simp [associates]
    · simp [Symbol.rightLevel, right, Sign.precedence] at fits
      omega
  · simp only [Symbol.rightLevel, left] at fits
    have looser : ¬ p > q := by simp at fits; omega
    have different : p ≠ q := by simp at fits; omega
    simp [looser, different]

lemma release_settled
    (binds : symbol.precedence? = some p) (fits : symbol.leftLevel p ≤ level)
    (settled : Settled level ops) (pending : List Pending) (out : List Item) :
    release symbol (ops ++ pending) out = release symbol pending (drain ops out) := by
  have cases := Symbol.precedence_cases binds
  induction ops generalizing out with
  | nil => rfl
  | cons op rest ih =>
    have others : Settled level rest := fun o mem => settled o (mem_cons_of_mem _ mem)
    obtain ⟨q, known, tight, bounded⟩ := settled op (mem_cons_self)
    rcases cases with ⟨right, rfl⟩ | ⟨left, low, high⟩
    · simp only [Symbol.leftLevel, right, if_true] at fits
      omega
    · simp only [Symbol.leftLevel, left, Bool.false_eq_true, if_false] at fits
      have atLeast : p ≤ q := by
        simp only [Sign.precedence] at tight
        omega
      cases op with
      | paren pos => simp [Pending.precedence?] at known
      | unary sign pos =>
        have released : Sign.precedence > p := by simp only [Sign.precedence]; omega
        simp only [cons_append, release, binds, released, decide_true, Bool.true_or, if_true, drain]
        exact ih others _
      | binary top pos =>
        simp only [Pending.precedence?] at known
        have released : (decide (q > p) || (decide (q = p) && !symbol.rightAssociative)) = true := by
          simp only [left, Bool.not_false, Bool.and_true, Bool.or_eq_true, decide_eq_true_eq]
          omega
        simp only [cons_append, release, known, binds, released, if_true, drain]
        exact ih others _

/-- Whatever moves waiting operators to the items moves all of them. -/
lemma drain_settled {β : Type} {next : List Pending → List Item → β}
    (unary : ∀ sign pos pending out, next (.unary sign pos :: pending) out = next pending (.unary sign pos :: out))
    (binary : ∀ top pos pending out, next (.binary top pos :: pending) out = next pending (.binary top pos :: out))
    (settled : Settled level ops) (pending : List Pending) (out : List Item) :
    next (ops ++ pending) out = next pending (drain ops out) := by
  induction ops generalizing out with
  | nil => rfl
  | cons op rest ih =>
    have others : Settled level rest := fun o mem => settled o (mem_cons_of_mem _ mem)
    obtain ⟨q, known, _, _⟩ := settled op (mem_cons_self)
    cases op with
    | paren pos => simp [Pending.precedence?] at known
    | unary sign pos => exact (unary ..).trans (ih others _)
    | binary top pos => exact (binary ..).trans (ih others _)

lemma finish_settled (settled : Settled level ops) (out : List Item) :
    finish ops out = .ok (drain ops out).reverse := by
  have drained : finish (ops ++ []) out = _ := drain_settled (fun _ _ _ _ => rfl) (fun _ _ _ _ => rfl) settled [] out
  rwa [append_nil] at drained

/-! ## Conversion of one tree

What conversion does with the tokens of a tree, whatever waits before them and whatever follows. -/

/-- Conversion of some tokens leads to some items: it leaves operators waiting that complete the
items once they are released. -/
structure Converts (level : Nat) (tokens : List Token) (items : List Item) : Prop where
  nested : Nested false [] tokens
  steps : ∃ ops part, Settled level ops ∧ drain ops part = items.reverse ∧
    ∀ pending out rest, Blocks level pending →
      convert pending out true (tokens ++ rest) = convert (ops ++ pending) (part ++ out) false rest

lemma Settled.nil (level : Nat) : Settled level [] := by
  intro op mem
  cases mem

lemma Converts.operand {item : Item} (nested : Nested false [] tokens)
    (step : ∀ pending out rest, convert pending out true (tokens ++ rest) = convert pending (item :: out) false rest) :
    Converts level tokens [item] := by
  refine ⟨nested, [], [item], Settled.nil level, rfl, ?_⟩
  intro pending out rest _
  exact step pending out rest

lemma Converts.convert_parens (opened closed : Nat)
    (inner : Converts 0 tokens items) (pending : List Pending) (out : List Item) (rest : List Token) :
    convert pending out true (⟨.mark .lparen, opened⟩ :: (tokens ++ ⟨.mark .rparen, closed⟩ :: rest)) =
      convert pending (items.reverse ++ out) false rest := by
  obtain ⟨ops, part, settled, complete, step⟩ := inner.steps
  have reading := step (.paren opened :: pending) out (⟨.mark .rparen, closed⟩ :: rest) (Blocks.paren 0 opened pending)
  have closing : closeParen (ops ++ .paren opened :: pending) (part ++ out) =
      some (pending, items.reverse ++ out) := by
    refine (drain_settled (fun _ _ _ _ => rfl) (fun _ _ _ _ => rfl) settled _ _).trans ?_
    rw [drain_append_out, complete]
    rfl
  rw [convert]
  rw [reading, convert]
  simp only [closing]

lemma Converts.parens (level opened closed : Nat)
    (inner : Converts 0 tokens items) :
    Converts level (⟨.mark .lparen, opened⟩ :: (tokens ++ [⟨.mark .rparen, closed⟩])) items := by
  refine ⟨.group rfl opened closed inner.nested .done, [], items.reverse, Settled.nil level, rfl, ?_⟩
  intro pending out rest _
  rw [cons_append, append_assoc, singleton_append, inner.convert_parens, nil_append]

lemma Converts.signed {sign : Sign} (pos : Nat) (isSign : symbol.sign? = some sign) (fits : level ≤ Sign.precedence)
    (operand : Converts Sign.precedence tokens items) :
    Converts level (⟨.operator symbol, pos⟩ :: tokens) (items ++ [.unary sign pos]) := by
  obtain ⟨nested, ops, part, settled, complete, step⟩ := operand
  refine ⟨.plain rfl nofun nested, ops ++ [.unary sign pos], part, ?_, ?_, ?_⟩
  · intro op mem
    rcases mem_append.mp mem with inside | own
    · obtain ⟨p, known, tight, _⟩ := settled op inside
      refine ⟨p, known, ?_, ?_⟩
      · omega
      · omega
    · rw [mem_singleton.mp own]
      refine ⟨Sign.precedence, rfl, Nat.min_le_right _ _, ?_⟩
      simp only [Sign.precedence] at fits
      omega
  · rw [drain_append, complete, reverse_append]
    rfl
  · intro pending out rest _
    have reading := step (.unary sign pos :: pending) out rest (Blocks.unary sign pos pending)
    rw [cons_append, convert]
    simp only [if_true, isSign]
    rw [reading, append_assoc]
    rfl

/-- An infix operator releases what its left operand has waiting and nothing else, and waits itself
until its right operand is complete. -/
lemma Converts.joined {before after : List Token}
    {first second : List Item} (pos : Nat) (binds : symbol.precedence? = some p) (fits : level ≤ p)
    (left : Converts (symbol.leftLevel p) before first)
    (right : Converts (symbol.rightLevel p) after second) :
    Converts level (before ++ ⟨.operator symbol, pos⟩ :: after) (first ++ second ++ [.binary symbol pos]) := by
  obtain ⟨leftNested, leftOps, leftPart, leftSettled, leftComplete, leftStep⟩ := left
  obtain ⟨rightNested, rightOps, rightPart, rightSettled, rightComplete, rightStep⟩ := right
  have range := Symbol.precedence_cases binds
  refine ⟨leftNested.append nofun (.plain rfl nofun rightNested), rightOps ++ [.binary symbol pos],
    rightPart ++ first.reverse, ?_, ?_, ?_⟩
  · intro op mem
    rcases mem_append.mp mem with inside | own
    · obtain ⟨q, known, tight, _⟩ := rightSettled op inside
      have level8 : level ≤ 8 := by omega
      refine ⟨q, known, ?_, level8⟩
      rcases range with ⟨associates, rfl⟩ | ⟨associates, _, _⟩
      · simp [Symbol.rightLevel, associates, Sign.precedence] at tight ⊢
        omega
      · simp [Symbol.rightLevel, associates, Sign.precedence] at tight ⊢
        omega
    · rw [mem_singleton.mp own]
      exact ⟨p, binds, by omega, by omega⟩
  · rw [drain_append, drain_append_out, rightComplete]
    simp [drain]
  · intro pending out rest blocks
    have leftBlocks : Blocks (symbol.leftLevel p) pending := by
      refine blocks.mono (Nat.le_trans fits ?_)
      unfold Symbol.leftLevel
      split <;> omega
    have released : release symbol (leftOps ++ pending) (leftPart ++ out) =
        .ok (pending, first.reverse ++ out) := by
      rw [release_settled binds (Nat.le_refl _) leftSettled, drain_append_out, leftComplete]
      exact blocks symbol p _ binds fits
    rw [append_assoc, leftStep pending out _ leftBlocks, cons_append, convert]
    simp only [Bool.false_eq_true, if_false, released]
    rw [rightStep _ _ rest (Blocks.binary binds pos pending), append_assoc, append_assoc]
    rfl

lemma Converts.whole (converts : Converts 0 tokens items) : convert [] [] true tokens = .ok items := by
  obtain ⟨ops, part, settled, complete, step⟩ := converts.steps
  have reading := step [] [] [] (Blocks.nil 0)
  rw [append_nil, append_nil, append_nil] at reading
  rw [reading, convert, finish_settled settled, complete, reverse_reverse]

def ConvertsElements (tokens : List Token) (items : List (List Item)) : Prop :=
  ∃ rows, Items rows tokens ∧ convertElements rows = .ok items

def ConvertsEntries (tokens : List Token) (items : List (String × List Item)) : Prop :=
  ∃ rows, Items rows tokens ∧ convertEntries rows = .ok items

structure ConvertsEntry (tokens : List Token) (item : String × List Item) : Prop where
  nested : Nested false [] tokens
  value : ∃ value, splitEntry tokens = .ok (item.1, value) ∧ convert [] [] true value = .ok item.2

lemma convert_sequence (pending : List Pending) (out : List Item) (operand : Bool) (pos : Nat) (rest : List Token) :
    convert pending out operand (⟨.mark .lbracket, pos⟩ :: rest) =
      (splitGroup .rbracket 0 [] rest).mapError .lex >>= fun group => convertElements group.1 >>= fun elements =>
        convert pending (.sequence elements pos :: out) false group.2 := by
  rw [convert]
  simp only []
  split
  · rename_i fault failed
    rw [failed]
    rfl
  · rename_i elements after found
    rw [found]
    simp only [Except.mapError, bind, Except.bind]
    cases convertElements elements <;> rfl

lemma convert_mapping (pending : List Pending) (out : List Item) (operand : Bool) (pos : Nat) (rest : List Token) :
    convert pending out operand (⟨.mark .lbrace, pos⟩ :: rest) =
      (splitGroup .rbrace 0 [] rest).mapError .lex >>= fun group => convertEntries group.1 >>= fun entries =>
        convert pending (.mapping entries pos :: out) false group.2 := by
  rw [convert]
  simp only []
  split
  · rename_i fault failed
    rw [failed]
    rfl
  · rename_i entries after found
    rw [found]
    simp only [Except.mapError, bind, Except.bind]
    cases convertEntries entries <;> rfl

lemma convertElements_cons_eq (element : List Token) (rest : List (List Token)) :
    convertElements (element :: rest) = convert [] [] true element >>= fun items =>
      (convertElements rest).map (items :: ·) := by
  rw [convertElements]
  cases convert [] [] true element with
  | error fault => rfl
  | ok items =>
    cases convertElements rest <;> rfl

lemma convertEntries_cons_eq (entry : List Token) (rest : List (List Token)) :
    convertEntries (entry :: rest) = (splitEntry entry).mapError .lex >>= fun found =>
      convert [] [] true found.2 >>= fun items => (convertEntries rest).map ((found.1, items) :: ·) := by
  rw [convertEntries]
  split
  · rename_i fault failed
    rw [failed]
    rfl
  · rename_i key value found
    rw [found]
    simp only [Except.mapError, bind, Except.bind]
    cases convert [] [] true value with
    | error fault => rfl
    | ok items =>
      cases convertEntries rest <;> rfl

lemma Converts.sequence {items : List (List Item)} (level pos closed : Nat)
    (inner : ConvertsElements tokens items) :
    Converts level (⟨.mark .lbracket, pos⟩ :: (tokens ++ [⟨.mark .rbracket, closed⟩])) [.sequence items pos] := by
  obtain ⟨rows, listed, converted⟩ := inner
  refine .operand (.group rfl pos closed listed.nested .done) fun pending out rest => ?_
  rw [cons_append, append_assoc, singleton_append, convert_sequence, listed.splitGroup rfl]
  simp only [Except.mapError, bind, Except.bind, converted]

lemma Converts.mapping {items : List (String × List Item)}
    (level pos closed : Nat) (inner : ConvertsEntries tokens items) :
    Converts level (⟨.mark .lbrace, pos⟩ :: (tokens ++ [⟨.mark .rbrace, closed⟩])) [.mapping items pos] := by
  obtain ⟨rows, listed, converted⟩ := inner
  refine .operand (.group rfl pos closed listed.nested .done) fun pending out rest => ?_
  rw [cons_append, append_assoc, singleton_append, convert_mapping, listed.splitGroup rfl]
  simp only [Except.mapError, bind, Except.bind, converted]

lemma convertElements_cons {element : List Token}
    {others : List (List Item)} (first : convert [] [] true element = .ok items)
    (behind : convertElements rest = .ok others) :
    convertElements (element :: rest) = .ok (items :: others) := by
  rw [convertElements]
  simp only [first, behind]

lemma convertEntries_cons {entry value : List Token} {key : String} {others : List (String × List Item)}
    (named : splitEntry entry = .ok (key, value)) (first : convert [] [] true value = .ok items)
    (behind : convertEntries rest = .ok others) :
    convertEntries (entry :: rest) = .ok ((key, items) :: others) := by
  rw [convertEntries_cons_eq, named]
  simp only [Except.mapError, bind, Except.bind, first, behind, Except.map]

lemma splitEntry_key {lexeme : Lexeme} {key : String} (named : lexeme.key? = some key)
    (pos colon : Nat) (value : List Token) :
    splitEntry (⟨lexeme, pos⟩ :: ⟨.mark .colon, colon⟩ :: value) = .ok (key, value) := by
  cases lexeme <;>
    simp [Lexeme.key?, splitEntry, splitColon, Mark.isOpener, Mark.isCloser] at named ⊢ <;> exact named

/-! ## All of writing is undone -/

mutual

lemma Writes.converts {level : Nat} {t : Tree} {tokens : List Token} :
    Writes level t tokens → Converts level tokens t.postOrder
  | .number .. | .string .. | .boolean .. | .identifier .. =>
    Converts.operand (.plain rfl nofun .done) fun _ _ _ => by rw [singleton_append, convert]
  | .parens level opened closed inner => Converts.parens level opened closed inner.converts
  | .signed pos isSign fits operand => by
    rw [Tree.postOrder]
    exact Converts.signed pos isSign fits operand.converts
  | .joined pos binds fits left right => by
    rw [Tree.postOrder]
    exact Converts.joined pos binds fits left.converts right.converts
  | .sequence level pos closed inner => by
    rw [Tree.postOrder]
    exact Converts.sequence level pos closed inner.converts
  | .mapping level pos closed inner => by
    rw [Tree.postOrder]
    exact Converts.mapping level pos closed inner.converts

lemma WritesElements.converts {elements : List Tree} {tokens : List Token} :
    WritesElements elements tokens → ConvertsElements tokens (Tree.postOrders elements)
  | .none => ⟨[], .none, by rw [Tree.postOrders, convertElements]⟩
  | .last element =>
    have first := element.converts
    ⟨_, .last element.ne_nil first.nested, convertElements_cons first.whole (by rw [Tree.postOrders, convertElements])⟩
  | .more comma element rest => by
    rw [Tree.postOrders]
    have first := element.converts
    obtain ⟨rows, listed, converted⟩ := rest.converts
    exact ⟨_, listed.more element.ne_nil first.nested comma, convertElements_cons first.whole converted⟩

lemma WritesEntries.converts {entries : List (String × Tree)} {tokens : List Token} :
    WritesEntries entries tokens → ConvertsEntries tokens (Tree.entryOrders entries)
  | .none => ⟨[], .none, by rw [Tree.entryOrders, convertEntries]⟩
  | .last entry => by
    obtain ⟨nested, value, named, first⟩ := entry.converts
    exact ⟨_, .last entry.ne_nil nested, convertEntries_cons named first (by rw [Tree.entryOrders, convertEntries])⟩
  | .more comma entry rest => by
    rw [Tree.entryOrders]
    obtain ⟨nested, value, named, first⟩ := entry.converts
    obtain ⟨rows, listed, converted⟩ := rest.converts
    exact ⟨_, listed.more entry.ne_nil nested comma, convertEntries_cons named first converted⟩

lemma WritesEntry.converts {entry : String × Tree} {tokens : List Token} :
    WritesEntry entry tokens → ConvertsEntry tokens (Tree.entryOrder entry)
  | .entry pos colon named value => by
    rw [Tree.entryOrder]
    refine ⟨.named named pos colon value.converts.nested, _, splitEntry_key named pos colon _, value.converts.whole⟩

end

lemma Writes.toPostfix {t : Tree} {tokens : List Token} (written : Writes 0 t tokens) :
    toPostfix tokens = .ok t.postOrder :=
  written.converts.whole

end TagScript.Expr
