import TagScript.Proofs.Expr.Literal
import TagScript.Proofs.Expr.Twin

/-!
# Where tokens stand

What an expression comes to does not depend on where its tokens stand, nor on blanks at its end.
-/

namespace TagScript.Text

open List

lemma Ranges.mem_of_has {ranges : Ranges} {n : Nat} (has : ranges.has n = true) :
    n ∈ ranges.flatMap fun range => List.range' range.1 (range.2 + 1 - range.1) := by
  induction ranges with
  | nil => cases has
  | cons range rest ih =>
    obtain ⟨first, last⟩ := range
    rw [Ranges.has] at has
    rw [flatMap_cons, mem_append]
    split at has
    · refine .inl (mem_range'_1.mpr ?_)
      have := of_decide_eq_true has
      omega
    · exact .inr (ih has)

end TagScript.Text

namespace TagScript.Expr

open List

variable {ε ε' α β γ δ : Type}

/-- Both computations give results that are related, or both fail in whatever way. -/
abbrev Both (Q : α → β → Prop) : Except ε α → Except ε' β → Prop := Kindred (fun _ _ => True) Q

variable {x : Except ε α}

lemma Both.bind {Q : α → β → Prop} {R : γ → δ → Prop} {y : Except ε' β} {k : α → Except ε γ}
    {l : β → Except ε' δ} (both : Both Q x y) (after : ∀ a b, x = .ok a → Q a b → Both R (k a) (l b)) :
    Both R (x >>= k) (y >>= l) := by
  cases both with
  | ok related => exact after _ _ rfl related
  | error => exact .error trivial

/-! ## Blanks at the end -/

lemma isBlank_apart {c : Char} (blank : Text.isBlank c = true) :
    Text.isDigit c = false ∧ Datum.isNameChar c = false := by
  have member := Text.Ranges.mem_of_has blank
  have digit : ∀ n ∈ Text.blankRanges.flatMap (fun range => List.range' range.1 (range.2 + 1 - range.1)),
      Text.digitRanges.has n = false := by decide +kernel
  have name : ∀ n ∈ Text.blankRanges.flatMap (fun range => List.range' range.1 (range.2 + 1 - range.1)),
      Datum.isNameChar (Char.ofNat n) = false := by decide
  exact ⟨digit _ member, by simpa using name _ member⟩

lemma ne_of_isBlank {c d : Char} (blank : Text.isBlank c = true) (solid : Text.isBlank d = false) : (c == d) = false := by
  rw [beq_eq_false_iff_ne]
  rintro rfl
  rw [blank] at solid
  cases solid

def Blanks (cs : List Char) : Prop := ∀ c ∈ cs, Text.isBlank c = true

/-- A character that no token but a string can go on with. -/
structure Inert (c : Char) : Prop where
  number : isNumberChar c = false
  name : Datum.isNameChar c = false
  sign : c ∉ ['=', '&', '|']

lemma Inert.of_isBlank {c : Char} (blank : Text.isBlank c = true) : Inert c := by
  obtain ⟨digit, name⟩ := isBlank_apart blank
  refine ⟨?_, name, ?_⟩
  · rw [isNumberChar, digit, ne_of_isBlank blank (by decide)]
    rfl
  · simp only [mem_cons, not_mem_nil, or_false, not_or, ← beq_eq_false_iff_ne]
    exact ⟨ne_of_isBlank blank (by decide), ne_of_isBlank blank (by decide), ne_of_isBlank blank (by decide)⟩

/-- What stands behind a token and does not belong to it, whatever the token. -/
def Parted (rest : List Char) : Prop := ∀ c ∈ rest.head?, Inert c

section

variable {bs : List Char} (parted : Parted bs)
include parted

lemma Parted.boundary : Boundary bs := fun c head => ⟨(parted c head).number, (parted c head).name⟩

lemma head?_append_parted {p : Char → Bool} (none : ∀ c, Inert c → p c = false) (cs : List Char) :
    (cs ++ bs).head?.elim false p = cs.head?.elim false p := by
  cases cs with
  | cons c cs => rfl
  | nil =>
    cases bs with
    | nil => rfl
    | cons b bs => exact none b (parted b rfl)

lemma startsNumber_append (c : Char) (rest : List Char) : startsNumber c (rest ++ bs) = startsNumber c rest := by
  rw [startsNumber, startsNumber, head?_append_parted parted fun c inert => (Bool.or_eq_false_iff.mp inert.number).1]

lemma takeWhile_append_parted (cs : List Char) :
    (cs ++ bs).takeWhile isNumberChar = cs.takeWhile isNumberChar ∧
      (cs ++ bs).dropWhile isNumberChar = cs.dropWhile isNumberChar ++ bs := by
  induction cs with
  | nil => exact @takeWhile_append_boundary [] bs (forall_mem_nil _) parted.boundary
  | cons c cs ih =>
    rw [cons_append, takeWhile_cons, takeWhile_cons, dropWhile_cons, dropWhile_cons, ih.1, ih.2]
    split
    · exact ⟨rfl, rfl⟩
    · exact ⟨rfl, rfl⟩

lemma splitPath_append_parted (cs : List Char) : splitPath (cs ++ bs) = ((splitPath cs).1, (splitPath cs).2 ++ bs) := by
  induction cs with
  | nil => exact @splitPath_append_boundary [] bs (forall_mem_nil _) parted.boundary
  | cons c cs ih =>
    rw [cons_append, splitPath, splitPath, head?_append_parted parted fun c inert => inert.name, ih]
    split <;> rfl

lemma splitSymbol?_append_parted (c : Char) (rest : List Char) :
    splitSymbol? c (rest ++ bs) = (splitSymbol? c rest).map fun (symbol, after) => (symbol, after ++ bs) := by
  cases rest with
  | cons d rest =>
    rw [cons_append, splitSymbol?, splitSymbol?]
    cases doubleSymbol? c d with
    | some symbol => rfl
    | none => cases singleSymbol? c <;> rfl
  | nil =>
    cases bs with
    | nil => cases h : splitSymbol? c [] <;> simp [h]
    | cons b bs =>
      have other := (parted b rfl).sign
      have none : doubleSymbol? c b = none := by
        simp only [mem_cons, not_mem_nil, or_false, not_or] at other
        simp [doubleSymbol?, other]
      rw [nil_append, splitSymbol?, splitSymbol?]
      simp only [none]
      cases singleSymbol? c <;> rfl

lemma splitLexeme_same (pos pos' : Nat) {c : Char} {rest : List Char}
    (strings : c = '"' ∨ c = '\'' → splitString c (rest ++ bs) = (splitString c rest).map fun (s, after) => (s, after ++ bs)) :
    Both (fun x y => y.1 = x.1 ∧ y.2 = x.2 ++ bs) (splitLexeme pos c rest) (splitLexeme pos' c (rest ++ bs)) := by
  obtain ⟨taken, dropped⟩ := takeWhile_append_parted parted rest
  unfold splitLexeme
  rw [startsNumber_append parted, taken, dropped, splitPath_append_parted parted, splitSymbol?_append_parted parted]
  split
  · dsimp only
    cases Reading.float? _ with
    | none => exact .error trivial
    | some x => exact .ok ⟨rfl, rfl⟩
  · split
    · exact .ok ⟨rfl, rfl⟩
    · split
      · rename_i quote
        rw [strings (by simpa using quote)]
        cases splitString c rest with
        | none => exact .error trivial
        | some found => exact .ok ⟨rfl, rfl⟩
      · cases splitSymbol? c rest with
        | some found => exact .ok ⟨rfl, rfl⟩
        | none =>
          cases Mark.ofChar? c with
          | none => exact .error trivial
          | some mark => exact .ok ⟨rfl, rfl⟩

end

def Token.Same (a b : Token) : Prop := a.lexeme = b.lexeme

section

/-- A text that leaves tokens before it alone, and strings open. -/
structure Tail (bs : List Char) : Prop where
  parted : Parted bs
  solid : ∀ c ∈ bs, c ∉ ['"', '\'', '\\']

variable {bs : List Char}

lemma Blanks.tail (blanks : Blanks bs) : Tail bs where
  parted c head := .of_isBlank (blanks c (mem_of_mem_head? head))
  solid c member := by
    simp only [mem_cons, not_mem_nil, or_false, not_or, ← beq_eq_false_iff_ne]
    have blank := blanks c member
    exact ⟨ne_of_isBlank blank (by decide), ne_of_isBlank blank (by decide), ne_of_isBlank blank (by decide)⟩

section

variable {quote : Char} (is : quote = '"' ∨ quote = '\'') (solid : ∀ c ∈ bs, c ∉ ['"', '\'', '\\'])
include is solid

lemma splitString_solid : splitString quote bs = none := by
  induction bs with
  | nil => rw [splitString]
  | cons b bs ih =>
    obtain ⟨first, others⟩ := forall_mem_cons.mp solid
    simp only [mem_cons, not_mem_nil, or_false, not_or] at first
    have other : (b == quote) = false := by
      rcases is with rfl | rfl <;> simp [first]
    rw [splitString.eq_def]
    simp [other, first, ih others]

lemma splitString_append_solid (cs : List Char) :
    splitString quote (cs ++ bs) = (splitString quote cs).map fun (s, after) => (s, after ++ bs) := by
  fun_induction splitString quote cs with
  | case1 => exact splitString_solid is solid
  | case2 c rest same =>
    rw [cons_append, splitString.eq_def]
    simp [same]
  | case3 c other same =>
    rw [cons_append, nil_append, splitString.eq_def]
    simp only [other, same]
    cases bs with
    | nil => rfl
    | cons b bs => simp [splitString_solid is (forall_mem_cons.mp solid).2]
  | case4 c other same e rest ih =>
    rw [cons_append, cons_append, splitString.eq_def]
    simp only [other, same, ih]
    cases splitString quote rest <;> rfl
  | case5 c rest other same ih =>
    rw [cons_append, splitString.eq_def]
    simp only [other, same, ih]
    cases splitString quote rest <;> rfl

end

/-- What stands at the end of a text is scanned as if it stood alone. -/
lemma scan_append (tail : Tail bs) {ending : List Token → Prop} (scanned : ∀ pos, ∃ tokens, scan pos bs = .ok tokens ∧ ending tokens)
    (cs : List Char) (pos pos' : Nat) :
    Both (fun xs ys => ∃ zs tokens, Forall₂ Token.Same xs zs ∧ ending tokens ∧ ys = zs ++ tokens)
      (scan pos cs) (scan pos' (cs ++ bs)) := by
  induction length : cs.length using Nat.strong_induction_on generalizing cs pos pos' with
  | _ n ih =>
    cases cs with
    | nil =>
      obtain ⟨tokens, found, ends⟩ := scanned pos'
      rw [nil_append, scan, found]
      exact .ok ⟨[], tokens, .nil, ends, rfl⟩
    | cons c rest =>
      by_cases blank : Text.isBlank c = true
      · rw [cons_append, scan, scan, if_pos blank, if_pos blank]
        exact ih rest.length (by simp [← length]) rest _ _ rfl
      · rw [cons_append, scan_cons blank, scan_cons blank]
        refine (splitLexeme_same tail.parted pos pos' fun is => splitString_append_solid is tail.solid rest).bind ?_
        rintro ⟨lexeme, after⟩ other found same
        obtain rfl : other = (lexeme, after ++ bs) := Prod.ext same.1 same.2
        have shorter : after.length < n := by
          rw [← length, length_cons]
          exact Nat.lt_succ_of_le (splitLexeme_length found)
        refine (ih after.length shorter after _ _ rfl).map ?_
        rintro xs _ ⟨zs, tokens, same, ends, rfl⟩
        exact ⟨⟨lexeme, pos'⟩ :: zs, tokens, .cons rfl same, ends, rfl⟩

lemma scan_same (blanks : Blanks bs) (cs : List Char) (pos pos' : Nat) :
    Both (Forall₂ Token.Same) (scan pos cs) (scan pos' (cs ++ bs)) := by
  have none : ∀ pos, ∃ tokens, scan pos bs = .ok tokens ∧ tokens = [] := fun pos => ⟨[], scan_of_allBlank blanks pos, rfl⟩
  refine (scan_append blanks.tail none cs pos pos').imp ?_
  rintro xs _ ⟨zs, _, same, rfl, rfl⟩
  simpa using same

end

/-! ## Conversion -/

/-- The same item, wherever it stands. -/
inductive Item.Same : Item → Item → Prop where
  | number (x : Float) (p q : Nat) : Same (.number x p) (.number x q)
  | string (s : String) (p q : Nat) : Same (.string s p) (.string s q)
  | boolean (b : Bool) (p q : Nat) : Same (.boolean b p) (.boolean b q)
  | identifier (path : String) (p q : Nat) : Same (.identifier path p) (.identifier path q)
  | unary (sign : Sign) (p q : Nat) : Same (.unary sign p) (.unary sign q)
  | binary (symbol : Symbol) (p q : Nat) : Same (.binary symbol p) (.binary symbol q)
  | sequence {xs ys : List (List Item)} (p q : Nat) (each : Forall₂ (Forall₂ Same) xs ys) :
    Same (.sequence xs p) (.sequence ys q)
  | mapping {xs ys : List (String × List Item)} (p q : Nat) (names : xs.map Prod.fst = ys.map Prod.fst)
    (each : Forall₂ (Forall₂ Same) (xs.map Prod.snd) (ys.map Prod.snd)) : Same (.mapping xs p) (.mapping ys q)

/-- The same waiting operator, wherever it stands. -/
inductive Pending.Same : Pending → Pending → Prop where
  | paren (p q : Nat) : Same (.paren p) (.paren q)
  | unary (sign : Sign) (p q : Nat) : Same (.unary sign p) (.unary sign q)
  | binary (symbol : Symbol) (p q : Nat) : Same (.binary symbol p) (.binary symbol q)

def Outputs (base base' : List Item) (out out' : List Item) : Prop :=
  ∃ xs ys, Forall₂ Item.Same xs ys ∧ out = xs ++ base ∧ out' = ys ++ base'

def Behind (base base' : List Item) (items items' : List Item) : Prop :=
  ∃ xs ys, Forall₂ Item.Same xs ys ∧ items = base.reverse ++ xs ∧ items' = base'.reverse ++ ys

section

variable {base base' out out' : List Item} {pending pending' : List Pending}

lemma Outputs.cons {item item' : Item} (same : item.Same item') (outputs : Outputs base base' out out') :
    Outputs base base' (item :: out) (item' :: out') := by
  obtain ⟨xs, ys, each, rfl, rfl⟩ := outputs
  exact ⟨item :: xs, item' :: ys, .cons same each, rfl, rfl⟩

lemma release_same (symbol : Symbol) (waiting : Forall₂ Pending.Same pending pending')
    (outputs : Outputs base base' out out') :
    Both (fun x y => Forall₂ Pending.Same x.1 y.1 ∧ Outputs base base' x.2 y.2) (release symbol pending out)
      (release symbol pending' out') := by
  induction waiting generalizing out out' with
  | nil => exact .ok ⟨.nil, outputs⟩
  | cons first rest ih =>
    cases id first with
    | paren p q => exact .ok ⟨.cons first rest, outputs⟩
    | unary sign p q =>
      rw [release, release]
      split
      · exact .error trivial
      · split
        · exact ih (outputs.cons (.unary sign p q))
        · exact .ok ⟨.cons first rest, outputs⟩
    | binary top p q =>
      rw [release, release]
      split
      · exact .error trivial
      · exact .error trivial
      · split
        · exact ih (outputs.cons (.binary top p q))
        · exact .ok ⟨.cons first rest, outputs⟩

variable (waiting : Forall₂ Pending.Same pending pending') (outputs : Outputs base base' out out')
include waiting outputs

lemma closeParen_same :
    Option.Rel (fun x y => Forall₂ Pending.Same x.1 y.1 ∧ Outputs base base' x.2 y.2) (closeParen pending out)
      (closeParen pending' out') := by
  induction waiting generalizing out out' with
  | nil => exact .none
  | cons first rest ih =>
    cases first with
    | paren p q => exact .some ⟨rest, outputs⟩
    | unary | binary => exact ih (outputs.cons (by constructor))

lemma finish_same : Both (Behind base base') (finish pending out) (finish pending' out') := by
  induction waiting generalizing out out' with
  | nil =>
    obtain ⟨xs, ys, each, rfl, rfl⟩ := outputs
    exact .ok ⟨xs.reverse, ys.reverse, rel_reverse each, reverse_append, reverse_append⟩
  | cons first rest ih =>
    cases first with
    | paren p q => exact .error trivial
    | unary | binary => exact ih (outputs.cons (by constructor))

end

lemma splitGroup_same (closer : Mark) (depth : Nat) {current current' tokens tokens' : List Token}
    (before : Forall₂ Token.Same current current') (after : Forall₂ Token.Same tokens tokens') :
    Both (fun x y => Forall₂ (Forall₂ Token.Same) x.1 y.1 ∧ Forall₂ Token.Same x.2 y.2)
      (splitGroup closer depth current tokens) (splitGroup closer depth current' tokens') := by
  induction after generalizing depth current current' with
  | nil => exact .error trivial
  | @cons t u rest rest' first others ih =>
    have lexeme : t.lexeme = u.lexeme := first
    have further := fun depth => ih depth (.cons first before)
    have empty : current.isEmpty = current'.isEmpty := by cases before <;> rfl
    rw [splitGroup, splitGroup, ← lexeme]
    split
    · split
      · exact further _
      · split
        · split
          · split
            · refine .ok ⟨?_, others⟩
              rw [empty]
              split
              · exact .nil
              · exact .cons (rel_reverse before) .nil
            · exact .error trivial
          · exact further _
        · split
          · rw [empty]
            split
            · exact .error trivial
            · have inner := ih 0 .nil
              generalize splitGroup closer 0 [] rest = x at inner
              generalize splitGroup closer 0 [] rest' = y at inner
              cases inner with
              | ok related => exact .ok ⟨.cons (rel_reverse before) related.1, related.2⟩
              | error => exact .error trivial
          · exact further _
    · exact further _

lemma splitColon_same (depth : Int) (index : Nat) {tokens tokens' : List Token}
    (same : Forall₂ Token.Same tokens tokens') :
    Option.Rel (fun x y => x.1 = y.1 ∧ Forall₂ Token.Same x.2 y.2) (splitColon depth index tokens)
      (splitColon depth index tokens') := by
  induction same generalizing depth index with
  | nil => exact .none
  | @cons t u rest rest' first others ih =>
    have lexeme : t.lexeme = u.lexeme := first
    rw [splitColon, splitColon, ← lexeme]
    split
    · split
      · exact ih _ _
      · split
        · exact ih _ _
        · split
          · exact .some ⟨rfl, others⟩
          · exact ih _ _
    · exact ih _ _

lemma splitEntry_same {entry entry' : List Token} (same : Forall₂ Token.Same entry entry') :
    Both (fun x y => x.1 = y.1 ∧ Forall₂ Token.Same x.2 y.2) (splitEntry entry) (splitEntry entry') := by
  have colon := splitColon_same 0 0 same
  have key : entry.head?.bind (fun t => t.lexeme.key?) = entry'.head?.bind fun t => t.lexeme.key? := by
    cases same with
    | nil => rfl
    | cons first _ => exact congrArg Lexeme.key? first
  unfold splitEntry
  simp only [key]
  generalize splitColon 0 0 entry = x at colon
  generalize splitColon 0 0 entry' = y at colon
  cases colon with
  | none => exact .error trivial
  | @some x y related =>
    obtain ⟨index, value⟩ := x
    obtain ⟨_, value'⟩ := y
    obtain ⟨rfl, values⟩ := related
    simp only []
    split
    · exact .ok ⟨rfl, values⟩
    · exact .error trivial

lemma Both.mapError {Q : α → β → Prop} {y : Except ε' β} {γ' : Type} {f : ε → γ} {g : ε' → γ'}
    (both : Both Q x y) : Both Q (x.mapError f) (y.mapError g) := by
  cases both with
  | ok related => exact .ok related
  | error => exact .error trivial

lemma ok_of_mapError {f : ε → ε'} {a : α} (found : x.mapError f = .ok a) : x = .ok a := by
  cases x with
  | ok b => exact congrArg Except.ok (Except.ok.inj found)
  | error e => cases found

def SameEntries (xs ys : List (String × List Item)) : Prop :=
  xs.map Prod.fst = ys.map Prod.fst ∧ Forall₂ (Forall₂ Item.Same) (xs.map Prod.snd) (ys.map Prod.snd)

mutual

lemma convert_same {base base' out out' : List Item} {pending pending' : List Pending} (operand : Bool)
    (waiting : Forall₂ Pending.Same pending pending') (outputs : Outputs base base' out out')
    (tokens tokens' : List Token) (same : Forall₂ Token.Same tokens tokens') :
    Both (Behind base base') (convert pending out operand tokens) (convert pending' out' operand tokens') := by
  match tokens, tokens', same with
  | [], [], _ =>
    rw [convert, convert]
    exact finish_same waiting outputs
  | ⟨lexeme, p⟩ :: rest, ⟨lexeme', q⟩ :: rest', .cons first others =>
    obtain rfl : lexeme = lexeme' := first
    cases lexeme with
    | number | string | boolean | identifier =>
      rw [convert, convert]
      exact convert_same false waiting (outputs.cons (by constructor)) rest rest' others
    | operator symbol =>
      rw [convert, convert]
      simp only []
      split
      · split
        · exact convert_same true (.cons (.unary _ p q) waiting) outputs rest rest' others
        · exact .error trivial
      · have released := release_same symbol waiting outputs
        generalize release symbol pending out = x at released
        generalize release symbol pending' out' = y at released
        cases released with
        | error => exact .error trivial
        | ok related => exact convert_same true (.cons (.binary symbol p q) related.1) related.2 rest rest' others
    | mark m =>
      cases m with
      | lparen =>
        rw [convert, convert]
        exact convert_same true (.cons (.paren p q) waiting) outputs rest rest' others
      | rparen =>
        rw [convert, convert]
        have closed := closeParen_same waiting outputs
        simp only []
        generalize closeParen pending out = x at closed
        generalize closeParen pending' out' = y at closed
        cases closed with
        | none => exact .error trivial
        | some related => exact convert_same false related.1 related.2 rest rest' others
      | lbracket =>
        rw [convert_sequence, convert_sequence]
        refine (splitGroup_same .rbracket 0 .nil others).mapError.bind fun x y found groups => ?_
        have bound : weight x.1 + x.2.length ≤ rest.length := by simpa using splitGroup_weight (ok_of_mapError found)
        refine (convertElements_same x.1 y.1 groups.1).bind fun xs ys _ each => ?_
        exact convert_same false waiting (outputs.cons (.sequence p q each)) x.2 y.2 groups.2
      | lbrace =>
        rw [convert_mapping, convert_mapping]
        refine (splitGroup_same .rbrace 0 .nil others).mapError.bind fun x y found groups => ?_
        have bound : weight x.1 + x.2.length ≤ rest.length := by simpa using splitGroup_weight (ok_of_mapError found)
        refine (convertEntries_same x.1 y.1 groups.1).bind fun xs ys _ each => ?_
        exact convert_same false waiting (outputs.cons (.mapping p q each.1 each.2)) x.2 y.2 groups.2
      | rbracket | rbrace | comma | colon =>
        rw [convert, convert]
        exact .error trivial
termination_by tokens.length
decreasing_by all_goals (simp only [length_cons]; omega)

lemma convertElements_same (elements elements' : List (List Token))
    (same : Forall₂ (Forall₂ Token.Same) elements elements') :
    Both (Forall₂ (Forall₂ Item.Same)) (convertElements elements) (convertElements elements') := by
  match elements, elements', same with
  | [], [], _ =>
    rw [convertElements]
    exact .ok .nil
  | element :: rest, element' :: rest', .cons first others =>
    rw [convertElements_cons_eq, convertElements_cons_eq]
    refine (convert_same true .nil ⟨[], [], .nil, rfl, rfl⟩ element element' first).bind ?_
    rintro _ _ _ ⟨xs, ys, items, rfl, rfl⟩
    exact (convertElements_same rest rest' others).map fun _ _ more => .cons items more
termination_by weight elements
decreasing_by all_goals (simp only [weight]; omega)

lemma convertEntries_same (entries entries' : List (List Token))
    (same : Forall₂ (Forall₂ Token.Same) entries entries') :
    Both SameEntries (convertEntries entries) (convertEntries entries') := by
  match entries, entries', same with
  | [], [], _ =>
    rw [convertEntries]
    exact .ok ⟨rfl, .nil⟩
  | entry :: rest, entry' :: rest', .cons first others =>
    rw [convertEntries_cons_eq, convertEntries_cons_eq]
    refine (splitEntry_same first).mapError.bind fun x y found related => ?_
    have bound := splitEntry_length (ok_of_mapError found)
    refine (convert_same true .nil ⟨[], [], .nil, rfl, rfl⟩ x.2 y.2 related.2).bind ?_
    rintro _ _ _ ⟨xs, ys, items, rfl, rfl⟩
    refine (convertEntries_same rest rest' others).map fun _ _ more => ⟨?_, .cons items more.2⟩
    rw [map_cons, map_cons, more.1, related.1]
termination_by weight entries
decreasing_by all_goals (simp only [weight]; omega)

end

/-! ## Evaluation -/

lemma Both.same (x : Except ε α) : Both Eq x x := Kindred.same fun _ _ => trivial

lemma Both.mapEq {y : Except ε' α} (both : Both Eq x y) (f : α → β) : Both Eq (x.map f) (y.map f) :=
  both.map fun _ _ same => congrArg f same

lemma Both.oneValue {x y : Except Fault (List Value × Store)} (both : Both Eq x y) :
    Both Eq (oneValue x) (oneValue y) := by
  cases both with
  | error => exact .error trivial
  | ok same =>
    subst same
    exact .same _

mutual

variable {env : Environment}

lemma runItems_same (s : Store) (stack : List Value) : ∀ items items' : List Item,
    Forall₂ Item.Same items items' → Both Eq (runItems env s stack items) (runItems env s stack items')
  | [], [], _ => .same _
  | item :: rest, item' :: rest', .cons first others => by
    rw [runItems, runItems]
    refine (runItem_same s stack item item' first).bind ?_
    rintro x _ _ rfl
    exact runItems_same x.2 x.1 rest rest' others
termination_by items => sizeOf items

lemma runItem_same (s : Store) (stack : List Value) : ∀ item item' : Item,
    item.Same item' → Both Eq (runItem env s stack item) (runItem env s stack item')
  | _, _, .number .. | _, _, .string .. | _, _, .boolean .. | _, _, .identifier .. => by
    rw [runItem, runItem]
    exact .same _
  | .unary sign p, _, .unary _ _ q => by
    match stack with
    | [] => exact .same _
    | a :: rest =>
      rw [runItem, runItem]
      exact .same _
  | .binary symbol p, _, .binary _ _ q => by
    match stack with
    | [] | [_] => exact .error trivial
    | b :: a :: rest =>
      rw [runItem, runItem]
      exact .same _
  | .sequence xs p, _, .sequence _ q each => by
    rw [runItem, runItem]
    exact (runElements_same s xs _ each).mapEq _
  | .mapping xs p, _, .mapping _ q names each => by
    rw [runItem, runItem]
    exact (runEntries_same s xs _ ⟨names, each⟩).mapEq _
termination_by item => sizeOf item

lemma runElements_same (s : Store) : ∀ xs ys : List (List Item),
    Forall₂ (Forall₂ Item.Same) xs ys → Both Eq (runElements env s xs) (runElements env s ys)
  | [], [], _ => .same _
  | element :: rest, element' :: rest', .cons first others => by
    rw [runElements, runElements]
    refine (runItems_same s [] element element' first).oneValue.bind ?_
    rintro x _ _ rfl
    exact (runElements_same x.2 rest rest' others).mapEq _
termination_by xs => sizeOf xs

lemma runEntries_same (s : Store) : ∀ xs ys : List (String × List Item),
    SameEntries xs ys → Both Eq (runEntries env s xs) (runEntries env s ys)
  | [], [], _ => .same _
  | [], _ :: _, ⟨names, _⟩ => nomatch names
  | _ :: _, [], ⟨names, _⟩ => nomatch names
  | (key, items) :: rest, (key', items') :: rest', ⟨names, each⟩ => by
    simp only [map_cons, List.cons.injEq] at names
    obtain ⟨rfl, names⟩ := names
    rw [runEntries, runEntries, runEntry, runEntry]
    cases each with
    | cons first others =>
      refine ((runItems_same s [] items items' first).oneValue.mapEq _).bind ?_
      rintro x _ _ rfl
      exact (runEntries_same x.2 rest rest' ⟨names, others⟩).mapEq _
termination_by xs => sizeOf xs

end

end TagScript.Expr
