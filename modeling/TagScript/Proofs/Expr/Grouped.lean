import TagScript.Proofs.Expr.Operand
import TagScript.Proofs.Expr.Position

/-!
# What follows a group

An expression that starts with a group in parentheses goes on from a first operand. So two groups
that come to operands that are built alike can stand for one another, in particular a name and a
literal of its value.
-/

namespace TagScript

open List

/-! ## Blanks at both ends -/

namespace Text

lemma trimLeft_spec (cs : List Char) : ∃ front, (∀ c ∈ front, isBlank c = true) ∧ cs = front ++ trimLeft cs :=
  ⟨cs.takeWhile isBlank, fun _ mem => mem_takeWhile_imp mem, takeWhile_append_dropWhile.symm⟩

lemma trimRight_spec (cs : List Char) : ∃ back, (∀ c ∈ back, isBlank c = true) ∧ cs = trimRight cs ++ back := by
  obtain ⟨front, blank, same⟩ := trimLeft_spec cs.reverse
  refine ⟨front.reverse, fun c mem => blank c (mem_reverse.mp mem), ?_⟩
  rw [trimRight, ← reverse_append]
  exact (reverse_eq_iff.mp same)

end Text

namespace Expr

open Binary64 (Close)

lemma scan_blanks_append {front : List Char} (blank : Blanks front) (pos : Nat) (cs : List Char) :
    scan pos (front ++ cs) = scan (pos + front.length) cs := by
  induction front generalizing pos with
  | nil => rfl
  | cons c front ih =>
    rw [cons_append, scan, if_pos (blank c mem_cons_self), ih fun d mem => blank d (mem_cons_of_mem _ mem), length_cons]
    congr 1
    omega

lemma scan_trimChars (pos pos' : Nat) (cs : List Char) :
    Both (Forall₂ Token.Same) (scan pos (Text.trimChars cs)) (scan pos' cs) := by
  obtain ⟨front, blank, same⟩ := Text.trimLeft_spec cs
  obtain ⟨back, blank', same'⟩ := Text.trimRight_spec (Text.trimLeft cs)
  have text : scan pos' cs = scan (pos' + front.length) (Text.trimChars cs ++ back) := by
    rw [Text.trimChars, ← same', ← scan_blanks_append blank, ← same]
  rw [text]
  exact scan_same blank' _ _ _

/-! ## Going on from an operand -/

def resume (env : Environment) (tokens : List Token) (start : Value × Store) : Except Fault (Value × Store) :=
  convert [] [] false tokens >>= fun items => oneValue (runItems env start.2 [start.1] items)

lemma evaluate_eq {text : String} (solid : Text.allBlank text = false) (env : Environment) (store : Store) :
    evaluate env store text = (tokenize text).mapError Fault.lex >>= fun tokens => toPostfix tokens >>= fun items =>
      runWhole env store items := by
  rw [evaluate, if_neg (by rw [solid]; decide)]
  cases tokenize text with
  | error fault => rfl
  | ok tokens =>
    simp only [Except.mapError, bind, Except.bind]
    cases toPostfix tokens <;> rfl

lemma evaluate_group {text : String} {B : Tree → Prop}
    (scans : Scans Boundary text.toList fun tokens => ∃ t, Writes 0 t tokens ∧ B t) {operation : String} {cs : List Char}
    (alike : ∀ pos, Both (Forall₂ Token.Same) (scan 0 cs) (scan pos operation.toList)) :
    ∃ t, B t ∧ ∀ env store start, t.eval env store = .ok start →
      Both Eq ((scan 0 cs).mapError Fault.lex >>= fun tokens => resume env tokens start)
        (evaluate env store ("(" ++ text ++ ")" ++ operation)) := by
  have closed := scans.append (scans_mark .rparen) fun rest _ => Boundary.cons (by decide) (by decide) rest
  obtain ⟨_, ⟨_, _, ⟨p, rfl⟩, ⟨inner, _, ⟨t, writes, holds⟩, ⟨q, rfl⟩, rfl⟩, rfl⟩, scanned⟩ :=
    (scans_mark .lparen).append closed (fun _ _ => trivial) 0 operation.toList trivial
  have letters : ("(" ++ text ++ ")" ++ operation).toList =
      ([Mark.lparen.char] ++ (text.toList ++ [Mark.rparen.char])) ++ operation.toList := by
    simp [Mark.char]
  have solid : Text.allBlank ("(" ++ text ++ ")" ++ operation) = false := by
    rw [Text.allBlank, letters]
    rfl
  refine ⟨t, holds, fun env store start found => ?_⟩
  rw [evaluate_eq solid, tokenize, letters, scanned]
  have behind := alike (0 + ([Mark.lparen.char] ++ (text.toList ++ [Mark.rparen.char])).length)
  generalize scan 0 cs = x at behind
  generalize scan (0 + _) operation.toList = y at behind
  cases behind with
  | error => exact .error trivial
  | @ok tokens tokens' same =>
    have group := writes.converts.convert_parens p q [] [] tokens'
    have outputs : Outputs [] t.postOrder.reverse [] t.postOrder.reverse := ⟨[], [], .nil, rfl, rfl⟩
    have both := convert_same false .nil outputs tokens tokens' same
    simp only [Except.mapError, Except.map, bind, Except.bind, cons_append, nil_append, append_assoc, toPostfix, resume]
    rw [group, append_nil]
    refine both.bind ?_
    rintro items _ _ ⟨_, ys, each, rfl, rfl⟩
    have whole := Tree.computes env t store [] ys
    simp only [found] at whole
    rw [reverse_reverse, runWhole, whole]
    exact (runItems_same start.2 [start.1] items ys each).oneValue

/-! ## Names and numbers -/

lemma lookup_plain {name : String} (plain : Datum.isPlainKey name = true) {env : Environment} {value : Value}
    (bound : env.get? name = some value) (store : Store) : lookup env store name = .ok value := by
  rw [lookup, splitOn_eq_singleton (not_mem_plain plain (by decide))]
  simp only [map_cons, map_nil, String.ofList_toList, bound, follow]

lemma scans_name {name : String} (plain : Datum.isPlainKey name = true) :
    Scans Boundary name.toList fun tokens => ∃ t, Writes 0 t tokens ∧ ∃ pos, t = .identifier name pos := by
  refine (scans_plain plain).imp ?_
  rintro tokens ⟨pos, rfl⟩
  exact ⟨_, .identifier 0 name pos, pos, rfl⟩

lemma scans_slash : Scans Anything ['/'] fun tokens => ∃ pos, tokens = [⟨.operator .div, pos⟩] :=
  scans_symbol (by decide) (by decide)

def Tree.Denotes (n : Num) (t : Tree) : Prop :=
  ∀ env store, ∃ m after, t.eval env store = .ok (.num m, after) ∧ store.Keeps after ∧ Close m.val n.val

lemma scans_digit {d : Char} {x : Float} (digit : d.isDigit = true)
    (read : Binary64.ofDecimal false (Nat.ofDigitChars 10 [d] 0) 0 = x) :
    Scans Boundary [d] fun tokens => ∃ pos, tokens = [⟨.number x, pos⟩] := by
  subst read
  exact scans_number (.whole (cons_ne_nil d []) fun c mem => by rwa [mem_singleton.mp mem])

def Tree.Yields (x : Float) (t : Tree) : Prop := ∀ env store, t.eval env store = .ok (.ofFloat x, store)

lemma scans_quotient {before : List Char} {x : Float}
    (scans : Scans Boundary before fun tokens => ∃ t, Writes 6 t tokens ∧ t.Yields x) :
    Scans Boundary ('(' :: (before ++ ['/', '0', ')'])) fun tokens => ∃ t, Writes 0 t tokens ∧
      ∀ env store, t.eval env store = .ok (divide store x 0) := by
  have zero := (scans_digit (d := '0') (x := 0) (by decide) (by decide)).append (scans_mark .rparen) fun rest _ =>
    Boundary.cons (by decide) (by decide) rest
  have right := scans_slash.append zero fun _ _ => trivial
  have both := scans.append right fun rest _ => Boundary.cons (by decide) (by decide) _
  refine (((scans_mark .lparen).append both fun _ _ => trivial).narrow fun _ _ => trivial).imp ?_
  rintro _ ⟨_, _, ⟨p, rfl⟩, ⟨tokens, _, ⟨l, writes, yields⟩, ⟨_, _, ⟨q, rfl⟩, ⟨_, _, ⟨r, rfl⟩, ⟨u, rfl⟩, rfl⟩, rfl⟩,
    rfl⟩, rfl⟩
  have joined : Writes 0 (.joined .div q l (.number 0 r)) _ := .joined (p := 6) q rfl (by decide) writes (.number _ 0 r)
  refine ⟨_, by simpa using Writes.parens 0 p u joined, fun env store => ?_⟩
  simp only [Tree.eval, yields env store, bind, Except.bind]
  rfl

lemma scans_numberLiteral (n : Num) :
    ∃ text, Datum.literal? (.num n) = some text ∧
      Scans Boundary text.toList fun tokens => ∃ t, Writes 0 t tokens ∧ t.Denotes n := by
  by_cases finite : Binary64.isFinite n.val = true
  · obtain ⟨text, same, spells⟩ := Numeral.spells_literal finite
    refine ⟨text, same, (scans_spells spells).imp ?_⟩
    rintro tokens ⟨t, writes, builds⟩
    refine ⟨t, writes, fun env store => ?_⟩
    obtain ⟨value, after, e, found, keeps, same, built⟩ := builds env store
    cases same with
    | num equal =>
      cases built with
      | num number => exact ⟨_, after, found, keeps, .of_beq (BEq.symm equal)⟩
  · rw [Bool.not_eq_true] at finite
    have made : ∀ {x : Float} {m : Num}, (∀ store : Store, divide store x 0 = (.num m, store)) → Close m.val n.val →
        ∀ tokens, (∃ t, Writes 0 t tokens ∧ ∀ env store, t.eval env store = .ok (divide store x 0)) →
          ∃ t, Writes 0 t tokens ∧ t.Denotes n := by
      rintro x m comes close tokens ⟨t, writes, found⟩
      refine ⟨t, writes, fun env store => ⟨m, store, ?_, .refl store, close⟩⟩
      rw [found, comes]
    by_cases nan : n.val.isNaN = true
    · have zero : Scans Boundary ['0'] fun tokens => ∃ pos, tokens = [⟨.number 0, pos⟩] :=
        scans_digit (by decide) (by decide)
      have scans := @scans_quotient ['0'] 0 (zero.imp (by
        rintro tokens ⟨pos, rfl⟩
        exact ⟨_, .number 6 0 pos, fun env store => by rw [Tree.eval]⟩))
      refine ⟨"(0/0)", by rw [Datum.literal?, if_pos nan], scans.imp (made (fun _ => rfl) (.inl ?_))⟩
      rw [Float.isNaN_eq_decide_eq_nan, decide_eq_true_eq] at nan
      rw [nan]
      decide
    · rw [Bool.not_eq_true] at nan
      have one : Scans Boundary ['1'] fun tokens => ∃ pos, tokens = [⟨.number 1, pos⟩] :=
        scans_digit (by decide) (by decide)
      have infinite := Binary64.eq_infinity finite nan
      by_cases negative : Binary64.isNegative n.val = true
      · have scans := @scans_quotient ['-', '1'] (-1) ((scans_minus.append one fun _ _ => trivial).imp (by
          rintro _ ⟨_, _, ⟨sign, rfl⟩, ⟨pos, rfl⟩, rfl⟩
          refine ⟨_, .signed sign rfl (by decide) (.number _ 1 pos), fun env store => ?_⟩
          simp only [Tree.eval, bind, Except.bind]
          rfl))
        refine ⟨"(-1/0)", ?_, scans.imp (made (fun _ => rfl) (.inl ?_))⟩
        · simp only [Datum.literal?, nan, finite, negative]
          rfl
        · rw [infinite, if_pos negative]
          rfl
      · have scans := @scans_quotient ['1'] 1 (one.imp (by
          rintro tokens ⟨pos, rfl⟩
          exact ⟨_, .number 6 1 pos, fun env store => by rw [Tree.eval]⟩))
        refine ⟨"(1/0)", ?_, scans.imp (made (fun _ => rfl) (.inl ?_))⟩
        · simp only [Datum.literal?, nan, finite, negative]
          rfl
        · rw [infinite, if_neg negative]
          rfl

/-! ## A name and a literal of its value -/

end Expr

namespace Datum

lemma map_unsigned_of_same {as bs : List Datum} (small : ∀ a ∈ as, ∀ b, a.Same b → a.unsigned = b.unsigned)
    (each : Forall₂ Same as bs) : as.map unsigned = bs.map unsigned := by
  induction each with
  | nil => rfl
  | cons first _ ih =>
    obtain ⟨head, tail⟩ := forall_mem_cons.mp small
    rw [map_cons, map_cons, head _ first, ih tail]

lemma Same.unsigned_eq {d e : Datum} (same : d.Same e) : d.unsigned = e.unsigned := by
  cases same with
  | bool | str => rfl
  | num equal => rw [unsigned, unsigned, Binary64.unsigned_eq_iff.mpr (.of_beq equal)]
  | seq each =>
    rw [unsigned, unsigned, unsignedItems_eq, unsignedItems_eq,
      map_unsigned_of_same (fun a mem b same => same.unsigned_eq) each]
  | @map as bs names each =>
    have values := map_unsigned_of_same (fun a mem b same => by
      obtain ⟨entry, among, rfl⟩ := mem_map.mp mem
      exact same.unsigned_eq) each
    rw [unsigned, unsigned, unsignedEntries_eq, unsignedEntries_eq]
    refine congrArg Datum.map ?_
    have split : ∀ entries : List (String × Datum), entries.map (fun entry => (entry.1, entry.2.unsigned)) =
        (entries.map Prod.fst).zip ((entries.map Prod.snd).map unsigned) := by
      intro entries
      rw [map_map, zip_map']
      rfl
    rw [split, split, names, values]
termination_by sizeOf d
decreasing_by
  · have := sizeOf_lt_of_mem mem
    simp only [Datum.seq.sizeOf_spec]
    omega
  · have := sizeOf_lt_of_mem among
    have part : sizeOf entry.2 < sizeOf entry := by
      obtain ⟨name, d⟩ := entry
      simp
    simp only [Datum.map.sizeOf_spec]
    omega

end Datum

namespace Store

variable {s : Store}

/-- A value whose literal reads back: a number, or a tree of moderate numbers, texts and truth
values. -/
inductive Spelled (s : Store) : Value → Datum → Prop where
  | number (n : Num) : Spelled s (.num n) (.num n)
  | tree {v : Value} {d : Datum} (built : s.Built v d) (plain : d.Plain) : Spelled s v d

/-- A value of a store: what it leads to is there, and its mark has been given out. -/
structure Holds (s : Store) (v : Value) : Prop where
  ref : v.Within (· < s.cells.size)
  mark : ∀ n, v = .num n → n.val.isNaN = true → n.mark < s.nextMark

/-- A store with nothing in it that is not there. -/
structure Whole (s : Store) : Prop where
  values : ∀ {r : Ref} {c : Cell}, s.cells[r]? = some c → ∀ v ∈ c.values, s.Holds v
  constant : Num.constantMark < s.nextMark

def identity (s : Store) : Link where
  refs r q := r = q ∧ r < s.cells.size
  marks a b := a = b ∧ a < s.nextMark

lemma Holds.twin {v : Value} (holds : s.Holds v) : v.Twin s.identity v := by
  have there : ∀ r, v.ref? = some r → s.identity.refs r r := fun r link => ⟨rfl, holds.ref r link⟩
  cases v with
  | none => exact .none
  | bool b => exact .bool b
  | num n => exact .num ⟨rfl, fun nan => ⟨rfl, holds.mark n rfl nan⟩⟩
  | int i => exact .int i
  | str text => exact .str text
  | seq r => exact .seq (there r rfl)
  | map r => exact .map (there r rfl)
  | error record => exact .error record
  | func name params r => exact .func name params (there r rfl)
  | stamp at' r => exact .stamp at' (there r rfl)

lemma Whole.joins (whole : s.Whole) : s.identity.Joins s s where
  left first second := first.1.symm.trans second.1
  right first second := first.1.trans second.1.symm
  there linked := ⟨linked.2, linked.1 ▸ linked.2⟩
  cells {r q} linked := by
    obtain ⟨rfl, bound⟩ := linked
    have here := Array.getElem?_eq_getElem bound
    have held := whole.values here
    rw [cell_of_getElem? here]
    generalize s.cells[r] = c at held
    cases c with
    | seq items => exact .seq (forall₂_same.mpr fun v mem => (held v mem).twin)
    | map entries =>
      refine .map (forall₂_same.mpr fun entry mem => ⟨rfl, (held entry.2 ?_).twin⟩)
      exact mem_map_of_mem mem
    | hollow => exact .hollow
  marks_left first second := first.1.symm.trans second.1
  marks_right first second := first.1.trans second.1.symm
  marks_there linked := ⟨linked.2, linked.1 ▸ linked.2⟩
  constant := ⟨rfl, whole.constant⟩

end Store

namespace Expr

lemma Both.congr {ε ε' α β : Type} {Q : α → β → Prop} {x x' : Except ε α} {y y' : Except ε' β} (left : Both Eq x x')
    (right : Both Eq y y') (both : Both Q x y) : Both Q x' y' := by
  cases both with
  | ok related =>
    cases left with
    | ok same =>
      cases right with
      | ok same' => exact .ok (same ▸ same' ▸ related)
  | error =>
    cases left with
    | error => cases right with | error => exact .error trivial

lemma both_of_paired {ε α β : Type} {Q : α → β → Prop} {x : Except ε α} {y : Except ε β} (paired : Paired Q x y) : Both Q x y := by
  cases paired with
  | ok related => exact .ok related
  | error => exact .error trivial

variable {env : Environment} {store : Store} {name : String} {value : Value} {d : Datum}

lemma scans_spelled (spelled : store.Spelled value d) :
    ∃ text, d.literal? = some text ∧ Scans Boundary text.toList fun tokens => ∃ t, Writes 0 t tokens ∧
      ∀ env, ∃ v after, t.eval env store = .ok (v, after) ∧ store.Keeps after ∧ ∀ w, Operand w after store v value := by
  cases spelled with
  | number n =>
    obtain ⟨text, same, scans⟩ := scans_numberLiteral n
    refine ⟨text, same, scans.imp ?_⟩
    rintro tokens ⟨t, writes, denotes⟩
    refine ⟨t, writes, fun env => ?_⟩
    obtain ⟨m, after, found, keeps, close⟩ := denotes env store
    exact ⟨.num m, after, found, keeps, fun w => .num close⟩
  | tree built plain =>
    obtain ⟨text, same, scans⟩ := scans_literal (.inl plain)
    refine ⟨text, same, scans.imp ?_⟩
    rintro tokens ⟨t, writes, builds⟩
    refine ⟨t, writes, fun env => ?_⟩
    obtain ⟨v, after, e, found, keeps, same, there⟩ := builds env store
    exact ⟨v, after, found, keeps, fun w => .tree ⟨e, d, there, built, same.unsigned_eq.symm⟩⟩

lemma evaluate_literal_name (whole : store.Whole) (held : ∀ name v, env.get? name = some v → store.Holds v)
    (plain : Datum.isPlainKey name = true) (bound : env.get? name = some value) (spelled : store.Spelled value d)
    (operation : String) :
    ∃ text, d.literal? = some text ∧ Both (Become store.identity)
      (evaluate env store ("(" ++ text ++ ")" ++ Text.trim operation))
      (evaluate env store ("(" ++ name ++ ")" ++ operation)) := by
  obtain ⟨text, same, scans⟩ := scans_spelled spelled
  have trimmed : ∀ pos, Both (Forall₂ Token.Same) (scan 0 (Text.trimChars operation.toList))
      (scan pos (Text.trim operation).toList) := fun pos => by
    rw [Text.trim, String.toList_ofList]
    simpa using @scan_same [] (forall_mem_nil _) (Text.trimChars operation.toList) 0 pos
  obtain ⟨t, comes, left⟩ := evaluate_group scans trimmed
  obtain ⟨_, ⟨p, rfl⟩, right⟩ := evaluate_group (scans_name plain) fun pos => scan_trimChars 0 pos operation.toList
  obtain ⟨v, after, found, keeps, operand⟩ := comes env
  refine ⟨text, same, Both.congr (left env store _ found) (right env store (value, store) ?_) ?_⟩
  · rw [Tree.eval, lookup_plain plain bound]
    rfl
  · have twin : env.Twin store.identity env := fun name => by
      cases found : env.get? name with
      | none => exact .none
      | some v => exact .some (held name v found).twin
    have joins := joins_later whole.joins keeps (.refl store)
    refine (Both.same _).bind ?_
    rintro tokens _ _ rfl
    refine (Both.same _).bind ?_
    rintro items _ _ rfl
    exact both_of_paired (oneValue_runItems_operand joins twin (operand _) items)

end Expr

end TagScript
