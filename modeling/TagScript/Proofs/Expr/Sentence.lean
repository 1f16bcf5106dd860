import TagScript.Proofs.Expr.Position

/-!
# What expressions look like

Conversion and evaluation together let through the sentences of the grammar, and besides only texts
in which two operands follow each other with no operator between them.
-/

namespace TagScript.Expr

open List

variable {rows : List (List Token)} {value : List Token}

def Lexeme.isLiteral : Lexeme → Bool
  | .operator _ | .mark _ => false
  | _ => true

def Token.starts (t : Token) : Bool :=
  match t.lexeme with
  | .mark m => m.isOpener
  | lexeme => lexeme.isLiteral

def Token.ends (t : Token) : Bool :=
  match t.lexeme with
  | .mark m => m.isCloser
  | lexeme => lexeme.isLiteral

/-- Two operands follow each other. -/
def Juxtaposed (tokens : List Token) : Prop :=
  ∃ a b : Token, a.ends = true ∧ b.starts = true ∧ [a, b] <:+: tokens

/-- An entry of a mapping literal is a name, a colon and its value. -/
def Named (entry value : List Token) : Prop :=
  ∃ name colon, entry = name :: ⟨.mark .colon, colon⟩ :: value ∧ name.lexeme.key?.isSome = true

/-- The rest of an expression, where an operand is expected or has just been completed, with a
number of parentheses open. Which operator goes first is not part of this grammar. -/
inductive Sentence : Bool → Nat → List Token → Prop where
  | done : Sentence false 0 []
  | literal {n rest} {t : Token} (is : t.lexeme.isLiteral = true) (more : Sentence false n rest) : Sentence true n (t :: rest)
  | sign {n rest} {symbol : Symbol} (pos : Nat) (is : symbol.sign?.isSome = true) (more : Sentence true n rest) :
    Sentence true n (⟨.operator symbol, pos⟩ :: rest)
  | joined {n rest} {symbol : Symbol} (pos : Nat) (is : symbol ≠ .bang) (more : Sentence true n rest) :
    Sentence false n (⟨.operator symbol, pos⟩ :: rest)
  | opened {n rest} (pos : Nat) (more : Sentence true (n + 1) rest) : Sentence true n (⟨.mark .lparen, pos⟩ :: rest)
  | closed {n rest} (pos : Nat) (more : Sentence false n rest) : Sentence false (n + 1) (⟨.mark .rparen, pos⟩ :: rest)
  | sequence {n rest body} {elements : List (List Token)} (pos closed : Nat) (listing : Listing elements body)
    (each : ∀ element ∈ elements, Sentence true 0 element) (more : Sentence false n rest) :
    Sentence true n (⟨.mark .lbracket, pos⟩ :: (body ++ ⟨.mark .rbracket, closed⟩ :: rest))
  | mapping {n rest body} {entries values : List (List Token)} (pos closed : Nat) (listing : Listing entries body)
    (named : Forall₂ Named entries values) (each : ∀ value ∈ values, Sentence true 0 value)
    (more : Sentence false n rest) :
    Sentence true n (⟨.mark .lbrace, pos⟩ :: (body ++ ⟨.mark .rbrace, closed⟩ :: rest))

variable {tokens rest after : List Token} {t : Token} {items out made : List Item} {pending waiting : List Pending}
  {operand : Bool} {s : Store} {env : Environment}

/-! ## How many values there are -/

mutual

/-- How many values an item leaves, less those it takes; too few for what cannot be run. -/
def Item.net : Item → Int
  | .unary _ _ => 0
  | .binary symbol _ => if symbol = .bang then -2 else -1
  | .sequence elements _ => if wholes elements then 1 else 0
  | .mapping entries _ => if wholeEntries entries then 1 else 0
  | _ => 1

def netOf : List Item → Int
  | [] => 0
  | item :: rest => item.net + netOf rest

def wholes : List (List Item) → Bool
  | [] => true
  | element :: rest => netOf element == 1 && wholes rest

def wholeEntries : List (String × List Item) → Bool
  | [] => true
  | entry :: rest => wholeEntry entry && wholeEntries rest

def wholeEntry : String × List Item → Bool
  | (_, items) => netOf items == 1

end

lemma netOf_append (front back : List Item) : netOf (front ++ back) = netOf front + netOf back := by
  induction front with
  | nil => simp [netOf]
  | cons item rest ih => simp only [cons_append, netOf, ih, Int.add_assoc]

lemma netOf_reverse (items : List Item) : netOf items.reverse = netOf items := by
  induction items with
  | nil => rfl
  | cons item rest ih =>
    rw [reverse_cons, netOf_append, ih]
    simp only [netOf]
    omega

lemma eq_one_of_oneValue {x : Except Fault (List Value × Store)} {made : Value × Store} {k : Int}
    (length : ∀ {vs t}, x = .ok (vs, t) → (vs.length : Int) = ([] : List Value).length + k)
    (done : oneValue x = .ok made) : k = 1 := by
  unfold oneValue at done
  split at done
  · cases done
  · simpa using (length rfl).symm
  · cases done
  · cases done

lemma ok_of_bind {ε α β : Type} {x : Except ε α} {f : α → Except ε β} {b : β} (done : x >>= f = .ok b) :
    ∃ a, x = .ok a ∧ f a = .ok b := by
  cases x with
  | error e => cases done
  | ok a => exact ⟨a, rfl, done⟩

mutual

lemma length_runItems {stack vs : List Value} {t : Store} : ∀ {s : Store} (items : List Item),
    runItems env s stack items = .ok (vs, t) → (vs.length : Int) = stack.length + netOf items
  | _, [], done => by
    cases done
    simp [netOf]
  | _, item :: rest, done => by
    rw [runItems] at done
    obtain ⟨made, first, done⟩ := ok_of_bind done
    rw [length_runItems rest done, length_runItem item first, netOf, Int.add_assoc]

lemma length_runItem {stack vs : List Value} {t : Store} {s : Store} (item : Item)
    (done : runItem env s stack item = .ok (vs, t)) : (vs.length : Int) = stack.length + item.net := by
  cases item with
  | number | string | boolean =>
    cases done
    rfl
  | identifier path pos =>
    rw [runItem] at done
    obtain ⟨value, _, same⟩ := map_eq_ok.mp done
    cases same
    rfl
  | unary sign pos =>
    unfold runItem at done
    split at done
    · cases done
    · obtain ⟨made, _, same⟩ := map_eq_ok.mp done
      cases same
      simp [Item.net]
  | binary symbol pos =>
    unfold runItem at done
    split at done
    · obtain ⟨made, applied, same⟩ := map_eq_ok.mp done
      cases same
      have possible : symbol ≠ .bang := by
        rintro rfl
        cases applied
      simp [Item.net, possible]
    · cases done
  | sequence elements pos =>
    rw [runItem] at done
    obtain ⟨made, found, same⟩ := map_eq_ok.mp done
    cases same
    simp [Item.net, wholes_runElements elements found]
  | mapping entries pos =>
    rw [runItem] at done
    obtain ⟨made, found, same⟩ := map_eq_ok.mp done
    cases same
    simp [Item.net, wholes_runEntries entries found]

lemma wholes_runElements {made : List Value × Store} : ∀ {s : Store} (elements : List (List Item)),
    runElements env s elements = .ok made → wholes elements = true
  | _, [], _ => rfl
  | _, element :: rest, done => by
    rw [runElements] at done
    obtain ⟨_, first, done⟩ := ok_of_bind done
    obtain ⟨_, others, _⟩ := map_eq_ok.mp done
    simp [wholes, eq_one_of_oneValue (length_runItems element) first, wholes_runElements rest others]

lemma wholes_runEntries {made : List (String × Value) × Store} : ∀ {s : Store} (entries : List (String × List Item)),
    runEntries env s entries = .ok made → wholeEntries entries = true
  | _, [], _ => rfl
  | _, entry :: rest, done => by
    rw [runEntries] at done
    obtain ⟨_, first, done⟩ := ok_of_bind done
    obtain ⟨_, others, _⟩ := map_eq_ok.mp done
    simp [wholeEntries, whole_runEntry entry first, wholes_runEntries rest others]

lemma whole_runEntry {made : (String × Value) × Store} : ∀ {s : Store} (entry : String × List Item),
    runEntry env s entry = .ok made → wholeEntry entry = true
  | _, (_, items), done => by
    rw [runEntry] at done
    obtain ⟨_, found, _⟩ := map_eq_ok.mp done
    simp [wholeEntry, eq_one_of_oneValue (length_runItems items) found]

end

/-! ## Conversion -/

def netWaiting : List Pending → Int
  | [] => 0
  | .binary symbol pos :: rest => (Item.binary symbol pos).net + netWaiting rest
  | _ :: rest => netWaiting rest

def parens : List Pending → Nat
  | [] => 0
  | .paren _ :: rest => parens rest + 1
  | _ :: rest => parens rest

lemma release_net {symbol : Symbol} (done : release symbol pending out = .ok (waiting, made)) :
    netOf made + netWaiting waiting = netOf out + netWaiting pending ∧ parens waiting = parens pending := by
  fun_induction release symbol pending out <;> grind [netOf, netWaiting, parens, Item.net]

lemma closeParen_net (done : closeParen pending out = some (waiting, made)) :
    netOf made + netWaiting waiting = netOf out + netWaiting pending ∧ parens waiting + 1 = parens pending := by
  fun_induction closeParen pending out <;> grind [netOf, netWaiting, parens, Item.net]

lemma finish_net (done : finish pending out = .ok items) :
    netOf items = netOf out + netWaiting pending ∧ parens pending = 0 := by
  fun_induction finish pending out <;> grind [netOf, netWaiting, parens, Item.net, netOf_reverse]

variable {closer : Mark}

lemma splitGroup_listing {depth : Nat} {current : List Token}
    (done : splitGroup closer depth current tokens = .ok (rows, after)) :
    ∃ body closed, tokens = body ++ ⟨.mark closer, closed⟩ :: after ∧ Listing rows (current.reverse ++ body) := by
  fun_induction splitGroup closer depth current tokens generalizing rows after with
  | case3 current t rest lexeme _ _ =>
    cases done
    refine ⟨[], t.pos, by simp [← lexeme], ?_⟩
    split
    · simp_all [Listing.none]
    · simpa using Listing.last current.reverse
  | case7 depth current t rest m lexeme _ _ here _ inner cut found ih =>
    cases done
    obtain ⟨body, closed, rfl, listing⟩ := ih found
    have comma : t = ⟨.mark .comma, t.pos⟩ := by
      simp only [Bool.and_eq_true, decide_eq_true_eq] at here
      rw [← here.1, ← lexeme]
    refine ⟨t :: body, closed, rfl, ?_⟩
    rw [comma]
    exact listing.more current.reverse t.pos
  | case2 _ _ t _ _ _ _ ih | case5 _ _ t _ _ _ _ _ _ ih | case9 _ _ t _ _ _ _ _ _ ih | case10 _ _ t _ _ ih =>
    obtain ⟨body, closed, rfl, listing⟩ := ih done
    exact ⟨t :: body, closed, rfl, by simpa using listing⟩
  | _ => cases done

/-- A literal in brackets is converted group by group, and what is behind it after that. -/
lemma group_of_convert {α : Type} {f : List (List Token) → Except Fault α}
    {next : α → List Token → Except Fault (List Item)}
    (done : ((splitGroup closer 0 [] rest).mapError Fault.lex >>= fun x => f x.1 >>= fun made => next made x.2) = .ok items) :
    ∃ rows made after body closed, weight rows + after.length ≤ rest.length ∧ rest = body ++ ⟨.mark closer, closed⟩ :: after ∧
      Listing rows body ∧ f rows = .ok made ∧ next made after = .ok items := by
  obtain ⟨⟨rows, after⟩, found, further⟩ := ok_of_bind done
  obtain ⟨made, inner, tail⟩ := ok_of_bind further
  obtain ⟨body, closed, same, listing⟩ := splitGroup_listing (ok_of_mapError found)
  exact ⟨rows, made, after, body, closed, by simpa using splitGroup_weight (ok_of_mapError found), same, listing, inner, tail⟩

lemma le_splitColon {depth : Int} {index found : Nat}
    (done : splitColon depth index tokens = some (found, value)) : index ≤ found := by
  fun_induction splitColon depth index tokens <;> grind

lemma splitColon_head {depth : Int} {index : Nat}
    (done : splitColon depth index tokens = some (index, value)) :
    ∃ pos, tokens = ⟨.mark .colon, pos⟩ :: value := by
  cases tokens with
  | nil => cases done
  | cons t rest =>
    obtain ⟨lexeme, pos⟩ := t
    have later : ∀ depth : Int, splitColon depth (index + 1) rest ≠ some (index, value) :=
      fun _ found => Nat.not_succ_le_self _ (le_splitColon found)
    refine ⟨pos, ?_⟩
    grind [splitColon]

lemma splitEntry_named {key : String} {entry : List Token} (done : splitEntry entry = .ok (key, value)) :
    Named entry value := by
  unfold splitEntry at done
  split at done
  · cases done
  · rename_i found
    split at done
    · rename_i name
      cases done
      obtain _ | ⟨⟨lexeme, pos⟩, rest⟩ := entry
      · cases name
      · have second : splitColon 0 1 rest = some (1, value) := by
          cases lexeme <;> first | exact found | cases name
        obtain ⟨colon, rfl⟩ := splitColon_head second
        exact ⟨⟨lexeme, pos⟩, colon, rfl, by simpa using congrArg Option.isSome name⟩
    · cases done

/-! ## Sentences -/

/-- No operand follows another, nor the one just completed. -/
def Apart (operand : Bool) (tokens : List Token) : Prop :=
  (operand = false → ∀ t ∈ tokens.head?, t.starts = false) ∧ ¬ Juxtaposed tokens

lemma apart_true (apart : ¬ Juxtaposed tokens) : Apart true tokens :=
  ⟨Bool.noConfusion, apart⟩

lemma Juxtaposed.within (found : Juxtaposed tokens) (part : tokens <:+: rest) : Juxtaposed rest := by
  obtain ⟨a, b, ends, starts, here⟩ := found
  exact ⟨a, b, ends, starts, here.trans part⟩

lemma Apart.behind {operand' : Bool} (front : List Token) (apart : Apart operand (front ++ t :: rest))
    (ended : operand' = false → t.ends = true) : Apart operand' rest := by
  refine ⟨fun off u head => ?_, fun found => apart.2 (found.within ⟨front ++ [t], [], by simp⟩)⟩
  obtain ⟨more, rfl⟩ := head?_eq_some_iff.mp head
  by_contra starts
  exact apart.2 ⟨t, u, ended off, by simpa using starts, front, more, by simp⟩

lemma Listing.within (listing : Listing rows tokens) : ∀ row ∈ rows, row <:+: tokens := by
  induction listing with
  | none => exact nofun
  | last row => simp
  | more row comma others ih =>
    intro other mem
    rcases mem_cons.mp mem with rfl | mem
    · exact (prefix_append _ _).isInfix
    · exact (ih other mem).trans ⟨row ++ [⟨.mark .comma, comma⟩], [], by simp⟩

lemma Apart.group {closed : Nat} {body : List Token}
    (apart : Apart operand (t :: (body ++ ⟨.mark closer, closed⟩ :: after))) (closes : closer.isCloser = true)
    (listing : Listing rows body) : Apart false after ∧ ∀ row ∈ rows, ¬ Juxtaposed row := by
  refine ⟨apart.behind (t :: body) fun _ => closes, fun row mem pair => ?_⟩
  exact apart.2 (pair.within ((listing.within row mem).trans ⟨[t], ⟨.mark closer, closed⟩ :: after, by simp⟩))

/-- A bound on the values is kept, and only reached if something holds. -/
def Reads (items : List Item) (bound : Int) (P : Prop) : Prop :=
  netOf items ≤ bound ∧ (netOf items = bound → P)

lemma Reads.imp {b c : Int} {P Q : Prop} (reads : Reads items b P) (bound : b ≤ c) (implied : b = c → P → Q) :
    Reads items c Q := by
  obtain ⟨kept, met⟩ := reads
  refine ⟨Int.le_trans kept bound, fun reached => ?_⟩
  have same : b = c := by omega
  exact implied same (met (by omega))

def due (operand : Bool) : Int := if operand then 1 else 0

lemma Item.net_le (item : Item) : item.net ≤ 1 := by
  cases item <;> simp only [net] <;> grind

lemma operand_le (item : Item) (n : Int) : netOf (item :: out) + n + due false ≤ netOf out + n + due true := by
  have most := item.net_le
  simp [netOf, due]
  omega

mutual

lemma convert_reads {pending : List Pending} {out items : List Item} {operand : Bool} (tokens : List Token)
    (apart : Apart operand tokens) (done : convert pending out operand tokens = .ok items) :
    Reads items (netOf out + netWaiting pending + due operand) (Sentence operand (parens pending) tokens) := by
  match tokens with
  | [] =>
    rw [convert] at done
    obtain ⟨same, none⟩ := finish_net done
    cases operand with
    | true => exact ⟨by simp [same, due], fun reached => by simp [same, due] at reached⟩
    | false => exact ⟨by simp [same, due], fun _ => none ▸ .done⟩
  | ⟨lexeme, pos⟩ :: rest =>
    have wanting : Apart true rest := apart.behind [] nofun
    have having : Token.ends ⟨lexeme, pos⟩ = true → Apart false rest := fun ends => apart.behind [] fun _ => ends
    have expected : Token.starts ⟨lexeme, pos⟩ = true → operand = true := by
      intro starts
      by_contra off
      simpa [starts] using apart.1 (by simpa using off) _ rfl
    cases lexeme with
    | operator symbol =>
      rw [convert] at done
      simp only [] at done
      cases operand with
      | true =>
        rw [if_pos rfl] at done
        split at done
        · rename_i sign
          exact (convert_reads rest wanting done).imp (by simp [netWaiting]) fun _ => .sign pos (by simp [sign])
        · cases done
      | false =>
        rw [if_neg nofun] at done
        split at done
        · rename_i waiting made released
          obtain ⟨net, open_⟩ := release_net released
          refine (convert_reads rest wanting done).imp ?_ fun same tail => ?_
          · simp only [netWaiting, due, Item.net] at net ⊢
            split <;> grind
          · have other : symbol ≠ .bang := by
              rintro rfl
              simp [netWaiting, due, Item.net] at net same
              omega
            simp only [parens, open_] at tail
            exact .joined pos other tail
        · cases done
    | mark m =>
      cases m with
      | lparen =>
        obtain rfl := expected rfl
        rw [convert] at done
        simp only [] at done
        exact (convert_reads rest wanting done).imp (by simp [netWaiting]) fun _ => .opened pos
      | rparen =>
        rw [convert] at done
        simp only [] at done
        split at done
        · rename_i waiting made closed
          obtain ⟨net, open_⟩ := closeParen_net closed
          refine (convert_reads rest (having rfl) done).imp ?_ fun same tail => ?_
          · cases operand <;> simp [due] <;> omega
          · cases operand with
            | true =>
              simp [due] at same
              omega
            | false => exact open_ ▸ .closed pos tail
        · cases done
      | lbracket =>
        obtain rfl := expected rfl
        rw [convert_sequence] at done
        obtain ⟨rows, elements, behind, body, closed, bound, rfl, listing, made, tail⟩ := group_of_convert done
        obtain ⟨ahead, each⟩ := apart.group rfl listing
        refine (convert_reads behind ahead tail).imp (operand_le _ _) fun same tail => ?_
        have whole : wholes elements = true := by
          by_contra off
          simp [netOf, Item.net, due, off] at same
        exact .sequence pos closed listing (convertElements_reads rows each made whole) tail
      | lbrace =>
        obtain rfl := expected rfl
        rw [convert_mapping] at done
        obtain ⟨rows, entries, behind, body, closed, bound, rfl, listing, made, tail⟩ := group_of_convert done
        obtain ⟨ahead, each⟩ := apart.group rfl listing
        refine (convert_reads behind ahead tail).imp (operand_le _ _) fun same tail => ?_
        have whole : wholeEntries entries = true := by
          by_contra off
          simp [netOf, Item.net, due, off] at same
        obtain ⟨values, named, each⟩ := convertEntries_reads rows each made whole
        exact .mapping pos closed listing named each tail
      | _ =>
        rw [convert] at done
        cases done
    | _ =>
      obtain rfl := expected rfl
      rw [convert] at done
      exact (convert_reads rest (having rfl) done).imp (operand_le _ _) fun _ => .literal rfl
termination_by tokens.length
decreasing_by all_goals (simp only [length_cons]; omega)

lemma convertElements_reads (rows : List (List Token)) {elements : List (List Item)}
    (apart : ∀ row ∈ rows, ¬ Juxtaposed row) (done : convertElements rows = .ok elements)
    (whole : wholes elements = true) : ∀ row ∈ rows, Sentence true 0 row := by
  match rows with
  | [] => exact nofun
  | row :: rows =>
    rw [convertElements_cons_eq] at done
    obtain ⟨items, made, done⟩ := ok_of_bind done
    obtain ⟨others, behind, rfl⟩ := map_eq_ok.mp done
    rw [wholes, Bool.and_eq_true, beq_iff_eq] at whole
    rw [forall_mem_cons] at apart ⊢
    exact ⟨(convert_reads row (apart_true apart.1) made).2 whole.1, convertElements_reads rows apart.2 behind whole.2⟩
termination_by weight rows
decreasing_by all_goals (simp only [weight]; omega)

lemma convertEntries_reads (rows : List (List Token)) {entries : List (String × List Item)}
    (apart : ∀ row ∈ rows, ¬ Juxtaposed row) (done : convertEntries rows = .ok entries)
    (whole : wholeEntries entries = true) :
    ∃ values, Forall₂ Named rows values ∧ ∀ value ∈ values, Sentence true 0 value := by
  match rows with
  | [] => exact ⟨[], .nil, nofun⟩
  | row :: rows =>
    rw [convertEntries_cons_eq] at done
    obtain ⟨⟨key, value⟩, found, done⟩ := ok_of_bind done
    obtain ⟨items, made, done⟩ := ok_of_bind done
    obtain ⟨others, behind, rfl⟩ := map_eq_ok.mp done
    have bound := splitEntry_length (ok_of_mapError found)
    have named := splitEntry_named (ok_of_mapError found)
    rw [wholeEntries, Bool.and_eq_true, wholeEntry, beq_iff_eq] at whole
    rw [forall_mem_cons] at apart
    have here : ¬ Juxtaposed value := by
      obtain ⟨name, colon, rfl, _⟩ := named
      exact fun pair => apart.1 (pair.within ⟨[name, ⟨.mark .colon, colon⟩], [], by simp⟩)
    obtain ⟨values, rest, each⟩ := convertEntries_reads rows apart.2 behind whole.2
    refine ⟨value :: values, .cons named rest, forall_mem_cons.mpr ⟨?_, each⟩⟩
    exact (convert_reads value (apart_true here) made).2 whole.1
termination_by weight rows
decreasing_by all_goals (simp only [weight]; omega)

end

/-- An expression that is evaluated is a sentence, unless two operands follow each other in it. -/
theorem sentence_of_evaluate {text : String} {made : Value × Store} (done : evaluate env s text = .ok made) :
    ∃ tokens, tokenize text = .ok tokens ∧ (Sentence true 0 tokens ∨ Juxtaposed tokens) := by
  unfold evaluate at done
  split at done
  · cases done
  split at done
  · cases done
  rename_i tokens found
  split at done
  · cases done
  rename_i items converted
  refine ⟨tokens, found, or_iff_not_imp_right.mpr fun apart => ?_⟩
  have one : netOf items = 1 := eq_one_of_oneValue (length_runItems items) done
  exact (convert_reads tokens (apart_true apart) converted).2 one

/-- The operands of an operator may stand before it, or around it as in a sentence. -/
theorem sentence_of_operands_first :
    (evaluate .empty .empty "true false &&" = .ok (.bool false, .empty) ∧
      ∃ tokens, tokenize "true false &&" = .ok tokens ∧ (Sentence true 0 tokens ∨ Juxtaposed tokens)) ∧
    evaluate .empty .empty "true && false" = .ok (.bool false, .empty) ∧
      ∃ tokens, tokenize "true && false" = .ok tokens ∧ Sentence true 0 tokens := by
  have before : tokenize "true false &&" =
      .ok [⟨.boolean true, 0⟩, ⟨.boolean false, 5⟩, ⟨.operator .and, 11⟩] := by cbv
  have around : tokenize "true && false" =
      .ok [⟨.boolean true, 0⟩, ⟨.operator .and, 5⟩, ⟨.boolean false, 8⟩] := by cbv
  have done : evaluate .empty .empty "true false &&" = .ok (.bool false, .empty) := by
    rw [evaluate, if_neg (by decide +kernel), before]
    simp [toPostfix, convert, release, finish]
    rfl
  have done' : evaluate .empty .empty "true && false" = .ok (.bool false, .empty) := by
    rw [evaluate, if_neg (by decide +kernel), around]
    simp [toPostfix, convert, release, finish]
    rfl
  refine ⟨⟨done, sentence_of_evaluate done⟩, done', ?_⟩
  obtain ⟨tokens, found, sentence | ⟨a, b, ends, starts, here⟩⟩ := sentence_of_evaluate done'
  · exact ⟨tokens, found, sentence⟩
  · cases around.symm.trans found
    simp only [infix_cons_iff, cons_prefix_cons, infix_nil, reduceCtorEq] at here
    rcases here with ⟨rfl, rfl, _⟩ | ⟨rfl, rfl, _⟩ | ⟨_, never⟩ | never
    · cases starts
    · cases ends
    · exact absurd (prefix_nil.mp never) (cons_ne_nil b [])
    · cases never

end TagScript.Expr
