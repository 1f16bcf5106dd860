import TagScript.Expr.Token

/-!
Expressions in postfix order. Operators wait on a stack until an operator that binds less tightly, a
closing parenthesis or the end comes.
-/

namespace TagScript.Expr

/-- The prefix operators. -/
inductive Sign where
  | neg | pos | not
  deriving DecidableEq, Repr

def Sign.name : Sign → String
  | .neg => "neg"
  | .pos => "pos"
  | .not => "not"

def Sign.ofName? (name : String) : Option Sign :=
  [Sign.neg, .pos, .not].find? fun s => s.name == name

def Symbol.sign? : Symbol → Option Sign
  | .sub => some .neg
  | .add => some .pos
  | .bang => some .not
  | _ => none

def Symbol.precedence? : Symbol → Option Nat
  | .or => some 1
  | .and => some 2
  | .eq | .ne => some 3
  | .lt | .le | .gt | .ge => some 4
  | .add | .sub => some 5
  | .mul | .div | .rem => some 6
  | .pow => some 8
  | .bang => none

def Sign.precedence : Nat := 7

def Symbol.rightAssociative : Symbol → Bool
  | .pow => true
  | _ => false

/-- An item of a postfix form, with the position of its token. -/
inductive Item where
  | number (x : Float) (pos : Nat)
  | string (s : String) (pos : Nat)
  | boolean (b : Bool) (pos : Nat)
  | identifier (path : String) (pos : Nat)
  | unary (sign : Sign) (pos : Nat)
  | binary (symbol : Symbol) (pos : Nat)
  | sequence (elements : List (List Item)) (pos : Nat)
  | mapping (entries : List (String × List Item)) (pos : Nat)

/-- What waits on the operator stack. -/
inductive Pending where
  | paren (pos : Nat)
  | unary (sign : Sign) (pos : Nat)
  | binary (symbol : Symbol) (pos : Nat)

def Pending.precedence? : Pending → Option Nat
  | .paren _ => none
  | .unary _ _ => some Sign.precedence
  | .binary symbol _ => symbol.precedence?

/-- Moves waiting operators to the output, which is kept last first, while they bind more tightly
than the infix operator that arrives, or as tightly and it associates to the left. -/
def release (symbol : Symbol) : List Pending → List Item → Except Fault (List Pending × List Item)
  | .unary sign pos :: rest, out =>
    match symbol.precedence? with
    | none => .error (.unknownKey symbol.text)
    | some p =>
      if Sign.precedence > p || (Sign.precedence = p && !symbol.rightAssociative) then
        release symbol rest (.unary sign pos :: out)
      else .ok (.unary sign pos :: rest, out)
  | .binary top pos :: rest, out =>
    match top.precedence?, symbol.precedence? with
    | none, _ => .error (.unknownKey top.text)
    | _, none => .error (.unknownKey symbol.text)
    | some q, some p =>
      if q > p || (q = p && !symbol.rightAssociative) then release symbol rest (.binary top pos :: out)
      else .ok (.binary top pos :: rest, out)
  | pending, out => .ok (pending, out)

def closeParen : List Pending → List Item → Option (List Pending × List Item)
  | [], _ => none
  | .paren _ :: rest, out => some (rest, out)
  | .unary sign pos :: rest, out => closeParen rest (.unary sign pos :: out)
  | .binary symbol pos :: rest, out => closeParen rest (.binary symbol pos :: out)

def finish : List Pending → List Item → Except Fault (List Item)
  | [], out => .ok out.reverse
  | .paren pos :: _, _ => .error (.lex (.unbalanced '(' pos))
  | .unary sign pos :: rest, out => finish rest (.unary sign pos :: out)
  | .binary symbol pos :: rest, out => finish rest (.binary symbol pos :: out)

/-- Splits the tokens after an opening bracket at its commas, up to the closer, and gives the tokens
after that. `current` is the element so far, last token first. -/
def splitGroup (closer : Mark) (depth : Nat) (current : List Token) :
    List Token → Except LexFault (List (List Token) × List Token)
  | [] => .error (.missingCloser closer.char)
  | t :: rest =>
    match t.lexeme with
    | .mark m =>
      if m.isOpener then splitGroup closer (depth + 1) (t :: current) rest
      else if m.isCloser then
        if depth = 0 then
          if m = closer then .ok (if current.isEmpty then [] else [current.reverse], rest)
          else .error (.mismatchedCloser m.char t.pos)
        else splitGroup closer (depth - 1) (t :: current) rest
      else if m = .comma && depth = 0 then
        if current.isEmpty then .error (.emptyElement t.pos)
        else
          match splitGroup closer 0 [] rest with
          | .ok (elements, after) => .ok (current.reverse :: elements, after)
          | .error fault => .error fault
      else splitGroup closer depth (t :: current) rest
    | _ => splitGroup closer depth (t :: current) rest

def splitColon (depth : Int) (index : Nat) : List Token → Option (Nat × List Token)
  | [] => none
  | t :: rest =>
    match t.lexeme with
    | .mark m =>
      if m.isOpener then splitColon (depth + 1) (index + 1) rest
      else if m.isCloser then splitColon (depth - 1) (index + 1) rest
      else if m = .colon && depth = 0 then some (index, rest)
      else splitColon depth (index + 1) rest
    | _ => splitColon depth (index + 1) rest

def Lexeme.key? : Lexeme → Option String
  | .identifier path => some path
  | .string s => some s
  | _ => none

def splitEntry (entry : List Token) : Except LexFault (String × List Token) :=
  let start := entry.head?.elim 0 Token.pos
  match splitColon 0 0 entry with
  | none => .error (.missingColon start)
  | some (index, value) =>
    match index, entry.head?.bind fun t => t.lexeme.key? with
    | 1, some key => .ok (key, value)
    | _, _ => .error (.invalidKey start)

def weight : List (List Token) → Nat
  | [] => 0
  | tokens :: rest => tokens.length + 1 + weight rest

theorem splitGroup_weight {closer : Mark} {depth : Nat} {current tokens : List Token}
    {elements : List (List Token)} {after : List Token}
    (found : splitGroup closer depth current tokens = .ok (elements, after)) :
    weight elements + after.length ≤ current.length + tokens.length := by
  fun_induction splitGroup closer depth current tokens generalizing elements after with
  | case1 => simp at found
  | case2 _ _ _ _ _ _ _ ih => have bound := ih found; simp at bound ⊢; omega
  | case3 current t rest _ _ _ =>
    simp only [Except.ok.injEq, Prod.mk.injEq] at found
    obtain ⟨rfl, rfl⟩ := found
    split <;> simp [weight] <;> omega
  | case4 => simp at found
  | case5 _ _ _ _ _ _ _ _ _ ih => have bound := ih found; simp at bound ⊢; omega
  | case6 => simp at found
  | case7 depth current t rest _ _ _ _ _ _ inner cut split ih =>
    simp only [Except.ok.injEq, Prod.mk.injEq] at found
    obtain ⟨rfl, rfl⟩ := found
    have bound := ih split
    simp [weight] at bound ⊢
    omega
  | case8 => simp at found
  | case9 _ _ _ _ _ _ _ _ _ ih => have bound := ih found; simp at bound ⊢; omega
  | case10 _ _ _ _ _ ih => have bound := ih found; simp at bound ⊢; omega

theorem splitColon_length {depth : Int} {index found : Nat} {tokens value : List Token}
    (split : splitColon depth index tokens = some (found, value)) : value.length < tokens.length := by
  fun_induction splitColon depth index tokens with
  | case1 => simp at split
  | case2 _ _ _ _ _ _ _ ih => have bound := ih split; simp; omega
  | case3 _ _ _ _ _ _ _ _ ih => have bound := ih split; simp; omega
  | case4 => simp at split; simp [split]
  | case5 _ _ _ _ _ _ _ _ _ ih => have bound := ih split; simp; omega
  | case6 _ _ _ _ _ ih => have bound := ih split; simp; omega

theorem splitEntry_length {entry value : List Token} {key : String}
    (split : splitEntry entry = .ok (key, value)) : value.length < entry.length := by
  simp only [splitEntry] at split
  split at split
  · simp at split
  · rename_i index rest found
    have shorter := splitColon_length found
    split at split
    · simp only [Except.ok.injEq, Prod.mk.injEq] at split
      obtain ⟨_, rfl⟩ := split
      exact shorter
    · simp at split

mutual

/-- Converts tokens, given the waiting operators, the output so far (last first) and whether an
operand is expected. -/
def convert (pending : List Pending) (out : List Item) (operand : Bool) :
    List Token → Except Fault (List Item)
  | [] => finish pending out
  | t :: rest =>
    match t.lexeme with
    | .number x => convert pending (.number x t.pos :: out) false rest
    | .string s => convert pending (.string s t.pos :: out) false rest
    | .boolean b => convert pending (.boolean b t.pos :: out) false rest
    | .identifier path => convert pending (.identifier path t.pos :: out) false rest
    | .operator symbol =>
      if operand then
        match symbol.sign? with
        | some sign => convert (.unary sign t.pos :: pending) out true rest
        | none => .error (.lex (.unexpectedOperator symbol.text t.pos))
      else
        match release symbol pending out with
        | .ok (pending, out) => convert (.binary symbol t.pos :: pending) out true rest
        | .error fault => .error fault
    | .mark .lparen => convert (.paren t.pos :: pending) out true rest
    | .mark .rparen =>
      match closeParen pending out with
      | some (pending, out) => convert pending out false rest
      | none => .error (.lex (.unbalanced ')' t.pos))
    | .mark .lbracket =>
      match _found : splitGroup .rbracket 0 [] rest with
      | .error fault => .error (.lex fault)
      | .ok (elements, after) =>
        match convertElements elements with
        | .error fault => .error fault
        | .ok elements => convert pending (.sequence elements t.pos :: out) false after
    | .mark .lbrace =>
      match _found : splitGroup .rbrace 0 [] rest with
      | .error fault => .error (.lex fault)
      | .ok (entries, after) =>
        match convertEntries entries with
        | .error fault => .error fault
        | .ok entries => convert pending (.mapping entries t.pos :: out) false after
    | .mark m => .error (.lex (.unexpected m.char t.pos))
termination_by tokens => tokens.length
decreasing_by
  all_goals try (have bound := splitGroup_weight _found)
  all_goals simp_all <;> omega

def convertElements : List (List Token) → Except Fault (List (List Item))
  | [] => .ok []
  | element :: rest =>
    match convert [] [] true element with
    | .error fault => .error fault
    | .ok items =>
      match convertElements rest with
      | .error fault => .error fault
      | .ok others => .ok (items :: others)
termination_by elements => weight elements
decreasing_by
  all_goals simp [weight] <;> omega

def convertEntries : List (List Token) → Except Fault (List (String × List Item))
  | [] => .ok []
  | entry :: rest =>
    match _found : splitEntry entry with
    | .error fault => .error (.lex fault)
    | .ok (key, value) =>
      match convert [] [] true value with
      | .error fault => .error fault
      | .ok items =>
        match convertEntries rest with
        | .error fault => .error fault
        | .ok others => .ok ((key, items) :: others)
termination_by entries => weight entries
decreasing_by
  · have bound := splitEntry_length _found
    simp [weight]
    omega
  · simp [weight]

end

def toPostfix (tokens : List Token) : Except Fault (List Item) :=
  convert [] [] true tokens

end TagScript.Expr
