import TagScript.Expr.Postfix

/-!
# Expression trees and how they are written

A token list writes a tree at a level, which says how tightly the outermost operator that stands
outside all parentheses must bind at least.
-/

namespace TagScript.Expr

/-- An expression as a tree. Every part has the position of the token that it is known by. -/
inductive Tree where
  | number (x : Float) (pos : Nat)
  | string (s : String) (pos : Nat)
  | boolean (b : Bool) (pos : Nat)
  | identifier (path : String) (pos : Nat)
  | signed (sign : Sign) (pos : Nat) (operand : Tree)
  | joined (symbol : Symbol) (pos : Nat) (left right : Tree)
  | sequence (elements : List Tree) (pos : Nat)
  | mapping (entries : List (String × Tree)) (pos : Nat)

namespace Tree

mutual

/-- The parts of a tree in postfix order. A bracketed literal is one item. -/
def postOrder : Tree → List Item
  | .number x pos => [.number x pos]
  | .string s pos => [.string s pos]
  | .boolean b pos => [.boolean b pos]
  | .identifier path pos => [.identifier path pos]
  | .signed sign pos operand => operand.postOrder ++ [.unary sign pos]
  | .joined symbol pos left right => left.postOrder ++ right.postOrder ++ [.binary symbol pos]
  | .sequence elements pos => [.sequence (postOrders elements) pos]
  | .mapping entries pos => [.mapping (entryOrders entries) pos]

def postOrders : List Tree → List (List Item)
  | [] => []
  | t :: rest => t.postOrder :: postOrders rest

def entryOrders : List (String × Tree) → List (String × List Item)
  | [] => []
  | entry :: rest => entryOrder entry :: entryOrders rest

def entryOrder : String × Tree → String × List Item
  | (key, t) => (key, t.postOrder)

end

end Tree

/-- The level at which the left operand of an infix operator is written. An operator that associates
to the left may stand there itself. -/
def Symbol.leftLevel (symbol : Symbol) (p : Nat) : Nat :=
  if symbol.rightAssociative then p + 1 else p

/-- The level at which the right operand of an infix operator is written. Behind an operator that
associates to the right there may also be a prefix operator: it never takes anything that stands
before it, so it needs no parentheses although it binds less tightly. -/
def Symbol.rightLevel (symbol : Symbol) (p : Nat) : Nat :=
  if symbol.rightAssociative then min p Sign.precedence else p + 1

mutual

/-- A token list writes a tree at a level. -/
inductive Writes : Nat → Tree → List Token → Prop where
  | number (level : Nat) (x : Float) (pos : Nat) :
    Writes level (.number x pos) [⟨.number x, pos⟩]
  | string (level : Nat) (s : String) (pos : Nat) :
    Writes level (.string s pos) [⟨.string s, pos⟩]
  | boolean (level : Nat) (b : Bool) (pos : Nat) :
    Writes level (.boolean b pos) [⟨.boolean b, pos⟩]
  | identifier (level : Nat) (path : String) (pos : Nat) :
    Writes level (.identifier path pos) [⟨.identifier path, pos⟩]
  | parens {t : Tree} {tokens : List Token} (level opened closed : Nat) (inner : Writes 0 t tokens) :
    Writes level t (⟨.mark .lparen, opened⟩ :: (tokens ++ [⟨.mark .rparen, closed⟩]))
  | signed {level : Nat} {symbol : Symbol} {sign : Sign} {t : Tree} {tokens : List Token} (pos : Nat)
    (isSign : symbol.sign? = some sign) (fits : level ≤ Sign.precedence)
    (operand : Writes Sign.precedence t tokens) :
    Writes level (.signed sign pos t) (⟨.operator symbol, pos⟩ :: tokens)
  | joined {level p : Nat} {symbol : Symbol} {l r : Tree} {before after : List Token} (pos : Nat)
    (binds : symbol.precedence? = some p) (fits : level ≤ p)
    (left : Writes (symbol.leftLevel p) l before) (right : Writes (symbol.rightLevel p) r after) :
    Writes level (.joined symbol pos l r) (before ++ ⟨.operator symbol, pos⟩ :: after)
  | sequence {elements : List Tree} {tokens : List Token} (level pos closed : Nat)
    (inner : WritesElements elements tokens) :
    Writes level (.sequence elements pos)
      (⟨.mark .lbracket, pos⟩ :: (tokens ++ [⟨.mark .rbracket, closed⟩]))
  | mapping {entries : List (String × Tree)} {tokens : List Token} (level pos closed : Nat)
    (inner : WritesEntries entries tokens) :
    Writes level (.mapping entries pos)
      (⟨.mark .lbrace, pos⟩ :: (tokens ++ [⟨.mark .rbrace, closed⟩]))

/-- A token list writes the elements of a sequence literal, with commas between them and perhaps one
behind the last. -/
inductive WritesElements : List Tree → List Token → Prop where
  | none : WritesElements [] []
  | last {t : Tree} {tokens : List Token} (element : Writes 0 t tokens) : WritesElements [t] tokens
  | more {t : Tree} {elements : List Tree} {tokens others : List Token} (comma : Nat)
    (element : Writes 0 t tokens) (rest : WritesElements elements others) :
    WritesElements (t :: elements) (tokens ++ ⟨.mark .comma, comma⟩ :: others)

/-- A token list writes the entries of a mapping literal, with commas between them and perhaps one
behind the last. -/
inductive WritesEntries : List (String × Tree) → List Token → Prop where
  | none : WritesEntries [] []
  | last {entry : String × Tree} {tokens : List Token} (first : WritesEntry entry tokens) :
    WritesEntries [entry] tokens
  | more {entry : String × Tree} {entries : List (String × Tree)} {tokens others : List Token}
    (comma : Nat) (first : WritesEntry entry tokens) (rest : WritesEntries entries others) :
    WritesEntries (entry :: entries) (tokens ++ ⟨.mark .comma, comma⟩ :: others)

/-- A token list writes an entry of a mapping literal: its name as an identifier or a string, a
colon and its value. -/
inductive WritesEntry : String × Tree → List Token → Prop where
  | entry {key : String} {lexeme : Lexeme} {t : Tree} {tokens : List Token} (pos colon : Nat)
    (named : lexeme.key? = some key) (value : Writes 0 t tokens) :
    WritesEntry (key, t) (⟨lexeme, pos⟩ :: ⟨.mark .colon, colon⟩ :: tokens)

end

end TagScript.Expr
