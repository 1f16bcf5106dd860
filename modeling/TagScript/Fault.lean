import TagScript.Number.Numeral
import TagScript.Text.Quoted

/-!
What can go wrong. Scripts and reports show the kind and the message of a fault.
-/

namespace TagScript

/-- Why a text is not an expression. Positions count characters from the start of the text. -/
inductive LexFault where
  | empty
  | malformed
  | invalidNumber (raw : String) (pos : Nat)
  | unterminatedString (pos : Nat)
  | invalidToken (c : Char) (pos : Nat)
  | mismatchedCloser (closer : Char) (pos : Nat)
  | missingCloser (closer : Char)
  | emptyElement (pos : Nat)
  | invalidKey (pos : Nat)
  | missingColon (pos : Nat)
  | unbalanced (bracket : Char) (pos : Nat)
  | unexpectedOperator (operator : String) (pos : Nat)
  | unexpected (c : Char) (pos : Nat)
  | missingPrefixOperand (operator : String)
  | missingOperand (operator : String) (pos : Nat)
  | invalidOperator (operator : String)
  deriving DecidableEq, Repr

/-- Why a value is of the wrong type. -/
inductive TypeFault where
  | expectsNumbers (operator left right : String)
  | incomparable (left right operator : String)
  | expectsNumber (sign : Char) (operand : String)
  | unknownType (declared what : String)
  | mismatch (what expected actual : String)
  | unorderedItems
  | concatNeedsSequence
  | invalidArguments (operation name : String)
  | noLiteral (name className : String)
  | headersNotMapping
  deriving DecidableEq, Repr

/-- Why an operation cannot be applied to a variable. -/
inductive OperationFault where
  | malformed (name operation : String)
  | unsupported (operation className name : String)
  deriving DecidableEq, Repr

/-- What a break or continue was about. -/
inductive Signal where
  | breakOut
  | goOn
  deriving DecidableEq, Repr

def Signal.word : Signal → String
  | .breakOut => "break"
  | .goOn => "continue"

/-- What went wrong. -/
inductive Fault where
  | lex (cause : LexFault)
  | undefined (path : String)
  | type (cause : TypeFault)
  | operation (cause : OperationFault)
  | missingAttribute (tag attr : String)
  | argumentCount (function : String) (expected got : Nat)
  | functionNotFound (name : String)
  | recursionLimit (limit : Nat) (tag : String)
  | loopLimit (limit : Nat)
  | codec (format message : String)
  | importFailure (message : String)
  | http (message : String) (status : Option Int)
  | straySignal (signal : Signal)
  | sectionMismatch (pos : Nat) (closed : String) (opened : Option String)
  | outOfRange
  | unknownKey (key : String)
  | domain
  | tooLarge
  | noLiteral (className : String)
  | value (message : String)
  | wrongType (message : String)
  | overflow (message : String)
  | globalScope
  | runtime (message : String)
  | isDirectory (path : String)
  | fileNotFound (path : String)
  | undecodable (message : String)
  | unencodable (text : String) (first next : Nat)
  | assertion (message : String)
  | endless (compared : Bool)
  | exhausted
  deriving DecidableEq, Repr

namespace LexFault

def place (pos : Nat) : String :=
  " at position " ++ Numeral.ofNat pos

def message : LexFault → String
  | .empty => "Empty expression"
  | .malformed => "Malformed expression"
  | .invalidNumber raw pos => "Invalid number: " ++ raw ++ place pos
  | .unterminatedString pos => "Unterminated string starting" ++ place pos
  | .invalidToken c pos => "Invalid token: " ++ c.toString ++ place pos
  | .mismatchedCloser c pos => "Mismatched '" ++ c.toString ++ "'" ++ place pos
  | .missingCloser c => "Missing '" ++ c.toString ++ "'"
  | .emptyElement pos => "Empty element" ++ place pos
  | .invalidKey pos => "Invalid mapping key" ++ place pos
  | .missingColon pos => "Mapping entry without ':'" ++ place pos
  | .unbalanced c pos => "Unbalanced '" ++ c.toString ++ "'" ++ place pos
  | .unexpectedOperator op pos => "Unexpected operator '" ++ op ++ "'" ++ place pos
  | .unexpected c pos => "Unexpected '" ++ c.toString ++ "'" ++ place pos
  | .missingPrefixOperand op => "Missing operand for '" ++ op ++ "'"
  | .missingOperand op pos => "Missing operand for '" ++ op ++ "'" ++ place pos
  | .invalidOperator op => "Invalid operator: " ++ op

end LexFault

def TypeFault.message : TypeFault → String
  | .expectsNumbers op a b => "Operator '" ++ op ++ "' expects numbers, got " ++ a ++ " and " ++ b
  | .incomparable a b op => "Cannot compare " ++ a ++ " and " ++ b ++ " with '" ++ op ++ "'"
  | .expectsNumber sign a => "Unary '" ++ sign.toString ++ "' expects a number, got " ++ a
  | .unknownType declared what => "Unknown type '" ++ declared ++ "' for " ++ what
  | .mismatch what expected actual =>
    "Type mismatch for " ++ what ++ ": expected " ++ expected ++ ", got " ++ actual
  | .unorderedItems => "sort expects items of one comparable type"
  | .concatNeedsSequence => "concat on a sequence expects a sequence"
  | .invalidArguments op name => "Invalid arguments for ." ++ op ++ " on " ++ name
  | .noLiteral name className =>
    "Cannot manipulate " ++ name ++ ": " ++ className ++ " has no expression literal"
  | .headersNotMapping => "http headers must evaluate to a mapping"

def OperationFault.message : OperationFault → String
  | .malformed name op => "Malformed operation for " ++ name ++ ": " ++ op
  | .unsupported op className name =>
    "Operation ." ++ op ++ " is not supported on " ++ className ++ " (" ++ name ++ ")"

namespace Fault

def kind : Fault → String
  | .lex _ => "LexError"
  | .undefined _ => "UndefinedVariableError"
  | .type _ => "TypeMismatchError"
  | .operation _ => "UnknownOperation"
  | .missingAttribute _ _ => "MissingAttribute"
  | .argumentCount _ _ _ => "ArgumentCountMismatch"
  | .functionNotFound _ => "FunctionNotFound"
  | .recursionLimit _ _ => "RecursionLimitExceeded"
  | .loopLimit _ => "LoopLimitExceeded"
  | .codec _ _ => "CodecError"
  | .importFailure _ => "ImportFailure"
  | .http _ _ => "HttpFailure"
  | .straySignal _ => "HScriptError"
  | .sectionMismatch _ _ _ => "ParsingError"
  | .outOfRange => "IndexError"
  | .unknownKey _ => "KeyError"
  | .domain => "ValueError"
  | .tooLarge => "OverflowError"
  | .noLiteral _ => "TypeError"
  | .value _ => "ValueError"
  | .wrongType _ => "TypeError"
  | .overflow _ => "OverflowError"
  | .globalScope => "RuntimeError"
  | .runtime _ => "RuntimeError"
  | .isDirectory _ => "IsADirectoryError"
  | .fileNotFound _ => "FileNotFoundError"
  | .undecodable _ => "UnicodeDecodeError"
  | .unencodable _ _ _ => "UnicodeEncodeError"
  | .assertion _ => "AssertionError"
  | .endless _ => "RecursionError"
  | .exhausted => "TimeoutError"

def message : Fault → String
  | .lex cause => cause.message
  | .undefined path => "Undefined variable: " ++ path
  | .type cause => cause.message
  | .operation cause => cause.message
  | .missingAttribute tag attr => "<" ++ tag ++ "> requires a '" ++ attr ++ "' attribute"
  | .argumentCount function expected got =>
    "Argument count mismatch for " ++ function ++ ": expected " ++ Numeral.ofNat expected ++
      ", got " ++ Numeral.ofNat got
  | .functionNotFound name => "Function " ++ name ++ " not found"
  | .recursionLimit limit tag =>
    "Recursion depth exceeded (" ++ Numeral.ofNat limit ++ ") at <" ++ tag ++ ">"
  | .loopLimit limit => "Loop iteration limit exceeded (" ++ Numeral.ofNat limit ++ ")"
  | .codec format message => format ++ " error: " ++ message
  | .importFailure message => message
  | .http message _ => message
  | .straySignal signal => "'" ++ signal.word ++ "' outside of a for/while loop"
  | .sectionMismatch pos closed opened =>
    let tag (mark name : String) := "\x7b\x7b" ++ mark ++ name ++ "\x7d\x7d"
    "Section end tag mismatch at position " ++ Numeral.ofNat pos ++ ". Found " ++ tag "/" closed ++
      ", expected " ++ opened.elim (tag "#" closed) (tag "/")
  | .outOfRange => "list index out of range"
  | .unknownKey key => Text.quoted key
  | .domain => "math domain error"
  | .tooLarge => "int too large to convert to float"
  | .noLiteral className => className ++ " has no expression literal"
  | .value message => message
  | .wrongType message => message
  | .overflow message => message
  | .globalScope => "cannot pop the global scope"
  | .runtime message => message
  | .isDirectory path => path
  | .fileNotFound path => path
  | .undecodable message => message
  | .unencodable text first next =>
    let which :=
      if next = first + 1 then
        "character " ++ Text.quoted (String.ofList ((text.toList.drop first).take 1)) ++ " in position " ++
          Numeral.ofNat first
      else "characters in position " ++ Numeral.ofNat first ++ "-" ++ Numeral.ofNat (next - 1)
    "'utf-8' codec can't encode " ++ which ++ ": surrogates not allowed"
  | .assertion message => message
  | .endless compared => "maximum recursion depth exceeded" ++ (if compared then " in comparison" else "")
  | .exhausted => "no iterations left"

def diagnostic (f : Fault) : String :=
  match f with
  | .unknownKey _ => f.kind ++ "(" ++ f.message ++ ")"
  | .unencodable text first next =>
    f.kind ++ "('utf-8', " ++ Text.quoted text ++ ", " ++ Numeral.ofNat first ++ ", " ++ Numeral.ofNat next ++
      ", 'surrogates not allowed')"
  | _ => f.kind ++ "(" ++ Text.quoted f.message ++ ")"

def isScript : Fault → Bool
  | .lex _ | .undefined _ | .type _ | .operation _ | .missingAttribute _ _ | .argumentCount _ _ _
  | .functionNotFound _ | .recursionLimit _ _ | .loopLimit _ | .codec _ _ | .importFailure _
  | .http _ _ | .straySignal _ => true
  | _ => false

end Fault

end TagScript
