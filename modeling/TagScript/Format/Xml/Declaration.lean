import TagScript.Assoc
import TagScript.Format.Xml.Token

/-!
The type declaration of a document. Of all that it declares only attributes matter. What stands
behind a reference to another declaration is checked but not heeded, unless the document stands
alone. Entities are refused.
-/

namespace TagScript.Xml

/-- What is declared of an attribute. -/
structure AttrRule where
  name : String
  /-- Whether the value is a text, and not a list of words. -/
  isText : Bool
  /-- The value if none is given. -/
  value : Option String

/-- What a document declares. -/
structure Declarations where
  standsAlone : Bool
  /-- Whether there are references to declarations that are not there. -/
  refersOutside : Bool
  /-- Whether further declarations are heeded. -/
  isHeeded : Bool
  /-- The rules of the attributes of each element, in their order. -/
  rules : Assoc (List AttrRule)

namespace Declarations

def empty (standsAlone : Bool) : Declarations := ⟨standsAlone, false, true, []⟩

def isLenient (d : Declarations) : Bool := d.refersOutside && !d.standsAlone

def rulesOf (d : Declarations) (element : String) : List AttrRule :=
  (Assoc.get? element d.rules).getD []

def referOutside (d : Declarations) : Declarations :=
  { d with refersOutside := true, isHeeded := d.standsAlone }

def addRule (d : Declarations) (element : String) (isIdentifier : Bool) (rule : AttrRule) :
    Declarations :=
  let old := d.rulesOf element
  if (rule.value.isSome || isIdentifier) && old.any (·.name == rule.name) then d
  else { d with rules := Assoc.set element (old ++ [rule]) d.rules }

end Declarations

/-! ### Names of things outside -/

def isPublicName (cs : List Char) : Bool :=
  cs.all fun c => c.isAlphanum || " \n\r-'()+,./:=?;!*#@$_%".toList.contains c

def afterExternal? : List Token → Except String (Option (List Token))
  | .name "SYSTEM" :: .literal _ :: rest => .ok (some rest)
  | .name "PUBLIC" :: .literal id :: .literal _ :: rest =>
    if isPublicName id then .ok (some rest) else .error "illegal character(s) in public id"
  | _ => .ok none

/-! ### Elements -/

def afterMixed : List Token → Except String (List Token)
  | .name _ :: .bar :: rest => afterMixed rest
  | .name _ :: .closeParen (some '*') :: rest => .ok rest
  | _ => .error malformed

/-- What follows a model of inner elements. `wanted` says whether an item must come next; of each
open group the sign between its items is known once there has been one. -/
def afterModel (wanted : Bool) (groups : List (Option Token)) : List Token → Except String (List Token)
  | [] => .error malformed
  | token :: rest =>
    match wanted, token, groups with
    | true, .openParen, _ => afterModel true (none :: groups) rest
    | true, .name _, _ => afterModel false groups rest
    | true, .marked, _ => afterModel false groups rest
    | false, .closeParen _, [_] => .ok rest
    | false, .closeParen _, _ :: outer => afterModel false outer rest
    | false, .comma, sign :: outer =>
      if sign = some .bar then .error malformed else afterModel true (some .comma :: outer) rest
    | false, .bar, sign :: outer =>
      if sign = some .comma then .error malformed else afterModel true (some .bar :: outer) rest
    | _, _, _ => .error malformed

def afterContent : List Token → Except String (List Token)
  | .name "EMPTY" :: rest => .ok rest
  | .name "ANY" :: rest => .ok rest
  | .openParen :: .keyword "PCDATA" :: .closeParen none :: rest => .ok rest
  | .openParen :: .keyword "PCDATA" :: .closeParen (some '*') :: rest => .ok rest
  | .openParen :: .keyword "PCDATA" :: .bar :: rest => afterMixed rest
  | .openParen :: rest => afterModel true [none] rest
  | _ => .error malformed

def afterElement : List Token → Except String (List Token)
  | .name _ :: rest => do
    match ← afterContent rest with
    | .close :: rest => return rest
    | _ => .error malformed
  | _ => .error malformed

/-! ### Attributes -/

def afterChoices (wordsToo : Bool) : List Token → Except String (List Token)
  | .name _ :: .bar :: rest => afterChoices wordsToo rest
  | .name _ :: .closeParen none :: rest => .ok rest
  | .word :: .bar :: rest => if wordsToo then afterChoices wordsToo rest else .error malformed
  | .word :: .closeParen none :: rest => if wordsToo then .ok rest else .error malformed
  | _ => .error malformed

def readType : List Token → Except String ((Bool × Bool) × List Token)
  | .name "CDATA" :: rest => .ok ((true, false), rest)
  | .name "ID" :: rest => .ok ((false, true), rest)
  | .name "NOTATION" :: .openParen :: rest => (afterChoices false rest).map ((false, false), ·)
  | .name type :: rest =>
    if ["IDREF", "IDREFS", "ENTITY", "ENTITIES", "NMTOKEN", "NMTOKENS"].contains type then
      .ok ((false, false), rest)
    else .error malformed
  | .openParen :: rest => (afterChoices true rest).map ((false, false), ·)
  | _ => .error malformed

def readDefault : List Token → Except String (Option (List Char) × List Token)
  | .keyword "IMPLIED" :: rest => .ok (none, rest)
  | .keyword "REQUIRED" :: rest => .ok (none, rest)
  | .keyword "FIXED" :: .literal value :: rest => .ok (some value, rest)
  | .literal value :: rest => .ok (some value, rest)
  | _ => .error malformed

def Declarations.addAttr (d : Declarations) (element name : String) (isText isIdentifier : Bool)
    (value : Option (List Char)) : Except String Declarations :=
  if !d.isHeeded then .ok d
  else
    match value with
    | none => .ok (d.addRule element isIdentifier ⟨name, isText, none⟩)
    | some raw =>
      (readValue d.isLenient isText raw).map fun text =>
        d.addRule element false ⟨name, isText, some text⟩

def readAttrRules (element : String) : Nat → Declarations → List Token →
    Except String (Declarations × List Token)
  | _, d, .close :: rest => .ok (d, rest)
  | bound + 1, d, .name name :: rest => do
    let ((isText, isIdentifier), rest) ← readType rest
    let (value, rest) ← readDefault rest
    readAttrRules element bound (← d.addAttr element name isText isIdentifier value) rest
  | _, _, _ => .error malformed

def readAttrList (d : Declarations) : List Token → Except String (Declarations × List Token)
  | .name element :: rest => readAttrRules element rest.length d rest
  | _ => .error malformed

/-! ### Notations and entities -/

def afterNotation : List Token → Except String (List Token)
  | .name _ :: .name "PUBLIC" :: .literal id :: .close :: rest =>
    if isPublicName id then .ok rest else .error "illegal character(s) in public id"
  | .name _ :: rest => do
    match ← afterExternal? rest with
    | some (.close :: rest) => return rest
    | _ => .error malformed
  | _ => .error malformed

def afterDefinition (isHeeded isParameter : Bool) (tokens : List Token) : Except String (List Token) :=
  match tokens with
  | .literal value :: .close :: rest =>
    if isHeeded && !isEntityValue (value.length + 1) value then .error malformed else .ok rest
  | _ => do
    match ← afterExternal? tokens with
    | some (.close :: rest) => return rest
    | some (.name "NDATA" :: .name _ :: .close :: rest) =>
      if isParameter then .error malformed else return rest
    | _ => .error malformed

def afterEntity (d : Declarations) : List Token → Except String (List Token)
  | .percent :: .name _ :: rest =>
    if d.isHeeded then .error "entities are disabled" else afterDefinition false true rest
  | .name name :: rest =>
    if d.isHeeded && !isBuiltIn name then .error "entities are disabled"
    else afterDefinition d.isHeeded false rest
  | _ => .error malformed

/-! ### The type declaration -/

def readSubset : Nat → Declarations → List Token → Except String (Declarations × List Token)
  | _, d, .closeBracket :: rest => .ok (d, rest)
  | bound + 1, d, .comment :: rest => readSubset bound d rest
  | bound + 1, d, .instruction :: rest => readSubset bound d rest
  | bound + 1, d, .reference :: rest => readSubset bound d.referOutside rest
  | bound + 1, d, .declaration "ELEMENT" :: rest => do readSubset bound d (← afterElement rest)
  | bound + 1, d, .declaration "NOTATION" :: rest => do readSubset bound d (← afterNotation rest)
  | bound + 1, d, .declaration "ENTITY" :: rest => do readSubset bound d (← afterEntity d rest)
  | bound + 1, d, .declaration "ATTLIST" :: rest => do
    let (d, rest) ← readAttrList d rest
    readSubset bound d rest
  | _, _, _ => .error malformed

def readDoctype (d : Declarations) : List Token → Except String (Declarations × List Token)
  | .name _ :: rest => do
    let outside ← afterExternal? rest
    let d := { d with refersOutside := outside.isSome }
    match outside.getD rest with
    | .close :: rest => return (d, rest)
    | .openBracket :: rest =>
      match ← readSubset rest.length d rest with
      | (d, .close :: rest) => return (d, rest)
      | _ => .error malformed
    | _ => .error malformed
  | _ => .error malformed

def Token.isAside (t : Token) : Bool := t = .comment || t = .instruction

def readDeclarations (standsAlone : Bool) (tokens : List Token) : Except String Declarations :=
  match tokens.dropWhile Token.isAside with
  | [] => .ok (.empty standsAlone)
  | .declaration "DOCTYPE" :: rest => do
    let (d, rest) ← readDoctype (.empty standsAlone) rest
    if rest.all Token.isAside then return d else .error malformed
  | _ => .error malformed

end TagScript.Xml
