import TagScript.Datum.Cast
import TagScript.Datum.Text

/-!
Templates: text with tags between delimiters. A tag stands for a value, or opens or closes a
section, which is shown once for each item of its value. Names are looked up through the values of
the sections around. A section that is never closed loses what stands before it.
-/

namespace TagScript.Template

/-- What opens and what closes a tag. -/
structure Delimiters where
  opener : List Char
  closer : List Char

def Delimiters.standard : Delimiters := ⟨['\x7b', '\x7b'], ['\x7d', '\x7d']⟩

/-- What a tag is for. -/
inductive Kind where
  | value
  | comment
  | partialText
  | opening
  | inverted
  | closing
  | delimiters
  deriving DecidableEq, Repr

/-- A tag: what it is for, its name, and the blanks in front of it. -/
structure Tag where
  kind : Kind
  key : String
  blanks : List Char

def kindOfMark? (c : Char) : Option Kind :=
  match c with
  | '!' => some .comment
  | '>' => some .partialText
  | '&' => some .value
  | '/' => some .closing
  | '#' => some .opening
  | '^' => some .inverted
  | _ => none

def after? (word cs : List Char) : Option (List Char) :=
  if word.isPrefixOf cs then some (cs.drop word.length) else none

def afterBlanks {α : Type} (cs : List Char) (next : List Char → Option α) : Option α :=
  let blanks := (cs.takeWhile Text.isBlank).length
  (List.range (blanks + 1)).findSome? fun kept => next (cs.drop (blanks - kept))

def upTo (allowed : Char → Bool) (end? : List Char → Option (List Char)) :
    List Char → List Char → Option (List Char × List Char)
  | _, [] => none
  | taken, c :: rest =>
    if !allowed c then none
    else
      match end? rest with
      | some behind => some ((c :: taken).reverse, behind)
      | none => upTo allowed end? (c :: taken) rest

def Delimiters.end? (d : Delimiters) (cs : List Char) : Option (List Char) :=
  after? d.closer (cs.dropWhile Text.isBlank)

def Delimiters.markedEnd? (d : Delimiters) (mark : Char) (cs : List Char) : Option (List Char) :=
  (after? [mark] (cs.dropWhile Text.isBlank)).bind d.end?

def Delimiters.enclosed? (d : Delimiters) (kind : Kind) (first last : Char) (cs : List Char) :
    Option (Kind × List Char × List Char) :=
  (after? [first] cs).bind fun cs =>
    (afterBlanks cs (upTo (· != '\n') (d.markedEnd? last) [])).map fun (key, rest) => (kind, key, rest)

def Delimiters.named? (d : Delimiters) (kind : Kind) (cs : List Char) :
    Option (Kind × List Char × List Char) :=
  (afterBlanks cs (upTo (fun _ => true) d.end? [])).map fun (key, rest) => (kind, key, rest)

def Delimiters.inside? (d : Delimiters) (cs : List Char) : Option (Kind × List Char × List Char) :=
  let marked :=
    match cs with
    | c :: rest => (kindOfMark? c).bind fun kind => d.named? kind rest
    | [] => none
  ((d.enclosed? .delimiters '=' '=' cs).or (d.enclosed? .value '\x7b' '\x7d' cs)).or
    (marked.or (d.named? .value cs))

def Delimiters.tag? (d : Delimiters) (cs : List Char) : Option (Tag × List Char) :=
  let blanks := cs.takeWhile fun c => c = ' ' || c = '\t'
  (after? d.opener (cs.drop blanks.length)).bind fun cs =>
    (afterBlanks cs d.inside?).map fun (kind, key, rest) => (⟨kind, String.ofList key, blanks⟩, rest)

def Delimiters.find? (d : Delimiters) : List Char → List Char → Option (List Char × Tag × List Char)
  | _, [] => none
  | before, c :: rest =>
    match d.tag? (c :: rest) with
    | some (tag, behind) => some (before, tag, behind)
    | none => d.find? (c :: before) rest

/-- A piece of a template. -/
inductive Part where
  | text (s : String)
  | value (key : String)
  | each (key : String) (parts : List Part)
  | unless (key : String) (parts : List Part)

/-- A section that is not closed yet: what is around it, last part first. -/
structure Opened where
  inverted : Bool
  outerKey : Option String
  before : List Part

/-- Where reading stands: the section that is open, its parts so far with the last first, and those
around it. -/
structure Reader where
  delimiters : Delimiters
  key : Option String
  parts : List Part
  opened : List Opened

namespace Reader

def add (r : Reader) (p : Part) : Reader := { r with parts := p :: r.parts }

def addText (r : Reader) (reversed : List Char) : Reader :=
  if reversed.isEmpty then r else r.add (.text (String.ofList reversed.reverse))

def openSection (r : Reader) (inverted : Bool) (key : String) : Reader :=
  { r with key := some key, parts := [], opened := ⟨inverted, r.key, r.parts⟩ :: r.opened }

def closeSection (r : Reader) (pos : Nat) (key : String) : Except Fault Reader :=
  match r.opened with
  | [] => .error (.sectionMismatch pos key r.key)
  | o :: rest =>
    if r.key ≠ some key then .error (.sectionMismatch pos key r.key)
    else
      let parts := r.parts.reverse
      let part := if o.inverted then Part.unless key parts else Part.each key parts
      .ok { r with key := o.outerKey, parts := part :: o.before, opened := rest }

def change (r : Reader) (key : String) : Except Fault Reader :=
  match Text.words key with
  | opener :: closer :: _ => .ok { r with delimiters := ⟨opener.toList, closer.toList⟩ }
  | _ => .error .outOfRange

def take (r : Reader) (pos : Nat) (tag : Tag) : Except Fault Reader :=
  match tag.kind with
  | .value => .ok (r.add (.value tag.key))
  | .comment => .ok r
  | .partialText => .ok r
  | .opening => .ok (r.openSection false tag.key)
  | .inverted => .ok (r.openSection true tag.key)
  | .closing => r.closeSection pos tag.key
  | .delimiters => r.change tag.key

end Reader

def isLineEnd (c : Char) : Bool := c = '\r' || c = '\n'

def atLineEnd (cs : List Char) : Bool := cs.head?.all isLineEnd

def afterLineEnd : List Char → List Char
  | '\r' :: '\n' :: rest => rest
  | '\r' :: rest => rest
  | '\n' :: rest => rest
  | cs => cs

def readParts : Nat → Reader → List Char → List Char → Except Fault Reader
  | 0, r, _, _ => .ok r
  | fuel + 1, r, before, cs =>
    match r.delimiters.find? [] cs with
    | none => .ok (r.addText cs.reverse)
    | some (text, tag, rest) =>
      let alone := atLineEnd (text ++ before) && atLineEnd rest && tag.kind != .value
      let shown := if alone then text else tag.blanks.reverse ++ text
      let behind := if alone then afterLineEnd rest else rest
      let passed := (cs.take (cs.length - behind.length)).reverse ++ before
      match (r.addText shown).take passed.length tag with
      | .error fault => .error fault
      | .ok r => readParts fuel r passed behind

def parse (template : String) : Except Fault (List Part) :=
  let cs := template.toList
  (readParts (cs.length + 1) ⟨.standard, none, [], []⟩ [] cs).map fun r => r.parts.reverse

def stampMember? (s : Stamp) (key : String) : Option Datum :=
  let named {α : Type} (make : α → Datum) (table : List (String × α)) : Option Datum :=
    (table.find? (·.1 == key)).map fun entry => make entry.2
  (named (fun (n : Nat) => .int n) s.numbers).or
    ((named .str s.texts).or
      ((named (.stamp · 0) s.stamps).or (named (fun zone => zone.elim .none .str) s.zones)))

def functionMember? (name : String) (params : List String) (key : String) : Option Datum :=
  if key == "name" then some (.str name)
  else if key == "params" then some (.seq (params.map .str))
  else if key == "arity" then some (.int params.length)
  else none

def member? (d : Datum) (key : String) : Option Datum :=
  match d with
  | .map entries => Assoc.get? key entries
  | .stamp s _ => stampMember? s key
  | .func name params _ => functionMember? name params key
  | _ => none

def lookup (around : List Datum) (key : String) : Option Datum :=
  if key == "." then around.head?
  else
    match key.splitOn "." with
    | [] => none
    | first :: rest =>
      rest.foldl (fun found part => found.bind (member? · part)) (around.findSome? (member? · first))

def occasions (d : Datum) : List Datum :=
  if !d.isPresent then []
  else
    match d with
    | .seq items => items
    | d => [d]

def meaning (around : List Datum) (key : String) : Datum :=
  (lookup around key).getD (.str "")

mutual

def showParts (around : List Datum) : List Part → String
  | [] => ""
  | p :: rest => showPart around p ++ showParts around rest

def showPart (around : List Datum) : Part → String
  | .text s => s
  | .value key => (meaning around key).plain
  | .each key parts =>
    String.join ((occasions (meaning around key)).map fun d => showParts (d :: around) parts)
  | .unless key parts => if (meaning around key).isPresent then "" else showParts around parts

end

def render (template : String) (data : Datum) : Except Fault String :=
  (parse template).map (showParts [data])

end TagScript.Template
