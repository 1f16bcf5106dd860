import TagScript.Assoc
import TagScript.Fault
import TagScript.Locator

/-!
Files: documents kept under absolute paths. A file is read as text: its bytes must be well formed, and
all line ends become one.
-/

namespace TagScript

/-- Files and their bytes, under simplified absolute paths, the directories that exist without files
in them, and the paths at which there is known to be nothing. -/
structure Files where
  places : Places
  contents : Assoc (List UInt8)
  directories : List String
  absent : List String

namespace Utf8

/-- Why bytes are no text: what is wrong with how many bytes. -/
inductive Flaw where
  | start
  | continuation (bytes : Nat)
  | unfinished (bytes : Nat)
  deriving DecidableEq, Repr

def isContinuation (b : UInt8) : Bool :=
  0x80 ≤ b && b < 0xc0

/-- Whether a byte may be the second one behind the given first: overlong forms, surrogates and what
lies beyond the last character are left out. -/
def isSecond (first second : UInt8) : Bool :=
  isContinuation second &&
    (if first = 0xe0 then 0xa0 ≤ second
    else if first = 0xed then second < 0xa0
    else if first = 0xf0 then 0x90 ≤ second
    else if first = 0xf4 then second < 0x90
    else true)

def length? (first : UInt8) : Option Nat :=
  if first < 0x80 then some 1
  else if first < 0xc2 then none
  else if first < 0xe0 then some 2
  else if first < 0xf0 then some 3
  else if first < 0xf5 then some 4
  else none

def fitting (first : UInt8) (count : Nat) : List UInt8 → Nat
  | [] => 0
  | second :: rest =>
    if isSecond first second then 1 + ((rest.take (count - 1)).takeWhile isContinuation).length else 0

def leading (length : Nat) (first : UInt8) : Nat :=
  match length with
  | 1 => first.toNat
  | 2 => first.toNat % 32
  | 3 => first.toNat % 16
  | _ => first.toNat % 8

def front (first : UInt8) (rest : List UInt8) : Except Flaw (Char × Nat) :=
  match length? first with
  | none => .error .start
  | some length =>
    let found := min (fitting first (length - 1) rest) (length - 1)
    if found = length - 1 then
      let code := (rest.take found).foldl (fun code b => code * 64 + b.toNat % 64) (leading length first)
      .ok (Char.ofNat code, length)
    else if found = rest.length then .error (.unfinished (1 + found))
    else .error (.continuation (1 + found))

/-- Reads characters, as many as the fuel allows, from the given position on. The flaw of what is no
text comes with the position of its first byte. -/
def readFrom : Nat → Nat → List Char → List UInt8 → Except (Flaw × Nat × UInt8) (List Char)
  | 0, _, chars, _ => .ok chars.reverse
  | _ + 1, _, chars, [] => .ok chars.reverse
  | fuel + 1, pos, chars, first :: rest =>
    match front first rest with
    | .error flaw => .error (flaw, pos, first)
    | .ok (c, length) => readFrom fuel (pos + length) (c :: chars) (rest.drop (length - 1))

def Flaw.message (flaw : Flaw) (pos : Nat) (first : UInt8) : String :=
  let place (bytes : Nat) :=
    if bytes = 1 then "byte 0x" ++ Text.hexadecimal 2 first.toNat ++ " in position " ++ Numeral.ofNat pos
    else "bytes in position " ++ Numeral.ofNat pos ++ "-" ++ Numeral.ofNat (pos + bytes - 1)
  let (bytes, reason) :=
    match flaw with
    | .start => (1, "invalid start byte")
    | .continuation bytes => (bytes, "invalid continuation byte")
    | .unfinished bytes => (bytes, "unexpected end of data")
  "'utf-8' codec can't decode " ++ place bytes ++ ": " ++ reason

def read (bytes : List UInt8) : Except Fault (List Char) :=
  match readFrom (bytes.length + 1) 0 [] bytes with
  | .ok chars => .ok chars
  | .error (flaw, pos, first) => .error (.undecodable (flaw.message pos first))

end Utf8

def unifiedLines : List Char → List Char
  | [] => []
  | '\r' :: '\n' :: rest => '\n' :: unifiedLines rest
  | '\r' :: rest => '\n' :: unifiedLines rest
  | c :: rest => c :: unifiedLines rest

namespace Files

def absolute (files : Files) (path : String) : String :=
  if path.startsWith "/" then Locator.simplified path
  else Locator.simplified (Locator.joined files.places.workingDir path)

def ofList (places : Places) (contents : List (String × List UInt8)) : Files :=
  let files : Files := ⟨places, [], ["/", Locator.simplified places.workingDir], []⟩
  { files with contents := contents.map fun (path, bytes) => (files.absolute path, bytes) }

def isDirectory (files : Files) (path : String) : Bool :=
  let path := files.absolute path
  files.directories.contains path || files.contents.any fun (name, _) => name.startsWith (path ++ "/")

def bytes? (files : Files) (path : String) : Option (List UInt8) :=
  Assoc.get? (files.absolute path) files.contents

def isAbsent (files : Files) (path : String) : Bool :=
  files.absent.contains (files.absolute path)

def add (files : Files) (path : String) (bytes : List UInt8) : Files :=
  { files with contents := Assoc.set (files.absolute path) bytes files.contents }

def addDirectory (files : Files) (path : String) : Files :=
  { files with directories := files.absolute path :: files.directories }

def exclude (files : Files) (path : String) : Files :=
  { files with absent := files.absolute path :: files.absent }

def text (files : Files) (path : String) : Except Fault String :=
  if files.isDirectory path then .error (.isDirectory path)
  else
    match files.bytes? path with
    | none => .error (.fileNotFound path)
    | some bytes => (Utf8.read bytes).map fun chars => String.ofList (unifiedLines chars)

end Files

end TagScript
