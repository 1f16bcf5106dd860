import TagScript.Text.Quoted

/-!
Locators: where documents are found. A locator is an address on the network, or a path that is read
against a base directory.
-/

namespace TagScript

/-- The directories that locators are read against when nothing else is said. -/
structure Places where
  workingDir : String
  home : String
  deriving DecidableEq, Repr

namespace Locator

def isRemote (locator : String) : Bool :=
  locator.startsWith "http://" || locator.startsWith "https://"

def fileScheme : String := "file://"

def path (locator : String) : List Char :=
  let cs := locator.toList
  if locator.startsWith fileScheme then cs.drop fileScheme.length else cs

def rootSlashes : List Char → Nat
  | '/' :: '/' :: '/' :: _ => 1
  | '/' :: '/' :: _ => 2
  | '/' :: _ => 1
  | _ => 0

/-- Adds a segment to those before it, last first: empty ones and single dots say nothing, and two
dots take the segment before away. Above the root there is nothing to take. -/
def addSegment (rooted : Bool) (before : List String) (segment : String) : List String :=
  if segment.isEmpty || segment == "." then before
  else if segment != ".." then segment :: before
  else
    match before with
    | [] => if rooted then [] else [".."]
    | last :: rest => if last == ".." then ".." :: last :: rest else rest

def segmentsOf (path : String) : List String :=
  (path.toList.splitOn '/').map String.ofList

def simplified (path : String) : String :=
  let slashes := rootSlashes path.toList
  let segments := (segmentsOf path).foldl (addSegment (0 < slashes)) []
  let joined := String.ofList (List.replicate slashes '/') ++ Text.joined "/" segments.reverse
  if joined.isEmpty then "." else joined

def joined (base path : String) : String :=
  if base.isEmpty || base.endsWith '/' then base ++ path else base ++ "/" ++ path

def underHome (home : String) (path : List Char) : String :=
  match path with
  | '~' :: rest =>
    if rest.isEmpty || rest.head? == some '/' then
      let full := String.ofList ((home.toList.reverse.dropWhile (· == '/')).reverse ++ rest)
      if full.isEmpty then "/" else full
    else String.ofList path
  | _ => String.ofList path

def resolve (places : Places) (base : Option String) (locator : String) : String :=
  let path := path locator
  if path.head? == some '/' then String.ofList ('/' :: path.dropWhile (· == '/'))
  else if path.head? == some '~' then underHome places.home path
  else
    let base := (base.filter (!·.isEmpty)).getD places.workingDir
    if path.isEmpty then base else simplified (joined base (String.ofList path))

/-- The directory of a path: all before the last slash, without trailing slashes unless there is
nothing else. -/
def directory (path : String) : String :=
  let head := path.toList.reverse.dropWhile (· != '/')
  let trimmed := head.dropWhile (· == '/')
  String.ofList (if trimmed.isEmpty then head.reverse else trimmed.reverse)

end Locator

end TagScript
