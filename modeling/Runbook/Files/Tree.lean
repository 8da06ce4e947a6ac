import Runbook.Files.Error
import Runbook.Files.Path

/-!
# A tree of files

Directories and files under one root, as a list of places with what is there. A place is the list
of names that lead to it from the root, and the root itself, the empty place, is always a
directory. A path name is followed step by step from the working directory (`locate`): every step
goes out from a directory that is there, and only the last one may lead to something missing.

A file holds text, or bytes that are no text.
-/

set_option autoImplicit false

namespace Runbook.Files

/-- The names that lead to a file or directory from the root. -/
abbrev Place := List String

inductive Content where
  | text (s : String)
  | bytes (b : List UInt8)
deriving DecidableEq, Repr, Inhabited

/-- What may be at a place. -/
inductive Node where
  | directory
  | file (content : Content)
deriving DecidableEq, Repr

/-- The places below the root that hold something, and the working directory. -/
structure Tree where
  nodes : List (Place × Node) := []
  here : Place := []
deriving Repr, Inhabited

namespace Tree

/-! ## Places -/

def at? (t : Tree) (place : Place) : Option Node :=
  if place = [] then some .directory else t.nodes.lookup place

/-- The tree with something at a place, instead of whatever was there. -/
def put (t : Tree) (place : Place) (node : Node) : Tree :=
  if (t.nodes.lookup place).isSome then
    { t with nodes := t.nodes.map fun (p, n) => if p = place then (p, node) else (p, n) }
  else { t with nodes := t.nodes ++ [(place, node)] }

/-- The tree without a place and everything below it. -/
def drop (t : Tree) (place : Place) : Tree :=
  { t with nodes := t.nodes.filter fun (p, _) => !place.isPrefixOf p }

/-- The names in a directory, in code point order. -/
def namesIn (t : Tree) (place : Place) : List String :=
  (t.nodes.filterMap fun (p, _) =>
    if p.dropLast = place ∧ p ≠ [] then p.getLast? else none).mergeSort (· ≤ ·)

/-! ## Following path names -/

/-- Names longer than this many bytes lead nowhere. -/
def longestName : Nat := 255

/-- One step from a place. Only from a directory does a step lead anywhere. -/
def step (t : Tree) (place : Place) (name : String) : Except FileError Place :=
  match t.at? place with
  | none => .error .notFound
  | some (.file _) => .error .notDirectory
  | some .directory =>
    if name = "" ∨ name = "." then .ok place
    else if name = ".." then .ok place.dropLast
    else if name.utf8ByteSize > longestName then .error .nameTooLong
    else .ok (place ++ [name])

def walk (t : Tree) : Place → List String → Except FileError Place
  | place, [] => .ok place
  | place, name :: names => (t.step place name).bind fun next => walk t next names

/-- The names between the slashes of a path name, empty ones included. -/
def stepsOf (path : String) : List String := (Text.pieces '/' path.toList).map String.ofList

/-- Longer path names are refused as a whole. -/
def longestPath : Nat := 4095

/-- The place that a path name means. There may be nothing there, but there is a directory for
it. -/
def locate (t : Tree) (path : String) : Except FileError Place :=
  if path = "" then .error .notFound
  else if '\x00' ∈ path.toList then .error .nulInName
  else if path.utf8ByteSize > longestPath then .error .nameTooLong
  else t.walk (if isAbsolute path then [] else t.here) (stepsOf path)

def find? (t : Tree) (path : String) : Option Node :=
  match t.locate path with
  | .ok place => t.at? place
  | .error _ => none

def pathExists (t : Tree) (path : String) : Bool := (t.find? path).isSome

def isDirectory (t : Tree) (path : String) : Bool := t.find? path == some .directory

def isFile (t : Tree) (path : String) : Bool :=
  match t.find? path with
  | some (.file _) => true
  | _ => false

/-! ## Reading and writing -/

def read (t : Tree) (path : String) : Except FileError Content :=
  (t.locate path).bind fun place =>
    match t.at? place with
    | none => .error .notFound
    | some .directory => .error .isDirectory
    | some (.file content) => .ok content

def readText (t : Tree) (path : String) : Except FileError String :=
  (t.read path).bind fun
    | .text s => .ok s
    | .bytes _ => .error .notText

/-- The tree with a file written; a file that was there is replaced. -/
def write (t : Tree) (path : String) (content : Content) : Except FileError Tree :=
  (t.locate path).bind fun place =>
    match t.at? place with
    | some .directory => .error .isDirectory
    | _ => .ok (t.put place (.file content))

def writeText (t : Tree) (path text : String) : Except FileError Tree := t.write path (.text text)

def create (t : Tree) (path text : String) : Except FileError Tree :=
  (t.locate path).bind fun place =>
    match t.at? place with
    | some _ => .error .alreadyExists
    | none => .ok (t.put place (.file (.text text)))

def bytesOf : Content → List UInt8
  | .text s => s.toUTF8.toList
  | .bytes b => b

/-- The content of bytes, as text if they are text. -/
def contentOf (bytes : List UInt8) : Content :=
  match String.fromUTF8? ⟨bytes.toArray⟩ with
  | some s => .text s
  | none => .bytes bytes

def joinContent : Content → Content → Content
  | .text a, .text b => .text (a ++ b)
  | a, b => contentOf (bytesOf a ++ bytesOf b)

/-- The tree with more at the end of a file, which is made if it is missing. -/
def append (t : Tree) (path : String) (more : Content) : Except FileError Tree :=
  (t.locate path).bind fun place =>
    match t.at? place with
    | some .directory => .error .isDirectory
    | some (.file content) => .ok (t.put place (.file (joinContent content more)))
    | none => .ok (t.put place (.file more))

/-! ## Directories -/

/-- Steps that make the directories they miss. Those made before a step that fails stay. -/
def walkMaking (t : Tree) : Place → List String → Tree × Except FileError Unit
  | place, [] =>
    match t.at? place with
    | some .directory => (t, .ok ())
    | some (.file _) => (t, .error .alreadyExists)
    | none => (t.put place .directory, .ok ())
  | place, name :: names =>
    let made := if (t.at? place).isNone then t.put place .directory else t
    match made.step place name with
    | .ok next => walkMaking made next names
    | .error e => (made, .error e)

/-- The tree with a directory and all that lead to it. -/
def createDirectories (t : Tree) (path : String) : Tree × Except FileError Unit :=
  if path = "" then (t, .ok ())
  else if '\x00' ∈ path.toList then (t, .error .nulInName)
  else if path.utf8ByteSize > longestPath then (t, .error .nameTooLong)
  else t.walkMaking (if isAbsolute path then [] else t.here) (stepsOf path)

def list (t : Tree) (path : String) : Except FileError (List String) :=
  (t.locate path).bind fun place =>
    match t.at? place with
    | none => .error .notFound
    | some (.file _) => .error .notDirectory
    | some .directory => .ok (t.namesIn place)

end Tree

end Runbook.Files
