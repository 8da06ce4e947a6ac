import Runbook.Shell.Token

/-!
# Reading scripts

Tokens become scripts. A line of a script is read as a whole before any of it is done, and what
has been read before a fault is done all the same; so reading gives the commands before the first
fault, and the fault (`parse`).

The functions are given as much fuel as there are tokens, and every one of them takes a token
before it asks for another command.
-/

set_option autoImplicit false

namespace Runbook.Shell

/-- A fault and its line. -/
abbrev Misread := Nat × Fault

namespace Reader

/-- Words that mean something where a command could begin. -/
def keywords : List String :=
  ["if", "then", "else", "elif", "fi", "for", "in", "while", "until", "do", "done", "\x7b", "\x7d",
   "!", "case", "esac"]

/-- Words that end a block. -/
def closers : List String := ["then", "else", "elif", "fi", "do", "done", "\x7d", "esac"]

def keyword? : Token → Option String
  | .word w => w.bare?.filter keywords.contains
  | _ => none

def atKeyword (word : String) : List Placed → Bool
  | t :: _ => keyword? t.token == some word
  | [] => false

/-- The fault of finding what comes next. -/
def unexpected (expected : Option String) : List Placed → Misread
  | [] => (1, .unexpected "end of file" expected)
  | ⟨line, token⟩ :: _ =>
    match token with
    | .finish (some fault) => (line, fault)
    | .finish none => (line, .unexpected "end of file" expected)
    | .operator o => (line, .unexpected o.shown expected)
    | .word _ =>
      match keyword? token with
      | some word => (line, .unexpected ("\"" ++ word ++ "\"") expected)
      | none => (line, .unexpected "word" expected)

/-- The tokens behind a keyword that has to come. -/
def expect (word : String) (ts : List Placed) : Except Misread (List Placed) :=
  if atKeyword word ts then .ok ts.tail
  else .error (unexpected (some ("\"" ++ word ++ "\"")) ts)

/-- The tokens behind line ends. -/
def skipLines : List Placed → List Placed
  | ⟨_, .operator .lineEnd⟩ :: ts => skipLines ts
  | ts => ts

/-- Does the next token end a block? -/
def atEnd : List Placed → Bool
  | [] => true
  | ⟨_, .finish _⟩ :: _ => true
  | ⟨_, .operator .closing⟩ :: _ | ⟨_, .operator .doubleSemicolon⟩ :: _ => true
  | t :: _ => (keyword? t.token).any closers.contains

/-- The variable that a word sets, and its value. -/
def setting? : Word → Option (String × Word)
  | .bare text :: pieces =>
    let cs := text.toList
    let name := cs.takeWhile (· ≠ '=')
    match cs.dropWhile (· ≠ '=') with
    | '=' :: value =>
      if isName name then
        let first := if value.isEmpty then [] else [Piece.bare (String.ofList value)]
        some (String.ofList name, first ++ pieces)
      else none
    | _ => none
  | _ => none

/-! ## Commands without others in them -/

/-- What a command is made of. -/
structure Parts where
  settings : List (String × Word) := []
  words : List Word := []
  redirects : List Redirect := []

/-- The words and redirections that come next. -/
def parts (acc : Parts) : List Placed → Except Misread (Parts × List Placed)
  | ⟨_, .operator (.redirect direction number)⟩ :: ts =>
    match ts with
    | ⟨_, .word target⟩ :: ts =>
      parts { acc with redirects := acc.redirects ++ [⟨direction, number, target⟩] } ts
    | ts => .error (unexpected none ts)
  | ⟨line, .word w⟩ :: ts =>
    match if acc.words.isEmpty then setting? w else none with
    | some s => parts { acc with settings := acc.settings ++ [s] } ts
    | none =>
      if acc.words.isEmpty && acc.settings.isEmpty && acc.redirects.isEmpty
          && (keyword? (.word w)).isSome then
        .error (unexpected none (⟨line, .word w⟩ :: ts))
      else parts { acc with words := acc.words ++ [w] } ts
  | ts => .ok (acc, ts)

/-- Redirections only. -/
def redirects : List Placed → Except Misread (List Redirect × List Placed)
  | ⟨_, .operator (.redirect direction number)⟩ :: ts =>
    match ts with
    | ⟨_, .word target⟩ :: ts =>
      (redirects ts).map fun (rs, ts) => (⟨direction, number, target⟩ :: rs, ts)
    | ts => .error (unexpected none ts)
  | ts => .ok ([], ts)

/-- The words up to the end of a list. -/
def wordsUpToEnd : List Placed → List Word × List Placed
  | ⟨_, .word w⟩ :: ts =>
    let (ws, ts) := wordsUpToEnd ts
    (w :: ws, ts)
  | ts => ([], ts)

/-- A script with redirections around it, if there are any. -/
def around (line : Nat) (rs : List Redirect) (body : Script) : Script :=
  if rs.isEmpty then body else .redirected line rs body

def lineOf : List Placed → Nat
  | t :: _ => t.line
  | [] => 1

/-- A command of words. -/
def plain (ts : List Placed) : Except Misread (Script × List Placed) := do
  let line := lineOf ts
  let (p, rest) ← parts {} ts
  if p.settings.isEmpty && p.words.isEmpty && p.redirects.isEmpty then
    throw (unexpected none ts)
  return (around line p.redirects (.command line p.settings p.words), rest)

/-- The words that a loop goes through: those behind `in`, or the arguments of the shell. -/
def loopWords (ts : List Placed) : Except Misread (List Word × List Placed) :=
  if atKeyword "in" (skipLines ts) then
    let (ws, ts) := wordsUpToEnd (skipLines ts).tail
    match ts with
    | ⟨_, .operator .semicolon⟩ :: ts | ⟨_, .operator .lineEnd⟩ :: ts => .ok (ws, ts)
    | ts => .error (unexpected none ts)
  else
    let ts := match ts with
      | ⟨_, .operator .semicolon⟩ :: ts => ts
      | ts => ts
    .ok ([[.value "@" none true]], ts)

/-! ## Commands with others in them -/

mutual

def command : Nat → List Placed → Except Misread (Script × List Placed)
  | 0, ts => .error (unexpected none ts)
  | fuel + 1, ts => do
    let line := lineOf ts
    let compound : Option (Except Misread (Script × List Placed)) :=
      match ts with
      | ⟨_, .operator .opening⟩ :: ts => some do
        let (body, ts) ← block fuel ts
        match ts with
        | ⟨_, .operator .closing⟩ :: ts => .ok (.apart body, ts)
        | ts => .error (unexpected (some "\")\"") ts)
      | t :: ts =>
        match keyword? t.token with
        | some "\x7b" => some do
          let (body, ts) ← block fuel ts
          let ts ← expect "\x7d" ts
          .ok (body, ts)
        | some "if" => some (branches fuel ts)
        | some "while" => some (looping fuel false ts)
        | some "until" => some (looping fuel true ts)
        | some "for" => some do
          match ts with
          | ⟨line, .word w⟩ :: ts =>
            match w.bare?.filter fun name => isName name.toList with
            | none => .error (line, .badLoopVariable)
            | some name =>
              let (ws, ts) ← loopWords ts
              let ts ← expect "do" (skipLines ts)
              let (body, ts) ← block fuel ts
              let ts ← expect "done" ts
              .ok (.forEach name ws body, ts)
          | ts => .error (lineOf ts, .badLoopVariable)
        | _ => none
      | [] => none
    match compound with
    | none => plain ts
    | some result =>
      let (body, ts) ← result
      let (rs, ts) ← redirects ts
      .ok (around line rs body, ts)

def pipeline : Nat → List Placed → Except Misread (Script × List Placed)
  | 0, ts => .error (unexpected none ts)
  | fuel + 1, ts => do
    if atKeyword "!" ts then
      let (body, ts) ← pipeline fuel ts.tail
      .ok (.negation body, ts)
    else
      let (first, ts) ← command fuel ts
      match ts with
      | ⟨_, .operator .bar⟩ :: ts =>
        let (second, ts) ← pipeline fuel (skipLines ts)
        .ok (.pipe first second, ts)
      | ts => .ok (first, ts)

/-- What follows a script on the way to its end: more that depends on how it comes out. -/
def conditions : Nat → Script → List Placed → Except Misread (Script × List Placed)
  | 0, _, ts => .error (unexpected none ts)
  | fuel + 1, first, ts =>
    match ts with
    | ⟨_, .operator .andThen⟩ :: ts => do
      let (second, ts) ← pipeline fuel (skipLines ts)
      conditions fuel (.both first second) ts
    | ⟨_, .operator .orElse⟩ :: ts => do
      let (second, ts) ← pipeline fuel (skipLines ts)
      conditions fuel (.either first second) ts
    | ts => .ok (first, ts)

/-- One command after the other. Only in a block may they stand on several lines. -/
def commands : Nat → (inBlock : Bool) → List Placed → Except Misread (Script × List Placed)
  | 0, _, ts => .error (unexpected none ts)
  | fuel + 1, inBlock, ts => do
    let (first, ts) ← pipeline fuel ts
    let (first, ts) ← conditions fuel first ts
    let goOn (first : Script) (ts : List Placed) : Except Misread (Script × List Placed) :=
      let next := if inBlock then skipLines ts else ts
      let isOver := match next with
        | ⟨_, .operator .lineEnd⟩ :: _ => true
        | next => atEnd next
      if isOver then .ok (first, next)
      else (commands fuel inBlock next).map fun (second, ts) => (.sequence first second, ts)
    match ts with
    | ⟨_, .operator .semicolon⟩ :: ts => goOn first ts
    | ⟨_, .operator .ampersand⟩ :: ts => goOn (.aside first) ts
    | ⟨_, .operator .lineEnd⟩ :: rest =>
      if inBlock then goOn first rest else .ok (first, ts)
    | ts => .ok (first, ts)

/-- The commands up to something that ends a block. There is at least one. -/
def block : Nat → List Placed → Except Misread (Script × List Placed)
  | 0, ts => .error (unexpected none ts)
  | fuel + 1, ts => commands fuel true (skipLines ts)

/-- What follows `if` or `elif`. -/
def branches : Nat → List Placed → Except Misread (Script × List Placed)
  | 0, ts => .error (unexpected none ts)
  | fuel + 1, ts => do
    let (condition, ts) ← block fuel ts
    let ts ← expect "then" ts
    let (yes, ts) ← block fuel ts
    if atKeyword "elif" ts then
      let (no, ts) ← branches fuel ts.tail
      .ok (.choice condition yes no, ts)
    else if atKeyword "else" ts then
      let (no, ts) ← block fuel ts.tail
      let ts ← expect "fi" ts
      .ok (.choice condition yes no, ts)
    else
      let ts ← expect "fi" ts
      .ok (.choice condition yes .nothing, ts)

/-- What follows `while` or `until`. -/
def looping : Nat → (untilSo : Bool) → List Placed → Except Misread (Script × List Placed)
  | 0, _, ts => .error (unexpected none ts)
  | fuel + 1, untilSo, ts => do
    let (condition, ts) ← block fuel ts
    let ts ← expect "do" ts
    let (body, ts) ← block fuel ts
    let ts ← expect "done" ts
    .ok (.loop untilSo condition body, ts)

end

/-- The lines of a script up to the first fault. -/
def lines : Nat → List Placed → List Script × Option Misread
  | 0, _ => ([], none)
  | fuel + 1, ts =>
    match skipLines ts with
    | [] | ⟨_, .finish none⟩ :: _ => ([], none)
    | ts =>
      match commands (8 * ts.length + 8) false ts with
      | .error e => ([], some e)
      | .ok (script, rest) =>
        match rest with
        | ⟨_, .operator .lineEnd⟩ :: _ | ⟨_, .finish none⟩ :: _ | [] =>
          let (scripts, fault) := lines fuel rest
          (script :: scripts, fault)
        | rest => ([], some (unexpected none rest))

end Reader

/-- The commands of a script, line by line, and the fault that stops reading if there is one. -/
def parse (text : String) : List Script × Option Misread :=
  let ts := tokens text
  Reader.lines (ts.length + 1) ts

end Runbook.Shell
