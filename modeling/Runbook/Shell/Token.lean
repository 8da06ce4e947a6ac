import Runbook.Shell.Script
import Runbook.Text.Split

/-!
# Tokens of a script

A script is read as words and operators. Quotes, variables and commands inside of commands belong to
words; a `#` where a word could start begins a comment. Every token knows the line it stands on.

The reading functions give back what they have not read. They are given enough fuel for every
character of the script, and the last one that could be missing is never asked for.
-/

set_option autoImplicit false

namespace Runbook.Shell

/-- Signs that are not part of words. -/
inductive Operator where
  | lineEnd
  | semicolon
  | doubleSemicolon
  | ampersand
  | andThen
  | orElse
  | bar
  | opening
  | closing
  | redirect (direction : Direction) (number : Nat)
deriving DecidableEq, Repr

def Operator.shown : Operator → String
  | .lineEnd => "newline"
  | .semicolon => "\";\""
  | .doubleSemicolon => "\";;\""
  | .ampersand => "\"&\""
  | .andThen => "\"&&\""
  | .orElse => "\"||\""
  | .bar => "\"|\""
  | .opening => "\"(\""
  | .closing => "\")\""
  | .redirect _ _ => "redirection"

/-- Why a script cannot be read. -/
inductive Fault where
  | unterminatedQuote
  | openBackquote
  | badSubstitution
  /-- What was found, and what was expected if only one thing was. -/
  | unexpected (found : String) (expected : Option String)
  | badLoopVariable
  | openSum
deriving DecidableEq, Repr

def Fault.message : Fault → String
  | .unterminatedQuote => "Syntax error: Unterminated quoted string"
  | .openBackquote => "Syntax error: EOF in backquote substitution"
  | .badSubstitution => "Bad substitution"
  | .unexpected found none => "Syntax error: " ++ found ++ " unexpected"
  | .unexpected found (some expected) =>
    "Syntax error: " ++ found ++ " unexpected (expecting " ++ expected ++ ")"
  | .badLoopVariable => "Syntax error: Bad for loop variable"
  | .openSum => "Syntax error: Missing '))'"

inductive Token where
  | word (w : Word)
  | operator (o : Operator)
  /-- The end of what can be read, and why there is no more if the script goes on. -/
  | finish (fault : Option Fault)
deriving DecidableEq, Repr

structure Placed where
  line : Nat
  token : Token
deriving DecidableEq, Repr

/-! ## Characters -/

def isNameChar (c : Char) : Bool := c.isAlphanum || c == '_'

def isName : List Char → Bool
  | [] => false
  | c :: cs => (c.isAlpha || c == '_') && cs.all isNameChar

/-- The signs with a value of their own after a dollar sign. -/
def isSpecial (c : Char) : Bool := c.isDigit || "?$#@*!-".toList.contains c

/-- A character that ends a word. -/
def endsWord (c : Char) : Bool := " \t\n;&|()<>".toList.contains c

/-- A character that means something inside a word. -/
def isActive (c : Char) : Bool := "\\'\"$\x60".toList.contains c

/-! ## Inside of words -/

/-- What stands before the parenthesis that closes the one that is open, and what follows.
Parentheses between quotes do not count. -/
def upToClosing : Nat → Option Char → List Char → Option (List Char × List Char)
  | _, _, [] => none
  | depth, quote, c :: cs =>
    let next (depth : Nat) (quote : Option Char) :=
      (upToClosing depth quote cs).map fun (inside, rest) => (c :: inside, rest)
    match quote with
    | some q => next depth (if c = q then none else some q)
    | none =>
      if c = '\'' || c = '"' then next depth (some c)
      else if c = '(' then next (depth + 1) none
      else if c = ')' then
        match depth with
        | 0 => some ([], cs)
        | depth + 1 => next depth none
      else next depth none

/-- What stands before a backquote, with backslashes taken away from what they protect. -/
def upToBackquote : List Char → Option (List Char × List Char)
  | [] => none
  | '\x60' :: cs => some ([], cs)
  | '\\' :: c :: cs =>
    (upToBackquote cs).map fun (inside, rest) =>
      if c = '\x60' || c = '\\' || c = '$' then (c :: inside, rest) else ('\\' :: c :: inside, rest)
  | c :: cs => (upToBackquote cs).map fun (inside, rest) => (c :: inside, rest)

/-- What a dollar sign begins, given what follows it. -/
def dollar (inQuotes : Bool) (cs : List Char) : Except Fault (Piece × List Char) :=
  let plain := if inQuotes then Piece.quoted "$" else .bare "$"
  match cs with
  | '(' :: cs =>
    match upToClosing 0 none cs with
    -- two parentheses hold a sum, and what closes them must be two as well
    | some ('(' :: sum, rest) =>
      if sum.getLast? = some ')' then .ok (.sum (String.ofList sum.dropLast) inQuotes, rest)
      else .error .openSum
    | some (script, rest) => .ok (.output (String.ofList script) inQuotes, rest)
    | none =>
      .error (if cs.head? = some '(' then .openSum
        else .unexpected "end of file" (some "\")\""))
  | '{' :: cs =>
    match cs.dropWhile (· ≠ '}') with
    | [] => .error (.unexpected "end of file" (some "\"\x7d\""))
    | _ :: rest =>
      let inside := cs.takeWhile (· ≠ '}')
      let name := match inside with
        | c :: _ => if isNameChar c then inside.takeWhile isNameChar else [c]
        | [] => []
      let standing := inside.drop name.length
      let name := String.ofList name
      match standing with
      | [] =>
        if name = "" then .error .badSubstitution else .ok (.value name none inQuotes, rest)
      | ':' :: '-' :: text | '-' :: text =>
        .ok (.value name (some (String.ofList text)) inQuotes, rest)
      | _ => .error .badSubstitution
  | c :: rest =>
    if c.isAlpha || c == '_' then
      .ok (.value (String.ofList ((c :: rest).takeWhile isNameChar)) none inQuotes,
        rest.dropWhile isNameChar)
    else if isSpecial c then .ok (.value (String.singleton c) none inQuotes, rest)
    else .ok (plain, c :: rest)
  | [] => .ok (plain, [])

/-- The pieces up to a double quote, and what follows it. -/
def inDoubleQuotes : Nat → List Char → Except Fault (List Piece × List Char)
  | 0, _ => .error .unterminatedQuote
  | fuel + 1, cs =>
    let andThen (piece : Piece) (rest : List Char) : Except Fault (List Piece × List Char) :=
      (inDoubleQuotes fuel rest).map fun (pieces, rest) => (piece :: pieces, rest)
    match cs with
    | [] => .error .unterminatedQuote
    | '"' :: rest => .ok ([], rest)
    | '\\' :: '\n' :: rest => inDoubleQuotes fuel rest
    | '\\' :: c :: rest =>
      andThen (.quoted (if "$\x60\"\\".toList.contains c then String.singleton c
        else String.ofList ['\\', c])) rest
    | '$' :: rest =>
      match dollar true rest with
      | .ok (piece, rest) => andThen piece rest
      | .error e => .error e
    | '\x60' :: rest =>
      match upToBackquote rest with
      | some (script, rest) => andThen (.output (String.ofList script) true) rest
      | none => .error .openBackquote
    | c :: rest =>
      let stays (c : Char) : Bool := !"\"\\$\x60".toList.contains c
      andThen (.quoted (String.ofList (c :: rest.takeWhile stays))) (rest.dropWhile stays)

/-- The pieces of a word, and what follows it. -/
def wordPieces : Nat → List Char → Except Fault (List Piece × List Char)
  | 0, cs => .ok ([], cs)
  | fuel + 1, cs =>
    let andThen (pieces : List Piece) (rest : List Char) : Except Fault (List Piece × List Char) :=
      (wordPieces fuel rest).map fun (more, rest) => (pieces ++ more, rest)
    match cs with
    | [] => .ok ([], [])
    | '\\' :: '\n' :: rest => wordPieces fuel rest
    | '\\' :: c :: rest => andThen [.quoted (String.singleton c)] rest
    | '\\' :: [] => .ok ([.quoted "\\"], [])
    | '\'' :: rest =>
      match Text.firstPiece '\'' rest with
      | (inside, some rest) => andThen [.quoted (String.ofList inside)] rest
      | (_, none) => .error .unterminatedQuote
    | '"' :: rest =>
      match inDoubleQuotes (rest.length + 1) rest with
      | .ok ([], rest) => andThen [.quoted ""] rest
      | .ok (pieces, rest) => andThen pieces rest
      | .error e => .error e
    | '$' :: rest =>
      match dollar false rest with
      | .ok (piece, rest) => andThen [piece] rest
      | .error e => .error e
    | '\x60' :: rest =>
      match upToBackquote rest with
      | some (script, rest) => andThen [.output (String.ofList script) false] rest
      | none => .error .openBackquote
    | c :: rest =>
      if endsWord c then .ok ([], c :: rest)
      else
        let stays (c : Char) : Bool := !endsWord c && !isActive c
        andThen [.bare (String.ofList (c :: rest.takeWhile stays))] (rest.dropWhile stays)

/-! ## Operators -/

/-- A redirection at the front, for an input or output that is given or the usual one. -/
def redirect? (given : Option Nat) : List Char → Option (Operator × List Char)
  | '<' :: '&' :: cs => some (.redirect .duplicate (given.getD 0), cs)
  | '<' :: cs => some (.redirect .input (given.getD 0), cs)
  | '>' :: '>' :: cs => some (.redirect .append (given.getD 1), cs)
  | '>' :: '&' :: cs => some (.redirect .duplicate (given.getD 1), cs)
  | '>' :: '|' :: cs => some (.redirect .output (given.getD 1), cs)
  | '>' :: cs => some (.redirect .output (given.getD 1), cs)
  | _ => none

/-- An operator at the front. A digit may stand before a redirection. -/
def operator? : List Char → Option (Operator × List Char)
  | '\n' :: cs => some (.lineEnd, cs)
  | ';' :: ';' :: cs => some (.doubleSemicolon, cs)
  | ';' :: cs => some (.semicolon, cs)
  | '&' :: '&' :: cs => some (.andThen, cs)
  | '&' :: cs => some (.ampersand, cs)
  | '|' :: '|' :: cs => some (.orElse, cs)
  | '|' :: cs => some (.bar, cs)
  | '(' :: cs => some (.opening, cs)
  | ')' :: cs => some (.closing, cs)
  | c :: cs =>
    if c.isDigit then redirect? (some (c.toNat - '0'.toNat)) cs else redirect? none (c :: cs)
  | [] => none

/-! ## Scripts -/

/-- The line ends in what has been read of a text. -/
def lineEndsRead (before after : List Char) : Nat :=
  (before.take (before.length - after.length)).count '\n'

/-- The tokens of a text that starts on some line. The last one is a finish. -/
def tokensFrom : Nat → Nat → List Char → List Placed
  | 0, line, _ => [⟨line, .finish none⟩]
  | fuel + 1, line, cs =>
    let placed (token : Token) (rest : List Char) : List Placed :=
      ⟨line, token⟩ :: tokensFrom fuel (line + lineEndsRead cs rest) rest
    match cs with
    | [] => [⟨line, .finish none⟩]
    | ' ' :: rest | '\t' :: rest => tokensFrom fuel line rest
    | '\\' :: '\n' :: rest => tokensFrom fuel (line + 1) rest
    | '#' :: rest => tokensFrom fuel line (rest.dropWhile (· ≠ '\n'))
    | cs =>
      match operator? cs with
      | some (o, rest) => placed (.operator o) rest
      | none =>
        match wordPieces (cs.length + 1) cs with
        | .ok (w, rest) => placed (.word w) rest
        | .error e => [⟨line + cs.count '\n', .finish (some e)⟩]

def tokens (text : String) : List Placed :=
  let cs := text.toList
  tokensFrom (cs.length + 1) 1 cs

end Runbook.Shell
