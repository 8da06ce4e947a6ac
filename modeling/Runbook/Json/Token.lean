import Runbook.Json.Text

/-!
# Tokens of JSON

A text is read one character at a time by a machine that is between tokens, inside a word or inside
quotes (`Lexing`). A word is a number or one of three names; everything that is neither has no
tokens. Only the four JSON blanks may stand between tokens.
-/

set_option autoImplicit false

namespace Runbook.Json

inductive Token where
  /-- A bracket, a brace, a comma or a colon. -/
  | mark (c : Char)
  | null
  | bool (b : Bool)
  | number (digits : List Char)
  | text (pieces : List Piece)
deriving DecidableEq, Repr

/-! ## Words -/

/-- One digit or more at the start, and the rest. -/
def dropDigits? (cs : List Char) : Option (List Char) :=
  match cs with
  | c :: rest => if c.isDigit then some (rest.dropWhile Char.isDigit) else none
  | [] => none

/-- The rest behind the integral part of a number. A zero stands alone. -/
def dropIntegral? : List Char → Option (List Char)
  | '0' :: rest => some rest
  | cs => dropDigits? cs

/-- The rest behind the places after the point, if there is a point. -/
def dropFraction? : List Char → Option (List Char)
  | '.' :: rest => dropDigits? rest
  | cs => some cs

/-- The rest behind the exponent, if there is one. -/
def dropExponent? : List Char → Option (List Char)
  | c :: rest =>
    if c = 'e' ∨ c = 'E' then
      match rest with
      | '+' :: rest | '-' :: rest => dropDigits? rest
      | rest => dropDigits? rest
    else some (c :: rest)
  | [] => some []

/-- Is the word a number? -/
def isNumber (word : List Char) : Bool :=
  let unsigned := match word with
    | '-' :: rest => rest
    | cs => cs
  (((dropIntegral? unsigned).bind dropFraction?).bind dropExponent?) == some []

/-- The characters that words are made of. -/
def isWordPart (c : Char) : Bool := c.isAlphanum || c == '+' || c == '-' || c == '.'

/-- The token that a word is. -/
def wordToken? (word : List Char) : Option Token :=
  if word = "null".toList then some .null
  else if word = "true".toList then some (.bool true)
  else if word = "false".toList then some (.bool false)
  else if isNumber word then some (.number word)
  else none

/-! ## The machine -/

/-- Where the machine is. What has been read is kept with the last character first. -/
inductive Lexing where
  | between
  | word (read : List Char)
  | quoted (read : List Piece)
  /-- Behind a backslash. -/
  | escaped (read : List Piece)
  /-- Behind a backslash and a `u`, with the value of some hexadecimal digits. -/
  | unit (read : List Piece) (digits value : Nat)
deriving DecidableEq, Repr

def isSpace (c : Char) : Bool := c == ' ' || c == '\t' || c == '\n' || c == '\r'

/-- A character that is a token by itself. -/
def isMark (c : Char) : Bool :=
  c == '[' || c == ']' || c == '\x7b' || c == '\x7d' || c == ',' || c == ':'

namespace Lexing

/-- A character between tokens. -/
def start? (c : Char) : Option (List Token × Lexing) :=
  if isSpace c then some ([], .between)
  else if isMark c then some ([.mark c], .between)
  else if c = '"' then some ([], .quoted [])
  else if isWordPart c then some ([], .word [c])
  else none

/-- The tokens that a character completes, and where the machine is behind it. -/
def next? : Lexing → Char → Option (List Token × Lexing)
  | .between, c => start? c
  | .word read, c =>
    if isWordPart c then some ([], .word (c :: read))
    else (wordToken? read.reverse).bind fun t =>
      (start? c).map fun (tokens, state) => (t :: tokens, state)
  | .quoted read, c =>
    if c = '"' then some ([.text read.reverse], .between)
    else if c = '\\' then some ([], .escaped read)
    else if c.toNat < 0x20 then none
    else some ([], .quoted (.char c :: read))
  | .escaped read, c =>
    match simpleEscape? c with
    | some d => some ([], .quoted (.char d :: read))
    | none => if c = 'u' then some ([], .unit read 0 0) else none
  | .unit read digits value, c =>
    (hexDigit? c).map fun d =>
      if digits = 3 then ([], .quoted (.unit (value * 16 + d) :: read))
      else ([], .unit read (digits + 1) (value * 16 + d))

/-- The last token at the end of a text. -/
def finish? : Lexing → Option (List Token)
  | .between => some []
  | .word read => (wordToken? read.reverse).map ([·])
  | _ => none

end Lexing

/-- The tokens of the rest of a text, behind those found already, which stand in reverse order. -/
def tokensFrom? (found : List Token) (state : Lexing) : List Char → Option (List Token)
  | [] => state.finish?.map (found.reverse ++ ·)
  | c :: cs =>
    match state.next? c with
    | none => none
    | some (tokens, state) => tokensFrom? (tokens.reverse ++ found) state cs

def tokens? (cs : List Char) : Option (List Token) := tokensFrom? [] .between cs

end Runbook.Json
