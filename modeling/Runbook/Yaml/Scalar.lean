import Runbook.Yaml.Spot

/-!
# YAML scalars

Three ways to write a text: plainly, between quotes, and as a block of lines. Where a text goes on
over several lines, the line ends between them are *folded*: one line end becomes a space, and of
several one is dropped (`folded`).
-/

set_option autoImplicit false

namespace Runbook.Yaml

/-- What stands for a number of line ends within a text. -/
def folded : Nat → List Char
  | 0 => []
  | 1 => [' ']
  | n + 2 => List.replicate (n + 1) '\n'

/-! ## Plain -/

/-- Does a plain scalar end before these characters? -/
def endsPlain (flow : Bool) : List Char → Bool
  | [] => true
  | c :: rest => (c == ':' && gapComes rest) || (flow && isFlowMark c)

/-- Within brackets a colon with structure right behind it says nothing. -/
def isStray (flow : Bool) : List Char → Bool
  | ':' :: c :: _ => flow && (isFlowMark c || c == '?')
  | _ => false

/-- A plain scalar's part on a line, given the blanks in front of it, and the rest. Blanks at the
end stay in the rest. -/
def plainPart? (flow : Bool) (room : List Char) : List Char → Option (List Char × List Char)
  | [] => some ([], room.reverse)
  | c :: cs =>
    if c = '\n' then some ([], room.reverse ++ c :: cs)
    else if isRoom c then plainPart? flow (c :: room) cs
    else if isStray flow (c :: cs) && !(c == '#' && !room.isEmpty) then none
    else if endsPlain flow (c :: cs) || (c == '#' && !room.isEmpty) then
      some ([], room.reverse ++ c :: cs)
    else (plainPart? flow [] cs).map fun (part, rest) => (room.reverse ++ c :: part, rest)

/-- May a plain scalar start with these characters? -/
def startsPlain (flow : Bool) : List Char → Bool
  | [] => false
  | c :: rest =>
    if isGap c then false
    else if c = '-' then !(rest.head?.any isRoom)
    else if c = '?' ∨ c = ':' then !flow && !gapComes rest
    else !(isFlowMark c || "#&*!|>'\"%@\x60".toList.contains c)

/-- The rest of a plain scalar from the end of one of its lines on. It goes on on lines that are
indented far enough. A tab that indents spoils it. -/
def plainRest (flow : Bool) (least : Nat) : Nat → Spot → Option (List Char × Spot)
  | 0, s => some ([], s)
  | fuel + 1, s =>
    let stop := some ([], s)
    if (s.rest.dropWhile isRoom).head? ≠ some '\n' then stop
    else
      let blank := s.rest.takeWhile isGap
      let breaks := blank.count '\n'
      let indent := (blank.reverse.takeWhile (· ≠ '\n')).reverse
      let next : Spot :=
        { rest := s.rest.dropWhile isGap, line := s.line + breaks, column := indent.length,
          fresh := true }
      if !flow && (indent.take least).contains '\t' then none
      -- a comment on a line of its own ends the scalar, and so does anything less indented
      else if next.atEnd || (!flow && next.column < least) || next.holds '#'
          || endsPlain flow next.rest then stop
      else
        (plainPart? flow [] next.rest).bind fun (part, rest) =>
          (plainRest flow least fuel (next.behind rest)).map fun (more, s) =>
            (folded breaks ++ part ++ more, s)

def plain? (flow : Bool) (least : Nat) (s : Spot) : Option (String × Spot) :=
  if !startsPlain flow s.rest then none
  else
    (plainPart? flow [] s.rest).bind fun (part, rest) =>
      (plainRest flow least s.rest.length (s.behind rest)).map fun (more, s) =>
        (String.ofList (part ++ more), s)

/-! ## Quoted -/

def hexValue? (c : Char) : Option Nat :=
  if c.isDigit then some (c.toNat - 48)
  else if 'a' ≤ c ∧ c ≤ 'f' then some (c.toNat - 87)
  else if 'A' ≤ c ∧ c ≤ 'F' then some (c.toNat - 55)
  else none

/-- The character with a code of some hexadecimal digits. -/
def coded? (width : Nat) (cs : List Char) : Option (Char × List Char) :=
  let digits := cs.take width
  if digits.length < width then none
  else
    (digits.foldlM (fun n c => (hexValue? c).map (n * 16 + ·)) 0).bind fun n =>
      if n.isValidChar then some (Char.ofNat n, cs.drop width) else none

def letterEscape? : Char → Option Char
  | '0' => some '\x00'
  | 'a' => some '\x07'
  | 'b' => some '\x08'
  | 't' | '\t' => some '\t'
  | 'n' => some '\n'
  | 'v' => some '\x0b'
  | 'f' => some '\x0c'
  | 'r' => some '\r'
  | 'e' => some '\x1b'
  | ' ' => some ' '
  | '"' => some '"'
  | '/' => some '/'
  | '\\' => some '\\'
  | 'N' => some '\u0085'
  | '_' => some '\u00a0'
  | 'L' => some '\u2028'
  | 'P' => some '\u2029'
  | _ => none

/-- What stands behind a backslash. -/
def escaped? : List Char → Option (Char × List Char)
  | 'x' :: cs => coded? 2 cs
  | 'u' :: cs => coded? 4 cs
  | 'U' :: cs => coded? 8 cs
  | c :: cs => (letterEscape? c).map (·, cs)
  | [] => none

/-- The rest of a quoted scalar. Blanks around line ends go, and no document ends within it. -/
def quotedRest (double : Bool) : Nat → Spot → Option (List Char × Spot)
  | 0, _ => none
  | fuel + 1, s =>
    if s.atEnd then none
    else
      match s.rest with
      | [] => none
      | c :: cs =>
        let goOn (text : List Char) (s : Spot) :=
          (quotedRest double fuel s).map fun (more, s) => (text ++ more, s)
        let lineEnd (s : Spot) (shown : Nat → List Char) :=
          let blank := s.rest.takeWhile isGap
          let breaks := blank.count '\n'
          let indent := (blank.reverse.takeWhile (· ≠ '\n')).length
          goOn (shown breaks)
            { rest := s.rest.dropWhile isGap, line := s.line + breaks, column := indent,
              fresh := true }
        if double && c == '\\' then
          if cs.head? = some '\n' then lineEnd (s.skip 1) fun n => List.replicate (n - 1) '\n'
          else (escaped? cs).bind fun (d, rest) => goOn [d] (s.behind rest)
        else if double && c == '"' then some ([], s.skip 1)
        else if !double && c == '\'' then
          if cs.head? = some '\'' then goOn ['\''] (s.skip 2) else some ([], s.skip 1)
        else if isGap c && ((c :: cs).dropWhile isRoom).head? = some '\n' then lineEnd s folded
        else goOn [c] (s.skip 1)

def quoted? (s : Spot) : Option (String × Spot) :=
  match s.rest with
  | '"' :: cs =>
    (quotedRest true (cs.length + 1) (s.skip 1)).map fun (text, s) => (String.ofList text, s)
  | '\'' :: cs =>
    (quotedRest false (cs.length + 1) (s.skip 1)).map fun (text, s) => (String.ofList text, s)
  | _ => none

/-! ## Blocks -/

/-- What becomes of the line ends behind a block. -/
inductive Chomping where
  | strip
  | clip
  | keep
deriving DecidableEq, Repr

/-- The sign that says what becomes of the line ends. -/
def chomping? : Char → Option Chomping
  | '+' => some .keep
  | '-' => some .strip
  | _ => none

/-- The figure that says how far a block is indented. -/
def width? (c : Char) : Option Nat := if '1' ≤ c ∧ c ≤ '9' then some (c.toNat - 48) else none

/-- The head of a block: what becomes of the line ends behind it, its indentation if that is said,
and the rest of the line. Sign and figure come in either order. -/
def blockHead (cs : List Char) : Chomping × Option Nat × List Char :=
  match cs with
  | [] => (.clip, none, [])
  | c :: rest =>
    match chomping? c, width? c with
    | some chomping, _ =>
      match rest.head?.bind width? with
      | some n => (chomping, some n, rest.drop 1)
      | none => (chomping, none, rest)
    | none, some n =>
      match rest.head?.bind chomping? with
      | some chomping => (chomping, some n, rest.drop 1)
      | none => (.clip, some n, rest)
    | none, none => (.clip, none, cs)

/-- Is there nothing on the rest of a line but room and perhaps a comment? -/
def lineIsDone (line : List Char) : Bool :=
  match line.dropWhile isRoom with
  | [] => true
  | '#' :: _ => true
  | _ => false

/-- The lines of a block with that many columns cut off, and what comes behind it. A line that is
indented less and holds more than spaces ends the block. -/
def blockLines (width : Nat) : Nat → Spot → List (List Char) × Spot
  | 0, s => ([], s)
  | fuel + 1, s =>
    if s.atEnd then ([], s)
    else
      let line := s.rest.takeWhile (· ≠ '\n')
      let spaces := (line.takeWhile (· == ' ')).length
      let next := (s.skip line.length).newline
      if line.length = spaces ∧ spaces ≤ width then
        let (lines, s) := blockLines width fuel next
        ([] :: lines, s)
      else if spaces < width then ([], s)
      else
        let (lines, s) := blockLines width fuel next
        (line.drop width :: lines, s)

/-- The indentation of the first line that holds more than spaces, or of the longest one before. -/
def blockWidth (lines : List (List Char)) : Nat :=
  let spaces (line : List Char) := (line.takeWhile (· == ' ')).length
  match lines.dropWhile fun line => line.length == spaces line with
  | line :: _ => spaces line
  | [] => 0

/-- The text of the lines of a block, each behind the line ends before it. In a folded block a line
end between two lines that both start without a blank becomes a space. -/
def joinBlock (isFolded : Bool) : (before : Option (List Char)) → (breaks : Nat) →
    List (List Char) → List Char × Nat
  | _, breaks, [] => ([], breaks)
  | before, breaks, line :: lines =>
    if line = [] then joinBlock isFolded before (breaks + 1) lines
    else
      let glue :=
        match before with
        | none => List.replicate breaks '\n'
        | some previous =>
          let starts (l : List Char) := l.head?.any isRoom
          if isFolded && !starts previous && !starts line then folded breaks
          else List.replicate breaks '\n'
      let (more, ends) := joinBlock isFolded (some line) 1 lines
      (glue ++ line ++ more, ends)

/-- A block scalar of lines that are indented far enough. Does it keep its line ends? -/
def block? (least : Nat) (s : Spot) : Option (String × Bool × Spot) :=
  match s.rest with
  | [] => none
  | c :: cs =>
    if c ≠ '|' ∧ c ≠ '>' then none
    else
      let (chomping, said, rest) := blockHead cs
      let line := rest.takeWhile (· ≠ '\n')
      if !lineIsDone line || (line.head?.any fun c => !isRoom c) then none
      else
        let start := ((s.behind rest).skip line.length).newline
        let all := (start.rest.splitBy fun a _ => a != '\n').map (·.filter (· ≠ '\n'))
        let width := match said with
          | some n => (least - 1) + n
          | none => max (max (blockWidth all) least) 1
        let (lines, after) := blockLines width s.rest.length start
        let (text, ends) := joinBlock (c == '>') none 0 lines
        let cut := after.rest.isEmpty && s.rest.getLast? != some '\n'
        let ends := if cut then ends - 1 else ends
        let tail := match chomping with
          | .strip => []
          | .clip => if text = [] ∨ ends = 0 then [] else ['\n']
          | .keep => List.replicate ends '\n'
        some (String.ofList (text ++ tail), c == '|', after)

end Runbook.Yaml
