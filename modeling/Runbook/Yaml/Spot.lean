/-!
# Places in a YAML text

Layout is meaning in YAML, so a place in a text knows its line and column, and whether anything
stands before it on its line.
-/

set_option autoImplicit false

namespace Runbook.Yaml

/-- A place in a text, with what is left to read there. -/
structure Spot where
  rest : List Char
  line : Nat := 0
  column : Nat := 0
  /-- Only spaces stand before it on its line. -/
  fresh : Bool := true
deriving Repr, Inhabited

def isRoom (c : Char) : Bool := c == ' ' || c == '\t'

def isGap (c : Char) : Bool := isRoom c || c == '\n'

/-- Nothing comes, or a space, a tab or the end of a line. -/
def gapComes (cs : List Char) : Bool := cs.head?.all isGap

/-- The characters that stand for structure between brackets. -/
def isFlowMark (c : Char) : Bool :=
  c == ',' || c == '[' || c == ']' || c == '\x7b' || c == '\x7d'

namespace Spot

def skip (s : Spot) (n : Nat) : Spot :=
  { s with rest := s.rest.drop n, column := s.column + n, fresh := s.fresh && n == 0 }

/-- Behind some of the text on the same line. -/
def behind (s : Spot) (rest : List Char) : Spot := s.skip (s.rest.length - rest.length)

def newline (s : Spot) : Spot :=
  { rest := s.rest.drop 1, line := s.line + 1, column := 0, fresh := true }

def pastRoom (s : Spot) : Spot := s.behind (s.rest.dropWhile isRoom)

/-- Does the document end here? -/
def atMarker (s : Spot) : Bool :=
  s.column == 0 &&
    (['-', '-', '-'].isPrefixOf s.rest || ['.', '.', '.'].isPrefixOf s.rest) &&
    gapComes (s.rest.drop 3)

def atEnd (s : Spot) : Bool := s.rest.isEmpty || s.atMarker

/-- The next thing to read, behind blanks, line ends and comments. In block layout a tab must not
indent, so there tabs are passed over only where no key can start. -/
def aheadFrom (flow : Bool) :
    List Char → (line column : Nat) → (fresh keyMayCome comment : Bool) → Spot
  | [], line, column, fresh, _, _ => { rest := [], line, column, fresh }
  | c :: cs, line, column, fresh, keyMayCome, comment =>
    if c = '\n' then aheadFrom flow cs (line + 1) 0 true true false
    else if comment then aheadFrom flow cs line (column + 1) fresh keyMayCome true
    else if c = ' ' then aheadFrom flow cs line (column + 1) fresh keyMayCome false
    else if c = '\t' ∧ (flow ∨ keyMayCome = false) then
      aheadFrom flow cs line (column + 1) fresh keyMayCome false
    else if c = '#' then aheadFrom flow cs line (column + 1) fresh keyMayCome true
    else { rest := c :: cs, line, column, fresh }

def ahead (flow keyMayCome : Bool) (s : Spot) : Spot :=
  aheadFrom flow s.rest s.line s.column s.fresh keyMayCome false

/-- Is a character here that has a gap behind it? -/
def marks (s : Spot) (c : Char) : Bool :=
  match s.rest with
  | d :: rest => c == d && gapComes rest
  | [] => false

def holds (s : Spot) (c : Char) : Bool := s.rest.head? == some c

end Spot

end Runbook.Yaml
