import Runbook.Text.Case
import Runbook.Text.Split

/-!
# The outline of a Markdown document

A document is read line by line. A line is a *fence* when its first non-blank characters are three
backticks; fences come in pairs, and what stands between the two of a pair is *verbatim*. Only a
line outside of all pairs can be a *heading*. Everything that reads plans works on this outline
(`Outline.ofText`) and never looks at a fence itself.

## 1. Two ways to cut

A *section* (`Outline.sectionTitled?`) is what stands under the first heading of a title, up to the
next heading that ends it. A *block* (`blocks`) is a heading with the rows up to the next heading
of any level. Both are cut out of the list of lines, so a line keeps its number in every part.
-/

set_option autoImplicit false

namespace Runbook.Markdown

open Text

/-! ## Lines -/

/-- What a line is for the document's structure. A line is one of these by what stands before it: the
same text is a heading outside of fences and verbatim inside. -/
inductive LineKind where
  /-- It opens or closes a pair of fences. -/
  | fence
  /-- It stands between the two fences of a pair. -/
  | verbatim
  | heading (level : Nat) (title : List Char)
  | prose
deriving DecidableEq, Repr

/-- A line with its place in the document, counted from zero. -/
structure Line where
  number : Nat
  text : List Char
  kind : LineKind
deriving DecidableEq, Repr

structure Heading where
  level : Nat
  title : List Char
  line : Nat
deriving DecidableEq, Repr

def fenceMarker : List Char := ['\x60', '\x60', '\x60']

/-- Are the first characters after the blanks a fence marker? What stands behind it does not matter, and
neither does whether a fence is open. -/
def isFence (line : List Char) : Bool := fenceMarker.isPrefixOf (trimStart line)

/-- The level and the title of a heading: one to six number signs, a blank, and something to be called.
There is no blank in front, as a heading begins its line. -/
def parseHeading? (line : List Char) : Option (Nat × List Char) :=
  let level := (line.takeWhile (· == '#')).length
  let rest := line.dropWhile (· == '#')
  if 1 ≤ level ∧ level ≤ 6 ∧ rest.head?.all isBlank ∧ trim rest ≠ [] then some (level, trim rest)
  else none

namespace Line

def isFenced (l : Line) : Bool := l.kind == .fence || l.kind == .verbatim

def heading? (l : Line) : Option Heading :=
  match l.kind with
  | .heading level title => some ⟨level, title, l.number⟩
  | _ => none

end Line

/-- The kind of a line outside of all fences that is no fence itself. -/
def kindOutside (text : List Char) : LineKind :=
  match parseHeading? text with
  | some (level, title) => .heading level title
  | none => .prose

/-- Lines from a number on, read with or without an open fence before them. Nothing but that is kept in
mind from one line to the next. -/
def scan : Bool → Nat → List (List Char) → List Line
  | _, _, [] => []
  | inside, number, text :: rest =>
    if isFence text then ⟨number, text, .fence⟩ :: scan (!inside) (number + 1) rest
    else if inside then ⟨number, text, .verbatim⟩ :: scan inside (number + 1) rest
    else ⟨number, text, kindOutside text⟩ :: scan inside (number + 1) rest

/-! ## Outlines -/

/-- A document as its lines, each with what it is. It is made once, and every reader is given the same.
-/
structure Outline where
  lines : List Line

/-- Where a section stops: at the next heading, or at the next one that is not below its own. -/
inductive SectionEnd where
  | anyHeading
  | sameLevel
deriving DecidableEq, Repr

/-- A heading with the lines under it, up to the line that ends the section. -/
structure Section where
  heading : Heading
  body : List Line
deriving DecidableEq, Repr

namespace Section

def start (s : Section) : Nat := s.heading.line + 1

def stop (s : Section) : Nat := s.start + s.body.length

end Section

/-- Does a line end a section of the given heading? -/
def SectionEnd.endsAt (ends : SectionEnd) (under : Heading) (l : Line) : Bool :=
  match l.heading? with
  | none => false
  | some h =>
    match ends with
    | .anyHeading => true
    | .sameLevel => decide (h.level ≤ under.level)

/-- The heading on a line, looked for between two places of an array of headings that stand in the
order of their lines. What lies between is halved until the heading is met or nothing is left. -/
def headingBetween? (headings : Array Heading) (line low high : Nat) : Option Heading :=
  if low < high then
    let middle := (low + high) / 2
    match headings[middle]? with
    | none => none
    | some h =>
      if h.line < line then headingBetween? headings line (middle + 1) high
      else if line < h.line then headingBetween? headings line low middle
      else some h
  else none
termination_by high - low

namespace Outline

def ofText (text : List Char) : Outline := ⟨scan false 0 (Text.lines text)⟩

/-- A flag for each line: is it a fence, or between the two of a pair? -/
def flags (o : Outline) : List Bool := o.lines.map Line.isFenced

def headings (o : Outline) : List Heading := o.lines.filterMap Line.heading?

/-- The heading on a line, if there is one. -/
def headingAt? (o : Outline) (line : Nat) : Option Heading :=
  let headings := o.headings.toArray
  headingBetween? headings line 0 headings.size

/-- The line of the fence that is still open after some lines, given the one open before them. -/
def openAfter : Option Nat → List Line → Option Nat
  | opened, [] => opened
  | opened, l :: ls =>
    if l.kind = .fence then openAfter (if opened.isSome then none else some l.number) ls
    else openAfter opened ls

/-- The line of the fence that no other one closes. -/
def openFence? (o : Outline) : Option Nat := openAfter none o.lines

/-- Is the line a heading of the title? ASCII letters count without their case. -/
def isTitled (title : List Char) (l : Line) : Bool :=
  l.heading?.any fun h => sameIgnoringCase h.title title

/-- The section under the first heading of a title. Later ones of the title are part of no section of
that name. -/
def sectionTitled? (o : Outline) (title : List Char) (ends : SectionEnd) : Option Section :=
  match o.lines.dropWhile (!isTitled title ·) with
  | [] => none
  | l :: below => l.heading?.map fun h => ⟨h, below.takeWhile (!ends.endsAt h ·)⟩

end Outline

/-! ## Blocks -/

/-- A heading with the rows between it and the next heading. -/
structure Block where
  heading : Heading
  rows : List Line
deriving DecidableEq, Repr

/-- The blocks of some lines. What stands before the first heading belongs to none. -/
def blocks : List Line → List Block
  | [] => []
  | l :: ls =>
    match l.heading? with
    | some h => ⟨h, ls.takeWhile (·.heading?.isNone)⟩ :: blocks ls
    | none => blocks ls

/-! ## Verbatim blocks -/

/-- Verbatim text and what stands behind the marker that opens it. -/
structure CodeBlock where
  info : List Char
  body : List (List Char)
deriving DecidableEq, Repr

/-- What stands behind the marker of a fence, with neither blanks around nor upper case. -/
def fenceInfo (line : List Char) : List Char := lower (trim ((trim line).drop fenceMarker.length))

/-- The verbatim blocks of some lines, given the one that is open before them. A block that is
still open at the end is closed there. -/
def codeBlocksFrom : Option CodeBlock → List Line → List CodeBlock
  | none, [] => []
  | some b, [] => [b]
  | none, l :: ls =>
    if l.kind = .fence then codeBlocksFrom (some ⟨fenceInfo l.text, []⟩) ls
    else codeBlocksFrom none ls
  | some b, l :: ls =>
    if l.kind = .fence then b :: codeBlocksFrom none ls
    else codeBlocksFrom (some { b with body := b.body ++ [l.text] }) ls

def codeBlocks (lines : List Line) : List CodeBlock := codeBlocksFrom none lines

/-! ## What the scan keeps -/

/-- The scan leaves no line out, so numbers of lines are places in the outline. -/
theorem length_scan (inside : Bool) (number : Nat) (texts : List (List Char)) :
    (scan inside number texts).length = texts.length := by
  induction texts generalizing inside number with
  | nil => rfl
  | cons text rest ih => unfold scan; repeat' split
                         all_goals simp [ih]

/-- The scan changes no text. -/
theorem text_scan (inside : Bool) (number : Nat) (texts : List (List Char)) :
    (scan inside number texts).map (·.text) = texts := by
  induction texts generalizing inside number with
  | nil => rfl
  | cons text rest ih => unfold scan; repeat' split
                         all_goals simp [ih]

end Runbook.Markdown
