import Runbook.Shell.ByteSet

/-!
# Commands on texts

Commands that read files or the input and write what they find. A file that cannot be read is
complained about, and the command goes on with the next one.
-/

set_option autoImplicit false

namespace Runbook.Shell

open Files (Content)

/-- Letters behind a hyphen at the front, and the words behind them. A number is no option. -/
def optionsOf : List String → List Char × List String
  | [] => ([], [])
  | "--" :: rest => ([], rest)
  | word :: rest =>
    match word.toList with
    | '-' :: c :: cs =>
      let (letters, words) := optionsOf rest
      (c :: cs ++ letters, words)
    | _ => ([], word :: rest)

/-- What the files among the arguments of a command hold; without any it is the input. What was
complained about comes out as a failure. -/
def contentsOf (m : Machine) (command : String) (status : Nat) (paths : List String) :
    Machine × List (String × Content) :=
  let paths := if paths.isEmpty then ["-"] else paths
  paths.foldl (fun (m, found) path =>
    match m.contentOf path with
    | .ok c => (if path = "-" then { m with input := .text "" } else m, found ++ [(path, c)])
    | .error e => (m.fail (command ++ ": " ++ path ++ ": " ++ e.words) status, found))
    (m.ended 0, [])

/-- The lines of a content. -/
def linesOf (c : Content) : List String := (Text.lines c.shown.toList).map String.ofList

def unlines (ls : List String) : String := String.join (ls.map (· ++ "\n"))

namespace Machine

def cat (m : Machine) (arguments : List String) : Machine :=
  let (m, found) := contentsOf m "cat" 1 (optionsOf arguments).2
  found.foldl (fun m (_, c) => m.pour m.outputTo c) m

/-- A count, as wide as the widest one where several are shown. -/
def countShown (width n : Nat) : String :=
  let digits := (toString n).toList
  String.ofList (List.replicate (width - digits.length) ' ' ++ digits)

/-- The command `wc`: lines, words, characters and bytes. -/
def wc (m : Machine) (arguments : List String) : Machine :=
  let (flags, paths) := optionsOf arguments
  let flags := if flags.isEmpty then ['l', 'w', 'c'] else flags
  let (m, found) := contentsOf m "wc" 1 paths
  let count (c : Content) : List Nat :=
    let cs := c.shown.toList
    (if flags.contains 'l' then [cs.count '\n'] else [])
      ++ (if flags.contains 'w' then [(Text.words cs).length] else [])
      ++ (if flags.contains 'm' then [cs.length] else [])
      ++ (if flags.contains 'c' then [(Files.Tree.bytesOf c).length] else [])
  let rows := found.map fun (path, c) => (count c, if paths.isEmpty then "" else " " ++ path)
  let total := rows.foldl (fun acc (ns, _) => if acc.isEmpty then ns else acc.zipWith (· + ·) ns) []
  let rows := if rows.length > 1 then rows ++ [(total, " total")] else rows
  let fromInput := paths.isEmpty && flags.length > 1
  let widest := (rows.flatMap Prod.fst).foldl (fun w n => max w (toString n).length) 1
  let width := if fromInput then 7 else widest
  let width := if rows.length = 1 && (rows.flatMap Prod.fst).length = 1 then 1 else width
  rows.foldl (fun m (ns, label) =>
    m.write (" ".intercalate (ns.map (countShown width)) ++ label ++ "\n")) m

/-- How much is wanted of a file. -/
structure Amount where
  inBytes : Bool := false
  number : Nat := 10

/-- The amount that an option asks for, and the words that are left. -/
def amountOf : List String → Amount × List String
  | "-n" :: n :: rest => (⟨false, (n.toNat?).getD 10⟩, rest)
  | "-c" :: n :: rest => (⟨true, (n.toNat?).getD 0⟩, rest)
  | word :: rest =>
    let number (cs : List Char) : Nat := ((String.ofList cs).toNat?).getD 10
    match word.toList with
    | '-' :: 'n' :: cs => (⟨false, number cs⟩, rest)
    | '-' :: 'c' :: cs => (⟨true, number cs⟩, rest)
    | '-' :: c :: cs =>
      if c.isDigit then (⟨false, number (c :: cs)⟩, rest) else ({}, word :: rest)
    | _ => ({}, word :: rest)
  | [] => ({}, [])

/-- The first lines or bytes of a content. -/
def firstOf (a : Amount) (c : Content) : Content :=
  if a.inBytes then Files.Tree.contentOf ((Files.Tree.bytesOf c).take a.number)
  else .text (String.ofList ((Text.chunks c.shown.toList).take a.number).flatten)

/-- The last lines or bytes of a content. -/
def lastOf (a : Amount) (c : Content) : Content :=
  if a.inBytes then
    let bytes := Files.Tree.bytesOf c
    Files.Tree.contentOf (bytes.drop (bytes.length - a.number))
  else
    let chunks := Text.chunks c.shown.toList
    .text (String.ofList (chunks.drop (chunks.length - a.number)).flatten)

/-- A command that writes a part of each file, under a headline if there are several. -/
def parts (m : Machine) (command : String) (part : Amount → Content → Content)
    (arguments : List String) : Machine :=
  let (amount, paths) := amountOf arguments
  let (m, found) := contentsOf m command 1 paths
  let headed := found.length > 1
  (found.foldl (fun (m, first) (path, c) =>
    let headline := (if first then "" else "\n") ++ "==> " ++ path ++ " <==\n"
    let m := if headed then m.write headline else m
    (m.pour m.outputTo (part amount c), false)) (m, true)).1

/-- The command `head`. It is the only one that can read from where zeros never end, as long as it
is told how many bytes to take. -/
def head (m : Machine) (arguments : List String) : Machine :=
  match amountOf arguments with
  | (⟨true, n⟩, ["/dev/zero"]) =>
    (m.pour m.outputTo (Files.Tree.contentOf (List.replicate n 0))).ended 0
  | _ => m.parts "head" firstOf arguments

def tail (m : Machine) (arguments : List String) : Machine := m.parts "tail" lastOf arguments

/-- The command `sort`: by code points, by number, backwards, without repetitions. -/
def sort (m : Machine) (arguments : List String) : Machine :=
  let (flags, paths) := optionsOf arguments
  let (m, found) := contentsOf m "sort" 2 paths
  let number (s : String) : Int :=
    let cs := Text.trimStart s.toList
    let (sign, cs) : Int × List Char := match cs with
      | '-' :: cs => (-1, cs)
      | cs => (1, cs)
    sign * (((String.ofList (cs.takeWhile Char.isDigit)).toNat?).getD 0 : Nat)
  let before (a b : String) : Bool :=
    if flags.contains 'n' && number a != number b then number a < number b else a ≤ b
  let ls := (found.flatMap fun (_, c) => linesOf c).mergeSort before
  let ls := if flags.contains 'u' then ls.eraseReps else ls
  m.write (unlines (if flags.contains 'r' then ls.reverse else ls))

/-- The command `tr`: bytes of the input are replaced by others, left out, or kept from repeating
themselves. -/
def tr (m : Machine) (arguments : List String) : Machine :=
  let (flags, words) := optionsOf arguments
  let sets := words.map ByteSet.members
  let input := Files.Tree.bytesOf m.input
  let m := { m with input := .text "" }
  let write (bytes : List UInt8) : Machine :=
    (m.pour m.outputTo (Files.Tree.contentOf bytes)).ended 0
  let first (set : List UInt8) : List UInt8 :=
    if flags.any "cC".toList.contains then ByteSet.complement set else set
  let squeezed (set bytes : List UInt8) : List UInt8 :=
    if flags.contains 's' then ByteSet.squeeze set bytes else bytes
  match flags.contains 'd', sets with
  | _, [] => m.fail "tr: missing operand\nTry 'tr --help' for more information."
  | true, set :: more =>
    let gone := first set
    write (squeezed (more.headD []) (input.filter fun b => !gone.contains b))
  | false, [set] =>
    if flags.contains 's' then write (squeezed (first set) input)
    else m.fail ("tr: missing operand after '" ++ words.headD "" ++ "'\n"
      ++ "Two strings must be given when translating.\nTry 'tr --help' for more information.")
  | false, set :: by_ :: _ =>
    write (squeezed by_ (input.map (ByteSet.translate (first set) by_)))

/-- The command `uniq`: without lines that repeat the one before. -/
def uniq (m : Machine) (arguments : List String) : Machine :=
  let (_, paths) := optionsOf arguments
  let (m, found) := contentsOf m "uniq" 1 paths
  m.write (unlines (found.flatMap fun (_, c) => linesOf c).eraseReps)

/-- Does a line have what is looked for? A circumflex ties it to the start of the line and a dollar
sign to its end. -/
def lineHas (fixed whole : Bool) (pattern line : List Char) : Bool :=
  if whole then pattern == line
  else if fixed then Text.occursIn pattern line
  else
    let (atStart, pattern) := match pattern with
      | '^' :: rest => (true, rest)
      | pattern => (false, pattern)
    let (pattern, atEnd) := match pattern.reverse with
      | '$' :: rest => (rest.reverse, true)
      | _ => (pattern, false)
    if atStart && atEnd then pattern == line
    else if atStart then pattern.isPrefixOf line
    else if atEnd then pattern.isSuffixOf line
    else Text.occursIn pattern line

/-- The command `grep`, for patterns that are texts. -/
def grep (m : Machine) (arguments : List String) : Machine :=
  let (flags, words) := optionsOf arguments
  match words with
  | [] => m.fail "Usage: grep [OPTION]... PATTERNS [FILE]..." 2
  | pattern :: paths =>
    let fold (cs : List Char) : List Char := if flags.contains 'i' then cs.map Char.toLower else cs
    let hit (line : String) : Bool :=
      lineHas (flags.contains 'F') (flags.contains 'x') (fold pattern.toList) (fold line.toList)
        != flags.contains 'v'
    let (m, found) := contentsOf m "grep" 2 paths
    let failed := m.status = 2
    let m := found.foldl (fun m (path, c) =>
      let ls := linesOf c
      let hits := ls.zipIdx.filter fun (line, _) => hit line
      let label := if found.length > 1 then path ++ ":" else ""
      let shown :=
        if flags.contains 'q' then ""
        else if flags.contains 'l' then if hits.isEmpty then "" else path ++ "\n"
        else if flags.contains 'c' then label ++ toString hits.length ++ "\n"
        else unlines (hits.map fun (line, i) =>
          label ++ (if flags.contains 'n' then toString (i + 1) ++ ":" else "") ++ line)
      m.write shown) m
    let any := found.any fun (_, c) => (linesOf c).any hit
    if failed && !(flags.contains 'q' && any) then m.ended 2
    else m.ended (if any then 0 else 1)

/-- The command `seq`, for whole numbers. -/
def seq (m : Machine) (arguments : List String) : Machine :=
  match arguments.mapM integer? with
  | none => m.fail ("seq: invalid floating point argument: '"
      ++ (arguments.find? fun a => (integer? a).isNone).getD "" ++ "'")
  | some ns =>
    let (first, step, last) : Int × Int × Int := match ns with
      | [last] => (1, 1, last)
      | [first, last] => (first, 1, last)
      | first :: step :: last :: _ => (first, step, last)
      | [] => (1, 1, 0)
    if ns.isEmpty then m.fail "seq: missing operand"
    else if step = 0 then m.fail "seq: invalid Zero increment value: '0'"
    else
      let steps := (last - first).fdiv step
      let count := if steps < 0 then 0 else steps.toNat + 1
      let nth (i : Nat) : String := toString (first + step * i)
      (m.write (unlines ((List.range count).map nth))).ended 0

end Machine

end Runbook.Shell
