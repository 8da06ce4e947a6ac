import Runbook.Shell.Condition

/-!
# Commands that print

What `echo` and `printf` write. Both know signs behind a backslash; `printf` fills its arguments
into a format, and goes through the format again as long as arguments are left.
-/

set_option autoImplicit false

namespace Runbook.Shell

open Files (Content)

namespace Printing

/-- The value of octal digits, as many as given at most, and what follows them. -/
def octal : Nat → Nat → List Char → Nat × List Char
  | 0, n, cs => (n, cs)
  | _, n, [] => (n, [])
  | left + 1, n, c :: cs =>
    if '0' ≤ c && c ≤ '7' then octal left (n * 8 + (c.toNat - '0'.toNat)) cs else (n, c :: cs)

/-- What a letter behind a backslash stands for. -/
def letter? : Char → Option Char
  | 'a' => some '\x07'
  | 'b' => some '\x08'
  | 'f' => some '\x0c'
  | 'n' => some '\n'
  | 'r' => some '\r'
  | 't' => some '\t'
  | 'v' => some '\x0b'
  | '\\' => some '\\'
  | _ => none

/-- A text, or that printing ends here. -/
structure Written where
  bytes : List UInt8 := []
  cutShort : Bool := false

def bytesOf (cs : List Char) : List UInt8 := (String.ofList cs).toUTF8.toList

/-- The text with signs behind backslashes replaced. Octal numbers begin with a zero, or with any
octal digit where `anyOctal` says so. -/
def unescape (anyOctal : Bool) : Nat → List Char → Written
  | 0, _ => {}
  | _, [] => {}
  | fuel + 1, '\\' :: c :: cs =>
    let andThen (bytes : List UInt8) (rest : List Char) : Written :=
      let more := unescape anyOctal fuel rest
      { more with bytes := bytes ++ more.bytes }
    if c = 'c' then { cutShort := true }
    else if c = '0' || (anyOctal && '1' ≤ c && c ≤ '7') then
      let (n, rest) := if c = '0' && !anyOctal then octal 3 0 cs else octal 3 0 (c :: cs)
      andThen [UInt8.ofNat n] rest
    else
      match letter? c with
      | some d => andThen (bytesOf [d]) cs
      | none => andThen (bytesOf ['\\', c]) cs
  | fuel + 1, c :: cs =>
    let more := unescape anyOctal fuel cs
    { more with bytes := bytesOf [c] ++ more.bytes }

def echo (arguments : List String) : Content :=
  let (lineEnd, arguments) := match arguments with
    | "-n" :: rest => (false, rest)
    | arguments => (true, arguments)
  let cs := (" ".intercalate arguments).toList
  let w := unescape false (cs.length + 1) cs
  Files.Tree.contentOf (w.bytes ++ if lineEnd && !w.cutShort then [0x0A] else [])

/-- A text made as wide as wanted. -/
def padded (left zero : Bool) (width : Nat) (cs : List Char) : List Char :=
  let room := List.replicate (width - cs.length) (if zero && !left then '0' else ' ')
  if left then cs ++ room else room ++ cs

def digitsIn (base n : Nat) : List Char := Nat.toDigits base n

/-- A format and what comes of it. -/
structure Formatted where
  bytes : List UInt8 := []
  left : List String
  cutShort : Bool := false
  complaints : List String := []

/-- What one placeholder writes. -/
def placeholder (flags : List Char) (width : Nat) (precision : Option Nat) (kind : Char)
    (argument : Option String) : Formatted :=
  let text := argument.getD ""
  let pad (zero : Bool) (cs : List Char) : List UInt8 :=
    bytesOf (padded (flags.contains '-') (zero && flags.contains '0') width cs)
  let number (show_ : Int → List Char) : Formatted :=
    match integer? text with
    | some n => { bytes := pad true (show_ n), left := [] }
    | none =>
      { bytes := pad true (show_ 0), left := []
        complaints :=
          if text = "" then [] else ["printf: " ++ text ++ ": expected numeric value"] }
  match kind with
  | 's' =>
    let cs := match precision with
      | some p => text.toList.take p
      | none => text.toList
    { bytes := pad false cs, left := [] }
  | 'b' =>
    let w := unescape false (text.length + 1) text.toList
    { bytes := w.bytes, left := [], cutShort := w.cutShort }
  | 'c' => { bytes := pad false (text.toList.take 1), left := [] }
  | 'd' | 'i' | 'u' => number fun n => (toString n).toList
  | 'x' => number fun n => digitsIn 16 n.toNat
  | 'X' => number fun n => (digitsIn 16 n.toNat).map Char.toUpper
  | 'o' => number fun n => digitsIn 8 n.toNat
  | _ =>
    { left := [], cutShort := true
      complaints := ["printf: %" ++ String.singleton kind ++ ": invalid directive"] }

/-- One way through a format. -/
def throughFormat : Nat → List Char → List String → Formatted
  | 0, _, arguments => { left := arguments }
  | _, [], arguments => { left := arguments }
  | fuel + 1, '%' :: '%' :: cs, arguments =>
    let more := throughFormat fuel cs arguments
    { more with bytes := bytesOf ['%'] ++ more.bytes }
  | fuel + 1, '%' :: cs, arguments =>
    let isFlag (c : Char) : Bool := "-+ 0#".toList.contains c
    let flags := cs.takeWhile isFlag
    let cs := cs.dropWhile isFlag
    let width := ((String.ofList (cs.takeWhile Char.isDigit)).toNat?).getD 0
    let cs := cs.dropWhile Char.isDigit
    let (precision, cs) := match cs with
      | '.' :: cs =>
        (some (((String.ofList (cs.takeWhile Char.isDigit)).toNat?).getD 0),
          cs.dropWhile Char.isDigit)
      | cs => (none, cs)
    match cs with
    | [] => { bytes := bytesOf ['%'], left := arguments }
    | kind :: cs =>
      let one := placeholder flags width precision kind arguments.head?
      if one.cutShort then { one with left := [] }
      else
        let more := throughFormat fuel cs arguments.tail
        { more with
          bytes := one.bytes ++ more.bytes, complaints := one.complaints ++ more.complaints }
  | fuel + 1, '\\' :: c :: cs, arguments =>
    let isOctal := '0' ≤ c && c ≤ '7'
    let (bytes, rest) : List UInt8 × List Char :=
      if isOctal then
        let (n, rest) := octal 3 0 (c :: cs)
        ([UInt8.ofNat n], rest)
      else match letter? c with
        | some d => (bytesOf [d], cs)
        | none => (bytesOf ['\\', c], cs)
    let more := throughFormat fuel rest arguments
    { more with bytes := bytes ++ more.bytes }
  | fuel + 1, c :: cs, arguments =>
    let more := throughFormat fuel cs arguments
    { more with bytes := bytesOf [c] ++ more.bytes }

/-- The format again and again, in a number of rounds at most, until no arguments are left. -/
def format (cs : List Char) : Nat → List String → Formatted
  | 0, arguments => { left := arguments }
  | rounds + 1, arguments =>
    let once := throughFormat (cs.length + 1) cs arguments
    if once.cutShort || once.left.isEmpty then once
    else
      let more := format cs rounds once.left
      { more with
        bytes := once.bytes ++ more.bytes, complaints := once.complaints ++ more.complaints }

end Printing

def Machine.printf (m : Machine) (line : Nat) : List String → Machine
  | [] => m.complainAt line "printf: usage: printf format [arg ...]"
  | pattern :: arguments =>
    let cs := pattern.toList
    let takesSome :=
      (Printing.throughFormat (cs.length + 1) cs arguments).left.length < arguments.length
    let out := Printing.format cs (if takesSome then arguments.length else 1) arguments
    let m := m.pour m.outputTo (Files.Tree.contentOf out.bytes)
    if out.complaints.isEmpty then m.ended 0
    else (out.complaints.foldl (fun m text => m.complainAt line text) m).ended 1

end Runbook.Shell
