import Runbook.CommandLine.Invocation

/-!
# Reading a command line

Arguments are read one after the other. An argument that could have a value behind it is kept back
until the next thing is known for sure (`Reading.settle`); so what is wrong with its value is only
said when nothing worse came at once. Behind `--` all arguments are for places.

`parse` reads the program's own scope up to the name of a verb, then the verb's to the end. What is
said in both holds as the verb's scope has it.
-/

set_option autoImplicit false

namespace Runbook.CommandLine

/-- How far a scope has been read. -/
structure Reading where
  scope : Scope
  draft : Draft := {}
  /-- A parameter that was named last, and its value if that has come. -/
  pending : Option (Parameter × Option String) := none
  /-- The places that are still free. -/
  places : List Parameter
deriving Repr

namespace Reading

def start (scope : Scope) : Reading := { scope, places := scope.places }

def give (r : Reading) (p : Parameter) (value : String) : Except Stop Reading :=
  (Draft.give r.scope r.draft p value).map fun draft => { r with draft }

/-- The reading without anything pending. -/
def settle (r : Reading) : Except Stop Reading :=
  match r.pending with
  | none => .ok r
  | some (p, none) => .error (.wrong (.noValue p))
  | some (p, some value) => ({ r with pending := none } : Reading).give p value

def finish (r : Reading) : Except Stop Draft := do
  let r ← r.settle
  match r.draft.missing? r.scope with
  | some p => .error (.wrong (.missing p))
  | none => .ok r.draft

def await (r : Reading) (p : Parameter) : Except Stop Reading := do
  let r ← r.settle
  return { r with pending := some (p, none) }

def take (r : Reading) (p : Parameter) (value : String) : Except Stop Reading := do
  let r ← r.settle
  r.give p value

def unknown (argument : String) : Except Stop Reading :=
  .error (.wrong (.unknownArgument argument))

/-- An argument with two hyphens in front, without these. -/
def long (r : Reading) (cs : List Char) : Except Stop Reading :=
  let word := String.ofList (cs.takeWhile (· ≠ '='))
  let value? := match cs.dropWhile (· ≠ '=') with
    | '=' :: value => some (String.ofList value)
    | _ => none
  match r.scope.named? word with
  | none => unknown ("--" ++ word)
  | some p =>
    match p.takesValue, value? with
    | true, none => r.await p
    | true, some value => r.take p value
    | false, none => r.take p ""
    | false, some value => .error (.wrong (.unexpectedValue p value))

/-- An argument with one hyphen in front, without it: letters, and the value of the last one if
that takes one. -/
def short (r : Reading) : List Char → Except Stop Reading
  | [] => .ok r
  | letter :: cs =>
    match r.scope.lettered? letter with
    | none => unknown (String.ofList ['-', letter])
    | some p =>
      if p.takesValue then
        match cs with
        | [] => r.await p
        | '=' :: value => r.take p (String.ofList value)
        | value => r.take p (String.ofList value)
      else
        match r.take p "" with
        | .ok r => short r cs
        | .error e => .error e

/-- What is wrong with an argument for which there is no place. In the program's own scope it
should have been a verb, and behind `--` a verb is not looked for. -/
def noPlace (r : Reading) (trailing : Bool) (argument : String) : UsageError :=
  match r.scope with
  | some _ => .unknownArgument argument
  | none =>
    if trailing && (argument = "help" || (Verb.ofName? argument).isSome) then
      .unknownArgument argument
    else .unknownVerb argument

def place (r : Reading) (trailing : Bool) (argument : String) : Except Stop Reading :=
  match r.places with
  | [] => .error (.wrong (r.noPlace trailing argument))
  | p :: places => do
    let r ← r.settle
    return { r with places, pending := some (p, some argument) }

/-- An argument before any `--`. -/
def argument (r : Reading) (a : String) : Except Stop Reading :=
  match a.toList with
  | '-' :: '-' :: cs => r.long cs
  | '-' :: c :: cs => r.short (c :: cs)
  | _ =>
    match r.pending with
    | some (p, none) => .ok { r with pending := some (p, some a) }
    | _ => r.place false a

/-- Whether the next argument is the value of an option, whatever it looks like a verb. -/
def awaitsValue (r : Reading) : Bool :=
  match r.pending with
  | some (_, none) => true
  | _ => false

/-- The arguments behind `--`. -/
def trailing (r : Reading) : List String → Except Stop Reading
  | [] => .ok r
  | a :: rest => (r.place true a).bind fun r => trailing r rest

def all (r : Reading) : List String → Except Stop Reading
  | [] => .ok r
  | "--" :: rest => r.trailing rest
  | a :: rest => (r.argument a).bind fun r => all r rest

/-- What comes behind the program's own arguments. -/
inductive Next where
  | nothing
  | verb (v : Verb) (arguments : List String)
  | help (words : List String)
deriving DecidableEq, Repr

/-- The program's own arguments. -/
def own (r : Reading) : List String → Except Stop (Reading × Next)
  | [] => .ok (r, .nothing)
  | a :: rest =>
    if r.awaitsValue then
      if a = "--" then (r.trailing rest).map (·, .nothing)
      else (r.argument a).bind fun r => own r rest
    else if a = "help" then .ok (r, .help rest)
    else
      match Verb.ofName? a with
      | some v => .ok (r, .verb v rest)
      | none =>
        if a = "--" then (r.trailing rest).map (·, .nothing)
        else (r.argument a).bind fun r => own r rest

end Reading

/-- What help on some words gives. Only one word means something. -/
def helpOn : List String → Stop
  | [] | ["help"] => .help none
  | [word] =>
    match Verb.ofName? word with
    | some v => .help (some v)
    | none => .wrong (.unknownVerb word)
  | first :: second :: _ =>
    if first = "help" || (Verb.ofName? first).isSome then .wrong (.unknownVerb second)
    else .wrong (.unknownVerb first)

def parse (arguments : List String) : Except Stop Invocation := do
  let (r, next) ← (Reading.start none).own arguments
  match next with
  | .help words => .error (helpOn words)
  | .nothing =>
    let d ← r.finish
    return { config := d.config, logLevel := d.logLevel }
  | .verb v rest =>
    let inner ← (Reading.start (some v)).all rest
    let inner ← inner.finish
    let d ← r.finish
    return { config := inner.config.or d.config, logLevel := inner.logLevel.or d.logLevel
             command := some (inner.command v) }

end Runbook.CommandLine
