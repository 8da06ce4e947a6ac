import Runbook.Shell.TextUtility

/-!
# Commands on files

Commands that make, move and take away files and directories, and those that only look at their
names. Every name is dealt with on its own: where one fails it is complained about, and the others
are seen to all the same.
-/

set_option autoImplicit false

namespace Runbook.Shell

open Files (Content)

/-- Do something with every name; it is a failure if one of them is. -/
def forAll (m : Machine) (names : List String)
    (act : Files.Tree → String → Except String Files.Tree) : Machine :=
  names.foldl (fun m name =>
    match act m.files name with
    | .ok files => { m with files }
    | .error text => m.fail text) (m.ended 0)

def inQuotes (name : String) : String := "'" ++ name ++ "'"

def about (command what name : String) (e : FileError) : String :=
  command ++ ": " ++ what ++ " " ++ inQuotes name ++ ": " ++ e.words

/-- The tree with a copy of everything below a place at another one. -/
def copyBelow (t : Files.Tree) (source target : Files.Place) : Files.Tree :=
  (t.nodes.filter fun (p, _) => source.isPrefixOf p).foldl
    (fun t (p, node) => t.put (target ++ p.drop source.length) node) t

/-- The tree with everything below a place taken to another one. -/
def moveBelow (t : Files.Tree) (source target : Files.Place) : Files.Tree :=
  { t with
    nodes := (t.drop target).nodes.map fun (p, node) =>
      if source.isPrefixOf p then (target ++ p.drop source.length, node) else (p, node) }

/-- The place for something that is put under a name: below it if it is a directory. -/
def targetPlace (t : Files.Tree) (source : Files.Place) (target : String) :
    Except FileError Files.Place :=
  (t.locate target).bind fun place =>
    if t.at? place == some .directory then .ok (place ++ source.getLast?.toList) else .ok place

namespace Machine

/-- A command that needs names. -/
def withNames (m : Machine) (command : String) (names : List String)
    (act : Files.Tree → String → Except String Files.Tree) : Machine :=
  if names.isEmpty then m.fail (command ++ ": missing operand") else forAll m names act

def touch (m : Machine) (arguments : List String) : Machine :=
  let (flags, names) := optionsOf arguments
  m.withNames "touch" names fun t name =>
    if t.pathExists name || flags.contains 'c' then .ok t
    else
      match t.append name (.text "") with
      | .ok t => .ok t
      | .error e => .error (about "touch" "cannot touch" name e)

def mkdir (m : Machine) (arguments : List String) : Machine :=
  let (flags, names) := optionsOf arguments
  m.withNames "mkdir" names fun t name =>
    let refuse (e : FileError) : Except String Files.Tree :=
      .error (about "mkdir" "cannot create directory" name e)
    if flags.contains 'p' then
      match t.createDirectories name with
      | (t, .ok ()) => .ok t
      | (_, .error e) => refuse e
    else
      match t.locate name with
      | .error e => refuse e
      | .ok place =>
        if (t.at? place).isSome then refuse .alreadyExists else .ok (t.put place .directory)

def rmdir (m : Machine) (arguments : List String) : Machine :=
  m.withNames "rmdir" (optionsOf arguments).2 fun t name =>
    let refuse (e : FileError) : Except String Files.Tree :=
      .error ("rmdir: failed to remove " ++ inQuotes name ++ ": " ++ e.words)
    match t.locate name with
    | .error e => refuse e
    | .ok place =>
      match t.at? place with
      | none => refuse .notFound
      | some (.file _) => refuse .notDirectory
      | some .directory =>
        if (t.namesIn place).isEmpty then .ok (t.drop place) else refuse .notEmpty

def rm (m : Machine) (arguments : List String) : Machine :=
  let (flags, names) := optionsOf arguments
  if flags.contains 'f' && names.isEmpty then m.ended 0
  else
    m.withNames "rm" names fun t name =>
      let refuse (e : FileError) : Except String Files.Tree :=
        .error (about "rm" "cannot remove" name e)
      match t.locate name with
      | .error e => if flags.contains 'f' && e = .notFound then .ok t else refuse e
      | .ok place =>
        match t.at? place with
        | none => if flags.contains 'f' then .ok t else refuse .notFound
        | some .directory =>
          if flags.contains 'r' || flags.contains 'R' then .ok (t.drop place)
          else refuse .isDirectory
        | some (.file _) => .ok (t.drop place)

/-- Put things under a name: several of them only into a directory. -/
def transfer (m : Machine) (command : String) (arguments : List String)
    (act : Files.Tree → Files.Place → Files.Place → String → Except String Files.Tree) : Machine :=
  match arguments.reverse with
  | [] => m.fail (command ++ ": missing file operand")
  | [name] => m.fail (command ++ ": missing destination file operand after " ++ inQuotes name)
  | target :: sources =>
    if sources.length > 1 && !m.files.isDirectory target then
      m.fail (command ++ ": target " ++ inQuotes target ++ ": "
        ++ (if m.files.pathExists target then FileError.notDirectory else .notFound).words)
    else
      forAll m sources.reverse fun t name =>
        match t.locate name with
        | .error e => .error (about command "cannot stat" name e)
        | .ok source =>
          if (t.at? source).isNone then .error (about command "cannot stat" name .notFound)
          else
            match targetPlace t source target with
            | .error e => .error (command ++ ": cannot create regular file " ++ inQuotes target
                ++ ": " ++ e.words)
            | .ok place => act t source place name

def mv (m : Machine) (arguments : List String) : Machine :=
  m.transfer "mv" (optionsOf arguments).2 fun t source place name =>
    if source = place then
      .error ("mv: " ++ inQuotes name ++ " and " ++ inQuotes name ++ " are the same file")
    else .ok (moveBelow t source place)

def cp (m : Machine) (arguments : List String) : Machine :=
  let (flags, names) := optionsOf arguments
  m.transfer "cp" names fun t source place name =>
    match t.at? source with
    | some (.file c) => .ok (t.put place (.file c))
    | _ =>
      if flags.any "rRa".toList.contains then .ok (copyBelow t source place)
      else .error ("cp: -r not specified; omitting directory " ++ inQuotes name)

/-- The command `ls`: files that are named, then what is in the directories. Names with a dot in
front are left out. -/
def ls (m : Machine) (arguments : List String) : Machine :=
  let (flags, names) := optionsOf arguments
  let names := if names.isEmpty then ["."] else names
  let hidden := flags.any "aA".toList.contains
  let visible (name : String) : Bool := hidden || name.toList.head? != some '.'
  let missing := names.filter fun n => !m.files.pathExists n
  let m := missing.foldl (fun m n =>
    m.fail (about "ls" "cannot access" n .notFound) 2) (m.ended 0)
  let files := names.filter fun n =>
    m.files.isFile n || (flags.contains 'd' && m.files.pathExists n)
  let directories := names.filter fun n => m.files.isDirectory n && !flags.contains 'd'
  let dots := if flags.contains 'a' then [".", ".."] else []
  let m := m.write (unlines (files.mergeSort (· ≤ ·)))
  let headed := names.length > 1
  ((directories.mergeSort (· ≤ ·)).foldl (fun (m, first) d =>
    let inside := dots ++ ((m.files.list d).toOption.getD []).filter visible
    let headline := (if first then "" else "\n") ++ d ++ ":\n"
    (m.write ((if headed then headline else "") ++ unlines inside), false)) (m, files.isEmpty)).1

/-- The command `tee`: the input goes to files and on. -/
def tee (m : Machine) (arguments : List String) : Machine :=
  let (flags, names) := optionsOf arguments
  let c := m.input
  let m := { m with input := .text "" }.pour m.outputTo c
  forAll m names fun t name =>
    match if flags.contains 'a' then t.append name c else t.write name c with
    | .ok t => .ok t
    | .error e => .error ("tee: " ++ name ++ ": " ++ e.words)

def basename (m : Machine) : List String → Machine
  | [] => m.fail "basename: missing operand"
  | path :: rest =>
    let last := if path = "" then "" else ((Files.components path).getLast?).getD
      (if Files.isAbsolute path then "/" else ".")
    let ending := rest.headD ""
    let short :=
      if ending != "" && ending != last && last.endsWith ending then
        String.ofList (last.toList.take (last.length - ending.length))
      else last
    (m.write (short ++ "\n")).ended 0

def dirname (m : Machine) : List String → Machine
  | [] => m.fail "dirname: missing operand"
  | path :: _ =>
    let cs := (path.toList.reverse.dropWhile (· = '/')).dropWhile (· ≠ '/')
    let parent := match cs.dropWhile (· = '/') with
      | [] => if Files.isAbsolute path then "/" else "."
      | cs => String.ofList cs.reverse
    (m.write (parent ++ "\n")).ended 0

end Machine

end Runbook.Shell
