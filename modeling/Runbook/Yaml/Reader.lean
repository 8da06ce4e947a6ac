import Runbook.Yaml.Node
import Runbook.Yaml.Scalar

/-!
# Reading YAML

A document is read from left to right. Between brackets layout does not matter; outside of them the
column of its first character says what a thing belongs to. `least` is always the smallest column
at which something may still belong to the node that is read.

Whether a node is the first key of a mapping shows only behind it, at the colon. So a node that
starts where a key may start is read once to find out, and again as the key it then is.

All functions take fuel, because they call one another in a circle; `read?` gives them more than a
text of its length can use up.
-/

set_option autoImplicit false

namespace Runbook.Yaml

/-- Nodes that have been given a name, the latest first. -/
abbrev Anchors := List (String × Node)

/-! ## Properties -/

/-- What may stand in front of a node. -/
structure Properties where
  anchor : Option String := none
  tag : Option String := none
deriving Inhabited

/-- The characters of anchors. -/
def isAnchorChar (c : Char) : Bool := c.isAlphanum || c == '-' || c == '_'

/-- A name behind `&` or `*`, with a gap or structure behind it. -/
def anchor? (cs : List Char) : Option (String × List Char) :=
  let name := cs.takeWhile isAnchorChar
  let rest := cs.dropWhile isAnchorChar
  if name.isEmpty then none
  else if gapComes rest || rest.head?.any fun c => isFlowMark c || "?:%@\x60".toList.contains c then
    some (String.ofList name, rest)
  else none

/-- A tag in full. -/
def fullTag (shorthand : List Char) : String :=
  match shorthand with
  | '!' :: rest => "tag:yaml.org,2002:" ++ String.ofList rest
  | '<' :: rest => String.ofList (rest.takeWhile (· ≠ '>'))
  | rest => "!" ++ String.ofList rest

/-- The properties in front of a node, on one line. -/
def properties? (flow : Bool) : Nat → Properties → Spot → Option (Properties × Spot)
  | 0, p, s => some (p, s)
  | fuel + 1, p, s =>
    match s.rest with
    | '&' :: cs =>
      if p.anchor.isSome then none
      else (anchor? cs).bind fun (name, rest) =>
        properties? flow fuel { p with anchor := some name } (s.behind rest).pastRoom
    | '!' :: cs =>
      if p.tag.isSome then none
      else
        let ends (c : Char) := isGap c || (flow && isFlowMark c)
        let tag := cs.takeWhile (!ends ·)
        properties? flow fuel { p with tag := some (fullTag tag) }
          (s.behind (cs.dropWhile (!ends ·))).pastRoom
    | _ => some (p, s)

/-- A node with its properties, and the names known from then on. -/
def Properties.on (p : Properties) (n : Node) (anchors : Anchors) : Node × Anchors :=
  let tagged := match n with
    | .scalar text style none => Node.scalar text style p.tag
    | n => n
  match p.anchor with
  | some name => (tagged, (name, tagged) :: anchors)
  | none => (tagged, anchors)

def Properties.present (p : Properties) : Bool := p.anchor.isSome || p.tag.isSome

/-! ## Nodes on the spot -/

def scalar? (flow : Bool) (least : Nat) (anchors : Anchors) (s : Spot) : Option (Node × Spot) :=
  match s.rest with
  | '*' :: cs =>
    (anchor? cs).bind fun (name, rest) => (anchors.lookup name).map fun n => (n, s.behind rest)
  | '"' :: _ | '\'' :: _ => (quoted? s).map fun (text, s) => (.scalar text .quoted none, s)
  | '|' :: _ | '>' :: _ =>
    if flow then none
    else (block? least s).map fun (text, isLiteral, s) =>
      (.scalar text (if isLiteral then .literal else .quoted) none, s)
  | _ => (plain? flow least s).map fun (text, s) => (.scalar text .plain none, s)

/-- Does something start on this line? -/
def Spot.hasContent (s : Spot) : Bool :=
  match s.rest with
  | [] => false
  | c :: _ => !isGap c && c != '#'

mutual

/-- A node between brackets. Where structure comes at once, nothing is written. -/
def flowNode? : Nat → Anchors → Spot → Option (Node × Anchors × Spot)
  | 0, _, _ => none
  | fuel + 1, anchors, s => do
    let (p, s) ← properties? true 3 {} s
    let s := s.ahead true false
    let done (n : Node) (anchors : Anchors) (s : Spot) : Option (Node × Anchors × Spot) :=
      some ((p.on n anchors).1, (p.on n anchors).2, s)
    match s.rest with
    | '[' :: _ =>
      let (items, anchors, s) ← flowItems? fuel anchors ((s.skip 1).ahead true false)
      done (.sequence items) anchors s
    | '\x7b' :: _ =>
      let (members, anchors, s) ← flowMembers? fuel anchors ((s.skip 1).ahead true false)
      done (.mapping members) anchors s
    | ',' :: _ | ']' :: _ | '\x7d' :: _ | ':' :: _ => done .empty anchors s
    | _ =>
      let (n, s) ← scalar? true 0 anchors s
      done n anchors s
termination_by structural fuel => fuel

/-- The value behind a key between brackets, if there is one on the key's line. -/
def flowValue? : Nat → Anchors → Spot → Option (Option Node × Anchors × Spot)
  | 0, _, _ => none
  | fuel + 1, anchors, s =>
    let colon := s.ahead true false
    if colon.holds ':' then
      if colon.line = s.line then do
        let (n, anchors, s) ← flowNode? fuel anchors ((colon.skip 1).ahead true false)
        return (some n, anchors, s)
      else none
    else some (none, anchors, s)
termination_by structural fuel => fuel

/-- The items of a sequence up to its bracket. -/
def flowItems? : Nat → Anchors → Spot → Option (List Node × Anchors × Spot)
  | 0, _, _ => none
  | fuel + 1, anchors, s =>
    if s.atEnd then none
    else if s.holds ']' then some ([], anchors, s.skip 1)
    else if s.holds ',' then none
    else do
      let isExplicit := s.marks '?'
      let start := if isExplicit then (s.skip 1).ahead true false else s
      let (n, anchors, s) ← flowNode? fuel anchors start
      let (value, anchors, s) ←
        if s.line = start.line || isExplicit then flowValue? fuel anchors s
        else if (s.ahead true false).holds ':' then none
        else some (none, anchors, s)
      let item := match value with
        | some v => Node.mapping [(n, v)]
        | none => if isExplicit then .mapping [(n, .empty)] else n
      let s := s.ahead true false
      if s.holds ']' then return ([item], anchors, s.skip 1)
      else if s.holds ',' then
        let (items, anchors, s) ← flowItems? fuel anchors ((s.skip 1).ahead true false)
        return (item :: items, anchors, s)
      else none
termination_by structural fuel => fuel

/-- The members of a mapping up to its brace. -/
def flowMembers? : Nat → Anchors → Spot → Option (List (Node × Node) × Anchors × Spot)
  | 0, _, _ => none
  | fuel + 1, anchors, s =>
    if s.atEnd then none
    else if s.holds '\x7d' then some ([], anchors, s.skip 1)
    else if s.holds ',' then none
    else do
      let isExplicit := s.marks '?'
      let start := if isExplicit then (s.skip 1).ahead true false else s
      let (key, anchors, s) ← flowNode? fuel anchors start
      let (value, anchors, s) ←
        if s.line = start.line || isExplicit then flowValue? fuel anchors s
        else if (s.ahead true false).holds ':' then none
        else some (none, anchors, s)
      let member := (key, value.getD .empty)
      let s := s.ahead true false
      if s.holds '\x7d' then return ([member], anchors, s.skip 1)
      else if s.holds ',' then
        let (members, anchors, s) ← flowMembers? fuel anchors ((s.skip 1).ahead true false)
        return (member :: members, anchors, s)
      else none
termination_by structural fuel => fuel

end

/-- A node that starts on the spot and is no block collection. -/
def inlineNode? (fuel : Nat) (anchors : Anchors) (least : Nat) (s : Spot) :
    Option (Node × Anchors × Spot) :=
  if s.holds '[' || s.holds '\x7b' then flowNode? fuel anchors s
  else (scalar? false least anchors s).map fun (n, s) => (n, anchors, s)

mutual

/-- A node in block layout. `keyMayCome` says whether a key or an item may start here. -/
def blockNode? : Nat → Anchors → (least : Nat) → (keyMayCome : Bool) → Spot →
    Option (Node × Anchors × Spot)
  | 0, _, _, _, _ => none
  | fuel + 1, anchors, least, keyMayCome, s =>
    if s.marks '-' then
      if keyMayCome then do
        let (items, anchors, s) ← blockItems? fuel anchors s.column false s
        return (.sequence items, anchors, s)
      else none
    else if s.marks '?' || s.marks ':' then
      if keyMayCome then do
        let (members, anchors, s) ← blockMembers? fuel anchors s.column s
        return (.mapping members, anchors, s)
      else none
    else do
      let (p, content) ← properties? false 3 {} s
      if p.present && !content.hasContent then
        let next := content.ahead false false
        if next.atEnd || next.column < least then
          let (n, anchors) := p.on .empty anchors
          return (n, anchors, content)
        else
          let (n, anchors, s) ← blockNode? fuel anchors least true next
          let (n, anchors) := p.on n anchors
          return (n, anchors, s)
      else
        let (n, inner, after) ← inlineNode? fuel anchors least content
        -- what has been read is a key, so the mapping is read from the key on
        if after.pastRoom.marks ':' then
          if keyMayCome && after.line == s.line then
            let (members, anchors, s) ← blockMembers? fuel anchors s.column s
            return (.mapping members, anchors, s)
          else none
        else
          let (n, anchors) := p.on n inner
          return (n, anchors, after)
termination_by structural fuel => fuel

/-- What stands behind a dash, a question mark or a colon. -/
def blockValue? :
    Nat → Anchors → (column : Nat) → (keyMayCome isValue : Bool) → Spot →
      Option (Node × Anchors × Spot)
  | 0, _, _, _, _, _ => none
  | fuel + 1, anchors, column, keyMayCome, isValue, s =>
    let next := s.ahead false keyMayCome
    if next.atEnd then some (.empty, anchors, next)
    else if next.line = s.line then blockNode? fuel anchors (column + 1) keyMayCome next
    else if column < next.column then blockNode? fuel anchors (column + 1) true next
    else if isValue && next.column == column && next.marks '-' then do
      let (items, anchors, s) ← blockItems? fuel anchors column true next
      return (.sequence items, anchors, s)
    else some (.empty, anchors, next)
termination_by structural fuel => fuel

/-- The items of a sequence whose dashes stand in a column. As the value of a mapping in the same
column it ends where no dash comes. -/
def blockItems? : Nat → Anchors → (column : Nat) → (isValue : Bool) → Spot →
    Option (List Node × Anchors × Spot)
  | 0, _, _, _, _ => none
  | fuel + 1, anchors, column, isValue, s => do
    let (item, anchors, s) ← blockValue? fuel anchors column true false (s.skip 1)
    let next := s.ahead false false
    if next.atEnd then return ([item], anchors, next)
    else if !next.fresh || column < next.column then none
    else if next.column < column then return ([item], anchors, next)
    else if next.marks '-' then
      let (items, anchors, s) ← blockItems? fuel anchors column isValue next
      return (item :: items, anchors, s)
    else if isValue then return ([item], anchors, next)
    else none
termination_by structural fuel => fuel

/-- A key of a block mapping, and the place of the colon behind it if one comes. -/
def blockKey? : Nat → Anchors → (column : Nat) → Spot → Option (Node × Anchors × Spot)
  | 0, _, _, _ => none
  | fuel + 1, anchors, column, s =>
    if s.marks '?' then do
      let (key, anchors, s) ← blockValue? fuel anchors column true false (s.skip 1)
      return (key, anchors, s.ahead false false)
    else if s.marks ':' then some (.empty, anchors, s)
    else if s.marks '-' then none
    else do
      let (p, content) ← properties? false 3 {} s
      let (key, anchors, after) ←
        if content.marks ':' then some (.empty, anchors, content)
        else inlineNode? fuel anchors 0 content
      let colon := after.pastRoom
      if colon.marks ':' && colon.line == s.line then
        let (key, anchors) := p.on key anchors
        return (key, anchors, colon)
      else none
termination_by structural fuel => fuel

/-- The members of a mapping whose keys stand in a column. -/
def blockMembers? : Nat → Anchors → (column : Nat) → Spot →
    Option (List (Node × Node) × Anchors × Spot)
  | 0, _, _, _ => none
  | fuel + 1, anchors, column, s => do
    let isExplicit := s.marks '?'
    let (key, anchors, colon) ← blockKey? fuel anchors column s
    let (value, anchors, s) ←
      if colon.marks ':' && (!isExplicit || colon.column == column) then
        blockValue? fuel anchors column (isExplicit || s.marks ':') true (colon.skip 1)
      else some (.empty, anchors, colon)
    let next := s.ahead false false
    if next.atEnd then return ([(key, value)], anchors, next)
    else if !next.fresh || column < next.column then none
    else if next.column < column then return ([(key, value)], anchors, next)
    else
      let (members, anchors, s) ← blockMembers? fuel anchors column next
      return ((key, value) :: members, anchors, s)
termination_by structural fuel => fuel

end

/-! ## Documents -/

/-- Characters that a text may hold. -/
def isPermitted (c : Char) : Bool :=
  let n := c.toNat
  n == 0x09 || n == 0x0A || n == 0x0D || (0x20 ≤ n && n ≤ 0x7E) || n == 0x85
    || (0xA0 ≤ n && n ≤ 0xD7FF) || (0xE000 ≤ n && n ≤ 0xFFFD) || 0x10000 ≤ n

/-- The text with every line end as one character. -/
def withLineEnds : List Char → List Char
  | [] => []
  | '\r' :: '\n' :: cs => '\n' :: withLineEnds cs
  | '\r' :: cs | '\u0085' :: cs => '\n' :: withLineEnds cs
  | c :: cs => c :: withLineEnds cs

/-- The place behind the directives and the marker that start a document, and whether there is a
marker. -/
def documentStart? : Nat → Bool → Spot → Option (Bool × Spot)
  | 0, _, _ => none
  | fuel + 1, directives, s =>
    let s := s.ahead false true
    if s.column = 0 ∧ s.holds '%' then
      documentStart? fuel true (s.skip (s.rest.takeWhile (· ≠ '\n')).length)
    else if s.atMarker ∧ s.holds '-' then some (true, s.skip 3)
    else if directives then none
    else some (false, s)

/-- Nothing but ends of documents comes. -/
def onlyEnds : Nat → Spot → Bool
  | 0, _ => false
  | fuel + 1, s =>
    let s := s.ahead false true
    if s.rest.isEmpty then true
    else if s.atMarker && s.holds '.' then
      let line := (s.skip 3).rest.takeWhile (· ≠ '\n')
      lineIsDone line && onlyEnds fuel (s.skip (3 + line.length))
    else false

/-- The document that a text holds: nothing for a text without one, and no answer for a text that
is not YAML or holds several. -/
def read? (text : String) : Option (Option Node) :=
  let cs := withLineEnds text.toList
  let cs := match cs with
    | '\uFEFF' :: rest => rest
    | cs => cs
  if !cs.all isPermitted then none
  else
    let fuel := 8 * cs.length + 16
    let start : Spot := { rest := cs }
    if onlyEnds fuel start then some none
    else do
      let (isMarked, s) ← documentStart? fuel false start
      let next := s.ahead false !isMarked
      if next.atEnd then
        if onlyEnds fuel next then return some .empty else none
      else
        let (n, _, s) ← blockNode? fuel [] 0 (!isMarked || next.line != s.line) next
        let after := s.ahead false false
        if after.rest.isEmpty then return some n
        else if after.atMarker && onlyEnds fuel after then return some n
        else none

end Runbook.Yaml
