/-!
# YAML nodes

What a settings file says, once its layout is gone. A scalar keeps its style, because only a plain
one can be a number or a truth value, and a quoted one is always text.
-/

set_option autoImplicit false

namespace Runbook.Yaml

/-- How a scalar is written. -/
inductive Style where
  | plain
  | quoted
  /-- As a block whose line ends stay. -/
  | literal
deriving DecidableEq, Repr

inductive Node where
  | scalar (text : String) (style : Style) (tag : Option String)
  | sequence (items : List Node)
  | mapping (members : List (Node × Node))
deriving Inhabited

def Node.empty : Node := .scalar "" .plain none

end Runbook.Yaml
