import Runbook.Text.Split

/-!
# Code spans

Within a line, code is set between two backticks. Backticks pair up from the left; a last one
without a partner opens nothing.
-/

set_option autoImplicit false

namespace Runbook.Markdown

def codeQuote : Char := '\x60'

/-- Of the pieces between quotes, those that a quote both opens and closes. -/
def quotedPieces : List (List Char) → List (List Char)
  | _ :: quoted :: after :: rest => quoted :: quotedPieces (after :: rest)
  | _ => []

/-- The code spans of a line, in order. One may be empty: two quotes with nothing between them are a
pair. -/
def codeSpans (line : List Char) : List (List Char) := quotedPieces (Text.pieces codeQuote line)

/-- The text between quotes. Nothing is escaped, so it is read back only if it has no quote in it. -/
def quoted (code : String) : String :=
  String.singleton codeQuote ++ code ++ String.singleton codeQuote

end Runbook.Markdown
