import ParamCheck.Document.Lexer
import ParamCheck.Document.Node

/-!
# YAML documents

`readYaml` reads a text that holds at most one document, in blocks by indent or in brackets and
braces. A text without a document holds nothing.
-/

namespace ParamCheck.Document

/-- Whether a character may stand in a document. -/
def isDocumentChar (c : Char) : Bool :=
  c = '\t' || c = '\n' || (0x20 ≤ c.toNat && c.toNat ≤ 0x7E) || c.toNat = 0x85
    || (0xA0 ≤ c.toNat && c.toNat ≠ 0xFFFE && c.toNat ≠ 0xFFFF)

/-- The text with every line ended by a newline alone. -/
def unifyNewlines : List Char → List Char
  | [] => []
  | '\r' :: '\n' :: cs => '\n' :: unifyNewlines cs
  | '\r' :: cs => '\n' :: unifyNewlines cs
  | c :: cs => c :: unifyNewlines cs

/-- Read a document. -/
def readYaml (text : String) : Except Fault Value := do
  let cs := unifyNewlines text.toList
  if !cs.all isDocumentChar then unreadable
  else (← Node.ofTokens (tokens cs)).read

end ParamCheck.Document
