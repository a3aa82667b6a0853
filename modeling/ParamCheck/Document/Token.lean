import ParamCheck.Fault

/-!
# Tokens of a document

What a document is made of once its blanks, comments and indents have been dealt with. Indents have
become tokens for the start and the end of a collection. The tokens end with the fault that kept the
rest of the text from being read, if there is one.
-/

namespace ParamCheck.Document

/-- A token of a document. -/
inductive Token where
  | documentStart
  | documentEnd
  | blockSequenceStart
  | blockMappingStart
  | blockEnd
  | flowSequenceStart
  | flowSequenceEnd
  | flowMappingStart
  | flowMappingEnd
  | blockEntry
  | flowEntry
  | key
  | value
  /-- A scalar without quotes. -/
  | plain (text : List Char)
  | quoted (text : List Char)
  /-- The text cannot be read from here on. -/
  | broken (fault : Fault)
  deriving Inhabited

end ParamCheck.Document
