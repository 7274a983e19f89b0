/-!
# Causes of a malformed JSON text

What a reader may find instead of what the grammar asks for.
-/
namespace RuleLowering.Json

inductive Cause where
  | noValue
  | noComma
  | noColon
  | noName
  | extraData
  | unterminated
  | controlCharacter
  | badEscape
  | badUnicodeEscape
  | byteOrderMark
  deriving DecidableEq, Repr

namespace Cause

def message : Cause → String
  | noValue => "Expecting value"
  | noComma => "Expecting ',' delimiter"
  | noColon => "Expecting ':' delimiter"
  | noName => "Expecting property name enclosed in double quotes"
  | extraData => "Extra data"
  | unterminated => "Unterminated string starting at"
  | controlCharacter => "Invalid control character at"
  | badEscape => "Invalid \\escape"
  | badUnicodeEscape => "Invalid \\uXXXX escape"
  | byteOrderMark => "Unexpected UTF-8 BOM (decode using utf-8-sig)"

end Cause

end RuleLowering.Json
