/-!
# What can be wrong with a JSON text

Each fault has one sentence. A fault is either an early end of the text or something in the text
that no JSON text may hold.
-/

namespace CjsxConversion
namespace Json

/-- What a reader of JSON objects to. -/
inductive Fault where
  | endInArray
  | endInObject
  | endInString
  | endInValue
  | noColon
  | noCommaOrBracket
  | noCommaOrBrace
  | badWord
  | noValue
  | badEscape
  | badNumeral
  | hugeNumeral
  | controlCharacter
  | keyNotString
  | loneSurrogate
  | brokenPair
  | trailingComma
  | trailingText
  | tooDeep
  deriving DecidableEq, Repr

namespace Fault

/-- Whether the fault is that the text ends too early. -/
def isEarlyEnd : Fault → Bool
  | .endInArray | .endInObject | .endInString | .endInValue => true
  | _ => false

/-- The sentence shown for a fault. -/
def message : Fault → String
  | .endInArray => "EOF while parsing a list"
  | .endInObject => "EOF while parsing an object"
  | .endInString => "EOF while parsing a string"
  | .endInValue => "EOF while parsing a value"
  | .noColon => "expected `:`"
  | .noCommaOrBracket => "expected `,` or `]`"
  | .noCommaOrBrace => "expected `,` or `\x7d`"
  | .badWord => "expected ident"
  | .noValue => "expected value"
  | .badEscape => "invalid escape"
  | .badNumeral => "invalid number"
  | .hugeNumeral => "number out of range"
  | .controlCharacter => "control character (\\u0000-\\u001F) found while parsing a string"
  | .keyNotString => "key must be a string"
  | .loneSurrogate => "lone leading surrogate in hex escape"
  | .brokenPair => "unexpected end of hex escape"
  | .trailingComma => "trailing comma"
  | .trailingText => "trailing characters"
  | .tooDeep => "recursion limit exceeded"

end Fault
end Json
end CjsxConversion
