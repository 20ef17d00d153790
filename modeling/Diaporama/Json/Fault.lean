import Diaporama.Host.Fault
import Diaporama.Decimal.Layout
import Diaporama.Text.Quoted

/-!
# Why a JSON text is not read

The faults of a reader that goes through the text once from left to right: a text that is no JSON,
a value of another shape than the one asked for, a record with missing, repeated or too few members,
or a source that stops giving bytes.
-/

namespace Diaporama.Json

/-- Numbers in a JSON text: an exponent below `1e-5` and from `1e16` on, with its sign, and always
a point elsewhere; of two nearest decimals the even one. -/
def numberLayout : Layout :=
  ⟨fun lead => -5 ≤ lead && lead < 16, true, true, .even⟩

inductive Found where
  | null
  | boolean (value : Bool)
  | integer (value : Int)
  | real (value : Float)
  | string (value : String)
  | sequence
  | map
  deriving DecidableEq

def Found.message : Found → String
  | null => "null"
  | boolean true => "boolean `true`"
  | boolean false => "boolean `false`"
  | integer value => "integer `" ++ toString value ++ "`"
  | real value => "floating point `" ++ numberLayout.text value ++ "`"
  | string value => "string " ++ Text.quoted value
  | sequence => "sequence"
  | map => "map"

inductive SyntaxFault where
  | endInValue
  | endInString
  | endInList
  | endInObject
  | noValue
  | noWord
  | noColon
  | noCommaOrBracket
  | noCommaOrBrace
  | keyNoString
  | trailingComma
  | trailingCharacters
  | badNumber
  | numberTooLarge
  | badEscape
  | badCodePoint
  | controlCharacter
  | endOfHexEscape
  | loneSurrogate
  deriving DecidableEq, Repr

def SyntaxFault.message : SyntaxFault → String
  | endInValue => "EOF while parsing a value"
  | endInString => "EOF while parsing a string"
  | endInList => "EOF while parsing a list"
  | endInObject => "EOF while parsing an object"
  | noValue => "expected value"
  | noWord => "expected ident"
  | noColon => "expected `:`"
  | noCommaOrBracket => "expected `,` or `]`"
  | noCommaOrBrace => "expected `,` or `\x7d`"
  | keyNoString => "key must be a string"
  | trailingComma => "trailing comma"
  | trailingCharacters => "trailing characters"
  | badNumber => "invalid number"
  | numberTooLarge => "number out of range"
  | badEscape => "invalid escape"
  | badCodePoint => "invalid unicode code point"
  | controlCharacter => "control character (\\u0000-\\u001F) found while parsing a string"
  | endOfHexEscape => "unexpected end of hex escape"
  | loneSurrogate => "lone leading surrogate in hex escape"

inductive Fault where
  | malformed (cause : SyntaxFault)
  | wrongType (found : Found) (expected : String)
  | outOfRange (found : Found) (expected : String)
  | tooShort (length : Nat) (record : String) (size : Nat)
  | repeatedField (name : String)
  | missingField (name : String)
  | unknownVariant (name : String) (variants : List String)
  | sourceFailed (cause : OsFault)
  deriving DecidableEq

namespace Fault

/-- The names of two or more variants, each between backquotes. -/
def variantNames (variants : List String) : String :=
  " or ".intercalate (variants.map fun name => "`" ++ name ++ "`")

def message : Fault → String
  | malformed cause => cause.message
  | wrongType found expected => "invalid type: " ++ found.message ++ ", expected " ++ expected
  | outOfRange found expected => "invalid value: " ++ found.message ++ ", expected " ++ expected
  | tooShort length record size =>
    "invalid length " ++ toString length ++ ", expected struct " ++ record ++ " with " ++
      toString size ++ " elements"
  | repeatedField name => "duplicate field `" ++ name ++ "`"
  | missingField name => "missing field `" ++ name ++ "`"
  | unknownVariant name variants =>
    "unknown variant `" ++ name ++ "`, expected " ++ variantNames variants
  | sourceFailed cause => cause.message

end Fault

end Diaporama.Json
