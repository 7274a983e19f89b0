import RuleLowering.Data.Display
import RuleLowering.Json.Cause
import RuleLowering.Text.Lines

/-!
# Faults

Why an operation gives no result. Problems in the user's rules are not among them: those
become markers in the output. Each fault is of one kind, and its wording is in one place.
-/
namespace RuleLowering

/-- A part of a document whose shape is checked. -/
inductive Part where
  | expression
  | clause
  | form
  | expressionList
  | clauseList
  | formList
  deriving DecidableEq, Repr

def Part.text : Part → String
  | .expression => "expression"
  | .clause => "clause"
  | .form => "form"
  | .expressionList => "expression list"
  | .clauseList => "clause list"
  | .formList => "form list"

/-- A field of a day or a moment that is out of its range. -/
inductive CalendarField where
  | year (n : Nat)
  | month
  | day
  | hour
  | minute
  | second
  /-- The distance from universal time in seconds, a day or more. -/
  | offset (seconds : Int)
  deriving DecidableEq, Repr

inductive Fault where
  /-- A rule has no clauses, hence no arity. -/
  | noClauses (name pos : Data)
  /-- The clauses of a rule differ in arity. -/
  | mixedArity (name pos : Data) (arities : List Nat)
  | optionsNotMapping (found : String)
  | unknownOptions (names : List Text)
  | emptyOption (name : Data)
  | brokenOptionsFile (path : String)
  /-- The names of unknown options cannot be listed. -/
  | unlistableOptions (cause : Fault)
  | missingField (name : String)
  | notMapping (part : Part) (found : String)
  | notList (part : Part) (found : String)
  | unknownType (part : Part) (found : Data)
  /-- A generic attribute bears the name of an attribute that has a variant of its own. -/
  | reservedAttribute (name variant : String)
  /-- No violation has the given name. -/
  | unknownViolation (name : Data)
  /-- No mode of the source printer has the given name. -/
  | unknownMode (name : String)
  /-- An expression is absent where one is needed. -/
  | absentExpression
  | notIterable (found : String)
  | notUnpackable (found : String)
  | tooFewItems (found : Nat)
  | tooManyItems
  | unhashable (found : String)
  | incomparable (left right : String)
  | momentAgainstDay
  /-- Of two moments to be ordered, one has a distance from universal time and one has none. -/
  | mixedZones
  /-- An item of a sequence of texts is not a text. -/
  | itemNotText (index : Nat) (found : String)
  /-- A text is needed, to be looked at character by character. -/
  | notText (found : String)
  | keyNotWritable (found : String)
  | valueNotWritable (found : String)
  | json (cause : Json.Cause) (spot : Text.Spot)
  /-- A whole number has too many digits to be read. -/
  | longInteger (digits : Nat)
  /-- A whole number has too many digits to be written. -/
  | numberTooLong
  /-- A container stands inside itself where that cannot be written. -/
  | circular
  /-- A container stands inside itself where all that is in it is gone into. -/
  | endless
  /-- A YAML text is malformed, or a tag does not fit its node. -/
  | yaml
  | badInteger (text : Text) (base : Nat)
  | badFloat (text : Text)
  | badTruth (text : Text)
  | emptyNumber
  | noTimestamp
  | badCalendar (field : CalendarField)
  | badCharacterCode
  /-- A code that no character can have is too great even to be looked at. -/
  | hugeCharacterCode
  /-- A power of sixty exceeds all floating numbers. -/
  | hugePower
  /-- Half of a surrogate pair cannot be stored. -/
  | unstorable
  | noFile (path : String)
  | isDirectory (path : String)
  | notDirectory (path : String)
  | longName (path : String)
  /-- A path has the character U+0000 in it. -/
  | brokenPath
  deriving Repr

namespace Fault

/-- The kinds of faults that a caller may want to tell apart. -/
inductive Kind where
  /-- A rule that has no identity. -/
  | form
  /-- Options that are none. -/
  | options
  /-- Nothing is found under a name. -/
  | missingKey
  /-- A value is of a kind that cannot be used here. -/
  | mismatch
  /-- A value is of the right kind, and will not do. -/
  | invalid
  /-- Nothing stands where something is needed. -/
  | absence
  /-- A text without characters has no first one. -/
  | blank
  /-- A number is too great for what it is used for, or a value too deep. -/
  | overflow
  /-- A text cannot be stored. -/
  | encoding
  | json
  | yaml
  | noFile
  | isDirectory
  | notDirectory
  /-- Any other reason why a file cannot be opened. -/
  | badName
  deriving DecidableEq, Repr

def kind : Fault → Kind
  | noClauses .. | mixedArity .. => .form
  | optionsNotMapping _ | unknownOptions _ | emptyOption _ | brokenOptionsFile _ => .options
  | missingField _ | badTruth _ => .missingKey
  | notMapping .. | notList .. | unknownType .. | notIterable _ | notUnpackable _ | unhashable _
  | incomparable .. | momentAgainstDay | mixedZones | itemNotText .. | notText _
  | keyNotWritable _ | valueNotWritable _ => .mismatch
  | reservedAttribute .. | unknownViolation _ | unknownMode _ | tooFewItems _ | tooManyItems
  | longInteger _ | numberTooLong | circular | badInteger .. | badFloat _ | badCalendar _
  | badCharacterCode | brokenPath => .invalid
  | hugeCharacterCode | hugePower | endless => .overflow
  | unstorable => .encoding
  | absentExpression | noTimestamp => .absence
  | emptyNumber => .blank
  | json .. => .json
  | yaml => .yaml
  | noFile _ => .noFile
  | isDirectory _ => .isDirectory
  | notDirectory _ => .notDirectory
  | longName _ => .badName
  | unlistableOptions cause => cause.kind

def CalendarField.message : CalendarField → String
  | .year n => "year " ++ toString n ++ " is out of range"
  | .month => "month must be in 1..12"
  | .day => "day is out of range for month"
  | .hour => "hour must be in 0..23"
  | .minute => "minute must be in 0..59"
  | .second => "second must be in 0..59"
  | .offset seconds =>
    "offset must be a timedelta strictly between -timedelta(hours=24) and timedelta(hours=24), not "
      ++ Data.distanceText seconds ++ "."

def numbersText (ns : List Nat) : String :=
  "[" ++ Data.joinWith ", " (ns.map toString) ++ "]"

def message : Fault → Text
  | noClauses name pos => "Rule '" ++ name.display ++ "' at " ++ pos.display ++ " has no clauses"
  | mixedArity name pos arities =>
    "Rule '" ++ name.display ++ "' at " ++ pos.display ++ " has clauses of differing arity: "
      ++ numbersText arities
  | optionsNotMapping found => "Options must be a mapping, got " ++ found
  | unknownOptions names => "Unknown options: " ++ .join ", " names
  | emptyOption name => "Option '" ++ name.display ++ "' must be a non-empty string"
  | brokenOptionsFile path => "Invalid YAML in " ++ path
  | unlistableOptions cause => cause.message
  | missingField name => "'" ++ name ++ "'"
  | notMapping part found => "Expected a mapping for " ++ part.text ++ ", got " ++ found
  | notList part found => "Expected a list for " ++ part.text ++ ", got " ++ found
  | unknownType part found => "Unsupported " ++ part.text ++ " dict type: " ++ found.display
  | reservedAttribute name variant => "'" ++ name ++ "' attributes must use " ++ variant
  | unknownViolation name => name.inner ++ " is not a valid ErrorKind"
  | unknownMode name => Text.shown name ++ " is not a valid SourceMode"
  | absentExpression => "'NoneType' object has no attribute 'kind'"
  | notIterable found => "'" ++ found ++ "' object is not iterable"
  | notUnpackable found => "cannot unpack non-iterable " ++ found ++ " object"
  | tooFewItems found => "not enough values to unpack (expected 2, got " ++ toString found ++ ")"
  | tooManyItems => "too many values to unpack (expected 2)"
  | unhashable found => "unhashable type: '" ++ found ++ "'"
  | incomparable left right =>
    "'<' not supported between instances of '" ++ left ++ "' and '" ++ right ++ "'"
  | momentAgainstDay => "can't compare datetime.datetime to datetime.date"
  | mixedZones => "can't compare offset-naive and offset-aware datetimes"
  | itemNotText index found =>
    "sequence item " ++ toString index ++ ": expected str instance, " ++ found ++ " found"
  | notText found => "expected string or bytes-like object, got '" ++ found ++ "'"
  | keyNotWritable found => "keys must be str, int, float, bool or None, not " ++ found
  | valueNotWritable found => "Object of type " ++ found ++ " is not JSON serializable"
  | json cause spot =>
    cause.message ++ ": line " ++ toString spot.line ++ " column " ++ toString spot.column
      ++ " (char " ++ toString spot.index ++ ")"
  | longInteger digits =>
    "Exceeds the limit (4300 digits) for integer string conversion: value has " ++ toString digits
      ++ " digits; use sys.set_int_max_str_digits() to increase the limit"
  | numberTooLong =>
    "Exceeds the limit (4300 digits) for integer string conversion; use "
      ++ "sys.set_int_max_str_digits() to increase the limit"
  | circular => "Circular reference detected"
  | endless => "maximum recursion depth exceeded"
  | yaml => "<yaml error>"
  | badInteger text base =>
    "invalid literal for int() with base " ++ toString base ++ ": "
      ++ String.ofList ((Text.shown text).toList.take 200)
  | badFloat text => "could not convert string to float: " ++ Text.shown text
  | badTruth text => Text.shown text
  | emptyNumber => "string index out of range"
  | noTimestamp => "'NoneType' object has no attribute 'groupdict'"
  | badCalendar field => CalendarField.message field
  | badCharacterCode => "chr() arg not in range(0x110000)"
  | hugeCharacterCode => "character code too large"
  | hugePower => "int too large to convert to float"
  | unstorable => "surrogates not allowed"
  | noFile path => "[Errno 2] No such file or directory: " ++ Text.shown path
  | isDirectory path => "[Errno 21] Is a directory: " ++ Text.shown path
  | notDirectory path => "[Errno 20] Not a directory: " ++ Text.shown path
  | longName path => "[Errno 36] File name too long: " ++ Text.shown path
  | brokenPath => "embedded null byte"

/-- A fault whose wording shows some values, unless one of them cannot be written. -/
def showing (values : List Data) (f : Fault) : Fault :=
  if values.all Data.isWritable then f else numberTooLong

end Fault

end RuleLowering
