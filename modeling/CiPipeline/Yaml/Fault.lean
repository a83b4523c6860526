import CiPipeline.Value.Limit

/-!
What can be wrong with a text that should be YAML. A text may be no document at all, or it may be a
document in which a scalar has the form of a value and yet has none.
-/

namespace CiPipeline.Yaml

/-- Why a scalar has no value. -/
inductive ValueFault
  /-- Where an integer of a base belongs stands something else. -/
  | notInteger (base : Nat) (text : String)
  /-- Where a number belongs stands something else. -/
  | notNumber (text : String)
  /-- Where a number belongs stands nothing. -/
  | noNumber
  | notTruth (word : String)
  | notTime
  | tooManyDigits (count : Nat)
  /-- A power of sixty is too great for a binary number. -/
  | powerTooGreat
  /-- An escape gives the code of no character. -/
  | codeTooGreat
  /-- An escape gives a code that no signed word of 32 bits holds. -/
  | codeTooLong
  /-- A time stands in an entry of a mapping. -/
  | timeInParts
  /-- Where a text belongs stands a mapping that stands for itself. -/
  | endless
  | time (fault : CalendarFault)
  deriving DecidableEq, Repr

namespace ValueFault

/-- The kind of a fault, for those who look for its cause. -/
def kind : ValueFault → String
  | notInteger .. | notNumber _ | tooManyDigits _ | codeTooGreat | time _ => "ValueError"
  | noNumber => "IndexError"
  | notTruth _ => "KeyError"
  | notTime => "AttributeError"
  | powerTooGreat | codeTooLong => "OverflowError"
  | timeInParts => "TypeError"
  | endless => "RecursionError"

/-- So much of a text that is no integer is shown. -/
def maxShown : Nat := 200

/-- The wording of a fault. -/
def message : ValueFault → String
  | notInteger base text =>
    "invalid literal for int() with base " ++ toString base ++ ": " ++
      String.ofList ((Text.quoted text).toList.take maxShown)
  | notNumber text => "could not convert string to float: " ++ Text.quoted text
  | noNumber => "string index out of range"
  | notTruth word => Text.quoted word
  | notTime => Text.enclosed "NoneType" ++ " object has no attribute " ++ Text.enclosed "groupdict"
  | tooManyDigits count =>
    "Exceeds the limit (" ++ toString Number.maxIntDigits ++
      " digits) for integer string conversion: value has " ++ toString count ++
      " digits; use sys.set_int_max_str_digits() to increase the limit"
  | powerTooGreat => "int too large to convert to float"
  | codeTooGreat => "chr() arg not in range(0x110000)"
  | codeTooLong => "Python int too large to convert to C int"
  | timeInParts => "expected string or bytes-like object, got " ++ Text.enclosed "list"
  | endless => "maximum recursion depth exceeded"
  | time fault => fault.message

end ValueFault

/-- Why a text is no document. -/
inductive Fault
  | unprintable (c : Char)
  | unexpectedCharacter (c : Char)
  | unclosedQuote
  /-- A marker between documents stands inside a quoted text. -/
  | separatorInQuote
  | unknownEscape
  | blockHeader
  | directive
  | anchorName
  | tagName
  | misplacedEntry
  | misplacedKey
  | misplacedValue
  /-- What can only be a key has no colon after it. -/
  | missingColon
  | unexpectedToken
  | wrongVersion
  | repeatedDirective
  | unknownHandle (handle : String)
  | unknownAnchor (name : String)
  | repeatedAnchor (name : String)
  | unknownTag (text : String)
  /-- A node is not of the shape that its tag says. -/
  | wrongShape
  /-- What is to be merged into a mapping is no mapping. -/
  | mergeOfOther
  /-- Where bytes belong stands something else. -/
  | notBytes
  /-- A list or a mapping stands where a key must be. -/
  | compositeKey
  | severalDocuments
  | value (fault : ValueFault)
  deriving DecidableEq, Repr

/-- The wording of a fault. -/
def Fault.message : Fault → String
  | unprintable _ => "special characters are not allowed"
  | unexpectedCharacter c =>
    "found character " ++ Text.quoted (String.singleton c) ++ " that cannot start any token"
  | unclosedQuote => "found unexpected end of stream"
  | separatorInQuote => "found unexpected document separator"
  | unknownEscape => "found unknown escape character"
  | blockHeader => "expected chomping or indentation indicators, or a line break"
  | directive => "expected a directive"
  | anchorName => "expected alphabetic or numeric character"
  | tagName => "expected a tag"
  | misplacedEntry => "sequence entries are not allowed here"
  | misplacedKey => "mapping keys are not allowed here"
  | misplacedValue => "mapping values are not allowed here"
  | missingColon => "could not find expected ':'"
  | unexpectedToken => "did not find expected node"
  | wrongVersion => "found incompatible YAML document (version 1.* is required)"
  | repeatedDirective => "found duplicate directive"
  | unknownHandle handle => "found undefined tag handle " ++ Text.quoted handle
  | unknownAnchor name => "found undefined alias " ++ Text.quoted name
  | repeatedAnchor name => "found duplicate anchor " ++ Text.quoted name
  | unknownTag text => "could not determine a constructor for " ++ Text.quoted text
  | wrongShape => "found a node of another shape than its tag says"
  | mergeOfOther => "expected a mapping or list of mappings for merging"
  | notBytes => "failed to decode base64 data"
  | compositeKey => "found unhashable key"
  | severalDocuments => "expected a single document"
  | value fault => fault.message

end CiPipeline.Yaml
