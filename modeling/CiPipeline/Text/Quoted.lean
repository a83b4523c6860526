import CiPipeline.Text.Half
import CiPipeline.Text.Printable

/-!
Quotation of texts in messages. A text stands between single quotes, or between double quotes when
it holds a single quote and no double one; what cannot be seen is spelled by an escape.
-/

namespace CiPipeline.Text

/-- The character `U+0027`. -/
def singleQuote : Char := Char.ofNat 0x27

/-- The character `U+0022`. -/
def doubleQuote : Char := Char.ofNat 0x22

/-- The digit of a value below sixteen, in lower case. -/
def hexDigit (n : Nat) : Char :=
  if n < 10 then Char.ofNat (0x30 + n) else Char.ofNat (0x57 + n)

/-- The last `width` hexadecimal digits of a number. -/
def hexDigits : Nat → Nat → List Char
  | 0, _ => []
  | width + 1, n => hexDigits width (n / 16) ++ [hexDigit (n % 16)]

/-- The spelling of a code point that cannot be shown: two, four or eight digits as it needs. -/
def escapeCode (code : Nat) : List Char :=
  if code < 0x100 then '\\' :: 'x' :: hexDigits 2 code
  else if code < 0x10000 then '\\' :: 'u' :: hexDigits 4 code
  else '\\' :: 'U' :: hexDigits 8 code

/-- One character inside a quotation that uses the quote `mark`. -/
def quoteChar (mark c : Char) : List Char :=
  if c = mark ∨ c = '\\' then ['\\', c]
  else if c = '\n' then ['\\', 'n']
  else if c = '\r' then ['\\', 'r']
  else if c = '\t' then ['\\', 't']
  else if isPrintable c then [c]
  else escapeCode (codeOf c)

/-- The quote that a quotation of this text uses: the double one only where it saves an escape. -/
def quoteMark (s : List Char) : Char :=
  if s.contains singleQuote && !s.contains doubleQuote then doubleQuote else singleQuote

/-- The quotation of a text. -/
def quoted (s : String) : String :=
  let mark := quoteMark s.toList
  String.ofList (mark :: s.toList.flatMap (quoteChar mark) ++ [mark])

/-- One byte inside a quotation that uses the quote `mark`: only those of ASCII are characters. -/
def quoteByte (mark : Char) (byte : Nat) : List Char :=
  if byte < 0x80 then quoteChar mark (Char.ofNat byte) else escapeCode byte

/-- The quotation of some bytes, with a letter in front of it. -/
def quotedBytes (bytes : List Nat) : String :=
  let mark := quoteMark (bytes.map Char.ofNat)
  String.ofList ('b' :: mark :: bytes.flatMap (quoteByte mark) ++ [mark])

/-- A text between single quotes, with nothing escaped. -/
def enclosed (s : String) : String :=
  String.ofList (singleQuote :: s.toList ++ [singleQuote])

/-- The quotation of a list of texts, between square brackets. -/
def quotedList (texts : List String) : String :=
  "[" ++ ", ".intercalate (texts.map quoted) ++ "]"

end CiPipeline.Text
