import CiPipeline.Crash
import CiPipeline.Text.Quoted

/-!
Encodings, by which texts leave the program as bytes. An encoding lacks the characters that it has no bytes
for, and whoever puts a text with one of them into bytes crashes. Names of files and variables are spared
some: a byte in them that is no text comes in as half a character, and goes out as that byte again.
-/

namespace CiPipeline

/-- A way to put texts into bytes. -/
structure Encoding where
  name : String
  /-- Whether there are no bytes for a character. -/
  lacks : Char → Bool
  /-- Whether a character that is lacking stands for a byte all the same. -/
  spares : Char → Bool := fun _ => false
  /-- What is said of characters that are lacking. -/
  reason : String
  lacks_ascii : ∀ c : Char, c.toNat < 0x80 → lacks c = false

namespace Encoding

/-- The usual encoding: it lacks the halves of characters and nothing else. -/
def utf8 : Encoding where
  name := "utf-8"
  lacks := Text.isHalf
  reason := "surrogates not allowed"
  lacks_ascii := Text.isHalf_of_ascii

/-- The encoding of the names of files and variables. -/
def ofNames : Encoding :=
  { utf8 with spares := fun c => 0xdc80 ≤ Text.codeOf c && Text.codeOf c < 0xdd00 }

/-- Whether a character cannot be put into bytes. -/
def refuses (encoding : Encoding) (c : Char) : Bool :=
  encoding.lacks c && !encoding.spares c

/-- Whether a text cannot be put into bytes. -/
def rejects (encoding : Encoding) (text : String) : Bool :=
  text.toList.any encoding.refuses

/--
The first characters of a text that cannot be put into bytes, and where they begin. All that is lacking
right behind the first one counts as one with it.
-/
def refused (encoding : Encoding) (text : String) : Nat × List Char :=
  let before := text.toList.takeWhile (!encoding.refuses ·)
  (before.length, (text.toList.drop before.length).takeWhile encoding.lacks)

/-- What is wrong with a text that cannot be put into bytes. -/
def complaint (encoding : Encoding) (text : String) : String :=
  let (start, chars) := encoding.refused text
  let what := match chars with
    | [c] =>
      "character " ++ Text.enclosed (String.ofList (Text.escapeCode (Text.codeOf c))) ++
        " in position " ++ toString start
    | _ =>
      "characters in position " ++ toString start ++ "-" ++ toString (start + chars.length - 1)
  Text.enclosed encoding.name ++ " codec can't encode " ++ what ++ ": " ++ encoding.reason

/-- The kind of crash of whoever puts into bytes what cannot be. -/
def crashKind : String := "UnicodeEncodeError"

/-- The crash of whoever puts a text into bytes that cannot be. -/
def crash (encoding : Encoding) (text : String) : Crash :=
  ⟨crashKind, encoding.complaint text⟩

/-- A text with the characters spelled out that are lacking. -/
def spellOut (encoding : Encoding) (text : String) : String :=
  String.ofList (text.toList.flatMap fun c =>
    if encoding.lacks c then Text.escapeCode (Text.codeOf c) else [c])

end Encoding
end CiPipeline
