import JobPlane.Bytes
import JobPlane.Text.Blank
import JobPlane.Text.Cut

/-!
# Request headers

A request's header lines in order. A header may come in several lines, and a line may list several elements between commas. A
line that is not printable text lists nothing.
-/

namespace JobPlane.Http

/-- The lines of a header section: the name of each in small letters, and its value. -/
abbrev Headers := List (String × Bytes)

/-- Whether a character may stand in the name of a header. -/
def Header.isNameChar (c : Char) : Bool := c.isAlphanum || "!#$%&'*+-.^_`|~".toList.contains c

/-- The name of a header in small letters, if it is one. -/
def Header.name? (text : String) : Option String :=
  if text.isEmpty || !text.toList.all Header.isNameChar then none else some (String.ofList (Text.foldCase text.toList))

/-- Whether a byte may stand in the value of a header. -/
def isValueByte (b : UInt8) : Bool := b = 9 || (32 ≤ b && b ≠ 127)

/-- The value of a header as it arrives over a connection, where blanks around it do not count. -/
def withoutBlanks (value : Bytes) : Bytes :=
  let isBlank (b : UInt8) : Bool := b = 9 || b = 32
  ((value.dropWhile isBlank).reverse.dropWhile isBlank).reverse

/-- The character a byte stands for, if it is a tab or printable. -/
def printable? (b : UInt8) : Option Char := if b = 9 || (32 ≤ b && b < 127) then some (Char.ofNat b.toNat) else none

/-- The text of a header line, if it is printable throughout. -/
def lineText? (value : Bytes) : Option (List Char) := value.mapM printable?

/-- The elements that header lines list, each without the blanks around it. -/
def elements (lines : List Bytes) : List (List Char) :=
  ((lines.filterMap lineText?).flatMap (Text.pieces ',')).map Text.trim

/-- The lines of one header. -/
def Headers.lines (hs : Headers) (name : String) : List Bytes := (hs.filter (·.1 == name)).map (·.2)

/-- Whether header lines list a word, in whatever case. -/
def listsWord (lines : List Bytes) (word : String) : Bool := (elements lines).any (Text.sameFold word.toList)

/-- The part of an element before its parameters. -/
def withoutParameters (element : List Char) : List Char :=
  match Text.cutFirst ';' element with
  | some (before, _) => Text.trim before
  | none => Text.trim element

/-- Whether the lines of an `Accept` header list a media type, in whatever case and with whatever parameters. -/
def accepts (lines : List Bytes) (mediaType : String) : Bool :=
  (elements lines).any fun e => Text.sameFold mediaType.toList (withoutParameters e)

end JobPlane.Http
