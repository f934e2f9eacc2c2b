import JobPlane.Http.Header

/-!
# The media type of a request body

Whether a `Content-Type` says that a body is JSON: a type, a slash, a subtype that may end in a suffix after a plus sign, and
parameters after semicolons, of which the last may be followed by none. A text of any other shape names no media type.
-/

namespace JobPlane.Http.MediaType

/-- The token at the start of a text, which is made of the characters that a header's name may have, and what follows it. -/
def spanToken (cs : List Char) : List Char × List Char := (cs.takeWhile Header.isNameChar, cs.dropWhile Header.isNameChar)

/-- Whether a character may stand between quotes. -/
def isQuotable (c : Char) : Bool := 31 < c.toNat && c.toNat ≠ 127

/-- What follows the quote that closes a value. -/
def afterQuote : List Char → Option (List Char)
  | [] => none
  | '"' :: rest => some rest
  | c :: rest => if isQuotable c then afterQuote rest else none

/-- Passes over a quoted value, from after its opening quote to after its closing one. A value has at least one character, and
its first may be a quote. -/
def skipQuoted : List Char → Option (List Char)
  | [] => none
  | c :: rest => if isQuotable c then afterQuote rest else none

/-- What a parameter's value leaves to be read: nothing more, or further parameters. -/
inductive AfterValue
  | atEnd
  | more (cs : List Char)

/-- Passes over a parameter's value, from after the equals sign. -/
def skipValue (cs : List Char) : Option AfterValue :=
  match cs with
  | '"' :: cs => do
    match (← skipQuoted cs).dropWhile (· = ' ') with
    | [] => some .atEnd
    | ';' :: cs => some (.more cs)
    | _ => none
  | cs =>
    match spanToken cs with
    | (_, []) => some .atEnd
    | (_ :: _, ';' :: cs) => some (.more cs)
    | _ => none

/-- Whether a text consists of parameters. Blanks may stand before each, and after the semicolon that ends the last. `fuel` bounds
their number. -/
def areParameters : Nat → List Char → Bool
  | 0, _ => false
  | fuel + 1, cs =>
    match cs.dropWhile (· = ' ') with
    | [] => true
    | cs =>
      match spanToken cs with
      | (_ :: _, '=' :: rest) =>
        match skipValue rest with
        | some .atEnd => true
        | some (.more rest) => areParameters fuel rest
        | none => false
      | _ => false

/-- The type and the subtype of a media type whose parameters are well formed. Only a semicolon ends the subtype. -/
def parse (cs : List Char) : Option (List Char × List Char) :=
  match spanToken cs with
  | (kind, '/' :: rest) =>
    let (subtype, rest) := spanToken rest
    if kind.isEmpty || subtype.isEmpty then none
    else match rest with
      | [] => some (kind, subtype)
      | ';' :: rest => if areParameters (rest.length + 1) rest then some (kind, subtype) else none
      | _ => none
  | _ => none

/-- Whether a subtype is the given one or has it as its suffix. A plus sign at the start begins no suffix. -/
def isOrEndsIn (word subtype : List Char) : Bool :=
  match Text.cutLast '+' subtype with
  | some (c :: name, suffix) => Text.sameFold word suffix || Text.sameFold word (c :: name)
  | _ => Text.sameFold word subtype

/-- Whether a text names JSON. -/
def isJson (cs : List Char) : Bool :=
  match parse cs with
  | some (kind, subtype) => Text.sameFold "application".toList kind && isOrEndsIn "json".toList subtype
  | none => false

/-- Whether a body is JSON by the first line of its `Content-Type`. -/
def saysJson (lines : List Bytes) : Bool :=
  match lines with
  | line :: _ => (lineText? line).any isJson
  | [] => false

end JobPlane.Http.MediaType
