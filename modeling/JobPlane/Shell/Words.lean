import JobPlane.Shell.Reading

/-!
# Reading words

How the characters of a word become parts: plain text, quoted text, and what is put in later for parameters, commands and
expressions.
-/

namespace JobPlane.Shell

open Reading

namespace Reader

/-- Adds a character to parts that are held backwards. -/
def grow (c : Char) : Word → Word
  | .plain r :: ps => .plain (r ++ [c]) :: ps
  | ps => .plain [c] :: ps

/-- The text between apostrophes, up to the second one. -/
def apostrophes : Reading Part := do
  let inside := (← ahead).takeWhile (· ≠ '\'')
  skipMany inside.length
  if (← ahead).isEmpty then refuse "Unterminated quoted string"
  skip
  return .exact inside

/-- The text between grave accents, in which a backslash only protects a few characters, with a bound. -/
def accented (quoted : Bool) : Nat → Raw → Reading Raw
  | 0, taken => pure taken.reverse
  | n + 1, taken => do
    match ← ahead with
    | [] => refuse "EOF in backquote substitution"
    | '`' :: _ => do
      skip
      return taken.reverse
    | '\\' :: '\n' :: _ => do
      skipMany 2
      accented quoted n taken
    | '\\' :: c :: _ => do
      skipMany 2
      let protects := c = '\\' || c = '`' || c = '$' || (quoted && c = '"')
      accented quoted n (if protects then c :: taken else c :: '\\' :: taken)
    | c :: _ => do
      skip
      accented quoted n (c :: taken)

/-- Commands between grave accents. -/
def oldOutput (self : Reads) (quoted : Bool) : Reading Part := do
  let text ← accented quoted ((← ahead).length + 1) []
  let outer ← get
  set { outer with rest := text, line := 1, ahead := 0, pending := none }
  let body ← self (.commands .any)
  set outer
  return .output body

/-- A token for the commands in parentheses is read by the reader of tokens, which is not at hand here. -/
def closed (self : Reads) : Reading Part := do
  let body ← self (.commands .any)
  match (← get).pending with
  | some .closing => do
    modify fun c => { c with pending := none }
    return .output body
  | some t => unexpected t (some .closing)
  | none => refuse "end of file unexpected (expecting \")\")"

/-- Whether parts stand where quotes keep text from being split. -/
def Mode.isQuoted : Mode → Bool
  | .double | .document | .sum | .braces true => true
  | _ => false

/-- What follows the name of a parameter in braces. -/
def useInBraces (self : Reads) (mode : Mode) : Reading Use := do
  let quoted := Mode.isQuoted mode
  let inside := self (.parts (.braces quoted))
  let pattern := self (.parts (.braces false))
  match ← peek with
  | some '\x7d' => do
    skip
    return .value
  | some ':' => do
    skip
    match ← peek with
    | some '-' => do skip; return .default true (← inside)
    | some '=' => do skip; return .assign true (← inside)
    | some '?' => do skip; return .require true (← inside)
    | some '+' => do skip; return .alternative true (← inside)
    | some '\x7d' => do
      skip
      return .value
    | _ => do
      let _ ← inside
      return .faulty
  | some '-' => do skip; return .default false (← inside)
  | some '=' => do skip; return .assign false (← inside)
  | some '?' => do skip; return .require false (← inside)
  | some '+' => do skip; return .alternative false (← inside)
  | some '#' => do
    skip
    let longest := (← peek) == some '#'
    if longest then skip
    return .trim false longest (← pattern)
  | some '%' => do
    skip
    let longest := (← peek) == some '%'
    if longest then skip
    return .trim true longest (← pattern)
  | _ => do
    let _ ← inside
    return .faulty

/-- What follows a dollar sign and an opening brace. -/
def inBraces (self : Reads) (mode : Mode) : Reading Part := do
  let faulty : Reading Part := do
    let _ ← self (.parts (.braces (Mode.isQuoted mode)))
    return .parameter [] .faulty
  let lengthOf (name : Raw) : Reading Part := do
    match ← peek with
    | some '\x7d' => do
      skip
      return .parameter name .length
    | _ => faulty
  match ← peek with
  | none => faulty
  | some c =>
    if isNameStart c then do
      let name ← takeWhile isNameChar
      return .parameter name (← useInBraces self mode)
    else if c.isDigit then do
      let name ← takeWhile Char.isDigit
      return .parameter name (← useInBraces self mode)
    else if c = '#' then do
      skip
      match ← peek with
      | some d =>
        if isNameStart d then do lengthOf (← takeWhile isNameChar)
        else if d.isDigit then do lengthOf (← takeWhile Char.isDigit)
        else if d = '\x7d' then do
          skip
          return .parameter ['#'] .value
        else do
          let here ← get
          skip
          if (← peek) = some '\x7d' then
            if isSpecial d then do
              skip
              return .parameter [d] .length
            else faulty
          else do
            set here
            return .parameter ['#'] (← useInBraces self mode)
      | none => faulty
    else if isSpecial c then do
      skip
      return .parameter [c] (← useInBraces self mode)
    else do
      if c ≠ '\x7d' then skip
      faulty

/-- What follows a dollar sign. -/
def dollar (self : Reads) (mode : Mode) : Reading (Option Part) := do
  match ← peek with
  | some '(' => do
    skip
    if (← peek) = some '(' then do
      skip
      return some (.sum (← self (.parts .sum)))
    else return some (← closed self)
  | some '\x7b' => do
    skip
    return some (← inBraces self mode)
  | some c =>
    if isNameStart c then return some (.parameter (← takeWhile isNameChar) .value)
    else if c.isDigit || isSpecial c then do
      skip
      return some (.parameter [c] .value)
    else return none
  | none => return none

/-- Whether a character ends a word. -/
def endsWord (c : Char) : Bool := " \t\n;&|()<>".toList.contains c

/-- Whether a backslash between quotes protects a character; elsewhere it stays. -/
def isProtected (mode : Mode) (c : Char) : Bool :=
  c = '\\' || c = '`' || c = '$' || (c = '"' && mode ≠ .document) || (c = '\x7d' && mode = .braces true)

/-- What is to be done with the next character of a text that is read into parts. -/
inductive Turn
  /-- The text is at its end. -/
  | stop
  /-- A part is added. -/
  | part (p : Part)
  /-- A character is added. -/
  | char (c : Char)
  /-- Nothing is added. -/
  | nothing
  /-- A quotation mark inside braces, where closing braces then stand for themselves. -/
  | flip
  /-- A parenthesis inside an expression. -/
  | deeper
  | shallower

/-- The end of a text for lack of characters. -/
def atEnd (mode : Mode) : Reading Turn :=
  match mode with
  | .word | .document | .mark => pure .stop
  | .double | .braces true => refuse "Unterminated quoted string"
  | .braces false => refuse "Missing '\x7d'"
  | .sum => refuse "Missing '))'"

/-- A backslash. -/
def backslash (mode : Mode) : Reading Turn := do
  skip
  match ← ahead with
  | [] => return .char '\\'
  | '\n' :: _ => do
    skip
    return .nothing
  | c :: _ => do
    skip
    return .part (.exact (if !Mode.isQuoted mode || isProtected mode c then [c] else ['\\', c]))

/-- Reads on in a text that is read into parts. `depth` counts the open parentheses, and `inner` says that quotation marks inside
braces are open. -/
def turn (self : Reads) (mode : Mode) (depth : Nat) (inner : Bool) : Reading Turn := do
  let quoted := Mode.isQuoted mode
  let next : Reading Turn := do
    match ← ahead with
    | [] => atEnd mode
    | c :: rest =>
      if c = '\\' then backslash mode
      else if c = '\'' && !quoted then do
        skip
        return .part (← apostrophes)
      else if c = '"' && !quoted then do
        skip
        return .part (.double (← self (.parts .double)))
      else if c = '"' && mode = .double then do
        skip
        return .stop
      else if c = '"' && mode = .braces true then do
        skip
        return .flip
      else if c = '$' && mode ≠ .mark then do
        skip
        match ← dollar self mode with
        | some p => return .part p
        | none => return .char '$'
      else if c = '`' && mode ≠ .mark then do
        skip
        return .part (← oldOutput self quoted)
      else if endsWord c && (mode = .word || mode = .mark) then return .stop
      else if c = '\x7d' && !inner && (mode = .braces true || mode = .braces false) then do
        skip
        return .stop
      else if c = '(' && mode = .sum then do
        skip
        return .deeper
      else if c = ')' && mode = .sum && 0 < depth then do
        skip
        return .shallower
      else if c = ')' && mode = .sum && rest.head? = some ')' then do
        skipMany 2
        return .stop
      else do
        skip
        return .char c
  next

/-- Reads a text into parts, with a bound on its length. -/
def partsFrom (self : Reads) (mode : Mode) : Nat → Nat → Bool → Word → Reading Word
  | 0, _, _, taken => pure taken.reverse
  | n + 1, depth, inner, taken => do
    match ← turn self mode depth inner with
    | .stop => return taken.reverse
    | .part p => partsFrom self mode n depth inner (p :: taken)
    | .char c => partsFrom self mode n depth inner (grow c taken)
    | .nothing => partsFrom self mode n depth inner taken
    | .flip => partsFrom self mode n depth (!inner) taken
    | .deeper => partsFrom self mode n (depth + 1) inner (grow '(' taken)
    | .shallower => partsFrom self mode n (depth - 1) inner (grow ')' taken)

/-- Reads a text into parts. -/
def parts (self : Reads) (mode : Mode) : Reading Word := do
  partsFrom self mode ((← ahead).length + 1) 0 false []

end Reader

end JobPlane.Shell
