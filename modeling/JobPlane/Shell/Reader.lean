import JobPlane.Shell.Words

/-!
# Reading scripts

How the text of a script is read, a line at a time: characters make tokens, and tokens make commands. Where commands hold words
and words hold commands, the reader is called for the part inside with a smaller bound, so that reading ends.
-/

namespace JobPlane.Shell

open Reading

namespace Reader

/-! ## Tokens -/

/-- The arrow of a redirection. -/
def arrow : Reading (Nat × Arrow) := do
  let out := (← peek) == some '>'
  skip
  let second ← peek
  match out, second with
  | true, some '>' => do skip; return (1, .file .append)
  | true, some '|' => do skip; return (1, .file .write)
  | true, some '&' => do skip; return (1, .copy)
  | true, _ => return (1, .file .write)
  | false, some '<' => do
    skip
    if (← peek) = some '-' then do skip; return (0, .text true)
    else return (0, .text false)
  | false, some '&' => do skip; return (0, .copy)
  | false, some '>' => do skip; return (0, .file .both)
  | false, _ => return (0, .file .read)

/-- Moves past blanks, joined lines and a comment, with a bound. -/
def blanks : Nat → Reading Unit
  | 0 => pure ()
  | n + 1 => do
    match ← peek with
    | some ' ' | some '\t' => do
      skip
      blanks n
    | some '#' => do skipMany ((← ahead).takeWhile (· ≠ '\n')).length
    | _ => pure ()

/-- Takes one or, if a second character follows, two characters. -/
def oneOrTwo (second : Char) (one two : Token) : Reading Token := do
  skip
  if (← peek) = some second then do
    skip
    return two
  else return one

/-- Reads a token, keywords being words. -/
def newToken (self : Reads) (mode : Mode) : Reading Token := do
  blanks ((← ahead).length + 1)
  match ← ahead with
  | [] => return .finish
  | '\n' :: _ => do skip; return .newline
  | '&' :: _ => oneOrTwo '&' .ampersand .and
  | '|' :: _ => oneOrTwo '|' .pipe .or
  | ';' :: _ => oneOrTwo ';' .semicolon .caseEnd
  | '(' :: _ => do skip; return .opening
  | ')' :: _ => do skip; return .closing
  | c :: rest =>
    if c = '<' || c = '>' then do
      let (n, a) ← arrow
      return .redirect n a
    else if c.isDigit && (rest.head? = some '<' || rest.head? = some '>') then do
      skip
      let (_, a) ← arrow
      return .redirect (c.toNat - 48) a
    else return .word (← self (.parts mode))

/-- Reads a token: one that is pending, or a new one. -/
def token (self : Reads) : Reading Token := do
  match (← get).pending with
  | some t => do
    modify fun c => { c with pending := none }
    return t
  | none => newToken self .word

/-- Puts a token back. -/
def putBack (t : Token) : Reading Unit := modify fun c => { c with pending := some t }

/-- A token as a keyword, if it is one. -/
def asKeyword : Token → Token
  | .word [.plain r] => ((Keyword.all.find? fun k => k.text.toList = r).map Token.keyword).getD (.word [.plain r])
  | t => t

/-- Reads a token where a keyword counts. -/
def keyToken (self : Reads) : Reading Token := do return asKeyword (← token self)

/-- Reads a token where a keyword counts, past line ends, with a bound. -/
def pastLines (self : Reads) : Nat → Reading Token
  | 0 => pure .finish
  | n + 1 => do
    match ← token self with
    | .newline => pastLines self n
    | t => return asKeyword t

/-- Reads a token where a keyword counts, past line ends. -/
def freshToken (self : Reads) : Reading Token := do pastLines self ((← ahead).length + 2)

/-- Fails unless a token is the keyword expected. -/
def demand (t : Token) (k : Keyword) : Reading Unit :=
  match t with
  | .keyword k' => if k' = k then pure () else unexpected t (some (.keyword k))
  | t => unexpected t (some (.keyword k))

/-! ## Redirections -/

/-- The text of the parts of a word, without its quotes. -/
def flatText (w : Word) : Raw :=
  w.flatMap fun p => match p with
    | .plain r | .exact r => r
    | .double ps => ps.flatMap fun p => match p with
      | .plain r | .exact r => r
      | _ => []
    | _ => []

/-- Whether a word has quotes. -/
def hasQuotes (w : Word) : Bool :=
  w.any fun p => match p with
    | .exact _ | .double _ => true
    | _ => false

/-- The lines up to a mark, and what follows the mark. -/
def upToMark (strip : Bool) (mark : Raw) : List Raw → List Raw × List Raw
  | [] => ([], [])
  | l :: ls =>
    let l := if strip then l.dropWhile (· = '\t') else l
    if l = mark || l = mark ++ ['\n'] then ([], ls)
    else let (body, rest) := upToMark strip mark ls; (l :: body, rest)

/-- Takes a text from behind the end of the line, up to a mark. -/
def takeText (strip : Bool) (mark : Raw) : Reading Raw := do
  let c ← get
  let line := c.rest.takeWhile (· ≠ '\n')
  let below := Raw.lines (c.rest.drop (line.length + 1))
  let (body, rest) := upToMark strip mark below
  let taken := below.take (below.length - rest.length)
  set { c with rest := line ++ (if line.length < c.rest.length then ['\n'] else []) ++ rest.flatten
               ahead := c.ahead + taken.countP fun l : Raw => l.getLast? == some '\n' }
  return body.flatten

/-- Reads inside a text; what is missing at its end is missed only on the line behind its mark. -/
def inText {α : Type} (mark : Nat) (body : Reading α) : Reading α := fun c =>
  match body c with
  | .error f => .error { f with line := if f.line = mark then mark + 1 else f.line }
  | done => done

/-- Reads the text of a redirection. Parameters and commands in it are replaced unless its mark has quotes. -/
def document (self : Reads) (strip : Bool) (mark : Word) : Reading Word := do
  let first := (← get).line + (← get).ahead + 1
  let text ← takeText strip (flatText mark)
  if hasQuotes mark then return [.exact text]
  else do
    let outer ← get
    let behind := outer.line + outer.ahead
    set { outer with rest := text, line := first, ahead := 0, pending := none }
    let body ← inText behind (self (.parts .document))
    set outer
    return body

/-- Reads what a redirection leads to. -/
def redirect (self : Reads) (n : Nat) (a : Arrow) : Reading Redirect := do
  let mode : Mode := match a with
    | .text _ => .mark
    | _ => .word
  match ← newToken self mode with
  | .word w =>
    match a with
    | .file o => return .file n o w
    | .text strip => return .text n (← document self strip w)
    | .copy => return .copy n w
  | t => unexpected t none

/-- Reads redirections as long as there are any, with a bound. -/
def redirects (self : Reads) : Nat → List Redirect → Reading (List Redirect)
  | 0, taken => pure taken.reverse
  | bound + 1, taken => do
    match ← keyToken self with
    | .redirect n a => redirects self bound ((← redirect self n a) :: taken)
    | t => do
      putBack t
      return taken.reverse

/-! ## Commands -/

/-- The special commands of the shell, whose names no function can have. -/
def special : List String :=
  [".", ":", "break", "continue", "eval", "exec", "exit", "export", "local", "readonly", "return", "set", "shift",
   "times", "trap", "unset"]

/-- The name and the value of an assignment. -/
def assignment? (w : Word) : Option (Raw × Word) :=
  match w with
  | .plain r :: ps =>
    let name := r.takeWhile isNameChar
    match r.drop name.length with
    | '=' :: value => if isName name then some (name, if value.isEmpty then ps else .plain value :: ps) else none
    | _ => none
  | _ => none

/-- What has been read of a simple command. -/
structure Begun where
  assignments : List (Raw × Word) := []
  words : List Word := []
  redirects : List Redirect := []

/-- Reads a simple command, with a bound, or a function if its first word is followed by parentheses. -/
def simple (self : Reads) (line : Nat) : Nat → Begun → Reading Command
  | 0, b => pure (.simple line b.assignments.reverse b.words.reverse b.redirects.reverse)
  | bound + 1, b => do
    let done : Command := .simple line b.assignments.reverse b.words.reverse b.redirects.reverse
    match ← token self with
    | .word w =>
      match b.words, assignment? w with
      | [], some a => simple self line bound { b with assignments := a :: b.assignments }
      | _, _ => simple self line bound { b with words := w :: b.words }
    | .redirect n a => do
      let r ← redirect self n a
      simple self line bound { b with redirects := r :: b.redirects }
    | .opening =>
      match b.words, b.assignments, b.redirects with
      | [w], [], [] => do
        match ← token self with
        | .closing => do
          let name := flatText w
          if !isName name || hasQuotes w || special.contains (String.ofList name) then refuse "Bad function name"
          putBack (← freshToken self)
          return .define name (← self .command)
        | t => unexpected t (some .closing)
      | _, _, _ => do
        putBack .opening
        return done
    | t => do
      putBack t
      return done

/-- Reads the branches of a condition behind its first test, with a bound. -/
def branches (self : Reads) (test : List Command) : Nat → Reading Command
  | 0 => pure (.cond test [] [])
  | bound + 1 => do
    demand (← keyToken self) .then_
    let body ← self (.commands .filled)
    match ← keyToken self with
    | .keyword .elif_ => do
      let test' ← self (.commands .filled)
      return .cond test body [← branches self test' bound]
    | .keyword .else_ => do
      let other ← self (.commands .filled)
      demand (← keyToken self) .fi_
      return .cond test body other
    | t => do
      demand t .fi_
      return .cond test body []

/-- Reads a loop behind its keyword. -/
def loop (self : Reads) (until_ : Bool) : Reading Command := do
  let test ← self (.commands .filled)
  demand (← keyToken self) .do_
  let body ← self (.commands .filled)
  demand (← keyToken self) .done_
  return .loop until_ test body

/-- Reads words up to another token, with a bound. -/
def wordList (self : Reads) : Nat → List Word → Reading (List Word)
  | 0, taken => pure taken.reverse
  | bound + 1, taken => do
    match ← token self with
    | .word w => wordList self bound (w :: taken)
    | .newline | .semicolon => return taken.reverse
    | t => unexpected t none

/-- Reads a loop for each of several words behind its keyword. -/
def each (self : Reads) : Reading Command := do
  let line := (← get).line
  match ← token self with
  | .word [.plain name] => do
    if !isName name then refuse "Bad for loop variable"
    let words ← do
      match ← freshToken self with
      | .keyword .in_ => some <$> wordList self ((← ahead).length + 2) []
      | .semicolon => pure none
      | t => do
        putBack t
        pure none
    demand (← freshToken self) .do_
    let body ← self (.commands .filled)
    demand (← keyToken self) .done_
    return .each line name words body
  | _ => refuse "Bad for loop variable"

/-- Reads the patterns of a case from a token on, with a bound. What is no word counts as an empty one. -/
def patterns (self : Reads) : Nat → Token → List Word → Reading (List Word)
  | 0, _, taken => pure taken.reverse
  | bound + 1, t, taken => do
    let w : Word := match t with
      | .word w => w
      | .keyword k => [.plain k.text.toList]
      | _ => []
    match ← token self with
    | .pipe => do
      let t ← token self
      patterns self bound t (w :: taken)
    | .closing => return (w :: taken).reverse
    | t => unexpected t (some .closing)

/-- Reads the cases of a choice, with a bound. -/
def cases (self : Reads) : Nat → List Case → Reading (List Case)
  | 0, taken => pure taken.reverse
  | bound + 1, taken => do
    match ← freshToken self with
    | .keyword .esac_ => return taken.reverse
    | t => do
      let t ← match t with
        | .opening => token self
        | t => pure t
      let ps ← patterns self ((← ahead).length + 2) t []
      let body ← self (.commands .any)
      let taken := .mk ps body :: taken
      match ← freshToken self with
      | .keyword .esac_ => return taken.reverse
      | .caseEnd => cases self bound taken
      | t => unexpected t (some .caseEnd)

/-- Reads a choice behind its keyword. -/
def choose (self : Reads) : Reading Command := do
  let line := (← get).line
  match ← token self with
  | .word w => do
    demand (← freshToken self) .in_
    return .choose line w (← cases self ((← ahead).length + 2) [])
  | t => unexpected t (some (.word []))

/-- Reads a command that is made up of others, from its first token on; nothing if it is a simple one. -/
def compound (self : Reads) (t : Token) : Reading (Option Command) := do
  match t with
  | .keyword .if_ => do
    let test ← self (.commands .filled)
    return some (← branches self test ((← ahead).length + 2))
  | .keyword .while_ => some <$> loop self false
  | .keyword .until_ => some <$> loop self true
  | .keyword .for_ => some <$> each self
  | .keyword .case_ => some <$> choose self
  | .opening => do
    let body ← self (.commands .filled)
    match ← keyToken self with
    | .closing => return some (.subshell body)
    | t => unexpected t (some .closing)
  | .keyword .leftBrace => do
    let body ← self (.commands .filled)
    demand (← keyToken self) .rightBrace
    return some (.sequence body)
  | .word _ | .redirect _ _ => return none
  | t => unexpected t none

/-- Reads a command. -/
def command (self : Reads) : Reading Command := do
  let t ← token self
  let line := (← get).line
  match ← compound self t with
  | some c => do
    match ← redirects self ((← ahead).length + 2) [] with
    | [] => return c
    | rs => return .redirected line c rs
  | none => do
    putBack t
    simple self line ((← ahead).length + 2) { }

/-- Reads the further stages of a pipe, with a bound. -/
def stages (self : Reads) : Nat → List Command → Reading (List Command)
  | 0, taken => pure taken.reverse
  | bound + 1, taken => do
    match ← token self with
    | .pipe => do
      putBack (← freshToken self)
      let c ← self .command
      stages self bound (c :: taken)
    | t => do
      putBack t
      return taken.reverse

/-- Reads commands with pipes between them. -/
def pipeline (self : Reads) : Reading Command := do
  let t ← token self
  let negated := match t with
    | .keyword .not_ => true
    | _ => false
  if negated then putBack (← keyToken self) else putBack t
  let first ← self .command
  let all ← stages self ((← ahead).length + 2) [first]
  let c := match all with
    | [c] => c
    | cs => .pipe cs
  return if negated then .negate c else c

/-- Reads further pipelines that depend on how the ones before them ended, with a bound. -/
def chain (self : Reads) : Nat → Command → Reading Command
  | 0, c => pure c
  | bound + 1, c => do
    match ← token self with
    | .and => do
      putBack (← freshToken self)
      chain self bound (.both c (← pipeline self))
    | .or => do
      putBack (← freshToken self)
      chain self bound (.either c (← pipeline self))
    | t => do
      putBack t
      return c

/-- Reads a list of commands, with a bound. `begun` says that it may end here. -/
def commandsFrom (self : Reads) (extent : Extent) : Nat → Bool → List Command → Reading (List Command)
  | 0, _, taken => pure taken.reverse
  | bound + 1, begun, taken => do
    let t ← if extent = .line then keyToken self else freshToken self
    match t with
    | .newline => return taken.reverse
    | .finish => do
      putBack .finish
      return taken.reverse
    | t => do
      putBack t
      if begun && extent ≠ .line && t.endsList then return taken.reverse
      else do
        let c ← chain self ((← ahead).length + 2) (← pipeline self)
        match ← token self with
        | .ampersand => commandsFrom self extent bound true (.background c :: taken)
        | .semicolon => commandsFrom self extent bound true (c :: taken)
        | .newline => do
          putBack .newline
          commandsFrom self extent bound true (c :: taken)
        | .finish => do
          putBack .finish
          return (c :: taken).reverse
        | t => do
          if extent = .line then unexpected t none
          putBack t
          return (c :: taken).reverse

/-- Reads something by a reader for what is inside it. -/
def step (self : Reads) : Reads
  | .commands extent => do commandsFrom self extent ((← ahead).length + 2) (extent == .any) []
  | .command => command self
  | .parts mode => parts self mode

/-- Reads something, with a bound on how deep things are inside one another. -/
def read : Nat → Reads
  | 0, _ => refuse "too deep"
  | n + 1, g => step (read n) g

end Reader

/-- What comes first in a script. -/
inductive Line
  | finished
  | commands (cs : List Command) (rest : Cursor)
  | faulty (f : SyntaxFault)

/-- Reads the commands that are on one line, or on as many as they take. -/
def nextLine (c : Cursor) : Line :=
  let atEnd := match c.pending with
    | some .finish => true
    | _ => false
  if atEnd || c.rest.isEmpty then .finished
  else match Reader.read (3 * c.rest.length + 8) (.commands .line) c with
    | .ok (cs, c) => .commands cs c
    | .error f => .faulty f

end JobPlane.Shell