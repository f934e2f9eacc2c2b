import JobPlane.Shell.Arithmetic
import JobPlane.Shell.Course
import JobPlane.Shell.Pattern

/-!
# What words stand for

The parts of a word are replaced by glyphs: characters that know whether they were quoted and whether they came out of a parameter.
Only then is the word cut into fields, since what is quoted is never cut and never means more than itself.
-/

namespace JobPlane.Shell

open Program

/-- A piece of a word whose parts are replaced. -/
inductive Glyph
  /-- A character that stands for itself. -/
  | exact (c : Char)
  /-- A character of the word, which may mean something in a pattern. -/
  | plain (c : Char)
  /-- A character that was put in, which may mean something in a pattern and may separate fields. -/
  | loose (c : Char)
  /-- The boundary between two parameters. -/
  | edge
  /-- Quotes, which make a field even if there is nothing between them. -/
  | hold
  deriving Repr, DecidableEq

namespace Glyph

/-- The text of glyphs, with boundaries replaced. -/
def text (joint : Raw) (gs : List Glyph) : Raw :=
  gs.flatMap fun g => match g with
    | exact c | plain c | loose c => [c]
    | edge => joint
    | hold => []

/-- The pattern that glyphs make. -/
def pattern (gs : List Glyph) : Pattern :=
  Pattern.read (gs.flatMap fun g => match g with
    | exact c => [(c, false)]
    | plain c | loose c => [(c, true)]
    | edge => [(' ', false)]
    | hold => [])

/-- How far the cutting of a word has come. -/
structure Cutting where
  /-- The fields, last first. -/
  fields : List Raw := []
  /-- The field that is open, backwards, if one is. -/
  current : Option Raw := none
  /-- The last field was ended by a blank, which another separator may follow. -/
  afterBlank : Bool := false

/-- Ends the open field. -/
def Cutting.close (k : Cutting) (afterBlank : Bool) : Cutting :=
  match k.current with
  | some r => { fields := r.reverse :: k.fields, current := none, afterBlank }
  | none => k

/-- Goes on with a glyph, with the separators of fields. -/
def Cutting.add (separators : Raw) (k : Cutting) (g : Glyph) : Cutting :=
  let grow (c : Char) : Cutting := { k with current := some (c :: k.current.getD []), afterBlank := false }
  match g with
  | exact c | plain c => grow c
  | hold => { k with current := some (k.current.getD []), afterBlank := false }
  | edge => k.close false
  | loose c =>
    if !separators.contains c then grow c
    else if c = ' ' || c = '\t' || c = '\n' then k.close true
    else if k.current.isSome then k.close false
    else if k.afterBlank then { k with afterBlank := false }
    else { k with fields := [] :: k.fields }

/-- The fields of a word. -/
def fields (separators : Raw) (gs : List Glyph) : List Raw :=
  ((gs.foldl (Cutting.add separators) { }).close false).fields.reverse

end Glyph

/-- How parts stand in a word. -/
structure Setting where
  /-- Between quotes. -/
  quoted : Bool := false
  /-- In place of a parameter, so that plain text separates fields. -/
  loose : Bool := false
  /-- Where there is one field only, into which parameters are put together. -/
  single : Bool := false
  /-- At the beginning of a word. -/
  begins : Bool := false
  /-- With nothing behind it. -/
  alone : Bool := false

namespace Expansion

/-- Characters that were put in for a part. -/
def put (t : Setting) (r : Raw) : List Glyph := r.map fun c => if t.quoted then .exact c else .loose c

/-- Several parameters, which stay apart where that is possible. -/
def list (t : Setting) (name : Raw) (params : List Raw) (s : State) : List Glyph :=
  let together := t.single || (t.quoted && name = ['*'])
  if together then put t (s.joint.intercalate params)
  else [Glyph.edge].intercalate (params.map fun r => (if t.quoted then [Glyph.hold] else []) ++ put t r)

/-- Whether a parameter is the list of all of them. -/
def isList (name : Raw) : Bool := name = ['@'] || name = ['*']

/-- The value of a parameter as a text; nothing if it is not set. -/
def value? (name : Raw) (s : State) : Option Raw :=
  if isList name then some (s.joint.intercalate s.params) else s.parameter? name

/-- What is put in for a parameter that is set. -/
def present (t : Setting) (name : Raw) (s : State) : List Glyph :=
  if isList name then list t name s.params s else put t ((s.parameter? name).getD [])

/-- A failure because a parameter that is needed is not set. -/
def missing (name : Raw) (s : State) : State := s.abort (name ++ ": parameter not set".toList)

/-- Whether the shell insists on parameters being set, and this one is not. -/
def isMissing (name : Raw) (s : State) : Bool :=
  s.options.contains 'u' && !isList name && (s.parameter? name).isNone

/-- What is put in for a parameter, which must perhaps be set. -/
def plainly (t : Setting) (name : Raw) (s : State) : List Glyph × State :=
  if isMissing name s then ([], missing name s) else (present t name s, s)

/-- The parameters with a cut at one end of them: of all put together, or else of the one that stands there. -/
def trimmed (t : Setting) (name : Raw) (atEnd : Bool) (cut : Raw → Raw) (s : State) : List Raw :=
  if t.single || (t.quoted && name = ['*']) then [cut (s.joint.intercalate s.params)]
  else if atEnd then (match s.params.getLast? with
    | some r => s.params.dropLast ++ [cut r]
    | none => [])
  else match s.params with
    | r :: rs => cut r :: rs
    | [] => []

/-- Whether a parameter counts as set. -/
def counts (name : Raw) (orEmpty : Bool) (s : State) : Bool :=
  match value? name s with
  | some v => !(orEmpty && v.isEmpty)
  | none => false

/-- The part of a word that a home stands for. -/
def home (r : Raw) (s : State) : Option (Raw × Raw) :=
  let user := r.takeWhile (· ≠ '/')
  match user with
  | ['~'] => (s.value? "HOME".toList).map fun h => (h, r.drop 1)
  | _ => if user = "~root".toList then some ("/root".toList, r.drop user.length) else none

/-- What an expression comes to, and the state with the variables that it sets. -/
def reckoned (text : Raw) (s : State) : Raw × State :=
  match Arithmetic.evaluate s.value? text with
  | .ok (n, settings) =>
    ((toString n).toList, settings.reverse.foldl (fun s (name, n) => s.assign name (toString n).toList) s)
  | .error (.expression m) =>
    ([], s.abort ("arithmetic expression: ".toList ++ m.toList ++ ": \"".toList ++ text ++ ['"']))
  | .error (.number v) => ([], s.abort ("Illegal number: ".toList ++ v))

/-- What is put in for text without quotes, which may begin with a home. -/
def bare (t : Setting) (r : Raw) (s : State) : List Glyph :=
  let put (c : Char) : Glyph := if t.quoted then .exact c else if t.loose then .loose c else .plain c
  match if t.begins && !t.quoted then home r s else none with
  | some (h, rest) => if rest.isEmpty && !t.alone then r.map put else h.map .exact ++ rest.map put
  | none => r.map put

mutual

/-- What is put in for a part. -/
def part (go : Carries) (t : Setting) : Part → State → List Glyph × State
  | .plain r, s => (bare t r s, s)
  | .exact r, s => (.hold :: r.map .exact, s)
  | .double ps, s =>
    let (gs, s) := parts go { t with quoted := true } ps s
    match ps with
    | [.parameter ['@'] .value] => (gs, s)
    | _ => (.hold :: gs, s)
  | .parameter name u, s => use go t name u s
  | .output body, s =>
    let (r, s) := s.capture go body
    (put t r, s)
  | .sum ps, s =>
    let (gs, s) := parts go { quoted := true, single := true } ps s
    if !s.isOn then ([], s)
    else
      let (r, s) := reckoned (Glyph.text [' '] gs) s
      (put t r, s)

/-- What is put in for a use of a parameter. -/
def use (go : Carries) (t : Setting) (name : Raw) : Use → State → List Glyph × State
  | .value, s => plainly t name s
  | .length, s =>
    if isMissing name s then ([], missing name s)
    else (put t (Raw.ofNat ((value? name s).getD []).length), s)
  | .default orEmpty w, s =>
    if counts name orEmpty s then (present t name s, s) else parts go { t with loose := true, begins := true } w s
  | .alternative orEmpty w, s =>
    if counts name orEmpty s then parts go { t with loose := true, begins := true } w s else ([], s)
  | .assign orEmpty w, s =>
    if counts name orEmpty s then (present t name s, s)
    else
      let (gs, s) := parts go { t with single := true, begins := true } w s
      if !s.isOn then ([], s)
      else if !isName name then ([], s.abort (name ++ ": bad variable name".toList))
      else
        let s := s.assign name (Glyph.text s.joint gs)
        (present t name s, s)
  | .require orEmpty w, s =>
    if counts name orEmpty s then (present t name s, s)
    else
      let (gs, s) := parts go { t with single := true, begins := true } w s
      if !s.isOn then ([], s)
      else
        let why := Glyph.text s.joint gs
        let usual := "parameter not set".toList ++ if orEmpty then " or null".toList else []
        ([], s.abort (name ++ ": ".toList ++ if w.isEmpty then usual else why))
  | .trim atEnd longest p, s =>
    if isMissing name s then ([], missing name s)
    else
      let (gs, s) := parts go { single := true, begins := true } p s
      let cut (r : Raw) : Raw := Pattern.trim (Glyph.pattern gs) atEnd longest r
      if isList name then (list t name (trimmed t name atEnd cut s) s, s)
      else (put t (cut ((s.parameter? name).getD [])), s)
  | .faulty, s => ([], s.abort "Bad substitution".toList)

/-- What is put in for the parts of a word, one after another, as long as nothing fails. -/
def parts (go : Carries) (t : Setting) : List Part → State → List Glyph × State
  | [], s => ([], s)
  | p :: ps, s =>
    let (gs, s) := part go { t with alone := ps.isEmpty } p s
    if !s.isOn then (gs, s)
    else
      let (more, s) := parts go { t with begins := false } ps s
      (gs ++ more, s)

end

/-- What is put in for a word. -/
def word (go : Carries) (t : Setting) (w : Word) (s : State) : List Glyph × State := parts go { t with begins := true } w s

/-- A word as several fields. -/
def toFields (go : Carries) (w : Word) (s : State) : List Raw × State :=
  let (gs, s) := word go { } w s
  (Glyph.fields s.separators gs, s)

/-- A word as one text. -/
def toText (go : Carries) (w : Word) (s : State) : Raw × State :=
  let (gs, s) := word go { single := true } w s
  (Glyph.text s.joint gs, s)

/-- A word as a pattern. -/
def toPattern (go : Carries) (w : Word) (s : State) : Pattern × State :=
  let (gs, s) := word go { single := true } w s
  (Glyph.pattern gs, s)

/-- A text of a redirection. -/
def toDocument (go : Carries) (w : Word) (s : State) : Raw × State :=
  let (gs, s) := parts go { quoted := true, single := true } w s
  (Glyph.text s.joint gs, s)

/-- The value of an assignment, in which homes stand behind colons too. -/
def toValue (go : Carries) (w : Word) (s : State) : Raw × State :=
  match w with
  | .plain r :: ps =>
    let pieces := (Text.pieces ':' r).map fun p => match home p s with
      | some (h, rest) => h ++ rest
      | none => p
    let (gs, s) := parts go { single := true } ps s
    ([':'].intercalate pieces ++ Glyph.text s.joint gs, s)
  | _ => toText go w s

/-- Several words as fields, as long as nothing fails. -/
def allFields (go : Carries) (ws : List Word) (s : State) : List Raw × State :=
  ws.foldl (fun (fields, s) w =>
    if !s.isOn then (fields, s) else let (more, s) := toFields go w s; (fields ++ more, s)) ([], s)

end Expansion

end JobPlane.Shell
