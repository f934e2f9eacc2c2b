import JobPlane.Shell.Builtin
import JobPlane.Shell.Expansion

/-!
# Running scripts

What commands do. One step carries out a command, given a way to carry out the commands inside it; a bound on how deep commands are
inside one another makes a whole run of it. Loops have a bound of their own.
-/

namespace JobPlane.Shell

open Program

namespace Run

/-- Ends the shell because a command has failed, if it is to do that. -/
def checked (s : State) : State :=
  if s.isOn && s.last ≠ 0 && !s.tested && s.options.contains 'e' then { s with flow := .exiting } else s

/-! ## Redirections -/

/-- What is wrong with a file that cannot be opened; a missing one has a wording of its own. -/
def whyNot (absent : String) : SystemError → Raw
  | .notFound | .notADirectory => absent.toList
  | e => e.text.toList

/-- What comes of a redirection. -/
inductive Redirected
  | done
  /-- It cannot be, for a reason that is still to be told. -/
  | refused (why : Raw)
  /-- It cannot be, for a reason that was told. -/
  | failed

/-- Lets a descriptor lead somewhere else. -/
def redirect (go : Carries) (r : Redirect) (s : State) : State × Redirected :=
  match r with
  | .text n body =>
    let (text, s) := Expansion.toDocument go body s
    let (i, world) := s.world.add (.source text false)
    if s.isOn then ({ s with world, ds := s.ds.set n i }, .done)
    else if s.flow = .exiting then ({ s with flow := .on }, .failed)
    else (s, .done)
  | .copy n target =>
    let (text, s) := Expansion.toText go target s
    match text with
    | ['-'] => ({ s with ds := s.ds.close n }, .done)
    | _ =>
      if !s.isOn then (s, .done)
      else if text.length = 1 && text.all Char.isDigit then
        match s.ds.lookup (Raw.value 10 text) with
        | some i => ({ s with ds := s.ds.set n i }, .done)
        | none => (s, .refused (text ++ ": ".toList ++ World.badDescriptor))
      else ({ s with line := s.lineRead }.abort "Syntax error: Bad fd number".toList, .done)
  | .file n opening target =>
    let (path, s) := Expansion.toText go target s
    if !s.isOn then (s, .done)
    else
      let lead (i : Nat) (world : World) : State × Redirected := ({ s with world, ds := s.ds.set n i }, .done)
      let refuse (verb : String) (why : Raw) : State × Redirected :=
        (s, .refused (verb.toList ++ ' ' :: path ++ ": ".toList ++ why))
      if opening = .read then
        match s.world.openToRead s.ds s.here path with
        | .ok (i, world) => lead i world
        | .error e => refuse "cannot open" (whyNot "No such file" e)
      else match s.world.openToWrite s.ds s.here path (opening ≠ .write) with
        | .ok (i, world) => lead i world
        | .error none => refuse "cannot create" "Is a directory".toList
        | .error (some e) => refuse "cannot create" (whyNot "Directory nonexistent" e)

/-- Redirects one descriptor after another, up to the first that cannot be; whether all can. -/
def redirectAll (go : Carries) : List Redirect → State → Bool × State
  | [], s => (true, s)
  | r :: rs, s =>
    match redirect go r s with
    | (s, .done) => if s.isOn then redirectAll go rs s else (true, s)
    | (s, .refused why) => (false, (s.complain why).ending 2)
    | (s, .failed) => (false, s.ending 2)

/-- Runs something with redirections that are gone afterwards; it fails if they cannot be. -/
def redirected (go : Carries) (rs : List Redirect) (body : State → State) (s : State) : State :=
  let (can, r) := redirectAll go rs s
  if can && r.isOn then { body r with ds := s.ds } else checked { r with ds := s.ds }

/-! ## Programs -/

/-- Goes on after a program has ended. -/
def ended (e : Ending) (s : State) : State :=
  match e with
  | .exited code => s.ending code
  | .killed signal =>
    let notice := State.deathNotice signal
    (if notice.isEmpty then s else s.say 2 (notice ++ ['\n'])).ending (128 + signal)
  | .waiting => { s with flow := .waiting }

/-- How a shell has ended. -/
def ending (s : State) : Ending :=
  match s.flow with
  | .killed signal => .killed signal
  | .waiting => .waiting
  | _ => .exited (s.last % 256)

/-- The options of a shell at its beginning, with a bound on the number of arguments: whether the next argument is the script, the
state with the options set, and the other arguments. -/
def startOptions : Nat → Bool → List Raw → State → Except Raw (Bool × State × List Raw)
  | 0, given, args, s => .ok (given, s, args)
  | n + 1, given, args, s =>
    match args with
    | ['-'] :: rest | ['-', '-'] :: rest => .ok (given, s, rest)
    | (sign :: c :: cs) :: rest =>
      if sign = '-' || sign = '+' then do
        let letters := (c :: cs).filter fun l => l ≠ 'c' && l ≠ 'l'
        let (s, rest) ← Builtin.applyOptions (sign = '-') rest letters s
        startOptions n (given || (c :: cs).contains 'c') rest s
      else .ok (given, s, args)
    | _ => .ok (given, s, args)

/-- The text of a script that is read from the input. Only what is complete is run as long as more may come. -/
def inputText (s : State) : Raw × Bool × State :=
  match s.world.peek s.ds 0 with
  | .error _ => ([], false, s)
  | .ok (text, more) =>
    let complete := if more then (text.reverse.dropWhile (· ≠ '\n')).reverse else text
    (complete, more, { s with world := s.world.leave s.ds 0 [] })

/-- Runs a shell from its arguments on. -/
def shell (go : Carries) (args : List Raw) (s : State) : State :=
  let refuse (why : Raw) (s : State) : State := { s with line := 0 }.abort why
  match startOptions (args.length + 1) false args s with
  | .error why => refuse why s
  | .ok (true, s, []) => refuse "-c requires an argument".toList s
  | .ok (true, s, script :: rest) =>
    (({ s with name := rest.headD s.name, params := rest.tail } : State).runText go script).leave go
  | .ok (false, s, rest) =>
    match rest, s.options.contains 's' with
    | path :: params, false =>
      match s.world.openToRead s.ds s.here path with
      | .error e => refuse ("cannot open ".toList ++ path ++ ": ".toList ++ whyNot "No such file" e) s
      | .ok (i, world) =>
        let text := match world.peek [(0, i)] 0 with
          | .ok (text, _) => text
          | .error _ => []
        (({ s with world, name := path, params } : State).runText go text).leave go
    | params, _ =>
      let (text, more, s) := inputText s
      let r := { s with params }.runText go text
      if r.isOn && more then { r with flow := .waiting } else r.leave go

/-- The state of a new shell. -/
def newShell (name : Raw) (environment : List (Raw × Raw)) (here : Place) (ds : Descriptors) (world : World) : State :=
  let inherited := (environment.filter fun p => isName p.1).map fun (n, v) => (n, ({ value := some v, exported := true } : Variable))
  let path : Raw := '/' :: ['/'].intercalate here
  let own (n : String) (v : Raw) : Raw × Variable := (n.toList, { value := some v })
  let s : State :=
    { world, ds, name, here, path,
      vars := inherited.filter fun p => !(["IFS", "OPTIND", "PPID", "PWD"].contains (String.ofList p.1)) }
  let fixed : List (Raw × Variable) :=
    [own "IFS" [' ', '\t', '\n'], own "OPTIND" ['1'], own "PPID" ['1'],
      ("PWD".toList, { value := some path, exported := true })]
  let usual := [own "PATH" usualPlaces, own "PS1" "# ".toList, own "PS2" "> ".toList, own "PS4" "+ ".toList]
  { s with vars := fixed ++ s.vars ++ usual.filter fun p => (s.value? p.1).isNone }

/-- Runs a program: how it ended, and what it did to the world. -/
def program (go : Carries) (k : Known) (name : Raw) (args : List Raw) (environment : List (Raw × Raw)) (here : Place)
    (ds : Descriptors) (world : World) : Ending × World :=
  match k with
  | .shell =>
    let s := shell go args (newShell name environment here ds world)
    (ending s, s.world)
  | .test =>
    let base := (name.reverse.takeWhile (· ≠ '/')).reverse
    match Condition.evaluate ⟨world, ds, here⟩ base args with
    | .ok holds => (.exited (if holds then 0 else 1), world)
    | .error why => (.exited 2, world.say ds 2 (name ++ ": ".toList ++ why ++ ['\n']))
  | k => runTool k name args here ds world

/-- The program that a name means to the shell. -/
def locate (s : State) (name : Raw) : Except SystemError Known :=
  if name.isEmpty then .error .permissionDenied
  else find s.here (some (Builtin.places s)) name

/-- Runs a program for the shell, or tells why there is none. -/
def external (go : Carries) (name : Raw) (args : List Raw) (s : State) : State :=
  match locate s name with
  | .ok k =>
    let (e, world) := program go k name args s.environment s.here s.ds s.world
    ended e { s with world }
  | .error e =>
    let code := if e = .permissionDenied && name.contains '/' then 126 else 127
    (s.complain (name ++ ": ".toList ++ whyNot "not found" e)).ending code

/-! ## Simple commands -/

/-- Runs something that may fail. -/
def tested (body : State → State) (s : State) : State := { body { s with tested := true } with tested := s.tested }

/-- Calls a function. -/
def call (go : Carries) (body : Command) (args : List Raw) (s : State) : State :=
  let r := go body { s with params := args, loops := 0, calls := s.calls + 1, locals := [] }
  let r := r.locals.foldl (fun r (name, v) => r.restore name v) r
  { r with params := s.params, loops := s.loops, calls := s.calls, locals := s.locals
           flow := if r.flow = .returning then .on else r.flow }

/-- Goes on after a command of the shell, which has perhaps failed. -/
def settled (special : Bool) (name : Raw) (o : Builtin.Outcome) (s : State) : State :=
  match o with
  | .ok r => { r with working := s.working }
  | .error why =>
    let r := { ({ s with working := some name } : State).complain why with working := s.working, last := 2 }
    if special then { r with flow := .exiting } else r

/-- Runs the lines of a file. -/
def source (go : Carries) (path : Raw) (s : State) : Builtin.Outcome :=
  let found : Option Raw := if path.contains '/' then some path else
    (Text.pieces ':' (Builtin.places s)).findSome? fun dir =>
      let path := if dir.isEmpty then path else dir ++ '/' :: path
      match Entry.ofPath s.world.made s.here path with
      | .ok (.file _) => some path
      | _ => none
  match found with
  | none => .error (path ++ ": not found".toList)
  | some path =>
    match s.world.openToRead s.ds s.here path with
    | .error e => .error ("cannot open ".toList ++ path ++ ": ".toList ++ whyNot "No such file" e)
    | .ok (i, world) =>
      let text := match world.peek [(0, i)] 0 with
        | .ok (text, _) => text
        | .error _ => []
      let r := { s with world, last := 0, working := some path }.runText go text
      .ok { r with flow := if r.flow = .returning then .on else r.flow }

/-- Runs a command by its name, with a bound on how often `command` stands before it. `plainly` says that functions do not count and
that failing never ends the shell. -/
def dispatch (go : Carries) : Nat → Bool → Raw → List Raw → State → State
  | 0, _, _, _, s => s
  | n + 1, plainly, name, args, s =>
    let special := Builtin.isSpecial name
    let working : State := { s with working := some name }
    let settle (o : Builtin.Outcome) : State := settled (special && !plainly) name o s
    match if special || plainly then none else s.functions.lookup name with
    | some body => call go body args s
    | none =>
      match String.ofList name, args with
      | "eval", args => settle (.ok ({ working with last := 0 }.runText go (Raw.words args)))
      | ".", [] => s.ending 0
      | ".", path :: _ => settle (source go path working)
      | "exec", args =>
        match if args.head? = some ['-', '-'] then args.tail else args with
        | [] => s.ending 0
        | program :: args =>
          match locate s program with
          | .ok _ => { external go program args s with flow := .exiting, traps := [] }
          | .error _ => { external go program args working with working := s.working, flow := .exiting }
      | "command", args =>
        match Builtin.options "pvV" args with
        | .error why => settle (.error why)
        | .ok (_, []) => s.ending 0
        | .ok (letters, command :: args) =>
          if letters.contains 'v' || letters.contains 'V' then
            match Builtin.meaning s (letters.contains 'V') command with
            | some r => Builtin.print s name (r ++ ['\n'])
            | none =>
              if letters.contains 'V' then Builtin.deliver s name { out := command ++ ": not found\n".toList, status := 127 }
              else s.ending 127
          else dispatch go n true command args s
      | _, _ =>
        match Builtin.run name args working with
        | some o => settle o
        | none => external go name args s

/-- The names of commands whose arguments can be assignments. -/
def declares (words : List Word) : Bool :=
  match words with
  | [.plain r] :: _ => ["export", "readonly", "local"].contains (String.ofList r)
  | _ => false

/-- The fields of the words of a command. -/
def arguments (go : Carries) (words : List Word) (s : State) : List Raw × State :=
  if declares words then
    words.foldl (fun (fields, s) w =>
      if !s.isOn then (fields, s)
      else match Reader.assignment? w with
        | some (name, value) => let (v, s) := Expansion.toValue go value s; (fields ++ [name ++ '=' :: v], s)
        | none => let (more, s) := Expansion.toFields go w s; (fields ++ more, s)) ([], s)
  else Expansion.allFields go words s

/-- What assignments before a command have done. -/
structure Assigned where
  state : State
  /-- The assignments, to be shown. -/
  shown : List Raw := []
  /-- What the variables were before, the last one first. -/
  before : List (Raw × Option Variable) := []

/-- Sets variables one after another. They are exported if a program is to get them. -/
def assignAll (go : Carries) (exported : Bool) (assignments : List (Raw × Word)) (s : State) : Assigned :=
  assignments.foldl (fun a (name, w) =>
    if !a.state.isOn then a
    else
      let (v, s) := Expansion.toValue go w a.state
      if !s.isOn then { a with state := s }
      else
        let r := s.assign name v
        let r := if exported && r.isOn then r.put name { (r.var? name).getD { } with exported := true } else r
        { state := r, shown := a.shown ++ [name ++ '=' :: v], before := (name, s.var? name) :: a.before }) { state := s }

/-- Shows a command before it runs, if that is asked for, where messages go without its redirections. -/
def traced (ds : Descriptors) (shown : List Raw) (s : State) : State :=
  if s.options.contains 'x' && !shown.isEmpty then
    { s with world := s.world.say ds 2 ((s.value? "PS4".toList).getD [] ++ Raw.words shown ++ ['\n']) }
  else s

/-- Carries out a simple command. -/
def simple (go : Carries) (line : Nat) (assignments : List (Raw × Word)) (words : List Word) (redirects : List Redirect)
    (s : State) : State :=
  let s := { s with line, lastOutput := 0 }
  let (fields, s) := arguments go words s
  if !s.isOn then s
  else match fields with
    | [] =>
      let (can, r) := redirectAll go redirects s
      if !can || !r.isOn then { r with ds := s.ds }
      else
        let a := assignAll go false assignments r
        let r := if a.state.isOn then (traced s.ds a.shown a.state).ending a.state.lastOutput else a.state
        { r with ds := s.ds }
    | name :: args =>
      let special := Builtin.isSpecial name
      let (can, r) := redirectAll go redirects s
      if !can then { r with ds := s.ds, flow := if special then .exiting else r.flow }
      else if !r.isOn then { r with ds := s.ds }
      else
        let a := assignAll go (!special) assignments r
        if !a.state.isOn then { a.state with ds := s.ds }
        else
          let r := dispatch go (args.length + 2) false name args (traced s.ds (a.shown ++ name :: args) a.state)
          let r := if special then r else a.before.foldl (fun r (name, v) => r.restore name v) r
          let keeps := name = "exec".toList || (name = "command".toList && args.head? = some "exec".toList)
          if keeps then r else { r with ds := s.ds }

/-! ## Other commands -/

/-- Goes on after a round of a loop: whether there is another one. -/
def rounded (s : State) : Bool × State :=
  match s.flow with
  | .on => (true, s)
  | .breaking n => (false, { s with flow := if n ≤ 1 then .on else .breaking (n - 1) })
  | .continuing n => if n ≤ 1 then (true, { s with flow := .on }) else (false, { s with flow := .continuing (n - 1) })
  | _ => (false, s)

/-- The most rounds of a loop. -/
def mostRounds : Nat := 1000000

/-- Goes through the rounds of a loop, with a bound; `last` is the exit code of the round before. -/
def rounds (test body : State → State) (until_ : Bool) : Nat → Nat → State → State
  | 0, _, s => { s with flow := .waiting }
  | n + 1, last, s =>
    let (goesOn, t) := rounded (tested test s)
    if !goesOn then t
    else if s.flow ≠ .on || ((t.last = 0) = until_) then t.ending last
    else
      let (goesOn, r) := rounded (body t)
      if goesOn then rounds test body until_ n r.last r else r

/-- Carries out a loop. -/
def loop (go : Carries) (until_ : Bool) (test body : List Command) (s : State) : State :=
  let r := rounds (go (.sequence test)) (go (.sequence body)) until_ mostRounds 0 { s with loops := s.loops + 1 }
  { r with loops := s.loops }

/-- Carries out commands for each of several values of a variable. -/
def eachOf (body : State → State) (name : Raw) : List Raw → State → State
  | [], s => s
  | v :: vs, s =>
    let s := s.assign name v
    if !s.isOn then s
    else
      let (goesOn, r) := rounded (body s)
      if goesOn then eachOf body name vs r else r

/-- Carries out a loop over words. -/
def each (go : Carries) (line : Nat) (name : Raw) (words : Option (List Word)) (body : List Command) (s : State) : State :=
  let (values, s) := match words with
    | some ws => Expansion.allFields go ws { s with line }
    | none => (s.params, s)
  if !s.isOn then s
  else
    let r := eachOf (go (.sequence body)) name values { s with loops := s.loops + 1 }
    { r with loops := s.loops, last := if values.isEmpty then 0 else r.last }

/-- Carries out the first case that matches. -/
def cases (go : Carries) (subject : Raw) : List Case → State → State
  | [], s => s.ending 0
  | .mk patterns body :: rest, s =>
    let (found, s) := patterns.foldl (fun (found, s) w =>
      if found || !s.isOn then (found, s)
      else let (p, s) := Expansion.toPattern go w s; (Pattern.matchesAll p subject, s)) (false, s)
    if !s.isOn then s
    else if found then (if body.isEmpty then s.ending 0 else go (.sequence body) s)
    else cases go subject rest s

/-- Carries out the stages of a pipe, each with what the one before printed. How the last one ends counts; the pipe waits as long as
any of them does. -/
def stages (go : Carries) : List Command → Bool → State → State
  | [], waits, s => if waits && s.isOn then { s with flow := .waiting } else s
  | [c], waits, s =>
    let r := s.joined (s.inner.runApart go [c])
    if waits && r.isOn then { r with flow := .waiting } else r
  | c :: cs, waits, s =>
    let (out, world) := s.world.add (.sink [])
    let i := { s.inner with world, ds := s.ds.set 1 out }.runApart go [c]
    let stopped := i.flow = .waiting
    let r := s.joined { i with flow := .on }
    let (input, world) := r.world.add (.source (r.world.written out) stopped)
    let world := { world with streams := world.streams.setIfInBounds out .null }
    let p := stages go cs (waits || stopped) { r with world, ds := s.ds.set 0 input, last := s.last }
    { p with ds := s.ds }

/-- Carries out a pipe. -/
def pipe (go : Carries) (cs : List Command) (s : State) : State := (stages go cs false s).doomed

/-- Carries out a command in the background, with nothing to read. -/
def background (go : Carries) (c : Command) (s : State) : State :=
  let (input, world) := s.world.add .null
  let i := { s.inner with world, ds := s.ds.set 0 input }.runApart go [c]
  let job := State.pid + s.jobs.length + 1
  let r := s.after { i with flow := if i.flow = .waiting then .on else i.flow }
  { r with jobs := (job, ending i) :: s.jobs }.ending 0

/-- Carries out commands one after another. -/
def sequence (go : Carries) (cs : List Command) (s : State) : State :=
  cs.foldl (fun s c => if s.isOn then go c s else s) s

/-- Carries out a command by a way to carry out those inside it. -/
def perform (go : Carries) (c : Command) (s : State) : State :=
  match c with
  | .simple line assignments words redirects => checked (simple go line assignments words redirects s)
  | .negate c =>
    let r := tested (go c) s
    if r.isOn then r.ending (if r.last = 0 then 1 else 0) else r
  | .pipe cs => checked (pipe go cs s)
  | .both a b =>
    let r := tested (go a) s
    if r.isOn && r.last = 0 then go b r else r
  | .either a b =>
    let r := tested (go a) s
    if r.isOn && r.last ≠ 0 then go b r else r
  | .background c => background go c s
  | .sequence cs => sequence go cs s
  | .redirected line c rs => redirected go rs (go c) { s with line }
  | .subshell body => checked (s.after (s.inner.runApart go body))
  | .cond test body other =>
    let r := tested (sequence go test) s
    if !r.isOn then r
    else if r.last = 0 then sequence go body r
    else if other.isEmpty then r.ending 0
    else sequence go other r
  | .loop until_ test body => loop go until_ test body s
  | .each line name words body => each go line name words body s
  | .choose line subject cs =>
    let (text, s) := Expansion.toText go subject { s with line }
    if s.isOn then cases go text cs s else s
  | .define name body => { s with functions := (name, body) :: s.functions.filter fun f => f.1 != name }.ending 0

/-- Carries out a command, unless nothing is to be carried out any more, and then the traps of signals that have come. -/
def step (go : Carries) (c : Command) (s : State) : State :=
  if !s.isOn || s.options.contains 'n' then s else (perform go c s).answer go

/-- Carries out a command, with a bound on how deep commands are inside one another. -/
def carry : Nat → Carries
  | 0, _, s => { s with flow := .waiting }
  | n + 1, c, s => step (carry n) c s

/-- The bound on how deep commands are inside one another. -/
def depth : Nat := 1500

/-- Runs a program on its own. -/
def run (k : Known) (name : Raw) (args : List Raw) (environment : List (Raw × Raw)) (here : Place) (ds : Descriptors)
    (world : World) : Ending × World :=
  program (carry depth) k name args environment here ds world

end Run

end JobPlane.Shell
