import JobPlane.Program.Tools
import JobPlane.Shell.Condition
import JobPlane.Shell.Course

/-!
# Commands of the shell

The commands that the shell carries out by itself, because they change it or are quicker that way. One that fails gives a message;
for the special ones among them that is the end of the shell, for the others just an exit code.
-/

namespace JobPlane.Shell.Builtin

open Program

/-- What comes of a command: a new state, or a message about why it failed. -/
abbrev Outcome := Except Raw State

/-- A whole number that is not negative. -/
def natural (arg : Raw) : Except Raw Nat :=
  if !arg.isEmpty && arg.all Char.isDigit then .ok (Raw.value 10 arg) else .error ("Illegal number: ".toList ++ arg)

/-- The letters of options at the beginning of arguments, and the other arguments. Letters that are not known are refused, with a
bound on the number of arguments. -/
def options (known : String) : List Raw → Except Raw (List Char × List Raw)
  | ['-', '-'] :: rest => .ok ([], rest)
  | ('-' :: c :: cs) :: rest =>
    match (c :: cs).find? fun c => !known.toList.contains c with
    | some bad => .error ("Illegal option -".toList ++ [bad])
    | none => (options known rest).map fun (letters, rest) => (c :: cs ++ letters, rest)
  | args => .ok ([], args)

/-- A text between apostrophes, so that a shell reads it back. -/
def enclosed (r : Raw) : Raw :=
  let piece (quote : Char) (r : Raw) : Raw := quote :: r ++ [quote]
  let rec cut : Nat → Raw → Raw
    | 0, _ => []
    | _, [] => []
    | n + 1, r =>
      let text := r.takeWhile (· ≠ '\'')
      let quotes := (r.drop text.length).takeWhile (· = '\'')
      (if text.isEmpty && quotes ≠ [] && r.length = quotes.length then [] else piece '\'' text) ++
        (if quotes.isEmpty then [] else piece '"' quotes) ++ cut n (r.drop (text.length + quotes.length))
  if r.isEmpty then "''".toList else cut r.length r

/-- Whether a text stands before another, or is it. -/
def isInOrder : Raw → Raw → Bool
  | [], _ => true
  | _ :: _, [] => false
  | a :: r, b :: t => a.toNat < b.toNat || (a == b && isInOrder r t)

/-- Texts in order. -/
def sorted (rs : List Raw) : List Raw := rs.mergeSort isInOrder

/-- Writes, or complains that this is not possible. -/
def deliver (s : State) (name : Raw) (o : Printed) : State :=
  let s := o.complaints.foldl State.complain s
  if o.out.isEmpty then s.ending o.status
  else match s.world.write s.ds 1 o.out with
    | .ok world => { s with world }.ending o.status
    | .error _ => (s.complain (name ++ ": I/O error".toList)).ending 1

/-- Prints. -/
def print (s : State) (name : Raw) (out : Raw) : State := deliver s name { out }

/-! ## Variables -/

/-- The name and, if there is one, the value of an argument that declares a variable. -/
def declared (arg : Raw) : Except Raw (Raw × Option Raw) :=
  let name := arg.takeWhile (· ≠ '=')
  if !isName name then .error (name ++ ": bad variable name".toList)
  else .ok (name, if name.length < arg.length then some (arg.drop (name.length + 1)) else none)

/-- Sets a variable unless it is fixed. -/
def assign (s : State) (name value : Raw) : Outcome :=
  if ((s.var? name).getD { }).fixed then .error (name ++ ": is read only".toList) else .ok (s.assign name value)

/-- Marks variables, and sets those that come with a value. -/
def mark (change : Variable → Variable) (args : List Raw) (s : State) : Outcome :=
  args.foldlM (fun s arg => do
    let (name, value) ← declared arg
    let s ← match value with
      | some v => assign s name v
      | none => .ok s
    return s.put name (change ((s.var? name).getD { }))) s

/-- Lists variables as commands that declare them. -/
def listing (s : State) (command : Raw) (chosen : Variable → Bool) : Raw :=
  (sorted ((s.vars.filter fun p => chosen p.2).map fun (name, v) =>
    command ++ name ++ (v.value.elim [] fun r => '=' :: enclosed r) ++ ['\n'])).flatten

/-- `export` and `readonly`. -/
def declare (name : Raw) (change : Variable → Variable) (chosen : Variable → Bool) (args : List Raw) (s : State) : Outcome := do
  let (letters, rest) ← options "p" args
  if rest.isEmpty || !letters.isEmpty then return print s name (listing s (name ++ [' ']) chosen)
  else return (← mark change rest s).ending 0

/-- `local`: keeps for the end of the function what variables were. -/
def keepLocal (args : List Raw) (s : State) : Outcome := do
  if s.calls = 0 then throw "not in a function".toList
  args.foldlM (fun s arg => do
    let (name, value) ← declared arg
    let s := { s with locals := (name, s.var? name) :: s.locals }
    match value with
    | some v => assign s name v
    | none => return s) (s.ending 0)

/-- `unset`. -/
def unset (args : List Raw) (s : State) : Outcome := do
  let (letters, rest) ← options "vf" args
  if letters.getLast? = some 'f' then
    return { s with functions := s.functions.filter fun f => !rest.contains f.1 }.ending 0
  else rest.foldlM (fun s name => do
    if !isName name then throw (name ++ ": bad variable name".toList)
    if ((s.var? name).getD { }).fixed then throw (name ++ ": is read only".toList)
    return s.restore name none) (s.ending 0)

/-! ## Options and parameters -/

/-- The options by their names. -/
def optionNames : List (Raw × Char) :=
  [("errexit", 'e'), ("noglob", 'f'), ("ignoreeof", 'I'), ("interactive", 'i'), ("monitor", 'm'), ("noexec", 'n'), ("stdin", 's'),
   ("xtrace", 'x'), ("verbose", 'v'), ("vi", 'V'), ("emacs", 'E'), ("noclobber", 'C'), ("allexport", 'a'), ("notify", 'b'),
   ("nounset", 'u')].map fun (name, letter) => (name.toList, letter)

/-- Sets options by their letters, and one by its name where a letter asks for it. -/
def applyOptions (on : Bool) (rest : List Raw) : List Char → State → Except Raw (State × List Raw)
  | [], s => .ok (s, rest)
  | 'o' :: cs, s =>
    match rest with
    | [] => applyOptions on rest cs s
    | name :: more =>
      match optionNames.lookup name with
      | some letter => applyOptions on more cs (s.setOption letter on)
      | none => .error ("Illegal option -o ".toList ++ name)
  | c :: cs, s =>
    if State.flagLetters.contains c then applyOptions on rest cs (s.setOption c on)
    else .error ("Illegal option -".toList ++ [c])
termination_by cs => cs.length

/-- `set`: the options, with a bound on the number of arguments, and then the parameters. -/
def set : Nat → List Raw → State → Outcome
  | 0, _, s => .ok s
  | n + 1, args, s =>
    match args with
    | [] => .ok s
    | [['-']] => .ok s
    | ['-'] :: rest | ['-', '-'] :: rest => .ok { s with params := rest }
    | ('-' :: cs) :: rest => do
      let (s, rest) ← applyOptions true rest cs s
      set n rest s
    | ('+' :: cs) :: rest => do
      let (s, rest) ← applyOptions false rest cs s
      set n rest s
    | _ => .ok { s with params := args }

/-- `shift`. -/
def shift (args : List Raw) (s : State) : Outcome := do
  let n ← (args.head?.map natural).getD (.ok 1)
  if s.params.length < n then throw "can't shift that many".toList
  return { s with params := s.params.drop n }.ending 0

/-! ## The course of a script -/

/-- `exit`. -/
def exit (args : List Raw) (s : State) : Outcome := do
  let code ← (args.head?.map natural).getD (.ok s.last)
  return { s.ending code with flow := .exiting }

/-- `return`. -/
def return_ (args : List Raw) (s : State) : Outcome := do
  let code ← (args.head?.map natural).getD (.ok s.last)
  return { s.ending code with flow := .returning }

/-- `break` and `continue`, which do nothing outside of loops. -/
def leaveLoops (flow : Nat → Flow) (args : List Raw) (s : State) : Outcome := do
  let n ← (args.head?.map natural).getD (.ok 1)
  if n = 0 then throw "Illegal number: 0".toList
  if s.loops = 0 then return s.ending 0
  return { s.ending 0 with flow := flow (min n s.loops) }

/-! ## Signals -/

/-- What is shown for the traps that are set. -/
def trapListing (s : State) : Raw :=
  State.signals.flatMap fun (n, name) => match s.traps.lookup n with
    | some text => "trap -- ".toList ++ enclosed text ++ ' ' :: name ++ ['\n']
    | none => []

/-- `trap`. -/
def trap (args : List Raw) (s : State) : Outcome := do
  let (_, args) ← options "" args
  match args with
  | [] => return print s "trap".toList (trapListing s)
  | action :: rest =>
    let bare := rest.isEmpty || (action.all Char.isDigit && (State.signal? action).isSome)
    let names := if bare then args else rest
    let cleared := bare || action = ['-']
    let setTrap (s : State) (n : Nat) : State :=
      { s with traps := (if cleared then [] else [(n, action)]) ++ s.traps.filter fun t => t.1 != n }
    let good := names.takeWhile fun r => (State.signal? r).isSome
    let s := (good.filterMap State.signal?).foldl setTrap s
    match names.drop good.length with
    | [] => return s.ending 0
    | bad :: _ => return (s.say 2 ("trap: ".toList ++ bad ++ ": bad trap\n".toList)).ending 1

/-- How `kill` is used. -/
def killUsage : Raw :=
  "Usage: kill [-s sigspec | -signum | -sigspec] [pid | job]... or\nkill -l [exitstatus]".toList

/-- Sends a signal to processes. The shell itself is the only one that is known. -/
def send (signal : Nat) : List Raw → State → Outcome
  | [], s => .ok s
  | target :: rest, s => do
    let digits := if target.head? = some '-' then target.drop 1 else target
    let n ← natural digits
    let known := n = State.pid || n = 0 || (s.jobs.any fun j => j.1 = n)
    if known then send signal rest (if n = State.pid || n = 0 then s.signalled signal else s)
    else send signal rest ((s.complain "No such process\n".toList).ending 1)

/-- `kill`. -/
def kill (args : List Raw) (s : State) : Outcome :=
  let s := s.ending 0
  let sendTo (signal : Nat) (targets : List Raw) : Outcome :=
    if targets.isEmpty then .error killUsage else send signal targets s
  let signal? (r : Raw) : Option Nat :=
    (State.signal? r).filter fun n => n ≠ 0 || r.all Char.isDigit
  match args with
  | [] => .error killUsage
  | ['-', '-'] :: rest => sendTo 15 rest
  | ['-', 'l'] :: rest =>
    match rest with
    | [] => .ok (print s "kill".toList ((State.signals.drop 1).flatMap fun p => p.2 ++ ['\n']))
    | code :: _ => do
      let n ← natural code
      let n := if 128 < n then n - 128 else n
      match State.signals.lookup n with
      | some name => return print s "kill".toList (name ++ ['\n'])
      | none => throw "invalid signal number or exit status: ".toList
  | ['-', 's'] :: name :: rest =>
    match signal? name with
    | some n => sendTo n rest
    | none => .error ("invalid signal number or name: ".toList ++ name)
  | ('-' :: c :: cs) :: rest =>
    match signal? (c :: cs), c with
    | some n, _ => sendTo n rest
    | none, 's' =>
      match signal? cs with
      | some n => sendTo n rest
      | none => .error (if cs.isEmpty then "No arg for -s option".toList else "invalid signal number or name: ".toList ++ cs)
    | none, _ => .error ("Illegal option -".toList ++ [c])
  | _ => sendTo 15 args

/-! ## Reading -/

/-- A line of input with whether its characters may separate fields, and what follows it; nothing if the line is not complete. A
backslash protects the next character, or joins two lines, unless `literally` is set. -/
def lineFrom (literally : Bool) : Nat → List (Char × Bool) → Raw → List (Char × Bool) × Option Raw
  | 0, taken, _ => (taken.reverse, none)
  | _, taken, [] => (taken.reverse, none)
  | _, taken, '\n' :: rest => (taken.reverse, some rest)
  | n + 1, taken, '\\' :: c :: rest =>
    if literally then lineFrom literally n (('\\', true) :: taken) (c :: rest)
    else if c = '\n' then lineFrom literally n taken rest
    else lineFrom literally n ((c, false) :: taken) rest
  | n + 1, taken, c :: rest => lineFrom literally n ((c, c ≠ '\\' || literally) :: taken) rest

/-- Whether a character of a line separates fields. -/
def separates (separators : Raw) (c : Char × Bool) : Bool := c.2 && separators.contains c.1

/-- Whether a character of a line is a blank that separates fields. -/
def isGap (separators : Raw) (c : Char × Bool) : Bool := separates separators c && (c.1 = ' ' || c.1 = '\t' || c.1 = '\n')

/-- The first field of a line, and what follows it and the separators behind it. -/
def field (separators : Raw) (line : List (Char × Bool)) : Raw × List (Char × Bool) :=
  let line := line.dropWhile (isGap separators)
  let text := line.takeWhile fun c => !separates separators c
  let rest := (line.drop text.length).dropWhile (isGap separators)
  let rest := match rest with
    | c :: more => if separates separators c then more.dropWhile (isGap separators) else rest
    | [] => []
  (text.map (·.1), rest)

/-- The values of so many variables from a line. The last one gets all that is left, without its separator if it is one field, and
else without the blanks at its end. -/
def values (separators : Raw) : Nat → List (Char × Bool) → List Raw
  | 0, _ => []
  | 1, line =>
    let line := line.dropWhile (isGap separators)
    match field separators line with
    | (text, []) => [text]
    | _ => [((line.reverse.dropWhile (isGap separators)).reverse).map (·.1)]
  | n + 2, line =>
    let (text, rest) := field separators line
    text :: values separators (n + 1) rest

/-- The options of `read`: whether a backslash is literal, and the names. -/
def readOptions : List Raw → Except Raw (Bool × List Raw)
  | ['-', '-'] :: rest => .ok (false, rest)
  | ['-', 'p'] :: _ :: rest => readOptions rest
  | ('-' :: 'r' :: []) :: rest => (readOptions rest).map fun (_, names) => (true, names)
  | ('-' :: 'p' :: _ :: _) :: rest => readOptions rest
  | ('-' :: c :: cs) :: rest =>
    match (c :: cs).find? (· ≠ 'r') with
    | some bad => .error ("Illegal option -".toList ++ [bad])
    | none => (readOptions rest).map fun (_, names) => (true, names)
  | args => .ok (false, args)

/-- `read`: reads a line into variables. It fails at the end of the input. -/
def read (args : List Raw) (s : State) : Outcome := do
  let (literally, names) ← readOptions args
  if names.isEmpty then throw "arg count".toList
  let setAll (line : List (Char × Bool)) (s : State) : Outcome :=
    (names.zip (values s.separators names.length line)).foldlM (fun s (name, v) =>
      if isName name then assign s name v else .error (name ++ ": bad variable name".toList)) s
  match s.world.peek s.ds 0 with
  | .error _ => return (← setAll [] s).ending 1
  | .ok (text, more) =>
    let (line, rest) := lineFrom literally text.length [] text
    match rest with
    | some rest => return (← setAll line { s with world := s.world.leave s.ds 0 rest }).ending 0
    | none =>
      if more then return { s with flow := .waiting }
      else return (← setAll line { s with world := s.world.leave s.ds 0 [] }).ending 1

/-! ## Directories -/

/-- A path without steps that lead nowhere or back. -/
def direct (path : Raw) : Raw :=
  let names := (Text.pieces '/' path).foldl (fun names name =>
    if name.isEmpty || name = ['.'] then names
    else if name = ['.', '.'] then names.drop 1
    else name :: names) []
  '/' :: ['/'].intercalate names.reverse

/-- `cd`. -/
def cd (args : List Raw) (s : State) : Outcome := do
  let (_, args) ← options "LP" args
  let back := args.head? = some ['-']
  let target := match args with
    | [] => (s.value? "HOME".toList).getD []
    | arg :: _ => if back then (s.value? "OLDPWD".toList).getD [] else arg
  if target.isEmpty then return s.ending 0
  let path := direct (if target.head? = some '/' then target else s.path ++ '/' :: target)
  match Entry.ofPath s.world.made [] path with
  | .ok (.directory here) =>
    let s := ({ s with here, path }.assign "OLDPWD".toList s.path).assign "PWD".toList path
    return if back then print s "cd".toList (path ++ ['\n']) else s.ending 0
  | _ => throw ("can't cd to ".toList ++ target)

/-! ## Finding commands -/

/-- The special commands, at whose failing the shell ends. -/
def isSpecial (name : Raw) : Bool := Reader.special.contains (String.ofList name)

/-- The other commands of the shell. -/
def ordinary : List Raw :=
  ["alias", "bg", "cd", "chdir", "command", "echo", "false", "fg", "getopts", "hash", "jobs", "kill", "printf", "pwd", "read",
   "test", "[", "true", "type", "ulimit", "umask", "unalias", "wait"].map String.toList

/-- Where the shell looks for programs. -/
def places (s : State) : Raw := (s.value? "PATH".toList).getD "\x00".toList

/-- The path of a program that is looked for in several directories. -/
def pathOf (s : State) (name : Raw) : Option Raw :=
  if name.contains '/' then (if (atPath s.here name).isOk then some name else none)
  else (Text.pieces ':' (places s)).findSome? fun dir =>
    let path := if dir.isEmpty then name else dir ++ '/' :: name
    if (atPath s.here path).isOk then some path else none

/-- What kind of command a name means, in short or in words; nothing if it means none. -/
def meaning (s : State) (inWords : Bool) (name : Raw) : Option Raw :=
  let say (text : String) : Option Raw := some (if inWords then name ++ text.toList else name)
  if Keyword.all.any fun k => k.text.toList = name then say " is a shell keyword"
  else if isSpecial name then say " is a special shell builtin"
  else if (s.functions.lookup name).isSome then say " is a shell function"
  else if ordinary.contains name then say " is a shell builtin"
  else (pathOf s name).map fun path => if inWords then name ++ " is ".toList ++ path else path

/-- `type`. -/
def type_ (args : List Raw) (s : State) : State :=
  let out := args.flatMap fun name => ((meaning s true name).getD (name ++ ": not found".toList)) ++ ['\n']
  deliver s "type".toList { out, status := if args.all fun name => (meaning s true name).isSome then 0 else 127 }

/-- Waits for commands in the background. -/
def wait (args : List Raw) (s : State) : Outcome :=
  match args with
  | [] => .ok (if s.jobs.any fun j => j.2 = .waiting then { s with flow := .waiting } else s.ending 0)
  | _ => args.foldlM (fun s arg => do
      let n ← natural arg
      return match s.jobs.lookup n with
        | some (.exited code) => s.ending code
        | some (.killed signal) => s.ending (128 + signal)
        | some .waiting => { s with flow := .waiting }
        | none => s.ending 127) s

/-- A command of the shell that runs no other ones; nothing if there is none of that name. -/
def run (name : Raw) (args : List Raw) (s : State) : Option Outcome :=
  let ok (s : State) : Option Outcome := some (.ok s)
  match String.ofList name with
  | ":" | "true" => ok (s.ending 0)
  | "false" => ok (s.ending 1)
  | "echo" => ok (print s name (echo .shell args))
  | "printf" => some do
    let (_, rest) ← options "" args
    match rest with
    | [] => throw "usage: printf format [arg ...]".toList
    | format :: rest => return deliver s name (printf .shell format rest)
  | "test" | "[" =>
    some ((Condition.evaluate ⟨s.world, s.ds, s.here⟩ name args).map fun holds => s.ending (if holds then 0 else 1))
  | "cd" | "chdir" => some (cd args s)
  | "pwd" => ok (print s name (s.path ++ ['\n']))
  | "read" => some (read args s)
  | "export" => some (declare name (fun v => { v with exported := true }) (·.exported) args s)
  | "readonly" => some (declare name (fun v => { v with fixed := true }) (·.fixed) args s)
  | "local" => some (keepLocal args s)
  | "unset" => some (unset args s)
  | "set" =>
    if args.isEmpty then ok (print s name (listing s [] (·.value.isSome)))
    else some ((set (args.length + 1) args s).map fun s => s.ending 0)
  | "shift" => some (shift args s)
  | "exit" => some (exit args s)
  | "return" => some (return_ args s)
  | "break" => some (leaveLoops .breaking args s)
  | "continue" => some (leaveLoops .continuing args s)
  | "trap" => some (trap args s)
  | "kill" => some (kill args s)
  | "type" => ok (type_ args s)
  | "wait" => some (wait args s)
  | "umask" => ok (if args.isEmpty then print s name "0022\n".toList else s.ending 0)
  | "ulimit" => ok (if args.isEmpty then print s name "unlimited\n".toList else s.ending 0)
  | "times" => ok (print s name "0m0.000000s 0m0.000000s\n0m0.000000s 0m0.000000s\n".toList)
  | "alias" | "bg" | "fg" | "getopts" | "hash" | "jobs" | "unalias" => ok (s.ending 0)
  | _ => none

end JobPlane.Shell.Builtin
