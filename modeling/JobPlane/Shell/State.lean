import JobPlane.Program.World
import JobPlane.Shell.Syntax

/-!
# The state of a shell

What a shell knows while it runs a script: its variables and parameters, functions, traps and descriptors, how the last command
ended, and whether it goes on with the next one at all. What it shares with other programs, the streams and files, is a part of it,
so that a command is a change of the state and nothing else.
-/

namespace JobPlane.Shell

open Program

/-- What comes after a command. -/
inductive Flow
  /-- The next one. -/
  | on
  /-- The end of several loops. -/
  | breaking (loops : Nat)
  /-- The next round of the last of several loops. -/
  | continuing (loops : Nat)
  /-- The end of a function. -/
  | returning
  /-- The end of the shell. -/
  | exiting
  /-- Nothing, since the shell was killed. -/
  | killed (signal : Nat)
  /-- Nothing for now. -/
  | waiting
  deriving Repr, DecidableEq

/-- A variable, which may be marked before it has a value. -/
structure Variable where
  value : Option Raw := none
  exported : Bool := false
  fixed : Bool := false
  deriving Repr, DecidableEq

/-- The state of a shell. -/
structure State where
  world : World := { }
  ds : Descriptors := []
  /-- The name of the shell, which its messages begin with. -/
  name : Raw := "sh".toList
  params : List Raw := []
  vars : List (Raw × Variable) := []
  functions : List (Raw × Command) := []
  /-- What is run when a signal comes, or for zero when the shell exits. -/
  traps : List (Nat × Raw) := []
  /-- The traps of the shell that this one is a part of. -/
  outerTraps : List (Nat × Raw) := []
  /-- Signals that have come and wait for their traps. -/
  caught : List Nat := []
  /-- The letters of the options that are on. -/
  options : List Char := []
  /-- The exit code of the last command. -/
  last : Nat := 0
  /-- The exit code of the last commands whose output was taken, zero at the beginning of a command. -/
  lastOutput : Nat := 0
  line : Nat := 1
  /-- The line up to which the script is read. -/
  lineRead : Nat := 1
  /-- The command of the shell that is at work, for messages. -/
  working : Option Raw := none
  here : Place := Entry.start
  /-- How the shell came to the directory where it is. -/
  path : Raw := "/srv/job".toList
  /-- How many loops are open. -/
  loops : Nat := 0
  /-- How many functions are open. -/
  calls : Nat := 0
  /-- The variables that the open function has for itself, with what they were before. -/
  locals : List (Raw × Option Variable) := []
  /-- The exit code of what runs is asked for, so that failing is no error. -/
  tested : Bool := false
  /-- A signal that a part of the shell has killed it with. -/
  doom : Option Nat := none
  /-- The commands in the background, the last one first, and how they ended. -/
  jobs : List (Nat × Ending) := []
  /-- It is a part of another shell. -/
  nested : Bool := false
  flow : Flow := .on

namespace State

/-- The number of the process, as far as anyone can tell. -/
def pid : Nat := 4242

/-- Whether the next command runs. -/
def isOn (s : State) : Bool := s.flow = .on

/-- Ends a command with an exit code. -/
def ending (s : State) (code : Nat) : State := { s with last := code }

/-- Turns an option on or off. -/
def setOption (s : State) (letter : Char) (on : Bool) : State :=
  { s with options := (if on then [letter] else []) ++ s.options.filter (· ≠ letter) }

/-- Writes to a descriptor if that is possible. -/
def say (s : State) (n : Nat) (r : Raw) : State := { s with world := s.world.say s.ds n r }

/-- A message, after the name of the shell, the line and the command at work. -/
def complain (s : State) (r : Raw) : State :=
  let command := match s.working with
    | some c => c ++ ": ".toList
    | none => []
  s.say 2 (s.name ++ ": ".toList ++ Raw.ofNat s.line ++ ": ".toList ++ command ++ r ++ ['\n'])

/-- Complains, and ends the shell. -/
def abort (s : State) (r : Raw) : State := { (s.complain r).ending 2 with flow := .exiting }

/-! ## Variables -/

/-- A variable. -/
def var? (s : State) (name : Raw) : Option Variable := s.vars.lookup name

/-- The value of a variable. -/
def value? (s : State) (name : Raw) : Option Raw := (s.var? name).bind (·.value)

/-- Puts a variable in. -/
def put (s : State) (name : Raw) (v : Variable) : State :=
  { s with vars := (name, v) :: s.vars.filter fun p => p.1 != name }

/-- Sets a variable, unless it is fixed. -/
def assign (s : State) (name value : Raw) : State :=
  let v := (s.var? name).getD { }
  if v.fixed then s.abort (name ++ ": is read only".toList)
  else s.put name { v with value := some value, exported := v.exported || s.options.contains 'a' }

/-- Sets a variable to what it was, or removes it. -/
def restore (s : State) (name : Raw) : Option Variable → State
  | some v => s.put name v
  | none => { s with vars := s.vars.filter fun p => p.1 != name }

/-- The variables that programs get. -/
def environment (s : State) : List (Raw × Raw) :=
  s.vars.filterMap fun (name, v) => if v.exported then v.value.map fun value => (name, value) else none

/-- The characters that fields are split at. -/
def separators (s : State) : Raw := (s.value? "IFS".toList).getD [' ', '\t', '\n']

/-- What stands between the parameters when they are put together. -/
def joint (s : State) : Raw := s.separators.take 1

/-- The letters of all options, in the order in which they are shown. -/
def flagLetters : List Char := "ubaCEVvxsnmiIfe".toList

/-- The value of a special or a positional parameter that is no list; nothing if it is not set. -/
def special? (s : State) (name : Raw) : Option Raw :=
  match name with
  | ['#'] => some (Raw.ofNat s.params.length)
  | ['?'] => some (Raw.ofNat s.last)
  | ['$'] => some (Raw.ofNat pid)
  | ['!'] => s.jobs.head?.map fun j => Raw.ofNat j.1
  | ['-'] => some (flagLetters.filter s.options.contains)
  | _ =>
    match Raw.value 10 name with
    | 0 => some s.name
    | n + 1 => s.params[n]?

/-- The value of a parameter that is no list. -/
def parameter? (s : State) (name : Raw) : Option Raw := if isName name then s.value? name else s.special? name

/-! ## Signals -/

/-- The signals that have names. -/
def signals : List (Nat × Raw) :=
  [(0, "EXIT"), (1, "HUP"), (2, "INT"), (3, "QUIT"), (4, "ILL"), (5, "TRAP"), (6, "ABRT"), (7, "BUS"), (8, "FPE"), (9, "KILL"),
   (10, "USR1"), (11, "SEGV"), (12, "USR2"), (13, "PIPE"), (14, "ALRM"), (15, "TERM"), (16, "STKFLT"), (17, "CHLD"),
   (18, "CONT"), (19, "STOP"), (20, "TSTP"), (21, "TTIN"), (22, "TTOU"), (23, "URG"), (24, "XCPU"), (25, "XFSZ"),
   (26, "VTALRM"), (27, "PROF"), (28, "WINCH"), (29, "IO"), (30, "PWR"), (31, "SYS")].map fun (n, name) => (n, name.toList)

/-- The number of a signal, by its name in any case or by its number. -/
def signal? (r : Raw) : Option Nat :=
  if !r.isEmpty && r.all Char.isDigit then (if Raw.value 10 r ≤ 64 then some (Raw.value 10 r) else none)
  else (signals.find? fun p => p.2 = r.map Char.toUpper).map (·.1)

/-- What is said of a program that a signal has killed; nothing of the signals that are sent on purpose. -/
def deathNotice (signal : Nat) : Raw :=
  match signal with
  | 1 => "Hangup".toList
  | 3 => "Quit".toList
  | 4 => "Illegal instruction".toList
  | 5 => "Trace/breakpoint trap".toList
  | 6 => "Aborted".toList
  | 7 => "Bus error".toList
  | 8 => "Floating point exception".toList
  | 9 => "Killed".toList
  | 10 => "User defined signal 1".toList
  | 11 => "Segmentation fault".toList
  | 12 => "User defined signal 2".toList
  | 14 => "Alarm clock".toList
  | 15 => "Terminated".toList
  | 16 => "Stack fault".toList
  | 24 => "CPU time limit exceeded".toList
  | 25 => "File size limit exceeded".toList
  | 26 => "Virtual timer expired".toList
  | 27 => "Profiling timer expired".toList
  | 29 => "I/O possible".toList
  | 30 => "Power failure".toList
  | 31 => "Bad system call".toList
  | _ => []

/-- The shell is killed. A part of it goes on by itself. -/
def killedBy (s : State) (signal : Nat) : State :=
  if s.nested then { s with doom := some signal } else { s with flow := .killed signal }

/-- Whether a part of the shell has killed it shows as soon as the shell itself has its turn. -/
def doomed (s : State) : State :=
  match s.nested, s.doom with
  | false, some signal => { s with flow := .killed signal }
  | _, _ => s

/-- The shell gets a signal, also from one of its parts: it waits for its trap, is ignored or kills, and a few stop the shell for
good. -/
def signalled (s : State) (signal : Nat) : State :=
  let traps := if s.nested then s.outerTraps else s.traps
  if signal = 0 || [17, 18, 23, 28].contains signal then
    if (traps.lookup signal).any (!·.isEmpty) && signal ≠ 0 then { s with caught := s.caught ++ [signal] } else s
  else if signal = 9 then s.killedBy 9
  else if signal = 19 then { s with flow := .waiting }
  else match traps.lookup signal with
    | some [] => s
    | some _ => { s with caught := s.caught ++ [signal] }
    | none => if [20, 21, 22].contains signal then { s with flow := .waiting } else s.killedBy signal

/-! ## Shells inside a shell -/

/-- The state of a part of the shell that runs by itself: traps are not its own. -/
def inner (s : State) : State :=
  { s with traps := s.traps.filter fun t => t.2.isEmpty
           outerTraps := if s.nested then s.outerTraps else s.traps
           nested := true
           lineRead := 1 }

/-- What remains after a part of the shell has run by itself: what it did outside, and how it ended. -/
def joined (s : State) (i : State) : State :=
  { s with world := i.world, last := i.last, caught := i.caught, doom := i.doom
           flow := if i.flow = .waiting then .waiting else s.flow }

/-- Goes on after a part of the shell has run by itself. -/
def after (s : State) (i : State) : State := (s.joined i).doomed

end State

end JobPlane.Shell
