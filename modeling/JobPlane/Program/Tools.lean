import JobPlane.Program.Copy
import JobPlane.Program.Format

/-!
# Small programs

The programs that need no shell: they succeed or fail, print their arguments, copy their input or sleep. `test` is not among
them, since the shell has the same command.
-/

namespace JobPlane.Program

/-! ## Printing the arguments -/

/-- What is printed for arguments between blanks, with escapes replaced or not. Nothing follows an escape that stops printing. -/
def echoText (p : Printer) (interpret newline : Bool) (args : List Raw) : Raw :=
  let text := Raw.words args
  let (text, ending) := if interpret then Escape.replace (Escape.inEcho p) text else (text, .complete)
  if newline && ending = .complete then text ++ ['\n'] else text

/-- Whether an argument consists of options of the program `echo`. -/
def isEchoOption (arg : Raw) : Bool :=
  match arg with
  | '-' :: c :: cs => (c :: cs).all fun c => c = 'n' || c = 'e' || c = 'E'
  | _ => false

/-- What `echo` prints. For the program, the last of the options that say whether escapes are replaced counts; the shell knows one
option, and always replaces them. -/
def echo (p : Printer) (args : List Raw) : Raw :=
  match p with
  | .program =>
    let options := (args.takeWhile isEchoOption).flatMap fun a => a.drop 1
    let interpret := (options.filter (· ≠ 'n')).getLast? = some 'e'
    echoText p interpret (!options.contains 'n') (args.dropWhile isEchoOption)
  | .shell =>
    match args with
    | ['-', 'n'] :: rest => echoText p true false rest
    | _ => echoText p true true args

/-! ## Sleeping -/

/-- The seconds that an operand of `sleep` asks for. -/
def seconds? (arg : Raw) : Option Real :=
  let n := Real.read Real.Precision.extended arg
  let unit : Option Nat := match n.rest with
    | [] | ['s'] => some 1
    | ['m'] => some 60
    | ['h'] => some 3600
    | ['d'] => some 86400
    | _ => none
  match n.found, n.value, unit with
  | true, .finite false a b, some u => some (.finite false (a * u) b)
  | true, .infinite false, some _ => some (.infinite false)
  | _, _, _ => none

/-- Whether someone who sleeps so long is still asleep when everything else is done. -/
def isLong : Real → Bool
  | .finite _ a b => 5 * b ≤ a
  | _ => true

/-- Sleeps for all of its operands together, of which each one that is none is complained of. -/
def sleep (name : Raw) (args : List Raw) (ds : Descriptors) (w : World) : Ending × World :=
  let hint := "Try '".toList ++ name ++ " --help' for more information.\n".toList
  let refuse (r : Raw) : Ending × World := (.exited 1, w.say ds 2 (r ++ hint))
  let complaint (r : Raw) : Raw := name ++ ": ".toList ++ r ++ ['\n']
  let operands := if args.head? = some ['-', '-'] then args.tail else args
  match operands with
  | [] => refuse (complaint "missing operand".toList)
  | ('-' :: '-' :: c :: cs) :: _ => refuse (complaint ("unrecognized option '--".toList ++ c :: cs ++ ['\'']))
  | ('-' :: c :: _) :: _ => refuse (complaint ("invalid option -- '".toList ++ [c, '\'']))
  | _ =>
    match operands.filter fun a => (seconds? a).isNone with
    | [] => (if operands.any fun a => (seconds? a).any isLong then .waiting else .exited 0, w)
    | bad => refuse (bad.flatMap fun a => complaint ("invalid time interval ".toList ++ Quote.argument a))

/-! ## Running them -/

/-- Writes what a program prints, and its complaints after its name. -/
def deliver (name : Raw) (o : Printed) (ds : Descriptors) (w : World) : Ending × World :=
  let w := o.complaints.foldl (fun w c => w.say ds 2 (name ++ ": ".toList ++ c ++ ['\n'])) w
  if o.out.isEmpty then (.exited o.status, w)
  else match w.write ds 1 o.out with
    | .ok w => (.exited o.status, w)
    | .error e => (.exited 1, w.say ds 2 (name ++ ": write error: ".toList ++ e ++ ['\n']))

/-- Runs one of the programs that need no shell. -/
def runTool (k : Known) (name : Raw) (args : List Raw) (here : Place) (ds : Descriptors) (w : World) : Ending × World :=
  match k with
  | .fail => (.exited 1, w)
  | .echo => deliver name { out := echo .program args } ds w
  | .printf =>
    match if args.head? = some ['-', '-'] then args.tail else args with
    | [] =>
      (.exited 1, w.say ds 2 (name ++ ": missing operand\nTry '".toList ++ name ++ " --help' for more information.\n".toList))
    | format :: rest => deliver name (printf .program format rest) ds w
  | .cat => Copy.run name args here ds w
  | .sleep => sleep name args ds w
  | .succeed | .test | .shell => (.exited 0, w)

end JobPlane.Program
