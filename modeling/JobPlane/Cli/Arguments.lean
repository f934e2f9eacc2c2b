import JobPlane.Config
import JobPlane.Service
import JobPlane.Text.Blank

/-!
# Command line arguments

The one command, `server`, and its options. An option takes the argument after it as its value, unless that looks like an option
itself, or the part of its own argument after an equals sign. No option may come twice. What is wrong with an option's value is
noticed when the next option or the end is reached, so an argument that is no option at all is reported before it.
-/

namespace JobPlane.Cli

/-- Why the arguments do not start the server. -/
inductive UsageError
  | displayHelp
  | displayVersion
  | nothingGiven
  | invalidSubcommand
  | unknownArgument
  /-- A value that cannot be read. -/
  | valueValidation
  /-- A value that is missing, or not one of those possible. -/
  | invalidValue
  | argumentConflict
  | tooManyValues
  deriving Repr, DecidableEq

namespace UsageError

/-- The name of a usage error's kind. -/
def name : UsageError → String
  | displayHelp => "DisplayHelp"
  | displayVersion => "DisplayVersion"
  | nothingGiven => "DisplayHelpOnMissingArgumentOrSubcommand"
  | invalidSubcommand => "InvalidSubcommand"
  | unknownArgument => "UnknownArgument"
  | valueValidation => "ValueValidation"
  | invalidValue => "InvalidValue"
  | argumentConflict => "ArgumentConflict"
  | tooManyValues => "TooManyValues"

/-- The exit code of the program. -/
def exitCode : UsageError → Nat
  | displayHelp | displayVersion => 0
  | _ => 2

end UsageError

/-- An option that takes a value. -/
inductive Setting
  | bind
  | port
  | hosts
  | runtime
  | placement
  | catalog
  | attachWait
  | attachDrain
  | memoryLimit
  | cpuLimit
  deriving Repr, DecidableEq

/-- What an argument that begins with two hyphens names. -/
inductive LongName
  | setting (s : Setting)
  | allowNetwork
  | help
  | version
  deriving Repr, DecidableEq

/-- What a long name stands for. -/
def LongName.ofName : String → Option LongName
  | "bind" => some (.setting .bind)
  | "port" => some (.setting .port)
  | "hosts" => some (.setting .hosts)
  | "runtime" => some (.setting .runtime)
  | "placement" => some (.setting .placement)
  | "catalog" => some (.setting .catalog)
  | "attach-wait-timeout-ms" => some (.setting .attachWait)
  | "attach-drain-timeout-ms" => some (.setting .attachDrain)
  | "memory-limit" => some (.setting .memoryLimit)
  | "cpu-limit" => some (.setting .cpuLimit)
  | "allow-network" => some .allowNetwork
  | "help" => some .help
  | "version" => some .version
  | _ => none

/-- How an argument reads. -/
inductive Shape
  /-- Two hyphens alone. -/
  | escape
  /-- A long name, perhaps with a value after an equals sign. -/
  | long (name : String) (value : Option String)
  /-- One hyphen and short names. -/
  | short (names : List Char)
  | plain
  deriving Repr, DecidableEq

/-- How an argument reads. -/
def Shape.of (arg : String) : Shape :=
  match arg.toList with
  | ['-', '-'] => .escape
  | '-' :: '-' :: rest =>
    match Text.cutFirst '=' rest with
    | some (name, value) => .long (String.ofList name) (some (String.ofList value))
    | none => .long (String.ofList rest) none
  | '-' :: c :: rest => .short (c :: rest)
  | _ => .plain

/-- The number a text of decimal digits spells. -/
def digits? (cs : List Char) : Option Nat :=
  if cs.isEmpty || !cs.all Char.isDigit then none else some (cs.foldl (fun n c => n * 10 + (c.toNat - 48)) 0)

/-- A natural number, with an optional plus sign. -/
def natural? (s : String) : Option Nat :=
  match s.toList with
  | '+' :: cs => digits? cs
  | cs => digits? cs

/-- A port: a number from 0 to 65535, with an optional sign. -/
def port? (s : String) : Option Nat :=
  let n := match s.toList with
    | '-' :: cs => (digits? cs).filter (· = 0)
    | _ => natural? s
  n.filter (· < 65536)

/-- The hosts of a comma-separated list: trimmed, without the empty ones. -/
def splitHosts (s : String) : List String := ((Text.splitAll ',' s).map Text.trimmed).filter fun h => !h.isEmpty

/-- The configuration with a setting given a value. -/
def Setting.apply (s : Setting) (v : String) (c : Config) : Except UsageError Config :=
  match s with
  | .bind =>
    match IpAddress.parse v with
    | some ip => .ok { c with listen := { c.listen with ip } }
    | none => .error .valueValidation
  | .port =>
    match port? v with
    | some n => .ok { c with listen := { c.listen with port := n } }
    | none => .error .valueValidation
  | .hosts => .ok { c with hosts := splitHosts v }
  | .runtime =>
    match v with
    | "process" => .ok { c with runtime := .process }
    | "docker" => .ok { c with runtime := .docker }
    | _ => .error .invalidValue
  | .placement =>
    match v with
    | "random" => .ok { c with placement := .random }
    | "least-loaded" => .ok { c with placement := .leastLoaded }
    | _ => .error .invalidValue
  | .catalog => if v.isEmpty then .error .invalidValue else .ok { c with catalog := some v }
  | .attachWait =>
    match (natural? v).filter (· < Nat.pow 2 64) with
    | some n => .ok { c with attachWait := n }
    | none => .error .valueValidation
  | .attachDrain =>
    match (natural? v).filter (· < Nat.pow 2 64) with
    | some n => .ok { c with attachDrain := n }
    | none => .error .valueValidation
  | .memoryLimit => .ok { c with sandbox := { c.sandbox with memoryLimit := some v } }
  | .cpuLimit => .ok { c with sandbox := { c.sandbox with cpuLimit := some v } }

/-- The arguments read so far. -/
structure Progress where
  config : Config := { hosts := ["host1"] }
  /-- The settings that have their value. -/
  given : List Setting := []
  networkGiven : Bool := false
  /-- The setting named last, with its value if that has come. -/
  pending : Option (Setting × Option String) := none

namespace Progress

/-- Gives a setting its value. -/
def give (p : Progress) (s : Setting) (v : String) : Except UsageError Progress :=
  if p.given.contains s then .error .argumentConflict
  else (s.apply v p.config).map fun config => { p with config, given := s :: p.given, pending := none }

/-- Settles the setting named last. -/
def settle (p : Progress) : Except UsageError Progress :=
  match p.pending with
  | none => .ok p
  | some (_, none) => .error .invalidValue
  | some (s, some v) => { p with pending := none }.give s v

/-- Reads a long name. -/
def long (p : Progress) (name : String) (value : Option String) : Except UsageError Progress :=
  match LongName.ofName name, value with
  | none, _ => .error .unknownArgument
  | some (.setting s), some v => do (← p.settle).give s v
  | some (.setting s), none => do return { ← p.settle with pending := some (s, none) }
  | some _, some _ => .error .tooManyValues
  | some .allowNetwork, none => do
    let p ← p.settle
    if p.networkGiven then throw .argumentConflict
    else return { p with networkGiven := true, config := { p.config with sandbox := { p.config.sandbox with networkDisabled := false } } }
  | some .help, none => do
    let _ ← p.settle
    throw .displayHelp
  | some .version, none => do
    let _ ← p.settle
    throw .displayVersion

/-- Reads short names, of which there are only those for help and the version. -/
def short (p : Progress) : List Char → Except UsageError Progress
  | 'h' :: _ => do
    let _ ← p.settle
    throw .displayHelp
  | 'V' :: _ => do
    let _ ← p.settle
    throw .displayVersion
  | _ => .error .unknownArgument

/-- Reads the arguments after the command's name. -/
def read (p : Progress) : List String → Except UsageError Progress
  | [] => p.settle
  | a :: rest =>
    match Shape.of a with
    | .escape =>
      match rest with
      | [] => p.settle
      | _ :: _ => .error .unknownArgument
    | .long name value =>
      match p.long name value with
      | .ok p => read p rest
      | .error e => .error e
    | .short names =>
      match p.short names with
      | .ok p => read p rest
      | .error e => .error e
    | .plain =>
      match p.pending with
      | some (s, none) => read { p with pending := some (s, some a) } rest
      | _ => .error .unknownArgument

end Progress

/-- Reads what is asked of the help command: only the names of commands are known to it. -/
def readHelp : List String → UsageError
  | [] => .displayHelp
  | ["server"] => .displayHelp
  | ["help"] => .displayHelp
  | _ => .invalidSubcommand

/-- The configuration that arguments ask for. -/
def parse : List String → Except UsageError Config
  | [] => .error .nothingGiven
  | a :: rest =>
    if a = "server" then (({} : Progress).read rest).map (·.config)
    else if a = "help" then .error (readHelp rest)
    else
      match Shape.of a with
      | .escape =>
        match rest with
        | [] => .error .nothingGiven
        | b :: _ => if b = "server" || b = "help" then .error .unknownArgument else .error .invalidSubcommand
      | .long "help" none => .error .displayHelp
      | .long "version" none => .error .displayVersion
      | .long "help" (some _) => .error .tooManyValues
      | .long "version" (some _) => .error .tooManyValues
      | .long _ _ => .error .unknownArgument
      | .short ('h' :: _) => .error .displayHelp
      | .short ('V' :: _) => .error .displayVersion
      | .short _ => .error .unknownArgument
      | .plain => .error .invalidSubcommand

/-- How a run of the program ends. -/
structure Ending where
  code : Nat
  /-- What is reported if it cannot start. -/
  report : Option String := none
  deriving Repr, DecidableEq

/-- What keeps a configuration from being served: the hosts are checked first, then the catalog's seed is read, and last the server
has to listen. -/
def startError (c : Config) (seed : String → Option Bytes) : Option String :=
  let listening := c.listen.listenError?.map SystemError.report
  match c.validate with
  | .error e => some e.report
  | .ok () =>
    match c.catalog with
    | none => listening
    | some path =>
      match (seed path).map Catalog.ofJson with
      | some (.ok _) => listening
      | _ => some "Load"

/-- How a run of the program ends that is told to stop once it serves; `seed` gives the contents of files. -/
def ending (args : List String) (seed : String → Option Bytes) : Ending :=
  match parse args with
  | .error e => { code := e.exitCode }
  | .ok c =>
    match startError c seed with
    | some r => { code := 1, report := some ("Error: " ++ r) }
    | none => { code := 0 }

end JobPlane.Cli
