import JobPlane.Program.Raw
import JobPlane.SystemError
import JobPlane.Text.Cut

/-!
# Files

The part of the tree of files that programs can name: the directories of the system, the programs that are known, the devices, some
files that are no programs, and the files that programs make. A path is followed name by name, and only a directory can be gone
through.
-/

namespace JobPlane.Program

/-- A program that is known. -/
inductive Known
  | succeed
  | fail
  | echo
  | printf
  | cat
  | sleep
  | test
  | shell
  deriving Repr, DecidableEq

/-- The program of a name. -/
def Known.ofName (name : Raw) : Option Known :=
  match String.ofList name with
  | "true" => some .succeed
  | "false" => some .fail
  | "echo" => some .echo
  | "printf" => some .printf
  | "cat" => some .cat
  | "sleep" => some .sleep
  | "test" | "[" => some .test
  | "sh" | "dash" => some .shell
  | _ => none

/-- A file that stands for something else. -/
inductive Device
  /-- Takes everything and has nothing. -/
  | null
  /-- Takes nothing. -/
  | full
  /-- Never ends. -/
  | endless
  /-- What a descriptor of the program leads to. -/
  | descriptor (n : Nat)
  deriving Repr, DecidableEq

/-- Where something is: the names on the way from the root. -/
abbrev Place := List Raw

/-- What a path leads to. -/
inductive Entry
  | directory (place : Place)
  | program (k : Known)
  | device (d : Device)
  /-- A file that is neither. -/
  | file (place : Place)
  deriving Repr, DecidableEq

namespace Entry

/-- A place by its path. -/
def place (path : String) : Place := (Text.pieces '/' path.toList).filter fun name => !name.isEmpty

/-- The directories, besides the root. -/
def directories : List Place :=
  ["usr", "usr/bin", "usr/sbin", "usr/lib", "usr/lib64", "usr/share", "usr/include", "usr/src", "usr/local", "usr/local/bin",
   "usr/local/sbin", "usr/local/lib", "etc", "tmp", "var", "var/tmp", "var/log", "var/lib", "home", "root", "dev", "dev/fd",
   "dev/shm", "proc", "proc/self", "sys", "opt", "mnt", "media", "srv", "srv/job", "run", "boot"].map place

/-- The files that are neither programs nor devices. -/
def files : List Place :=
  ["etc/passwd", "etc/group", "etc/shadow", "etc/hosts", "etc/hostname", "etc/resolv.conf", "etc/fstab", "etc/profile",
   "etc/os-release", "etc/shells", "etc/nsswitch.conf", "etc/ld.so.cache", "etc/issue", "etc/debian_version", "dev/tty",
   "proc/version", "proc/cpuinfo", "proc/meminfo", "proc/uptime", "proc/self/status", "proc/self/environ"].map place

/-- The devices. -/
def devices : List (Place × Device) :=
  [("dev/null", Device.null), ("dev/full", .full), ("dev/zero", .endless), ("dev/random", .endless), ("dev/urandom", .endless),
   ("dev/stdin", .descriptor 0), ("dev/stdout", .descriptor 1), ("dev/stderr", .descriptor 2), ("dev/fd/0", .descriptor 0),
   ("dev/fd/1", .descriptor 1), ("dev/fd/2", .descriptor 2), ("proc/self/fd/0", .descriptor 0), ("proc/self/fd/1", .descriptor 1),
   ("proc/self/fd/2", .descriptor 2)].map fun (path, d) => (place path, d)

/-- The names at the root that stand for directories elsewhere. -/
def links : List (Raw × Place) := ["bin", "sbin", "lib", "lib64"].map fun name => (name.toList, place ("usr/" ++ name))

/-- The longest name of a file. -/
def longestName : Nat := 255

/-- The longest path, with the byte that ends it. -/
def longestPath : Nat := 4096

/-- Where a program begins. -/
def start : Place := place "srv/job"

/-- What a directory has under a name, with the files that were made. -/
def child (made : List Place) (here : Place) (name : Raw) : Except SystemError Entry :=
  let there := match here, links.lookup name with
    | [], some real => real
    | _, _ => here ++ [name]
  if longestName < name.length then .error .nameTooLong
  else if directories.contains there then .ok (directory there)
  else if files.contains there || made.contains there then .ok (file there)
  else match devices.lookup there, if here = place "usr/bin" then Known.ofName name else none with
    | some d, _ => .ok (device d)
    | none, some k => .ok (program k)
    | none, none => .error .notFound

/-- Goes on from an entry by names. -/
def walk (made : List Place) : Entry → List Raw → Except SystemError Entry
  | e, [] => .ok e
  | directory here, name :: rest =>
    if name.isEmpty || name = ['.'] then walk made (directory here) rest
    else if name = ['.', '.'] then walk made (directory here.dropLast) rest
    else match child made here name with
      | .ok e => walk made e rest
      | .error e => .error e
  | _, _ :: _ => .error .notADirectory

/-- What a path leads to from a directory. -/
def ofPath (made : List Place) (here : Place) (path : Raw) : Except SystemError Entry :=
  if path.isEmpty then .error .notFound
  else if longestPath ≤ path.length then .error .nameTooLong
  else walk made (directory (if path.head? = some '/' then [] else here)) (Text.pieces '/' path)

end Entry

/-- The program at a path. What is no program may not be run. -/
def atPath (here : Place) (path : Raw) : Except SystemError Known :=
  match Entry.ofPath [] here path with
  | .ok (.program k) => .ok k
  | .ok _ => .error .permissionDenied
  | .error e => .error e

/-- Where programs are looked for unless something else is asked for. -/
def usualPlaces : Raw := "/usr/local/sbin:/usr/local/bin:/usr/sbin:/usr/bin:/sbin:/bin".toList

/-- Looks for a program in several directories: the first that is there counts, and one that may not be run only if no other is
found. -/
def searchIn (here : Place) (name : Raw) : List Raw → SystemError → Except SystemError Known
  | [], fault => .error fault
  | dir :: rest, fault =>
    match atPath here (if dir.isEmpty then name else dir ++ '/' :: name) with
    | .ok k => .ok k
    | .error .permissionDenied => searchIn here name rest .permissionDenied
    | .error _ => searchIn here name rest fault

/-- The program a command names: by a path if it has a slash, else by its name in the given directories. -/
def find (here : Place) (places : Option Raw) (command : Raw) : Except SystemError Known :=
  if command.isEmpty then .error .notFound
  else if command.contains '/' then atPath here command
  else if Entry.longestName < command.length then .error .nameTooLong
  else searchIn here command (Text.pieces ':' (places.getD usualPlaces)) .notFound

end JobPlane.Program
