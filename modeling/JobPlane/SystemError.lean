import JobPlane.Stream.Error

/-!
# Refusals of the operating system

Why the operating system does not start a program or does not let a server listen. Each refusal has a number and a text, and
belongs to a class of failures.
-/

namespace JobPlane

/-- A refusal of the operating system. -/
inductive SystemError
  | notFound
  | permissionDenied
  | notADirectory
  | invalidArgument
  | nameTooLong
  | argumentsTooLong
  | addressNotAvailable
  deriving Repr, DecidableEq, Inhabited

namespace SystemError

/-- The number of a refusal. -/
def code : SystemError → Nat
  | notFound => 2
  | permissionDenied => 13
  | notADirectory => 20
  | invalidArgument => 22
  | nameTooLong => 36
  | argumentsTooLong => 7
  | addressNotAvailable => 99

/-- The text of a refusal. -/
def text : SystemError → String
  | notFound => "No such file or directory"
  | permissionDenied => "Permission denied"
  | notADirectory => "Not a directory"
  | invalidArgument => "Invalid argument"
  | nameTooLong => "File name too long"
  | argumentsTooLong => "Argument list too long"
  | addressNotAvailable => "Cannot assign requested address"

/-- The class of a refusal. -/
def kind : SystemError → FaultKind
  | notFound => .notFound
  | permissionDenied => .permissionDenied
  | notADirectory => .notADirectory
  | invalidArgument => .invalidInput
  | nameTooLong => .invalidFilename
  | argumentsTooLong => .argumentListTooLong
  | addressNotAvailable => .addrNotAvailable

/-- The wording of a refusal: its text and its number. -/
def message (e : SystemError) : String := e.text ++ " (os error " ++ toString e.code ++ ")"

/-- A refusal as it is reported when the program cannot start. -/
def report (e : SystemError) : String :=
  "Os \x7b code: " ++ toString e.code ++ ", kind: " ++ e.kind.name ++ ", message: \"" ++ e.text ++ "\" \x7d"

/-- A refusal as a failure of a stream. -/
def failure (e : SystemError) : StreamError := .outside e.kind e.message

end SystemError

end JobPlane
