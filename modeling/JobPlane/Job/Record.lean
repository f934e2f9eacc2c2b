import JobPlane.Catalog

/-!
# Job records

What is asked for when a job is to be run, what is told about a job, and the full description a host runs a job by; each with its
JSON form.
-/

namespace JobPlane

/-- A request to run a job. -/
structure NewJob where
  releaseId : String := ""
  cmd : List String := []
  env : TextMap := .empty
  tty : Bool := false
  /-- Rows of the terminal, 0 if unknown. -/
  lines : UInt16 := 0
  /-- Columns of the terminal, 0 if unknown. -/
  columns : UInt16 := 0
  deriving DecidableEq, Inhabited

/-- What is told about a job. -/
structure JobSummary where
  id : String := ""
  jobType : Option String := none
  releaseId : String := ""
  cmd : Option (List String) := none
  deriving Repr, DecidableEq, Inhabited

/-- How a job's container is run. -/
structure ContainerConfig where
  image : ImageRef := {}
  cmd : List String := []
  env : List String := []
  attachStdin : Bool := false
  attachStdout : Bool := false
  attachStderr : Bool := false
  stdinOnce : Bool := false
  openStdin : Bool := false
  tty : Bool := false
  deriving Repr, DecidableEq, Inhabited

/-- A job as a host runs it. -/
structure JobSpec where
  /-- The ID on the host. -/
  id : String := ""
  appId : String := ""
  releaseId : String := ""
  /-- The process type, empty for a command of its own. -/
  jobType : String := ""
  tags : TextMap := .empty
  config : ContainerConfig := {}
  deriving DecidableEq, Inhabited

/-- A list of texts as JSON. -/
def Json.writeStrings (ss : List String) : String := Json.writeArray (ss.map Json.writeString)

/-- Reads a list of texts. -/
def Json.readStrings : Json.Reader (List String) := Json.readList Json.readString

/-- Reads a number of 16 bits. -/
def Json.readUInt16 : Json.Reader UInt16 := fun bs =>
  (Json.readNatural 65536 bs).map fun (n, bs) => (UInt16.ofNat n, bs)

namespace NewJob

/-- A request as JSON. -/
def toJson (j : NewJob) : String :=
  Json.writeObject
    [("releaseID", Json.writeString j.releaseId), ("cmd", Json.writeStrings j.cmd), ("env", j.env.toJson),
     ("tty", Json.writeBool j.tty), ("lines", toString j.lines.toNat), ("columns", toString j.columns.toNat)]

/-- The fields of a request's JSON. -/
def fields : List (Json.Field NewJob) :=
  [.of "releaseID" .required Json.readString fun v j => { j with releaseId := v },
   .of "cmd" .defaulted Json.readStrings fun v j => { j with cmd := v },
   .of "env" .defaulted TextMap.read fun v j => { j with env := v },
   .of "tty" .defaulted Json.readBool fun v j => { j with tty := v },
   .of "lines" .defaulted Json.readUInt16 fun v j => { j with lines := v },
   .of "columns" .defaulted Json.readUInt16 fun v j => { j with columns := v }]

/-- Reads a request. -/
def read : Json.Reader NewJob := Json.readRecord fields {}

end NewJob

namespace JobSummary

/-- A summary as JSON, without the members it has no value for. -/
def toJson (s : JobSummary) : String :=
  Json.writeObject
    ([("id", Json.writeString s.id)] ++ (s.jobType.map fun t => ("type", Json.writeString t)).toList ++
     [("releaseID", Json.writeString s.releaseId)] ++ (s.cmd.map fun c => ("cmd", Json.writeStrings c)).toList)

/-- The fields of a summary's JSON. -/
def fields : List (Json.Field JobSummary) :=
  [.of "id" .required Json.readString fun v s => { s with id := v },
   .of "type" .defaulted (Json.readOption Json.readString) fun v s => { s with jobType := v },
   .of "releaseID" .required Json.readString fun v s => { s with releaseId := v },
   .of "cmd" .defaulted (Json.readOption Json.readStrings) fun v s => { s with cmd := v }]

/-- Reads a summary. -/
def read : Json.Reader JobSummary := Json.readRecord fields {}

end JobSummary

namespace ContainerConfig

/-- A container's configuration as JSON. -/
def toJson (c : ContainerConfig) : String :=
  Json.writeObject
    [("image", c.image.toJson), ("cmd", Json.writeStrings c.cmd), ("env", Json.writeStrings c.env),
     ("attach_stdin", Json.writeBool c.attachStdin), ("attach_stdout", Json.writeBool c.attachStdout),
     ("attach_stderr", Json.writeBool c.attachStderr), ("stdin_once", Json.writeBool c.stdinOnce),
     ("open_stdin", Json.writeBool c.openStdin), ("tty", Json.writeBool c.tty)]

/-- The fields of a configuration's JSON. -/
def fields : List (Json.Field ContainerConfig) :=
  [.of "image" .required ImageRef.read fun v c => { c with image := v },
   .of "cmd" .required Json.readStrings fun v c => { c with cmd := v },
   .of "env" .required Json.readStrings fun v c => { c with env := v },
   .of "attach_stdin" .required Json.readBool fun v c => { c with attachStdin := v },
   .of "attach_stdout" .required Json.readBool fun v c => { c with attachStdout := v },
   .of "attach_stderr" .required Json.readBool fun v c => { c with attachStderr := v },
   .of "stdin_once" .required Json.readBool fun v c => { c with stdinOnce := v },
   .of "open_stdin" .required Json.readBool fun v c => { c with openStdin := v },
   .of "tty" .required Json.readBool fun v c => { c with tty := v }]

/-- Reads a configuration. -/
def read : Json.Reader ContainerConfig := Json.readRecord fields {}

end ContainerConfig

namespace JobSpec

/-- A job as JSON. -/
def toJson (j : JobSpec) : String :=
  Json.writeObject
    [("id", Json.writeString j.id), ("app_id", Json.writeString j.appId), ("release_id", Json.writeString j.releaseId),
     ("job_type", Json.writeString j.jobType), ("tags", j.tags.toJson), ("config", j.config.toJson)]

/-- The fields of a job's JSON. -/
def fields : List (Json.Field JobSpec) :=
  [.of "id" .required Json.readString fun v j => { j with id := v },
   .of "app_id" .required Json.readString fun v j => { j with appId := v },
   .of "release_id" .required Json.readString fun v j => { j with releaseId := v },
   .of "job_type" .defaulted Json.readString fun v j => { j with jobType := v },
   .of "tags" .defaulted TextMap.read fun v j => { j with tags := v },
   .of "config" .required ContainerConfig.read fun v j => { j with config := v }]

/-- Reads a job. -/
def read : Json.Reader JobSpec := Json.readRecord fields {}

end JobSpec

end JobPlane
