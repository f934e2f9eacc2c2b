import JobPlane.Text.Cut

/-!
# Job IDs

A job is known across the cluster by the ID of its host and its own ID on that host, written with a hyphen between them. IDs of
hosts have no hyphen, so the first one is the separator. The ID of a new job on its host is drawn at random.
-/

namespace JobPlane

/-- The cluster-wide ID of a job. -/
structure JobId where
  host : String
  job : String
  deriving Repr, DecidableEq, Inhabited

namespace JobId

/-- The ID as text. -/
def display (id : JobId) : String := id.host ++ "-" ++ id.job

/-- The ID a text spells: split at the first hyphen, with neither part empty. -/
def parse (s : String) : Option JobId :=
  match Text.splitFirst '-' s with
  | some (host, job) => if host.isEmpty || job.isEmpty then none else some ⟨host, job⟩
  | none => none

/-- The ID on its host that a job gets from 128 random bits: 32 hexadecimal digits, of which the thirteenth says that the others
are random, and of the seventeenth only two bits are. -/
def draw (bits : Nat) : String :=
  String.ofList ((List.range 32).map fun i =>
    let d := bits >>> (4 * i) % 16
    Nat.digitChar (if i = 12 then 4 else if i = 16 then 8 + d % 4 else d))

end JobId

end JobPlane
