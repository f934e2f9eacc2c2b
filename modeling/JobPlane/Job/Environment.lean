import JobPlane.Text.Cut
import JobPlane.TextMap

/-!
# A job's environment

The environment of a release with that of a request put over it, rendered as `KEY=value` pairs in the order of keys. A process
sees the pairs in order: each is split at its first equals sign, one without is left out, and a later pair takes the place of an
earlier one with its key.
-/

namespace JobPlane.Environment

/-- A variable and its value as a pair. -/
def renderPair (k v : String) : String := k ++ "=" ++ v

/-- The pairs of an environment with another put over it. -/
def render (base top : TextMap) : List String := (base.overlay top).entries.map fun (k, v) => renderPair k v

/-- The variable and value of a pair. -/
def parsePair (pair : String) : Option (String × String) := Text.splitFirst '=' pair

/-- The variables a process sees for a list of pairs. -/
def apply (pairs : List String) : TextMap := TextMap.ofList (pairs.filterMap parsePair)

end JobPlane.Environment
