import JobPlane.Cli.Arguments

/-!
# The program

Checks what the arguments ask for, and reports what keeps it from being served.
-/

/-- Reads the catalog's seed if the arguments name one, and ends as the arguments lay down. -/
def main (args : List String) : IO UInt32 := do
  let seed : Option ByteArray ← match JobPlane.Cli.parse args with
    | .ok { catalog := some path, .. } => try some <$> IO.FS.readBinFile path catch _ => pure none
    | _ => pure none
  let ending := JobPlane.Cli.ending args fun _ => seed.map (·.toList)
  if let some report := ending.report then IO.eprintln report
  return UInt32.ofNat ending.code
