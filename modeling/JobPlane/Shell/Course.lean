import JobPlane.Shell.Reader
import JobPlane.Shell.State

/-!
# The course of a script

A script runs line by line: each line is read only when the ones before it have run. So what stands before a mistake still counts.
What a command does is left open here; it is the same for a script, for a text that is run as one and for the text of a trap.
-/

namespace JobPlane.Shell

open Program

/-- Carrying out a command. -/
abbrev Carries := Command → State → State

namespace State

/-- Runs the lines of a script, with a bound on how many there are. -/
def runLines (go : Carries) : Nat → Cursor → State → State
  | 0, _, s => s
  | n + 1, c, s =>
    if !s.isOn then s
    else match nextLine c with
      | .finished => s
      | .faulty f => { s with line := f.line }.abort ("Syntax error: ".toList ++ f.message)
      | .commands cs c => runLines go n c (go (.sequence cs) { s with lineRead := c.line })

/-- Runs a text as a script. -/
def runText (go : Carries) (text : Raw) (s : State) : State :=
  { s.runLines go (text.length + 1) { rest := text } with lineRead := s.lineRead }

/-- Runs the traps of the signals that have come, with a bound on how many there are. How the command before ended is not
forgotten. -/
def answerFrom (go : Carries) : Nat → State → State
  | 0, s => s
  | n + 1, s =>
    match s.isOn, s.caught with
    | true, signal :: rest =>
      let r := { s with caught := rest }.runText go ((s.traps.lookup signal).getD [])
      answerFrom go n (if r.isOn then { r with last := s.last } else r)
    | _, _ => s

/-- Runs the traps of the signals that have come, which is not for a part of a shell to do. -/
def answer (go : Carries) (s : State) : State := if s.nested then s else s.answerFrom go s.caught.length

/-- Ends a shell: its trap for that runs, and counts for the exit code only if it exits by itself. -/
def leave (go : Carries) (s : State) : State :=
  match s.flow, s.traps.lookup 0 with
  | .killed _, _ | .waiting, _ | _, none | _, some [] => s
  | _, some text =>
    let r := { s with flow := .on, traps := s.traps.filter fun t => t.1 != 0 }.runText go text
    if r.isOn then { r with last := s.last, flow := .exiting } else r

/-- Runs commands as a part of the shell that goes its own way. -/
def runApart (go : Carries) (body : List Command) (i : State) : State := (go (.sequence body) i).leave go

/-- Runs commands apart and takes what they print, without the line ends at its end. -/
def capture (go : Carries) (body : List Command) (s : State) : Raw × State :=
  let (out, world) := s.world.add (.sink [])
  let ran := { s.inner with world, ds := s.ds.set 1 out }.runApart go body
  let text := (ran.world.written out).filter (· ≠ '\x00')
  let world := { ran.world with streams := ran.world.streams.setIfInBounds out .null }
  let s' := s.after { ran with world }
  ((text.reverse.dropWhile (· = '\n')).reverse, { s' with last := s.last, lastOutput := ran.last })

end State

end JobPlane.Shell
