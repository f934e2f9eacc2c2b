import JobPlane.Proofs.Stream.Pipe
import JobPlane.Stream.Copy

/-!
# What copies do

What a move of a copy between two pipes comes to (`Copy.turn_of_step`), and what a copy waits for where it has no move left
(`Copy.waits_of_atRest`).
-/

namespace JobPlane.Copy

variable {c c' : Copy} {src src' dst dst' : Pipe} {m : Move}

/-- The moves of a copy between two pipes, told apart by what they do. -/
inductive Turn (c : Copy) (src dst : Pipe) : Copy → Pipe → Pipe → Prop
  /-- Bytes are read. -/
  | read {bs later : Bytes} (hend : c.sourceEnded = false) (hb : src.buffer = bs ++ later) (hne : bs ≠ []) :
      Turn c src dst { c with held := c.held ++ bs, filled := c.filled + bs.length } { src with buffer := later } dst
  /-- The end of input is read. -/
  | drained (hclosed : src.closed = true) (hb : src.buffer = []) : Turn c src dst { c with sourceEnded := true } src dst
  /-- Bytes are written. -/
  | wrote {n : Nat} (hopen : dst.closed = false) (hn : n ≤ c.held.length) :
      Turn c src dst
        { c with
          held := c.held.drop n
          filled := if (c.held.drop n).isEmpty then 0 else c.filled
          moved := c.moved + n } src
        { dst with buffer := dst.buffer ++ c.held.take n }
  /-- The destination takes nothing any more. -/
  | failed (hclosed : dst.closed = true) (e : StreamError) : Turn c src dst { c with result := some (.error e) } src dst
  /-- All is written. -/
  | conclude (hend : c.sourceEnded = true) (hheld : c.held = []) : Turn c src dst { c with result := some (.ok c.moved) } src dst

/-- Every move of a copy is made before it is over, and is a turn. -/
theorem turn_of_step (h : c.step src dst m = some (c', src', dst')) :
    c.result = none ∧ c.Turn src dst c' src' dst' := by
  cases m with
  | read =>
    simp only [step] at h
    split at h
    · rename_i hwants
      simp only [wantsInput, Bool.and_eq_true, Option.isNone_iff_eq_none, Bool.not_eq_true', decide_eq_true_eq] at hwants
      obtain ⟨⟨hgoing, hend⟩, hroom⟩ := hwants
      obtain ⟨c₁, htake, heq⟩ := Option.map_eq_some_iff.mp h
      cases heq
      refine ⟨hgoing, ?_⟩
      cases hread : src.read (bufferSize - c.filled) with
      | mk got rest =>
        simp only [Readable.read, hread] at htake ⊢
        cases got with
        | data bs =>
          cases htake
          obtain ⟨hb, hsrc, hbs, hne⟩ := Pipe.read_data hread
          have hsome : bs ≠ [] := by
            rw [hbs]
            simp only [ne_eq, List.take_eq_nil_iff, hne, or_false]
            omega
          have hrest : rest = { src with buffer := rest.buffer } := by rw [hsrc]
          rw [hrest]
          exact .read hend hb hsome
        | eof =>
          cases htake
          obtain ⟨hclosed, hb, rfl⟩ := Pipe.read_eof hread
          exact .drained hclosed hb
        | failed e => exact absurd hread Pipe.read_ne_failed
        | waiting => cases htake
    · cases h
  | write =>
    simp only [step] at h
    split at h
    · rename_i hwants
      simp only [Bool.and_eq_true, Option.isNone_iff_eq_none] at hwants
      obtain ⟨c₁, hgave, heq⟩ := Option.map_eq_some_iff.mp h
      cases heq
      refine ⟨hwants.1, ?_⟩
      cases hwrite : dst.write c.held with
      | mk came rest =>
        simp only [Writable.write, hwrite] at hgave ⊢
        cases came with
        | took n =>
          obtain ⟨hopen, -, hn, rfl⟩ := Pipe.write_took hwrite
          cases n with
          | zero => cases hgave
          | succ n =>
            cases hgave
            exact .wrote hopen (by omega)
        | failed e =>
          cases hgave
          obtain ⟨hclosed, rfl⟩ := Pipe.write_failed hwrite
          exact .failed hclosed e
        | waiting => cases hgave
    · cases h
  | conclude =>
    simp only [step] at h
    split at h
    · rename_i hover
      simp only [Bool.and_eq_true, Option.isNone_iff_eq_none, List.isEmpty_iff] at hover
      cases h
      exact ⟨hover.1.1, .conclude hover.1.2 hover.2⟩
    · cases h

/-- Where a copy that is not over has no move left, it waits for its destination to have room again, or for its source to bring
something. -/
theorem waits_of_atRest (hgoing : c.result = none) (hidle : c.held = [] → c.filled = 0)
    (h : ∀ m, c.step src dst m = none) :
    (c.held ≠ [] ∧ dst.closed = false ∧ dst.room = 0) ∨ (c.held = [] ∧ src.closed = false ∧ src.buffer = []) := by
  by_cases hheld : c.held = []
  · right
    refine ⟨hheld, ?_⟩
    have hend : c.sourceEnded = false := by
      have hconclude := h .conclude
      simpa [step, hgoing, hheld] using hconclude
    have hread := h .read
    simp only [step, wantsInput, hgoing, hend, hidle hheld] at hread
    cases hsrc : src.read (bufferSize - 0) with
    | mk got rest =>
      simp only [Readable.read, hsrc] at hread
      cases got with
      | waiting => exact Pipe.read_waiting hsrc
      | data bs => cases hread
      | eof => cases hread
      | failed e => cases hread
  · left
    refine ⟨hheld, ?_⟩
    have hwrite := h .write
    have hwants : (c.result.isNone && !c.held.isEmpty) = true := by simp [hgoing, hheld]
    simp only [step, if_pos hwants, Option.map_eq_none_iff] at hwrite
    cases hdst : dst.write c.held with
    | mk came rest =>
      simp only [Writable.write, hdst] at hwrite
      cases came with
      | waiting => exact Pipe.write_waiting hdst
      | failed e => cases hwrite
      | took n =>
        obtain ⟨-, hroom, hn, -⟩ := Pipe.write_took hdst
        have hlength := List.length_pos_iff.mpr hheld
        cases n with
        | zero => omega
        | succ n => cases hwrite

end JobPlane.Copy
