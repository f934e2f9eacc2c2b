import JobPlane.Stream.Pipe

/-!
# What pipes do

What a write to a pipe and a read from it come to, each with the state it leaves.
-/

namespace JobPlane

/-- The bytes that a write has brought in, of those it was for. -/
def Writing.taken (bs : Bytes) : Writing → Bytes
  | took n => bs.take n
  | _ => []

namespace Pipe

/-- A write that takes bytes finds the pipe open and puts the bytes taken behind those inside. -/
theorem write_took {bs : Bytes} {p q : Pipe} {n : Nat} (h : p.write bs = (.took n, q)) :
    p.closed = false ∧ 0 < p.room ∧ n = min p.room bs.length ∧ q = { p with buffer := p.buffer ++ bs.take n } := by
  unfold write at h
  split at h
  · cases h
  · rename_i hopen
    split at h
    · cases h
    · rename_i hroom
      simp only [Prod.mk.injEq, Writing.took.injEq] at h
      obtain ⟨rfl, rfl⟩ := h
      exact ⟨by simpa using hopen, by omega, rfl, rfl⟩

/-- A write fails only on a closed pipe, which stays as it is. -/
theorem write_failed {bs : Bytes} {p q : Pipe} {e : StreamError} (h : p.write bs = (.failed e, q)) :
    p.closed = true ∧ q = p := by
  unfold write at h
  split at h
  · rename_i hclosed
    cases h
    exact ⟨hclosed, rfl⟩
  · split at h <;> cases h

/-- A write waits only on an open pipe that is full. -/
theorem write_waiting {bs : Bytes} {p q : Pipe} (h : p.write bs = (.waiting, q)) :
    p.closed = false ∧ p.room = 0 := by
  unfold write at h
  split at h
  · cases h
  · rename_i hopen
    split at h
    · exact ⟨by simpa using hopen, by assumption⟩
    · cases h

/-- After a write a pipe holds what it held and what was taken. -/
theorem buffer_write (bs : Bytes) (p : Pipe) : (p.write bs).2.buffer = p.buffer ++ (p.write bs).1.taken bs := by
  unfold write
  split
  · exact (List.append_nil _).symm
  · split
    · exact (List.append_nil _).symm
    · rfl

/-- A write leaves the capacity of a pipe, and whether it is closed. -/
theorem write_keeps (bs : Bytes) (p : Pipe) : (p.write bs).2.capacity = p.capacity ∧ (p.write bs).2.closed = p.closed := by
  unfold write
  split
  · exact ⟨rfl, rfl⟩
  · split <;> exact ⟨rfl, rfl⟩

/-- A closed pipe takes nothing. -/
theorem taken_of_closed {p : Pipe} (h : p.closed = true) (bs : Bytes) : (p.write bs).1.taken bs = [] := by
  rw [write, if_pos h]
  rfl

/-- A read that brings bytes takes them off the front. -/
theorem read_data {n : Nat} {p q : Pipe} {bs : Bytes} (h : p.read n = (.data bs, q)) :
    p.buffer = bs ++ q.buffer ∧ q = { p with buffer := p.buffer.drop n } ∧ bs = p.buffer.take n ∧ p.buffer ≠ [] := by
  unfold read at h
  split at h
  · split at h <;> cases h
  · rename_i b rest hb
    simp only [List.splitAt_eq, Prod.mk.injEq, Reading.data.injEq] at h
    obtain ⟨rfl, rfl⟩ := h
    rw [hb]
    exact ⟨(List.take_append_drop n (b :: rest)).symm, rfl, rfl, by simp⟩

/-- A read from a pipe with something inside brings bytes. -/
theorem read_of_ne_nil {p : Pipe} (h : p.buffer ≠ []) (n : Nat) :
    p.read n = (.data (p.buffer.take n), { p with buffer := p.buffer.drop n }) := by
  unfold read
  split
  · exact absurd (by assumption) h
  · rename_i hb
    rw [hb, List.splitAt_eq]

/-- Closing a pipe that is closed changes nothing. -/
theorem close_of_closed {p : Pipe} (h : p.closed = true) : p.close = p := by
  cases p
  cases h
  rfl

/-- A read finds the end of input only on a closed pipe that is empty, which stays as it is. -/
theorem read_eof {n : Nat} {p q : Pipe} (h : p.read n = (.eof, q)) : p.closed = true ∧ p.buffer = [] ∧ q = p := by
  unfold read at h
  split at h
  · split at h
    · cases h
      exact ⟨by assumption, by assumption, rfl⟩
    · cases h
  · cases h

/-- A read waits only on an open pipe that is empty. -/
theorem read_waiting {n : Nat} {p q : Pipe} (h : p.read n = (.waiting, q)) : p.closed = false ∧ p.buffer = [] := by
  unfold read at h
  split at h
  · split at h
    · cases h
    · exact ⟨by simpa using ‹¬p.closed = true›, by assumption⟩
  · cases h

/-- A read never fails. -/
theorem read_ne_failed {n : Nat} {p q : Pipe} {e : StreamError} : p.read n ≠ (.failed e, q) := by
  intro h
  unfold read at h
  split at h
  · split at h <;> cases h
  · cases h

end Pipe

/-! ## Who reads a pipe -/

/-- What the reader of a pipe has received. -/
structure Receiver where
  received : Bytes := []
  /-- It has gone away. -/
  gone : Bool := false
  /-- It has found the end of input. -/
  ended : Bool := false

/-- Takes note of what an attempt to read came to. -/
def Receiver.note (got : Reading) (r : Receiver) : Receiver :=
  match got with
  | .data bs => { r with received := r.received ++ bs }
  | .eof => { r with ended := true }
  | .failed _ | .waiting => r

/-- What a receiver has and what is inside its pipe are together the same after an attempt to read as before. -/
theorem Receiver.note_read (n : Nat) (p : Pipe) (r : Receiver) :
    (r.note (p.read n).1).received ++ (p.read n).2.buffer = r.received ++ p.buffer ∧ (r.note (p.read n).1).gone = r.gone ∧
      (p.read n).2.closed = p.closed := by
  by_cases hbuffer : p.buffer = []
  · unfold Pipe.read
    rw [hbuffer]
    cases p.closed <;> simp [note, hbuffer]
  · rw [Pipe.read_of_ne_nil hbuffer]
    simp [note]

end JobPlane
