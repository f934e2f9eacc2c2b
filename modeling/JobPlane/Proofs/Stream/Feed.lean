import JobPlane.Proofs.Frame.Routes
import JobPlane.Stream.Feed

/-!
# What scripted input comes to

Input that arrives as laid down comes to some bytes and to how they end, in whatever pieces it is read (`Feed.read_input`).
-/

namespace JobPlane.Feed

/-- What input comes to: the bytes up to the first failure or the end, and how they end. -/
def input : List Arrival → Bytes × Except StreamError Unit
  | [] => ([], .ok ())
  | .failure e :: _ => ([], .error e)
  | .bytes bs :: rest => (bs ++ (input rest).1, (input rest).2)

/-- What a read takes off input. -/
def Takes (before : Bytes × Except StreamError Unit) (r : Reading) (after : Bytes × Except StreamError Unit) : Prop :=
  match r with
  | .data bs => before = (bs ++ after.1, after.2)
  | .eof => before = ([], .ok ())
  | .failed e => before = ([], .error e)
  | .waiting => False

/-- A read takes bytes off the front, or finds how the input ends. It never waits, since all is laid down. -/
theorem read_input (n : Nat) (arrivals : List Arrival) :
    ∃ later, (read n ⟨arrivals, true⟩).2 = ⟨later, true⟩ ∧ Takes (input arrivals) (read n ⟨arrivals, true⟩).1 (input later) := by
  induction arrivals with
  | nil => exact ⟨[], rfl, rfl⟩
  | cons a rest ih =>
    cases a with
    | failure e => exact ⟨rest, rfl, rfl⟩
    | bytes bs =>
      cases bs with
      | nil => simpa [read, readFrom, input] using ih
      | cons b bs =>
        have hsplit := List.take_append_drop n (b :: bs)
        simp only [read, readFrom, List.splitAt_eq]
        split
        · rename_i now heq
          obtain ⟨rfl, hnone⟩ := Prod.mk.inj heq
          rw [hnone, List.append_nil] at hsplit
          exact ⟨rest, rfl, by simp [Takes, input, hsplit]⟩
        · rename_i now later _ heq
          obtain ⟨rfl, rfl⟩ := Prod.mk.inj heq
          refine ⟨.bytes ((b :: bs).drop n) :: rest, rfl, ?_⟩
          simp only [Takes, input]
          rw [← List.append_assoc, hsplit]

/-- What was read of a source, and what is still to come. -/
def Reads (i : Splitter.Intake) (all later : Bytes × Except StreamError Unit) : Prop :=
  match i.stop with
  | none => all = (i.got ++ later.1, later.2)
  | some r => all = (i.got, r)

/-- A read of scripted input goes on with it. -/
theorem Reads.read {i : Splitter.Intake} {all later later' : Bytes × Except StreamError Unit} {r : Reading}
    (h : Reads i all later) (hstop : i.stop = none) (ht : Takes later r later') : Reads (i.note r) all later' := by
  unfold Reads at h
  rw [hstop] at h
  cases r with
  | data bs =>
    have ht : later = (bs ++ later'.1, later'.2) := ht
    simp [Reads, Splitter.Intake.note, hstop, h, ht]
  | eof =>
    have ht : later = ([], .ok ()) := ht
    simp [Reads, Splitter.Intake.note, h, ht]
  | failed e =>
    have ht : later = ([], .error e) := ht
    simp [Reads, Splitter.Intake.note, h, ht]
  | waiting => exact ht.elim

/-- A read brings no more than was asked for, and something if anything was. -/
theorem read_data {n : Nat} {arrivals : List Arrival} {ended : Bool} {bs : Bytes} {f : Feed}
    (h : readFrom n ended arrivals = (.data bs, f)) : bs.length ≤ n ∧ (0 < n → bs ≠ []) := by
  induction arrivals with
  | nil =>
    unfold readFrom at h
    split at h <;> cases h
  | cons a rest ih =>
    cases a with
    | failure e => cases h
    | bytes bs' =>
      cases bs' with
      | nil => exact ih h
      | cons b bs' =>
        have hnow : bs = (b :: bs').take n := by
          simp only [readFrom, List.splitAt_eq] at h
          split at h
          · rename_i now heq
            cases h
            exact (congrArg Prod.fst heq).symm
          · rename_i now later _ heq
            cases h
            exact (congrArg Prod.fst heq).symm
        subst hnow
        refine ⟨List.length_take_le _ _, fun hn => ?_⟩
        simp only [ne_eq, List.take_eq_nil_iff, not_or]
        exact ⟨by omega, by simp⟩

instance : LawfulReadable Feed where
  length_le h := (read_data h).1
  ne_nil hn h := (read_data h).2 hn

end JobPlane.Feed
