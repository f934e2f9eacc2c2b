import Mathlib.Data.List.Basic
import JobPlane.Frame.Split
import JobPlane.Proofs.Stream.Pipe
import JobPlane.Proofs.Stream.Sink

/-!
# Ends that do their part

A stream is copied to its end only if its two ends do their part. `Supply` is a source that comes to an end: only so much can be read of
it, and where it has nothing yet something arrives. `Demand` is a sink that keeps taking bytes, or refuses them: where it takes nothing
now it gets free. Input that is laid down is such a source, and a recording sink and a pipe with a reader are such sinks.
-/

namespace JobPlane

/-! ## Sources -/

/-- A source that comes to an end, by itself or with a failure. -/
structure Supply (σ : Type) [Readable σ] where
  /-- The states that it can be in. -/
  Fits : σ → Prop
  /-- What it does by itself. -/
  Arrives : σ → σ → Prop
  /-- How much there still is to read, and to arrive. -/
  left : σ → Nat
  fits_read : ∀ {s : σ} (n : Nat), Fits s → Fits (Readable.read n s).2
  left_read : ∀ {s : σ} (n : Nat), Fits s → left (Readable.read n s).2 ≤ left s
  left_data : ∀ {s s' : σ} {n : Nat} {bs : Bytes}, Fits s → Readable.read n s = (.data bs, s') → bs ≠ [] → left s' < left s
  fits_arrives : ∀ {s s' : σ}, Fits s → Arrives s s' → Fits s'
  left_arrives : ∀ {s s' : σ}, Fits s → Arrives s s' → left s' < left s
  arrives_of_waiting : ∀ {s : σ} {n : Nat}, Fits s → (Readable.read n s).1 = .waiting → ∃ s', Arrives s s'

namespace Feed

/-- How much there is still to read of input that is laid down. -/
def left (f : Feed) : Nat := total SplitFeed.weight f.coming

/-- A read leaves no more to read, and less if it brings something. -/
theorem left_readFrom (n : Nat) (ended : Bool) (arrivals : List Arrival) :
    (readFrom n ended arrivals).2.ended = ended ∧ left (readFrom n ended arrivals).2 ≤ total SplitFeed.weight arrivals ∧
      ∀ bs, (readFrom n ended arrivals).1 = .data bs → bs ≠ [] →
        left (readFrom n ended arrivals).2 < total SplitFeed.weight arrivals := by
  induction arrivals with
  | nil =>
    refine ⟨rfl, Nat.le_refl _, fun bs hbs => ?_⟩
    unfold readFrom at hbs
    split at hbs <;> cases hbs
  | cons a rest ih =>
    rcases a with bs | e
    · rcases bs with _ | ⟨b, bs⟩
      · obtain ⟨hended, hle, hlt⟩ := ih
        simp only [readFrom, total, SplitFeed.weight]
        refine ⟨hended, by omega, fun bs hbs hne => ?_⟩
        have := hlt bs hbs hne
        omega
      · simp only [readFrom, List.splitAt_eq]
        split
        · refine ⟨rfl, ?_, fun _ _ _ => ?_⟩ <;>
            simp only [left, total, SplitFeed.weight] <;> omega
        · rename_i now later _ heq
          obtain ⟨rfl, rfl⟩ := Prod.mk.inj heq
          have hlength : ((b :: bs).drop n).length = (b :: bs).length - n := List.length_drop
          refine ⟨rfl, ?_, fun got hgot hne => ?_⟩
          · simp only [left, total, SplitFeed.weight, hlength]
            omega
          · have hpos : n ≠ 0 := by
              rintro rfl
              simp only [List.take_zero, Reading.data.injEq] at hgot
              exact hne hgot.symm
            simp only [left, total, SplitFeed.weight, hlength, List.length_cons]
            omega
    · refine ⟨rfl, ?_, fun bs hbs => by cases hbs⟩
      simp only [readFrom, left, total]
      omega

/-- A read of input that is laid down to its end does not wait. -/
theorem read_ne_waiting {f : Feed} (h : f.ended = true) (n : Nat) : (read n f).1 ≠ .waiting := by
  unfold read
  rw [h]
  induction f.coming with
  | nil => simp [readFrom]
  | cons a rest ih =>
    rcases a with bs | e
    · rcases bs with _ | ⟨b, bs⟩
      · exact ih
      · simp only [readFrom]
        split <;> simp
    · simp [readFrom]

/-- Input that is laid down to its end, in any pieces and with any failures. -/
def supply : Supply Feed where
  Fits f := f.ended = true
  Arrives _ _ := False
  left := left
  fits_read n h := (left_readFrom n _ _).1.trans h
  left_read n _ := (left_readFrom n _ _).2.1
  left_data {s s' n bs} _ hread hne := by
    have hread : readFrom n s.ended s.coming = (.data bs, s') := hread
    have hlt := (left_readFrom n s.ended s.coming).2.2 bs (congrArg Prod.fst hread) hne
    rwa [hread] at hlt
  fits_arrives _ h := h.elim
  left_arrives _ h := h.elim
  arrives_of_waiting h hwaiting := absurd hwaiting (read_ne_waiting h _)

end Feed

/-! ## Sinks -/

/-- A sink that keeps taking bytes, or refuses them at any point. -/
structure Demand (τ : Type) [Writable τ] where
  /-- The states that it can be in. -/
  Fits : τ → Prop
  /-- What it does by itself. -/
  Frees : τ → τ → Prop
  /-- How much it can do by itself before more is written to it. -/
  owed : τ → Nat
  fits_write : ∀ {s : τ} (bs : Bytes), Fits s → Fits (Writable.write bs s).2
  fits_finish : ∀ {s : τ}, Fits s → Fits (Writable.finish s)
  took_pos : ∀ {s s' : τ} {n : Nat} {bs : Bytes}, Fits s → Writable.write bs s = (.took n, s') → bs ≠ [] → 0 < n
  fits_frees : ∀ {s s' : τ}, Fits s → Frees s s' → Fits s'
  owed_frees : ∀ {s s' : τ}, Fits s → Frees s s' → owed s' < owed s
  frees_of_waiting : ∀ {s : τ} {bs : Bytes}, Fits s → (Writable.write bs s).1 = .waiting → ∃ s', Frees s s'

namespace Sink

/-- A sink that records what it takes, in portions of any size, up to a limit if it has one. -/
def demand : Demand Sink where
  Fits s := ∀ k, s.portion k ≠ some 0
  Frees _ _ := False
  owed _ := 0
  fits_write {s} bs h := by
    rcases eq_or_ne bs [] with rfl | hne
    · exact h
    · have hwrite : Writable.write bs s = s.write bs := rfl
      rcases write_cases h hne with ⟨l, -, -, heq⟩ | ⟨k, heq, -⟩ <;> rw [hwrite, heq] <;> exact h
  fits_finish h := h
  took_pos {s s' n bs} h hwrite hne := by
    have hwrite : s.write bs = (.took n, s') := hwrite
    rcases write_cases h hne with ⟨l, -, -, heq⟩ | ⟨k, heq, hpos, -⟩
    · rw [heq] at hwrite
      cases hwrite
    · rw [heq] at hwrite
      cases hwrite
      exact hpos
  fits_frees _ h := h.elim
  owed_frees _ h := h.elim
  frees_of_waiting {s bs} h hwaiting := by
    have hwaiting : (s.write bs).1 = .waiting := hwaiting
    rcases eq_or_ne bs [] with rfl | hne
    · cases hwaiting
    · rcases write_cases h hne with ⟨l, -, -, heq⟩ | ⟨k, heq, -⟩ <;> rw [heq] at hwaiting <;> cases hwaiting

end Sink

namespace Pipe

/-- What the reader of a pipe does: it takes out some of what is inside, or it goes away. -/
inductive Drains (p : Pipe) : Pipe → Prop
  | takes {bs later : Bytes} (hne : bs ≠ []) (hb : p.buffer = bs ++ later) : Drains p { p with buffer := later }
  | leaves (hopen : p.closed = false) : Drains p p.abandon

/-- A pipe with a reader that reads on, in pieces of any size, or goes away at any point. -/
def demand : Demand Pipe where
  Fits p := 0 < p.capacity
  Frees := Drains
  owed p := p.buffer.length + if p.closed then 0 else 1
  fits_write {p} bs h := by
    have hwrite : Writable.write bs p = p.write bs := rfl
    rw [hwrite]
    unfold write
    split
    · exact h
    · split <;> exact h
  fits_finish h := h
  took_pos {p p' n bs} _ hwrite hne := by
    obtain ⟨-, hroom, rfl, -⟩ := write_took hwrite
    have := List.length_pos_iff.mpr hne
    omega
  fits_frees h hdrains := by cases hdrains <;> exact h
  owed_frees _ hdrains := by
    cases hdrains with
    | @takes bs later hne hb =>
      have := List.length_pos_iff.mpr hne
      simp only [hb, List.length_append]
      omega
    | leaves hopen =>
      simp only [hopen, abandon, List.length_nil]
      simp
  frees_of_waiting {p bs} h hwaiting := by
    have hwrite : p.write bs = (.waiting, (p.write bs).2) := Prod.ext hwaiting rfl
    obtain ⟨-, hfull⟩ := write_waiting hwrite
    have hsome : p.buffer ≠ [] := by
      intro hnil
      simp only [room, hnil, List.length_nil] at hfull
      omega
    exact ⟨_, .takes hsome (List.append_nil _).symm⟩

end Pipe

end JobPlane
