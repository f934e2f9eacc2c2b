import Mathlib.Data.Prod.Lex
import Mathlib.Logic.Relation
import Mathlib.Order.OrderIsoNat
import JobPlane.Proofs.Frame.Readers
import JobPlane.Proofs.Log.Control
import JobPlane.Proofs.Stream.Ends

/-!
# A copy comes to its end

A log's copy between a source that comes to an end and a sink that takes or refuses what it is given, in whatever order the pump, the
forwarders and the two ends move. The parts may have to wait for each other, at the pipes and at the sink, but never all of them
(`Transfer.exists_step_of_sound`). And every move leaves less to do (`Transfer.Step.sound`): it brings the source nearer to its end,
or else what was read nearer to the sink, or else a frame that is being written nearer to its own end. So every copy is over after finitely
many moves (`Transfer.copy_completes`). The sink may make a copy wait, or fail, where it is written to; it flushes and closes at once, as
every writing end here does.
-/

namespace JobPlane.Log

/-! ## How much is left to do -/

/-- How far a forwarder is from its end: what it has read is to be written, and then it reads again. -/
def Forwarder.rank : Forwarder → Nat
  | ended _ => 0
  | reading => 1
  | writing => 2
  | queued _ => 3

/-- What is still to be written for the call that has the sink: the bytes, the ends of the pieces, and the end of the call. -/
def Mux.load {κ : Type} (m : Mux κ) : Nat :=
  match m.holder with
  | none => 0
  | some (_, _, ps) => 1 + total (fun p => p.length + 1) ps

namespace Copying

variable {c c' : Copying} {k : OutputKind} {e : Event}

/-- How much a copy still has to do with what was read, but for writing it: a byte in a pipe is worth more than the forwarder's way from
reading it to waiting for the sink. -/
def work (c : Copying) : Nat :=
  3 * c.splitter.work + c.stdout.rank + c.stderr.rank + if c.copied.isSome then 0 else 1

/-- A forwarder that moves changes the work by what it is farther from its end, and gives up its pipe with what is inside when it is over. -/
theorem work_setForwarder (c : Copying) (k : OutputKind) (f : Forwarder) :
    (c.setForwarder k f).work + (c.forwarder k).rank ≤ c.work + f.rank := by
  have hranks : (c.setForwarder k f).stdout.rank + (c.setForwarder k f).stderr.rank + (c.forwarder k).rank =
      c.stdout.rank + c.stderr.rank + f.rank := by
    have hstdout : (c.setForwarder k f).stdout = (c.setForwarder k f).forwarder .stdout := rfl
    have hstderr : (c.setForwarder k f).stderr = (c.setForwarder k f).forwarder .stderr := rfl
    rw [hstdout, hstderr, forwarder_setForwarder, forwarder_setForwarder]
    cases k <;> simp [forwarder] <;> omega
  have hsplitter : (c.setForwarder k f).splitter.work ≤ c.splitter.work := by
    cases hf : f.result? with
    | none => rw [splitter_setForwarder_of_going c k hf]
    | some r =>
      obtain rfl := result?_eq_some hf
      have hpipe := Splitting.work_mapPipe c.splitter k Pipe.abandon
      rw [splitter_setForwarder_ended]
      simp only [Pipe.abandon, List.length_nil] at hpipe
      omega
  simp only [work, copied_setForwarder]
  omega

/-- What a pump is doing after a turn: what it did before, unless it has moved. -/
theorem Turn.pump_cases (h : c.Turn e c') : c'.splitter.phase = c.splitter.phase ∨ ∃ r, c.splitter.Turn r c'.splitter := by
  cases h with
  | pumpRead hs ht => exact Or.inr ⟨_, ht⟩
  | pumpWrite hs ht => exact Or.inr ⟨_, ht⟩
  | @refuse who call p ps e hm hne => cases who <;> exact Or.inl (by simp [note])
  | @done who call hm => cases who <;> exact Or.inl (by simp [note])
  | _ => exact Or.inl (by simp)

/-- A pump asks for something when it reads, and has something when it writes. -/
structure Busy (s : Splitter) : Prop where
  wanting : ∀ r, s.phase = .reading r → 0 < r.wants
  writing : ∀ k rest, s.phase = .writing k rest → rest ≠ []

/-- Every turn keeps that. -/
theorem Busy.turn (h : Busy c.splitter) (ht : c.Turn e c') : Busy c'.splitter := by
  rcases ht.pump_cases with hsame | ⟨r, hturn⟩
  · exact ⟨fun r hr => h.wanting r (hsame ▸ hr), fun k rest hw => h.writing k rest (hsame ▸ hw)⟩
  · exact ⟨fun r hr => hturn.wants_pos hr, fun k rest hw => hturn.writing_ne_nil hw⟩

/-- A pump that moves leaves less work, but for what it reads. -/
theorem work_of_pump {r : Option Reading} {s : Splitter} (h : Busy c.splitter) (ht : c.splitter.Turn r s)
    (hr : ∀ bs, r ≠ some (.data bs)) : work { c with splitter := s } < c.work := by
  have hless := ht.work_lt (fun bs hbs => absurd hbs (hr bs)) h.writing
  have hnone : Splitter.brought r = 0 := by
    unfold Splitter.brought
    split
    · exact absurd rfl (hr _)
    · rfl
  simp only [work]
  omega

/-- A forwarder that finds the end of what it reads, or whose call is over, leaves less work. -/
theorem work_of_forwarder {c₀ : Copying} {f : Forwarder} (hsame : c₀.work = c.work) (hk : c₀.forwarder k = c.forwarder k)
    (hf : f.rank < (c.forwarder k).rank) : (c₀.setForwarder k f).work < c.work := by
  have hle := work_setForwarder c₀ k f
  rw [hsame, hk] at hle
  omega

/-- The end of a call leaves less work for the forwarder whose call it was; where the sink was being closed the work is the same. -/
theorem work_note (hmanned : Manned c) {who : Party} {call call' : MuxCall} {ps : List Bytes} {r : Except StreamError Unit}
    (hm : c.mux.holder = some (who, call, ps)) :
    (note { c with mux := { c.mux with holder := none } } (who, call', r)).work < c.work ∨
      (note { c with mux := { c.mux with holder := none } } (who, call', r)).work = c.work ∧
        (note { c with mux := { c.mux with holder := none } } (who, call', r)).mux.load < c.mux.load := by
  cases who with
  | forwarder k =>
    have hf := hmanned.writing_of_holder hm
    left
    cases r <;> exact work_of_forwarder rfl (by cases k <;> rfl) (by simp [hf, Forwarder.rank])
  | closer =>
    refine Or.inr ⟨rfl, ?_⟩
    simp only [note, Mux.load, hm]
    omega

/-- Every turn brings something in from the source, or leaves less to do with what was read, or less to write of the frame that is being
written. -/
theorem Turn.lessens (h : c.Turn e c') (hmanned : Manned c) (hbusy : Busy c.splitter) (hgave : ∀ bs, e = .gave bs → bs ≠ []) :
    (∃ bs, e = .read (.data bs) ∧ bs ≠ []) ∨ c'.work < c.work ∨ c'.work = c.work ∧ c'.mux.load < c.mux.load := by
  cases h with
  | @pumpRead r s hs ht hr =>
    by_cases hdata : ∃ bs, r = .data bs
    · obtain ⟨bs, rfl⟩ := hdata
      exact Or.inl ⟨bs, rfl, hr bs rfl hbusy.wanting⟩
    · right
      left
      refine work_of_pump hbusy ht fun bs hbs => hdata ⟨bs, ?_⟩
      exact Option.some.inj hbs
  | pumpWrite hs ht => exact Or.inr (Or.inl (work_of_pump hbusy ht fun bs => by simp))
  | @readWhole name r f hs hf hr ht =>
    cases r with
    | data bs => exact Or.inl ⟨bs, rfl, hr bs rfl⟩
    | eof =>
      cases ht
      exact Or.inr (Or.inl (work_of_forwarder rfl rfl (by simp [hf, Forwarder.rank])))
    | failed e =>
      cases ht
      exact Or.inr (Or.inl (work_of_forwarder rfl rfl (by simp [hf, Forwarder.rank])))
    | waiting => cases ht
  | @readPipe k bs later hs hf hb hne =>
    -- a byte that leaves a pipe is worth the forwarder's way back to reading
    right
    left
    have hpos := List.length_pos_iff.mpr hne
    have hpipe := Splitting.work_mapPipe c.splitter k fun p => { p with buffer := later }
    have hle := work_setForwarder { c with splitter := c.splitter.mapPipe k fun p => { p with buffer := later } } k (.queued bs)
    rw [forwarder_mk, hf] at hle
    simp only [hb, List.length_append] at hpipe
    simp only [work, Forwarder.rank] at hle ⊢
    omega
  | drained hs hf hclosed hb => exact Or.inr (Or.inl (work_of_forwarder rfl rfl (by simp [hf, Forwarder.rank])))
  | @acquire k chunk hf hm =>
    exact Or.inr (Or.inl (work_of_forwarder rfl (by cases k <;> rfl) (by simp [hf, Forwarder.rank])))
  | pass hm => exact Or.inr (Or.inr ⟨rfl, by simp [Mux.load, hm, total]⟩)
  | @give who call p ps n hm =>
    have hsome := hgave _ rfl
    simp only [ne_eq, List.take_eq_nil_iff, not_or] at hsome
    have hpos := List.length_pos_iff.mpr hsome.2
    refine Or.inr (Or.inr ⟨rfl, ?_⟩)
    simp only [Mux.load, hm, total, List.length_drop]
    omega
  | refuse hm hne => exact Or.inr (work_note hmanned hm)
  | done hm => exact Or.inr (work_note hmanned hm)
  | close hc ho hm =>
    right
    left
    simp only [work, hc]
    simp

/-- Nothing is left to do for a copy that is over. -/
theorem step_of_result {σ τ : Type} [Readable σ] [Writable τ] (h : Manned c) (hr : c.result.isSome) (src : σ) (dst : τ) (m : Move) :
    c.step src dst m = none := by
  obtain ⟨r, hc⟩ := Option.isSome_iff_exists.mp (h.closed hr)
  have hfree := h.free_of_result hr
  have ho := h.copied r hc
  cases m with
  | pump =>
    cases hs : c.source with
    | whole name => simp [step, hs]
    | framed =>
      obtain ⟨p, -, -, hp, -⟩ := outcome_framed hs ho
      simp [step, hs, Splitter.step, hp]
  | read k =>
    cases hs : c.source with
    | whole name =>
      have hstdout := outcome_whole hs ho
      cases k
      · simp [step, hs, hstdout]
      · simp [step, hs, h.alone name hs]
    | framed =>
      obtain ⟨-, o, x, -, hstdout, hstderr, -⟩ := outcome_framed hs ho
      cases k
      · simp [step, hstdout]
      · simp [step, hstderr]
  | acquire k =>
    simp only [step]
    split
    · rename_i chunk hf
      have hnone := h.not_copied (k := k) (by simp [hf, Forwarder.result?]) (by simp [hf])
      simp [hnone] at hc
    · rfl
  | write => simp [step, Mux.advance, hfree]
  | close => simp [step, hc]

end Copying

open Copying

/-! ## A copy with its ends -/

/-- A log's copy with the source that it reads and the sink that it writes to. -/
structure Transfer (σ τ : Type) where
  copying : Copying
  source : σ
  sink : τ

namespace Transfer

variable {σ τ : Type} [Readable σ] [Writable τ]

/-- A copy that has not begun. -/
def start (encoding : Encoding) (tty : Bool) (source : σ) (sink : τ) : Transfer σ τ :=
  { copying := .start encoding tty, source, sink }

/-- One move of the copy. -/
def step (t : Transfer σ τ) (m : Move) : Option (Transfer σ τ) :=
  (t.copying.step t.source t.sink m).map fun (copying, source, sink) => { copying, source, sink }

variable {supply : Supply σ} {demand : Demand τ} {t t' : Transfer σ τ}

/-- What happens next: a part of the copy moves, or one of its ends by itself. -/
inductive Step (supply : Supply σ) (demand : Demand τ) (t : Transfer σ τ) : Transfer σ τ → Prop
  | copy {t' : Transfer σ τ} (m : Move) (h : t.step m = some t') : Step supply demand t t'
  | source {s : σ} (h : supply.Arrives t.source s) : Step supply demand t { t with source := s }
  | sink {s : τ} (h : demand.Frees t.sink s) : Step supply demand t { t with sink := s }

/-- What holds of a copy at every moment, between ends that do their part. -/
structure Sound (supply : Supply σ) (demand : Demand τ) (t : Transfer σ τ) : Prop where
  manned : Manned t.copying
  lanes : Lanes t.copying
  busy : Busy t.copying.splitter
  source : supply.Fits t.source
  sink : demand.Fits t.sink

/-- A copy that has not begun. -/
theorem Sound.start (encoding : Encoding) (tty : Bool) {source : σ} {sink : τ} (hsource : supply.Fits source) (hsink : demand.Fits sink) :
    Sound supply demand (.start encoding tty source sink) where
  manned := .start encoding tty
  lanes := .start encoding tty
  busy := by
    refine ⟨fun r hr => ?_, fun k rest hw => by cases hw⟩
    cases hr
    decide
  source := hsource
  sink := hsink

/-- How much is left to do, the more important first: what can still be read, what is to be done with what was read, what is to be written
of the frame that is being written, and what the sink can do by itself. -/
def toDo (supply : Supply σ) (demand : Demand τ) (t : Transfer σ τ) : ℕ ×ₗ ℕ ×ₗ ℕ ×ₗ ℕ :=
  toLex (supply.left t.source, toLex (t.copying.work, toLex (t.copying.mux.load, demand.owed t.sink)))

/-- Reading leaves no more in the source, and less if it brings something. -/
theorem left_of_drew {s s' : σ} {e : Event} (hs : supply.Fits s) (h : Drew s e s') :
    supply.Fits s' ∧ supply.left s' ≤ supply.left s ∧
      ∀ bs, e = .read (.data bs) → bs ≠ [] → supply.left s' < supply.left s := by
  cases e with
  | read r =>
    obtain ⟨n, hread⟩ := h
    have hafter : s' = (Readable.read n s).2 := by rw [hread]
    refine ⟨hafter ▸ supply.fits_read n hs, hafter ▸ supply.left_read n hs, fun bs he hne => ?_⟩
    cases he
    exact supply.left_data hs hread hne
  | _ =>
    cases h
    exact ⟨hs, Nat.le_refl _, fun bs he => by cases he⟩

/-- Writing leaves the sink in order, and what it takes is something. -/
theorem fits_of_put {s s' : τ} {e : Event} (hs : demand.Fits s) (h : Put s e s') :
    demand.Fits s' ∧ ∀ bs, e = .gave bs → bs ≠ [] := by
  cases e with
  | gave bs =>
    obtain ⟨p, n, hne, hwrite, rfl⟩ := h
    have hpos := demand.took_pos hs hwrite hne
    have hafter : s' = (Writable.write p s).2 := by rw [hwrite]
    refine ⟨hafter ▸ demand.fits_write p hs, fun bs he => ?_⟩
    cases he
    simp only [ne_eq, List.take_eq_nil_iff, not_or]
    exact ⟨by omega, hne⟩
  | refused =>
    obtain ⟨p, e, hwrite⟩ := h
    have hafter : s' = (Writable.write p s).2 := by rw [hwrite]
    exact ⟨hafter ▸ demand.fits_write p hs, fun bs he => by cases he⟩
  | _ =>
    rcases h with rfl | rfl
    · exact ⟨hs, fun bs he => by cases he⟩
    · exact ⟨demand.fits_finish hs, fun bs he => by cases he⟩

/-- Every move keeps a copy sound, and leaves less to do. -/
theorem Step.sound [LawfulReadable σ] (h : Step supply demand t t') (hs : Sound supply demand t) :
    Sound supply demand t' ∧ toDo supply demand t' < toDo supply demand t := by
  cases h with
  | copy m hstep =>
    obtain ⟨⟨c, src, dst⟩, hmove, rfl⟩ := Option.map_eq_some_iff.mp hstep
    obtain ⟨e, hturn, hdrew, hput⟩ := turn_of_step hmove
    obtain ⟨hfits, hle, hless⟩ := left_of_drew hs.source hdrew
    obtain ⟨hsink, hgave⟩ := fits_of_put hs.sink hput
    refine ⟨⟨hs.manned.turn hturn, hs.lanes.turn hturn, hs.busy.turn hturn, hfits, hsink⟩, ?_⟩
    refine Prod.Lex.toLex_lt_toLex'.mpr ⟨hle, fun heq => ?_⟩
    rcases hturn.lessens hs.manned hs.busy hgave with ⟨bs, he, hne⟩ | hwork | ⟨hwork, hload⟩
    · exact absurd heq (Nat.ne_of_lt (hless bs he hne))
    · exact Prod.Lex.toLex_lt_toLex.mpr (Or.inl hwork)
    · exact Prod.Lex.toLex_lt_toLex.mpr (Or.inr ⟨hwork, Prod.Lex.toLex_lt_toLex.mpr (Or.inl hload)⟩)
  | source harrives =>
    refine ⟨⟨hs.manned, hs.lanes, hs.busy, supply.fits_arrives hs.source harrives, hs.sink⟩, ?_⟩
    exact Prod.Lex.toLex_lt_toLex.mpr (Or.inl (supply.left_arrives hs.source harrives))
  | sink hfrees =>
    refine ⟨⟨hs.manned, hs.lanes, hs.busy, hs.source, demand.fits_frees hs.sink hfrees⟩, ?_⟩
    refine Prod.Lex.toLex_lt_toLex.mpr (Or.inr ⟨rfl, Prod.Lex.toLex_lt_toLex.mpr (Or.inr ⟨rfl, ?_⟩)⟩)
    exact Prod.Lex.toLex_lt_toLex.mpr (Or.inr ⟨rfl, demand.owed_frees hs.sink hfrees⟩)

/-- Whatever happens keeps a copy sound. -/
theorem sound_of_reach [LawfulReadable σ] (h : Relation.ReflTransGen (Step supply demand) t t') (hs : Sound supply demand t) :
    Sound supply demand t' := by
  induction h with
  | refl => exact hs
  | tail _ hstep ih => exact (hstep.sound ih).1

/-- A copy that is not over can move, unless its source has nothing yet or its sink takes nothing now, and then that end moves by itself. -/
theorem exists_step_of_sound (hs : Sound supply demand t) (hr : t.copying.result = none) :
    (∃ m ∈ turns.flatten, (t.step m).isSome) ∨
      (∃ n s, (Readable.read n t.source).1 = .waiting ∧ supply.Arrives t.source s) ∨
      ∃ bs s, (Writable.write bs t.sink).1 = .waiting ∧ demand.Frees t.sink s := by
  by_cases hsource : ∃ n, (Readable.read n t.source).1 = .waiting
  · obtain ⟨n, hwaiting⟩ := hsource
    obtain ⟨s, harrives⟩ := supply.arrives_of_waiting hs.source hwaiting
    exact Or.inr (Or.inl ⟨n, s, hwaiting, harrives⟩)
  · by_cases hsink : ∃ bs, (Writable.write bs t.sink).1 = .waiting
    · obtain ⟨bs, hwaiting⟩ := hsink
      obtain ⟨s, hfrees⟩ := demand.frees_of_waiting hs.sink hwaiting
      exact Or.inr (Or.inr ⟨bs, s, hwaiting, hfrees⟩)
    · left
      rw [not_exists] at hsource hsink
      obtain ⟨m, hm, hstep⟩ := exists_step hs.manned hs.lanes hr hsource hsink
      exact ⟨m, hm, by simpa [step] using hstep⟩

/-- A log's copy cannot get stuck and comes to its end, for both encodings, with a terminal or without, between any source that comes to an
end and any sink that keeps taking bytes or refuses them at some point, and in whatever order the pump, the forwarders and the two ends
move.
1. As long as the copy is not over some part of it can move, unless the source has nothing yet or the sink takes nothing now, and then that
   end does something by itself.
2. Once the copy is over no part of it moves any more.
3. If it goes on as long as it is not over, it is over after finitely many moves. -/
theorem copy_completes [LawfulReadable σ] (supply : Supply σ) (demand : Demand τ) (encoding : Encoding) (tty : Bool) {source : σ} {sink : τ}
    (hsource : supply.Fits source) (hsink : demand.Fits sink) :
    (∀ t, Relation.ReflTransGen (Step supply demand) (start encoding tty source sink) t →
      (t.copying.result = none →
        (∃ m ∈ turns.flatten, (t.step m).isSome) ∨
          (∃ n s, (Readable.read n t.source).1 = .waiting ∧ supply.Arrives t.source s) ∨
          ∃ bs s, (Writable.write bs t.sink).1 = .waiting ∧ demand.Frees t.sink s) ∧
      (t.copying.result.isSome → ∀ m, t.step m = none)) ∧
    ∀ run : ℕ → Transfer σ τ, run 0 = start encoding tty source sink →
      (∀ n, (run n).copying.result = none → Step supply demand (run n) (run (n + 1))) → ∃ n, (run n).copying.result.isSome := by
  have hstart : Sound supply demand (start encoding tty source sink) := .start encoding tty hsource hsink
  refine ⟨fun t hreach => ?_, fun run hfirst hrun => ?_⟩
  · have hs := sound_of_reach hreach hstart
    refine ⟨exists_step_of_sound hs, fun hr m => ?_⟩
    rw [step, step_of_result hs.manned hr]
    rfl
  · -- a run that is never over would leave less and less to do for ever
    by_contra hnever
    have hgoing (n : ℕ) : Step supply demand (run n) (run (n + 1)) :=
      hrun n (by simpa using not_exists.mp hnever n)
    have hsound (n : ℕ) : Sound supply demand (run n) := by
      induction n with
      | zero => exact hfirst ▸ hstart
      | succ n ih => exact ((hgoing n).sound ih).1
    exact not_strictAnti_of_wellFoundedLT (fun n => toDo supply demand (run n))
      (strictAnti_nat_of_succ_lt fun n => ((hgoing n).sound (hsound n)).2)

/-- Framed output that fails inside a frame comes to the end of its copy, both into a sink that refuses all but ten bytes and into a pipe
that holds two bytes at a time, whose reader reads on or goes away. -/
theorem copy_completes_of_failing_ends :
    (∀ run : ℕ → Transfer Feed Sink,
      run 0 = start .events false ⟨[.bytes [1, 0, 0, 0, 0, 0, 0, 2, 0x61], .failure .brokenPipe], true⟩ { limit := some 10 } →
      (∀ n, (run n).copying.result = none → Step Feed.supply Sink.demand (run n) (run (n + 1))) →
      ∃ n, (run n).copying.result.isSome) ∧
    ∀ run : ℕ → Transfer Feed Pipe,
      run 0 = start .events false ⟨[.bytes [1, 0, 0, 0, 0, 0, 0, 2, 0x61], .failure .brokenPipe], true⟩ { capacity := 2 } →
      (∀ n, (run n).copying.result = none → Step Feed.supply Pipe.demand (run n) (run (n + 1))) →
      ∃ n, (run n).copying.result.isSome := by
  have hsource : Feed.supply.Fits ⟨[.bytes [1, 0, 0, 0, 0, 0, 0, 2, 0x61], .failure .brokenPipe], true⟩ := rfl
  have hsink : Sink.demand.Fits { limit := some 10 } := fun k hk => by cases hk
  have hpipe : Pipe.demand.Fits { capacity := 2 } := Nat.succ_pos 1
  exact ⟨(copy_completes Feed.supply Sink.demand .events false hsource hsink).2,
    (copy_completes Feed.supply Pipe.demand .events false hsource hpipe).2⟩

end Transfer

end JobPlane.Log
