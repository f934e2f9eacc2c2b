import JobPlane.Frame.Split
import JobPlane.Proofs.Frame.Parse
import JobPlane.Proofs.Stream.Pipe

/-!
# What a pump's move comes to

A pump that splits frames reads from its source, or puts a part of a payload into a pipe, or finds that a pipe's reader is gone.
`Splitter.Turn` tells these apart, each with the state it leads to, and every move of the pump is one of them (`Splitter.turn_of_step`).
-/

namespace JobPlane

/-- An end that is read brings no more than was asked for, and something if anything was. -/
class LawfulReadable (σ : Type) [Readable σ] : Prop where
  length_le : ∀ {n : Nat} {s s' : σ} {bs : Bytes}, Readable.read n s = (.data bs, s') → bs.length ≤ n
  ne_nil : ∀ {n : Nat} {s s' : σ} {bs : Bytes}, 0 < n → Readable.read n s = (.data bs, s') → bs ≠ []

instance : LawfulReadable Pipe where
  length_le h := by
    obtain ⟨-, -, rfl, -⟩ := Pipe.read_data h
    exact List.length_take_le _ _
  ne_nil hn h := by
    obtain ⟨-, -, rfl, hb⟩ := Pipe.read_data h
    simp only [ne_eq, List.take_eq_nil_iff, not_or]
    exact ⟨by omega, hb⟩

namespace Splitter

variable {s s' : Splitter} {k : OutputKind}

/-! ## Lanes -/

theorem lane_setLane (s : Splitter) (k k' : OutputKind) (l : SplitLane) :
    (s.setLane k l).lane k' = if k' = k then l else s.lane k' := by
  cases k <;> cases k' <;> rfl

@[simp] theorem phase_setLane (s : Splitter) (k : OutputKind) (l : SplitLane) : (s.setLane k l).phase = s.phase := by
  cases k <;> rfl

theorem lane_mapPipe (s : Splitter) (k k' : OutputKind) (f : Pipe → Pipe) :
    (s.mapPipe k f).lane k' = if k' = k then { s.lane k with pipe := f (s.lane k).pipe } else s.lane k' :=
  lane_setLane ..

/-- What becomes of a pipe is what matters of a change of it. -/
theorem mapPipe_congr {f g : Pipe → Pipe} (h : f (s.lane k).pipe = g (s.lane k).pipe) : s.mapPipe k f = s.mapPipe k g := by
  rw [mapPipe, mapPipe, h]

/-- A pipe that is exchanged for itself. -/
theorem mapPipe_same (s : Splitter) (k : OutputKind) : (s.mapPipe k fun _ => (s.lane k).pipe) = s := by
  cases k <;> rfl

@[simp] theorem phase_mapPipe (s : Splitter) (k : OutputKind) (f : Pipe → Pipe) : (s.mapPipe k f).phase = s.phase :=
  phase_setLane ..

@[simp] theorem lane_with_phase (s : Splitter) (p : PumpPhase) (k : OutputKind) : { s with phase := p }.lane k = s.lane k := by
  cases k <;> rfl

@[simp] theorem phase_finish (s : Splitter) (r : Except StreamError Unit) : (s.finish r).phase = .ended r := rfl

/-- A pump that ends closes both pipes. -/
theorem lane_finish (s : Splitter) (r : Except StreamError Unit) (k : OutputKind) :
    (s.finish r).lane k = { s.lane k with pipe := (s.lane k).pipe.close } := by
  cases k <;> rfl

/-- A complete frame is written where its stream is live and it is not empty, and is skipped otherwise. -/
theorem pass_cases (s : Splitter) (f : Frame) :
    ((s.lane f.kind).live = true ∧ f.payload ≠ [] ∧ s.pass f = { s with phase := .writing f.kind f.payload }) ∨
      (((s.lane f.kind).live = false ∨ f.payload = []) ∧ s.pass f = { s with phase := .reading .fresh }) := by
  unfold pass
  split
  · rename_i h
    simp only [Bool.and_eq_true, Bool.not_eq_true', List.isEmpty_eq_false_iff] at h
    exact Or.inl ⟨h.1, h.2, rfl⟩
  · rename_i h
    refine Or.inr ⟨?_, rfl⟩
    cases hl : (s.lane f.kind).live with
    | false => exact Or.inl rfl
    | true => simpa [hl] using h

/-- A pump that loses a reader goes on as long as the stream of another is live. -/
theorem lose_of_live {k' : OutputKind} (hne : k' ≠ k) (hlive : (s.lane k').live = true) :
    s.lose k = { s.setLane k { s.lane k with live := false } with phase := .reading .fresh } := by
  have hgoes : ((s.setLane k { s.lane k with live := false }).stdout.live ||
      (s.setLane k { s.lane k with live := false }).stderr.live) = true := by
    cases k <;> cases k' <;> simp_all [setLane, lane]
  simp only [lose]
  rw [if_pos hgoes]

/-- A pump that loses a reader goes on, or is over. -/
theorem lose_cases (s : Splitter) (k : OutputKind) :
    s.lose k = { s.setLane k { s.lane k with live := false } with phase := .reading .fresh } ∨
      s.lose k = (s.setLane k { s.lane k with live := false }).finish (.error .readersGone) := by
  simp only [lose]
  split
  · exact Or.inl rfl
  · exact Or.inr rfl

/-! ## Moves -/

/-- What a pump's move comes to: what was read, if anything was, and the state after it. -/
inductive Turn (s : Splitter) : Option Reading → Splitter → Prop
  /-- A part of a frame came in. -/
  | more {r r' : FrameReader} {bs : Bytes} (hp : s.phase = .reading r) (hb : bs.length ≤ r.wants)
      (h : r.take bs = .ok (.more r')) : Turn s (some (.data bs)) { s with phase := .reading r' }
  /-- A frame came in. -/
  | complete {r : FrameReader} {bs : Bytes} {f : Frame} (hp : s.phase = .reading r) (hb : bs.length ≤ r.wants)
      (h : r.take bs = .ok (.complete f)) : Turn s (some (.data bs)) (s.pass f)
  /-- A header came in that names no stream. -/
  | unknown {r : FrameReader} {bs : Bytes} {e : StreamError} (hp : s.phase = .reading r) (hb : bs.length ≤ r.wants)
      (h : r.take bs = .error e) : Turn s (some (.data bs)) (s.finish (.error e))
  /-- The input ended. -/
  | ceased {r : FrameReader} (hp : s.phase = .reading r) : Turn s (some .eof) (s.finish r.close)
  /-- The input failed. -/
  | broken {r : FrameReader} {e : StreamError} (hp : s.phase = .reading r) : Turn s (some (.failed e)) (s.finish (.error e))
  /-- A part of a payload went into its pipe. -/
  | put {k : OutputKind} {rest : Bytes} {n : Nat} (hp : s.phase = .writing k rest) (hopen : (s.lane k).pipe.closed = false)
      (hpos : rest ≠ [] → 0 < n) :
      Turn s none { s.setLane k { s.lane k with pipe := { (s.lane k).pipe with buffer := (s.lane k).pipe.buffer ++ rest.take n } }
        with phase := if (rest.drop n).isEmpty then .reading .fresh else .writing k (rest.drop n) }
  /-- The reader of a payload's stream is gone. -/
  | lose {k : OutputKind} {rest : Bytes} (hp : s.phase = .writing k rest) (hclosed : (s.lane k).pipe.closed = true) :
      Turn s none (s.lose k)

/-- Every move of a pump is one of those. -/
theorem turn_of_step {σ : Type} [Readable σ] [LawfulReadable σ] {src src' : σ} (h : s.step src = some (s', src')) :
    (∃ r n, s.Turn (some r) s' ∧ Readable.read n src = (r, src') ∧ ∀ fr, s.phase = .reading fr → n = fr.wants) ∨
      (s.Turn none s' ∧ src' = src) := by
  unfold step at h
  split at h
  · rename_i r hp
    cases hread : Readable.read r.wants src with
    | mk got after =>
      rw [hread] at h
      obtain ⟨t, ht, heq⟩ := Option.map_eq_some_iff.mp h
      cases heq
      have hwants : ∀ fr, s.phase = .reading fr → r.wants = fr.wants := by
        intro fr hfr
        rw [hp] at hfr
        cases hfr
        rfl
      refine Or.inl ⟨got, r.wants, ?_, hread, hwants⟩
      unfold take at ht
      split at ht
      · cases ht
      · cases ht
        exact .broken hp
      · cases ht
        exact .ceased hp
      · have hb := LawfulReadable.length_le hread
        split at ht
        · rename_i e he
          cases ht
          exact .unknown hp hb he
        · rename_i r' hr
          cases ht
          exact .more hp hb hr
        · rename_i f hf
          cases ht
          exact .complete hp hb hf
  · rename_i k rest hp
    right
    split at h
    · cases h
    · rename_i e p hw
      cases h
      exact ⟨.lose hp (Pipe.write_failed hw).1, rfl⟩
    · rename_i n p hw
      cases h
      obtain ⟨hopen, hroom, hn, rfl⟩ := Pipe.write_took hw
      have hpos : rest ≠ [] → 0 < n := by
        intro hne
        have := List.length_pos_iff.mpr hne
        omega
      exact ⟨.put hp hopen hpos, rfl⟩
  · cases h

namespace Turn

variable {r : Option Reading}

/-- A pump that moves is not over. -/
theorem phase_ne_ended (h : s.Turn r s') (p : Except StreamError Unit) : s.phase ≠ .ended p := by
  cases h <;> simp [*]

/-- A pump that moves still reads or writes. -/
theorem running (h : s.Turn r s') : s.running = true := by
  unfold Splitter.running
  split
  · exact absurd (by assumption) (h.phase_ne_ended _)
  · rfl

/-- A pump that reads was reading. -/
theorem phase_of_read {got : Reading} (h : s.Turn (some got) s') : ∃ fr, s.phase = .reading fr := by
  cases h <;> exact ⟨_, by assumption⟩

/-- A pump that goes on after it has read has read bytes. -/
theorem data_of_moving {got : Reading} (h : s.Turn (some got) s') (hp : ∀ p, s'.phase ≠ .ended p) : ∃ bs, got = .data bs := by
  cases h with
  | more hp hb ht => exact ⟨_, rfl⟩
  | complete hp hb ht => exact ⟨_, rfl⟩
  | unknown hp hb ht => exact ⟨_, rfl⟩
  | ceased hp' => exact absurd rfl (hp _)
  | broken hp' => exact absurd rfl (hp _)

/-- What a pump goes on with after a move: it asks for something, or has something to write. -/
def Ready : PumpPhase → Prop
  | .reading fr => 0 < fr.wants
  | .writing _ rest => rest ≠ []
  | .ended _ => True

/-- A pump that has moved has something to go on with, unless it is over. -/
theorem ready (h : s.Turn r s') : Ready s'.phase := by
  have hfresh : 0 < FrameReader.fresh.wants := by decide
  cases h with
  | more hp hb ht => exact FrameReader.wants_pos_of_take ht
  | @complete r bs f hp hb ht =>
    rcases s.pass_cases f with ⟨-, hne, heq⟩ | ⟨-, heq⟩
    · rw [heq]
      exact hne
    · rw [heq]
      exact hfresh
  | unknown | ceased | broken => trivial
  | put hp hopen hpos =>
    simp only
    split
    · exact hfresh
    · rename_i hsome
      exact fun hnone => hsome (List.isEmpty_iff.mpr hnone)
  | @lose k' rest hp hclosed =>
    rcases s.lose_cases k' with heq | heq
    · rw [heq]
      exact hfresh
    · rw [heq]
      trivial

/-- A pump that writes has something to write. -/
theorem writing_ne_nil {rest : Bytes} (h : s.Turn r s') (hp : s'.phase = .writing k rest) : rest ≠ [] := by
  have hready := h.ready
  rwa [hp] at hready

/-- A pump that reads asks for something. -/
theorem wants_pos {fr : FrameReader} (h : s.Turn r s') (hp : s'.phase = .reading fr) : 0 < fr.wants := by
  have hready := h.ready
  rwa [hp] at hready

/-- Pipes keep their size and stay closed, and all are closed once the pump is over. -/
theorem lane (h : s.Turn r s') (k : OutputKind) :
    (s'.lane k).pipe.capacity = (s.lane k).pipe.capacity ∧
      ((s.lane k).pipe.closed = true → (s'.lane k).pipe.closed = true) ∧
      ∀ p, s'.phase = .ended p → (s'.lane k).pipe.closed = true := by
  cases h with
  | more hp hb ht => exact ⟨rfl, fun h => by simpa using h, by simp⟩
  | @complete r bs f hp hb ht =>
    rcases s.pass_cases f with ⟨-, -, heq⟩ | ⟨-, heq⟩ <;> rw [heq] <;> simp
  | unknown hp hb ht => simp [lane_finish, Pipe.close]
  | ceased hp => simp [lane_finish, Pipe.close]
  | broken hp => simp [lane_finish, Pipe.close]
  | @put k' rest n hp hopen =>
    rw [lane_with_phase, lane_setLane]
    refine ⟨by split <;> simp [*], fun h => by split <;> simp_all, fun p hp' => ?_⟩
    simp only at hp'
    split at hp' <;> cases hp'
  | @lose k' rest hp hclosed =>
    rcases s.lose_cases k' with heq | heq
    · rw [heq, lane_with_phase, lane_setLane]
      refine ⟨by split <;> simp [*], fun h => by split <;> simp_all, by simp⟩
    · rw [heq, lane_finish, lane_setLane]
      refine ⟨by split <;> simp [*, Pipe.close], by simp [Pipe.close], by simp [Pipe.close]⟩

end Turn

end Splitter

end JobPlane
