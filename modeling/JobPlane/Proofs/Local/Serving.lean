import JobPlane.Local.OutputLog
import JobPlane.Proofs.Frame.Parse
import JobPlane.Proofs.Moves
import JobPlane.Proofs.Stream.Pipe

/-!
# Attaches being served

An attach from the moment it is joined to its job: the job writes chunks and closes its log, the server subscribes at some moment and
sends, and the client reads, in any order. `Content` ties what was sent to the log, and every move keeps it (`Content.step`): the
bytes sent are those of the chunks from before the subscribe, if the attach asked for the history, and of a selection of those after
it, if it asked to follow. The selection is all of them unless the server was so far behind that chunks were no longer kept for it.
-/

namespace JobPlane

/-! ## What a server's move comes to -/

namespace Server

/-- The bytes sent for a chunk. -/
def encoding (tty : Bool) (c : Frame) : Bytes := if tty then c.payload else c.written

/-- The bytes sent for chunks, one after another. -/
def encodings (tty : Bool) (cs : List Frame) : Bytes := cs.flatMap (encoding tty)

/-- The chunks of the streams that an attach asks for. -/
def wanted (f : AttachFlags) (cs : List Frame) : List Frame := cs.filter fun c => wants f c.kind

/-- The number of events that a server which follows, or will, has not taken yet. -/
def behind (s : Server) (log : OutputLog) : Nat :=
  match s.phase with
  | .history _ upTo true => log.events - upTo
  | .live next => log.events - next
  | _ => 0

@[simp] theorem encodings_nil (tty : Bool) : encodings tty [] = [] := rfl

@[simp] theorem encodings_append (tty : Bool) (a b : List Frame) :
    encodings tty (a ++ b) = encodings tty a ++ encodings tty b := List.flatMap_append

@[simp] theorem wanted_nil (f : AttachFlags) : wanted f [] = [] := rfl

@[simp] theorem wanted_append (f : AttachFlags) (a b : List Frame) : wanted f (a ++ b) = wanted f a ++ wanted f b :=
  List.filter_append ..

/-- What an attach asks for of one chunk. -/
theorem wanted_singleton (f : AttachFlags) (c : Frame) : wanted f [c] = if wants f c.kind then [c] else [] := by
  simp only [wanted, List.filter_cons, List.filter_nil]

/-- Who asks for both streams is sent all chunks. -/
theorem wanted_all {f : AttachFlags} (hf : f.stdout = true ∧ f.stderr = true) (cs : List Frame) : wanted f cs = cs := by
  unfold wanted
  rw [List.filter_eq_self]
  intro c _
  cases hk : c.kind <;> simp [wants, hf]

/-- The next event is the one that follows the last, or, where that is not kept any more, a later one: the oldest that is. -/
theorem catchUp_cases (events next : Nat) :
    (events - next ≤ backlog ∧ catchUp events next = next) ∨
      (backlog < events - next ∧ next < catchUp events next ∧ catchUp events next + backlog = events) := by
  unfold catchUp
  split <;> omega

/-- The pieces sent for a chunk make up its bytes, where the attach asks for it, and nothing otherwise. -/
theorem pieces_eq (s : Server) {c : Frame} (h : s.tty = false → c.Fits) :
    ∃ ps, s.pieces c = .ok ps ∧ ps.flatten = encodings s.tty (wanted s.flags [c]) := by
  cases hw : wants s.flags c.kind with
  | false => exact ⟨[], by simp [pieces, hw], by simp [wanted_singleton, hw]⟩
  | true =>
    cases ht : s.tty with
    | true => exact ⟨[c.payload], by simp [pieces, hw, ht], by simp [wanted_singleton, hw, encodings, encoding]⟩
    | false =>
      obtain ⟨ps, hps, hflat⟩ := Frame.pieces_of_fits (h ht)
      exact ⟨ps, by simp [pieces, hw, ht, hps], by simp [wanted_singleton, hw, hflat, encodings, encoding]⟩

/-- A server's move: it passes over an empty piece, writes on, ends because nobody reads any more, or takes the next event. -/
theorem step_cases {s s' : Server} {log : OutputLog} {out out' : Pipe} (h : s.step log out = some (s', out')) :
    (∃ ps, s.sending = [] :: ps ∧ s' = { s with sending := ps } ∧ out' = out) ∨
      (∃ p ps n, s.sending = p :: ps ∧ p ≠ [] ∧ out.write p = (.took n, out') ∧
        s' = { s with sending := p.drop n :: ps }) ∨
      (out.closed = true ∧ s.finish out = (s', out')) ∨
      (s.sending = [] ∧ s.next log out = some (s', out')) := by
  unfold step at h
  split at h
  · exact Or.inr (Or.inr (Or.inr ⟨by assumption, h⟩))
  · rename_i ps hs
    simp only [Option.some.injEq, Prod.mk.injEq] at h
    exact Or.inl ⟨ps, hs, h.1.symm, h.2.symm⟩
  · rename_i p ps hne hs
    split at h
    · cases h
    · rename_i e q hw
      obtain ⟨hclosed, rfl⟩ := Pipe.write_failed hw
      exact Or.inr (Or.inr (Or.inl ⟨hclosed, Option.some.inj h⟩))
    · rename_i n q hw
      simp only [Option.some.injEq, Prod.mk.injEq] at h
      obtain ⟨rfl, rfl⟩ := h
      exact Or.inr (Or.inl ⟨p, ps, n, hs, hne, hw, rfl⟩)

/-- Beginning a chunk leaves the pipe to the client as it is and goes on, or closes it. -/
theorem begin_out {s s' : Server} {c : Option Frame} {phase : ServerPhase} {out out' : Pipe} (hne : phase ≠ .ended)
    (h : s.begin c phase out = (s', out')) : (out' = out ∧ s'.phase ≠ .ended) ∨ out' = out.close := by
  unfold begin at h
  split at h <;> cases h
  · exact Or.inl ⟨rfl, hne⟩
  · exact Or.inr rfl

/-- Taking an event leaves the pipe to the client as it is and goes on, or closes it. -/
theorem next_out {s s' : Server} {log : OutputLog} {out out' : Pipe} (h : s.next log out = some (s', out')) :
    (out' = out ∧ s'.phase ≠ .ended) ∨ out' = out.close := by
  unfold next at h
  split at h
  · cases h
    exact Or.inl ⟨rfl, by simp [subscribe]⟩
  · split at h
    · exact begin_out (by simp) (Option.some.inj h)
    · split at h <;> cases h
      · exact Or.inl ⟨rfl, by simp⟩
      · exact Or.inr rfl
  · simp only at h
    split at h
    · exact begin_out (by simp) (Option.some.inj h)
    · split at h <;> cases h
      exact Or.inr rfl
  · cases h

/-- A server's move does not change the room in the pipe to the client. -/
theorem step_capacity {s s' : Server} {log : OutputLog} {out out' : Pipe} (h : s.step log out = some (s', out')) :
    out'.capacity = out.capacity := by
  rcases step_cases h with ⟨_, _, _, rfl⟩ | ⟨_, _, _, _, _, hw, _⟩ | ⟨_, hf⟩ | ⟨_, hn⟩
  · rfl
  · obtain ⟨-, -, -, rfl⟩ := Pipe.write_took hw
    rfl
  · cases hf
    rfl
  · rcases next_out hn with ⟨rfl, -⟩ | rfl <;> rfl

/-- A server that has ended has closed the pipe to the client. -/
def Announces (s : Server) (out : Pipe) : Prop := s.phase = .ended → out.closed = true

/-- A server that comes to its end closes the pipe to the client, and leaves it closed. -/
theorem Announces.step {s s' : Server} {log : OutputLog} {out out' : Pipe} (ha : s.Announces out)
    (h : s.step log out = some (s', out')) : s'.Announces out' := by
  intro hp
  rcases step_cases h with ⟨_, _, rfl, rfl⟩ | ⟨_, _, _, _, _, hw, rfl⟩ | ⟨_, hf⟩ | ⟨_, hn⟩
  · exact ha hp
  · obtain ⟨hopen, -, -, -⟩ := Pipe.write_took hw
    rw [ha hp] at hopen
    cases hopen
  · cases hf
    rfl
  · rcases next_out hn with ⟨-, hne⟩ | rfl
    · exact absurd hp hne
    · rfl

/-- Beginning a chunk that fits: its pieces are to be sent, and they make up its bytes where the attach asks for it. -/
theorem begin_some (s : Server) {c : Frame} (h : s.tty = false → c.Fits) (phase : ServerPhase) (out : Pipe) :
    ∃ ps, s.begin (some c) phase out = ({ s with sending := ps, phase }, out) ∧
      ps.flatten = encodings s.tty (wanted s.flags [c]) := by
  obtain ⟨ps, hps, hflat⟩ := s.pieces_eq h
  exact ⟨ps, by simp [begin, hps], hflat⟩

end Server

open Server

/-! ## What an attach is to be sent -/

/-- The moment at which an attach subscribes: what it asks for, and how far its job was. -/
structure Joining where
  flags : AttachFlags
  /-- The job has a terminal. -/
  tty : Bool
  /-- What the job had written. -/
  seen : List Frame
  /-- The job's log was closed. -/
  wasClosed : Bool

namespace Joining

/-- What the attach is to be sent of the chunks from before. -/
def history (m : Joining) : List Frame := if m.flags.logs then wanted m.flags m.seen else []

/-- Whether the attach is sent anything of what comes after. -/
def follows (m : Joining) : Bool := m.flags.stream && !m.wasClosed

end Joining

/-- What a follower was sent of chunks: all it asked for, or a selection that lacks some, once some were not kept for it. -/
inductive Picked (f : AttachFlags) : Bool → List Frame → List Frame → Prop
  | all (cs : List Frame) : Picked f false cs (wanted f cs)
  | missed (a b live : List Frame) (c : Frame) : live.Sublist (wanted f (a ++ b)) → Picked f true (a ++ c :: b) live

namespace Picked

variable {f : AttachFlags} {fell : Bool} {cs live : List Frame}

/-- What a follower was sent is a selection of what it asked for, in order. -/
theorem sublist (h : Picked f fell cs live) : live.Sublist (wanted f cs) := by
  cases h with
  | all => exact List.Sublist.refl _
  | missed a b live c hl =>
    exact hl.trans (List.Sublist.filter _ (List.Sublist.append_left (List.sublist_cons_self c b) a))

/-- A follower that takes the next chunk. -/
theorem snoc (h : Picked f fell cs live) (c : Frame) : Picked f fell (cs ++ [c]) (live ++ wanted f [c]) := by
  cases h with
  | all =>
    rw [← wanted_append]
    exact .all _
  | missed a b live x hl =>
    rw [List.append_assoc]
    refine .missed a (b ++ [c]) _ x ?_
    rw [← List.append_assoc, wanted_append]
    exact hl.append (List.Sublist.refl _)

/-- A follower that takes a chunk, where chunks before it were not kept. -/
theorem skip (h : Picked f fell cs live) {lost : List Frame} (hlost : lost ≠ []) (c : Frame) :
    Picked f true (cs ++ lost ++ [c]) (live ++ wanted f [c]) := by
  obtain ⟨x, xs, rfl⟩ := List.exists_cons_of_ne_nil hlost
  rw [List.append_assoc, List.cons_append]
  refine .missed cs (xs ++ [c]) _ x ?_
  rw [← List.append_assoc, wanted_append, wanted_append]
  exact (h.sublist.trans (List.sublist_append_left _ _)).append (List.Sublist.refl _)

/-- A selection that lacks some is not all of them. -/
theorem ne (h : Picked f true cs live) : live ≠ cs := by
  cases h with
  | missed a b live c hl =>
    intro heq
    have hle := (hl.trans List.filter_sublist).length_le
    rw [heq] at hle
    simp only [List.length_append, List.length_cons] at hle
    omega

end Picked

/-- The chunks that an attach has taken, by the phase it is in: `later` are the chunks written since it subscribed, and `closed`
says whether the log is closed. -/
inductive Taken (m : Joining) (fell : Bool) (later : List Frame) (closed : Bool) : ServerPhase → List Frame → Prop
  | history (i : Nat) (hi : i ≤ m.seen.length) (hlogs : m.flags.logs = false → i = m.seen.length) (hfell : fell = false) :
      Taken m fell later closed (.history i m.seen.length m.follows)
        (if m.flags.logs then wanted m.flags (m.seen.take i) else [])
  | live (n : Nat) (live : List Frame) (hm : m.follows = true) (hn : n ≤ later.length)
      (hlive : Picked m.flags fell (later.take n) live) :
      Taken m fell later closed (.live (m.seen.length + n)) (m.history ++ live)
  | replayed (hm : m.follows = false) (hfell : fell = false) : Taken m fell later closed .ended m.history
  | followed (live : List Frame) (hm : m.follows = true) (hclosed : closed = true) (hlive : Picked m.flags fell later live) :
      Taken m fell later closed .ended (m.history ++ live)

namespace Taken

variable {m : Joining} {fell : Bool} {later taken : List Frame} {closed : Bool} {phase : ServerPhase}

/-- What was taken does not change when the job writes. -/
theorem push (h : Taken m fell later false phase taken) (c : Frame) : Taken m fell (later ++ [c]) false phase taken := by
  cases h with
  | history i hi hlogs hfell => exact .history i hi hlogs hfell
  | live n live hm hn hlive =>
    refine .live n live hm (by simp only [List.length_append]; omega) ?_
    rwa [List.take_append_of_le_length hn]
  | replayed hm hfell => exact .replayed hm hfell
  | followed live hm hclosed => cases hclosed

/-- What was taken does not change when the log is closed. -/
theorem close (h : Taken m fell later closed phase taken) : Taken m fell later true phase taken := by
  cases h with
  | history i hi hlogs hfell => exact .history i hi hlogs hfell
  | live n live hm hn hlive => exact .live n live hm hn hlive
  | replayed hm hfell => exact .replayed hm hfell
  | followed live hm hclosed hlive => exact .followed live hm rfl hlive

/-- Who is sent nothing of what comes after misses nothing of it. -/
theorem fell_eq_false (h : Taken m fell later closed .ended taken) (hm : m.follows = false) : fell = false := by
  cases h with
  | replayed _ hfell => exact hfell
  | followed _ hfollows => simp [hm] at hfollows

end Taken

/-! ## The system -/

/-- An attach being served: its job's log, its server, the pipe to its client, and what the client has read. -/
structure Serving where
  log : OutputLog := {}
  server : Server
  out : Pipe
  received : Bytes := []

namespace Serving

/-- A move: the job writes a chunk or closes its log, the server moves, or the client reads. -/
inductive Move
  | push (c : Frame)
  | close
  | serve
  | read (n : Nat)
  deriving DecidableEq

/-- Makes a move, where it is possible. -/
def step (s : Serving) : Move → Option Serving
  | .push c => if s.log.closed then none else some { s with log := s.log.push c }
  | .close => if s.log.closed then none else some { s with log := s.log.close }
  | .serve => (s.server.step s.log s.out).map fun (server, out) => { s with server, out }
  | .read n =>
    match s.out.read n with
    | (.data bs, out) => some { s with out, received := s.received ++ bs }
    | _ => none

/-- An attach joined to a job that has written nothing, with so much room in the pipe to its client. -/
def joined (flags : AttachFlags) (tty : Bool) (capacity : Nat) : Serving := { server := { flags, tty }, out := { capacity } }

/-- The bytes that left the server. -/
def sent (s : Serving) : Bytes := s.received ++ s.out.buffer

/-- The moment of a subscribe in a state. -/
def joining (s : Serving) : Joining := ⟨s.server.flags, s.server.tty, s.log.chunks.toList, s.log.closed⟩

/-- Whether a move takes an event of which the ones before are not all kept. -/
def lapses (s : Serving) : Move → Bool
  | .serve =>
    match s.server.sending, s.server.phase with
    | [], .live next => backlog < s.log.events - next
    | _, _ => false
  | _ => false

/-- How what was sent stands to the log, for an attach that subscribed at a moment: `fell` says whether chunks were not kept for it,
`later` are the chunks written since, and `taken` those that were taken. -/
structure Content (m : Joining) (fell : Bool) (later taken : List Frame) (s : Serving) : Prop where
  flags : s.server.flags = m.flags
  tty : s.server.tty = m.tty
  chunks : s.log.chunks.toList = m.seen ++ later
  wasClosed : m.wasClosed = true → s.log.closed = true ∧ later = []
  phase : Taken m fell later s.log.closed s.server.phase taken
  sent : s.sent ++ s.server.sending.flatten = encodings m.tty taken
  ended : s.server.phase = .ended ↔ s.out.closed = true
  idle : s.server.phase = .ended → s.server.sending = []
  fits : m.tty = false → ∀ c ∈ s.log.chunks.toList, c.Fits

namespace Content

variable {m : Joining} {fell fell' : Bool} {later taken : List Frame} {s : Serving}

/-- A subscribe: nothing has been sent. -/
theorem subscribed (hs : s.server.sending = []) (hsent : s.sent = []) (ho : s.out.closed = false)
    (hfits : s.server.tty = false → ∀ c ∈ s.log.chunks.toList, c.Fits) :
    Content s.joining false [] [] { s with server := s.server.subscribe s.log } := by
  have htaken : Taken s.joining false [] s.log.closed (s.server.subscribe s.log).phase [] := by
    have h (i : Nat) (hi : i ≤ s.joining.seen.length) (hl : s.joining.flags.logs = false → i = s.joining.seen.length) :
        Taken s.joining false [] s.log.closed (.history i s.joining.seen.length s.joining.follows)
          (if s.joining.flags.logs then wanted s.joining.flags (s.joining.seen.take i) else []) := .history i hi hl rfl
    have h := h (if s.server.flags.logs then 0 else s.log.chunks.size)
    cases hl : s.server.flags.logs <;>
      simpa [joining, Joining.follows, subscribe, hl, wanted] using h
  refine ⟨rfl, rfl, by simp [joining], fun h => ⟨h, rfl⟩, htaken, ?_, ?_, ?_, hfits⟩
  · simpa [subscribe, hs, Serving.sent] using hsent
  · simp [subscribe, ho]
  · simp [subscribe]

/-- The pipe to the client is open until the attach is sent nothing more. -/
theorem out_open (h : Content m fell later taken s) (hp : s.server.phase ≠ .ended) : s.out.closed = false := by
  cases ho : s.out.closed with
  | false => rfl
  | true => exact absurd (h.ended.mpr ho) hp

/-- A chunk is begun. -/
theorem began (h : Content m fell later taken s) (hs : s.server.sending = []) (hp : s.server.phase ≠ .ended) {c : Frame}
    {phase : ServerPhase} {server : Server} {out : Pipe} (hb : s.server.begin (some c) phase s.out = (server, out))
    (hc : c ∈ s.log.chunks.toList) (hne : phase ≠ .ended)
    (ht : Taken m fell' later s.log.closed phase (taken ++ wanted m.flags [c])) :
    Content m fell' later (taken ++ wanted m.flags [c]) { s with server, out } := by
  obtain ⟨ps, hb', hflat⟩ := s.server.begin_some (c := c) (fun htty => h.fits (h.tty ▸ htty) c hc) phase s.out
  rw [hb'] at hb
  cases hb
  have hsent := h.sent
  rw [hs, List.flatten_nil, List.append_nil] at hsent
  refine ⟨h.flags, h.tty, h.chunks, h.wasClosed, ht, ?_, ?_, fun hend => absurd hend hne, h.fits⟩
  · simp only [encodings_append, ← hsent, hflat, h.flags, h.tty]
    rfl
  · simp [hne, h.out_open hp]

/-- The attach is sent nothing more. -/
theorem finished (h : Content m fell later taken s) (hs : s.server.sending = []) {server : Server} {out : Pipe}
    (hf : s.server.finish s.out = (server, out)) (ht : Taken m fell' later s.log.closed .ended taken) :
    Content m fell' later taken { s with server, out } := by
  cases hf
  have hsent := h.sent
  rw [hs] at hsent
  exact ⟨h.flags, h.tty, h.chunks, h.wasClosed, ht, hsent, by simp [Pipe.close], fun _ => rfl, h.fits⟩

/-- A chunk of the log is one of those from before the subscribe, or of those from after it. -/
theorem get (h : Content m fell later taken s) (i : Nat) : s.log.chunks[i]? = (m.seen ++ later)[i]? := by
  rw [← h.chunks, Array.getElem?_toList]

/-- The number of chunks of the log. -/
theorem size (h : Content m fell later taken s) : s.log.chunks.size = m.seen.length + later.length := by
  rw [← Array.length_toList, h.chunks, List.length_append]

/-- The next event of an attach that is sent the history. -/
theorem next_history {i : Nat} (hs : s.server.sending = []) (hp : s.server.phase = .history i m.seen.length m.follows)
    (h : Content m false later (if m.flags.logs then wanted m.flags (m.seen.take i) else []) s) (hi : i ≤ m.seen.length)
    (hlogs : m.flags.logs = false → i = m.seen.length) {server : Server} {out : Pipe}
    (hn : s.server.next s.log s.out = some (server, out)) :
    ∃ taken, Content m false later taken { s with server, out } := by
  have hne : s.server.phase ≠ .ended := by simp [hp]
  simp only [Server.next, hp] at hn
  split at hn
  · -- the next chunk of the history, which the attach asked for
    rename_i hlt
    have hl : m.flags.logs = true := by
      cases hl : m.flags.logs with
      | true => rfl
      | false => exact absurd (hlogs hl) (by omega)
    have hc : s.log.chunks[i]? = some m.seen[i] := by
      rw [h.get, List.getElem?_append_left hlt, List.getElem?_eq_getElem hlt]
    have hmem : m.seen[i] ∈ s.log.chunks.toList := by
      rw [h.chunks]
      exact List.mem_append_left _ (List.getElem_mem hlt)
    have ht : Taken m false later s.log.closed (.history (i + 1) m.seen.length m.follows)
        (if m.flags.logs then wanted m.flags (m.seen.take (i + 1)) else []) :=
      .history (i + 1) hlt (fun hf => by rw [hl] at hf; cases hf) rfl
    rw [hc, Option.some.injEq] at hn
    simp only [hl, if_true, List.take_succ_eq_append_getElem hlt, wanted_append] at ht h
    exact ⟨_, h.began hs hne hn hmem (by simp) ht⟩
  · rename_i hge
    have hall : (if m.flags.logs then wanted m.flags (m.seen.take i) else []) = m.history := by
      rw [Nat.le_antisymm hi (by omega), List.take_length]
      rfl
    rw [hall] at h
    refine ⟨m.history, ?_⟩
    split at hn
    · -- the history is over, and the attach follows
      rename_i hm
      simp only [Option.some.injEq, Prod.mk.injEq] at hn
      obtain ⟨rfl, rfl⟩ := hn
      have ht : Taken m false later s.log.closed (.live (m.seen.length + 0)) (m.history ++ []) :=
        .live 0 [] hm (Nat.zero_le _) (.all [])
      rw [List.append_nil] at ht
      exact ⟨h.flags, h.tty, h.chunks, h.wasClosed, ht, h.sent, by simp [h.out_open hne], fun he => by simp at he, h.fits⟩
    · rename_i hm
      rw [Option.some.injEq] at hn
      exact h.finished hs hn (.replayed (by simpa using hm) rfl)

/-- The next event of an attach that follows. -/
theorem next_live {n : Nat} {live : List Frame} (hs : s.server.sending = []) (hp : s.server.phase = .live (m.seen.length + n))
    (h : Content m fell later (m.history ++ live) s) (hm : m.follows = true) (hn : n ≤ later.length)
    (hlive : Picked m.flags fell (later.take n) live) {server : Server} {out : Pipe}
    (hnext : s.server.next s.log s.out = some (server, out)) :
    ∃ taken, Content m (fell || s.lapses .serve) later taken { s with server, out } := by
  have hne : s.server.phase ≠ .ended := by simp [hp]
  have hsize := h.size
  have hlapse : s.lapses .serve = decide (backlog < s.log.events - (m.seen.length + n)) := by simp [lapses, hs, hp]
  simp only [Server.next, hp] at hnext
  -- the event taken is that of the chunk at `m.seen.length + n'`, or the close
  obtain ⟨n', hn', hpick⟩ : ∃ n', catchUp s.log.events (m.seen.length + n) = m.seen.length + n' ∧
      ((n' = n ∧ s.lapses .serve = false) ∨ (n < n' ∧ n' < later.length ∧ s.lapses .serve = true)) := by
    rcases catchUp_cases s.log.events (m.seen.length + n) with ⟨hle, heq⟩ | ⟨hlt, hnext, hkept⟩
    · exact ⟨n, heq, Or.inl ⟨rfl, by rw [hlapse]; simpa using hle⟩⟩
    · have hevents : s.log.events ≤ s.log.chunks.size + 1 := by
        unfold OutputLog.events
        split <;> omega
      unfold backlog at *
      exact ⟨s.log.events - 1024 - m.seen.length, by omega,
        Or.inr ⟨by omega, by omega, by rw [hlapse]; simpa using hlt⟩⟩
  rw [hn'] at hnext
  split at hnext
  · rename_i hlt
    have hlt' : n' < later.length := by omega
    have hc : s.log.chunks[m.seen.length + n']? = some later[n'] := by
      rw [h.get, List.getElem?_append_right (Nat.le_add_right _ _), Nat.add_sub_cancel_left, List.getElem?_eq_getElem hlt']
    have hmem : later[n'] ∈ s.log.chunks.toList := by
      rw [h.chunks]
      exact List.mem_append_right _ (List.getElem_mem hlt')
    have hpicked : Picked m.flags (fell || s.lapses .serve) (later.take (n' + 1)) (live ++ wanted m.flags [later[n']]) := by
      rw [List.take_succ_eq_append_getElem hlt']
      rcases hpick with ⟨rfl, hkeep⟩ | ⟨hskip, -, hlost⟩
      · rw [hkeep, Bool.or_false]
        exact hlive.snoc _
      · have hsplit : later.take n' = later.take n ++ (later.take n').drop n := by
          have h := List.take_append_drop n (later.take n')
          rwa [List.take_take, Nat.min_eq_left (Nat.le_of_lt hskip), eq_comm] at h
        rw [hlost, Bool.or_true, hsplit]
        refine hlive.skip ?_ _
        intro hnil
        have := congrArg List.length hnil
        simp only [List.length_drop, List.length_take, List.length_nil] at this
        omega
    rw [hc, Option.some.injEq] at hnext
    have ht : Taken m (fell || s.lapses .serve) later s.log.closed (.live (m.seen.length + (n' + 1)))
        (m.history ++ (live ++ wanted m.flags [later[n']])) := .live (n' + 1) _ hm (by omega) hpicked
    rw [← List.append_assoc] at ht
    exact ⟨_, h.began hs hne hnext hmem (by simp) ht⟩
  · rename_i hge
    rcases hpick with ⟨rfl, hkeep⟩ | ⟨-, hlt, -⟩
    · split at hnext
      · rename_i hclosed
        rw [Option.some.injEq] at hnext
        rw [List.take_of_length_le (by omega)] at hlive
        rw [hkeep, Bool.or_false]
        exact ⟨_, h.finished hs hnext (.followed live hm hclosed hlive)⟩
      · cases hnext
    · omega

/-- The next event of an attach that has subscribed. -/
theorem next (h : Content m fell later taken s) (hs : s.server.sending = []) {server : Server} {out : Pipe}
    (hn : s.server.next s.log s.out = some (server, out)) :
    ∃ taken, Content m (fell || s.lapses .serve) later taken { s with server, out } := by
  have hphase := h.phase
  generalize hp : s.server.phase = phase at hphase
  cases hphase with
  | history i hi hlogs hfell =>
    have hkeep : (fell || s.lapses .serve) = false := by simp [lapses, hs, hp, hfell]
    rw [hkeep]
    subst hfell
    exact next_history hs hp h hi hlogs hn
  | live n live hm hn' hlive => exact next_live hs hp h hm hn' hlive hn
  | replayed => simp [Server.next, hp] at hn
  | followed => simp [Server.next, hp] at hn

/-- A chunk is written after the subscribe. -/
theorem push (h : Content m fell later taken s) {c : Frame} (hopen : s.log.closed = false) (hfit : c.Fits) :
    Content m fell (later ++ [c]) taken { s with log := s.log.push c } := by
  have ht := h.phase
  rw [hopen] at ht
  refine ⟨h.flags, h.tty, ?_, ?_, ?_, h.sent, h.ended, h.idle, ?_⟩
  · simp [OutputLog.push, h.chunks]
  · intro hover
    rw [(h.wasClosed hover).1] at hopen
    cases hopen
  · simpa [OutputLog.push, hopen] using ht.push c
  · intro htty x hx
    simp only [OutputLog.push, Array.toList_push, List.mem_append, List.mem_singleton] at hx
    rcases hx with hx | rfl
    · exact h.fits htty x hx
    · exact hfit

/-- The log is closed after the subscribe. -/
theorem close (h : Content m fell later taken s) : Content m fell later taken { s with log := s.log.close } := by
  refine ⟨h.flags, h.tty, h.chunks, fun hover => ⟨rfl, (h.wasClosed hover).2⟩, ?_, h.sent, h.ended, h.idle, h.fits⟩
  simpa [OutputLog.close] using h.phase.close

/-- The server makes a move. -/
theorem serve (h : Content m fell later taken s) {server : Server} {out : Pipe} (hstep : s.server.step s.log s.out = some (server, out)) :
    ∃ taken, Content m (fell || s.lapses .serve) later taken { s with server, out } := by
  have hkeep (p : Bytes) (ps : List Bytes) (hs : s.server.sending = p :: ps) : (fell || s.lapses .serve) = fell := by
    simp [lapses, hs]
  have hne (p : Bytes) (ps : List Bytes) (hs : s.server.sending = p :: ps) : s.server.phase ≠ .ended := by
    intro hp
    rw [h.idle hp] at hs
    cases hs
  have hsent := h.sent
  rcases step_cases hstep with ⟨ps, hs, rfl, rfl⟩ | ⟨p, ps, n, hs, -, hw, rfl⟩ | ⟨hclosed, -⟩ | ⟨hs, hn⟩
  · rw [hkeep _ _ hs]
    rw [hs] at hsent
    exact ⟨taken, h.flags, h.tty, h.chunks, h.wasClosed, h.phase, hsent, h.ended, fun hp => absurd hp (hne _ _ hs), h.fits⟩
  · rw [hkeep _ _ hs]
    obtain ⟨hopen, -, -, rfl⟩ := Pipe.write_took hw
    refine ⟨taken, h.flags, h.tty, h.chunks, h.wasClosed, h.phase, ?_, h.ended, fun hp => absurd hp (hne _ _ hs), h.fits⟩
    rw [← hsent, hs]
    simp only [Serving.sent, List.flatten_cons, List.append_assoc]
    rw [← List.append_assoc (p.take n), List.take_append_drop]
  · have hp := h.ended.mpr hclosed
    simp [Server.step, h.idle hp, Server.next, hp] at hstep
  · exact h.next hs hn

/-- The client reads. -/
theorem read (h : Content m fell later taken s) {n : Nat} {bs : Bytes} {out : Pipe} (hr : s.out.read n = (.data bs, out)) :
    Content m fell later taken { s with out, received := s.received ++ bs } := by
  obtain ⟨hbuf, hout, -, -⟩ := Pipe.read_data hr
  refine ⟨h.flags, h.tty, h.chunks, h.wasClosed, h.phase, ?_, ?_, h.idle, h.fits⟩
  · rw [← h.sent]
    simp [Serving.sent, hbuf]
  · rw [hout]
    exact h.ended

/-- A move of an attach that has subscribed keeps what was sent tied to the log. -/
theorem step (h : Content m fell later taken s) {a : Move} {s' : Serving} (ha : s.step a = some s')
    (hfit : ∀ c, a = .push c → c.Fits) :
    ∃ later taken, Content m (fell || s.lapses a) later taken s' := by
  cases a with
  | push c =>
    simp only [Serving.step] at ha
    split at ha
    · cases ha
    · rename_i hopen
      cases ha
      exact ⟨_, _, by simpa [lapses] using h.push (by simpa using hopen) (hfit c rfl)⟩
  | close =>
    simp only [Serving.step] at ha
    split at ha
    · cases ha
    · cases ha
      exact ⟨_, _, by simpa [lapses] using h.close⟩
  | serve =>
    simp only [Serving.step, Option.map_eq_some_iff] at ha
    obtain ⟨⟨server, out⟩, hstep, rfl⟩ := ha
    exact ⟨later, h.serve hstep⟩
  | read n =>
    simp only [Serving.step] at ha
    split at ha
    · rename_i bs out hr
      cases ha
      exact ⟨_, _, by simpa [lapses] using h.read hr⟩
    · cases ha

end Content

end Serving

end JobPlane
