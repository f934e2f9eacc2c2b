import JobPlane.Proofs.Frame.Routes
import JobPlane.Proofs.Moves
import JobPlane.Proofs.Stream.Feed

/-!
# A pump with its readers

A pump that splits frames, with a source that is laid down to its end and with two readers, each of which reads as it likes and may go
away at any moment. `Splitting.routed` says what the readers get, in whatever order the pump and the readers move.
-/

namespace JobPlane

/-! ## How much is left to do -/

/-- The bytes of the frame that a reader is at. -/
def FrameReader.size : FrameReader → Nat
  | header got => got.length
  | payload _ _ got => Frame.headerLength + got.length

/-- What is held of a frame that needs more, or in one that is complete. -/
def FrameReader.Progress.size : FrameReader.Progress → Nat
  | .more r => r.size
  | .complete f => f.payload.length

/-- Nothing is held that did not come in. -/
theorem FrameReader.size_of_take {r : FrameReader} {bs : Bytes} {p : FrameReader.Progress} (h : r.take bs = .ok p) :
    p.size ≤ r.size + bs.length := by
  have hsettle : ∀ kind length got, (settle (payload kind length got)).size ≤ Frame.headerLength + got.length := by
    intro kind length got
    simp only [settle]
    split
    · exact Nat.le_add_left _ _
    · exact Nat.le_refl _
  cases r with
  | header got =>
    simp only [take] at h
    split at h
    · cases h
      simp [Progress.size, size]
    · rename_i hlong
      rw [List.length_append] at hlong
      generalize (got ++ bs).headD 0 = tag at h
      cases hkind : OutputKind.ofTag tag with
      | error e =>
        rw [hkind] at h
        cases h
      | ok kind =>
        rw [hkind] at h
        cases h
        have hle := hsettle kind (Bytes.toLength ((got ++ bs).drop 4)) []
        rw [List.length_nil] at hle
        simp only [size]
        omega
  | payload kind length got =>
    cases h
    have hle := hsettle kind length (got ++ bs)
    rw [List.length_append] at hle
    simp only [size]
    omega

namespace Splitter

variable {s s' : Splitter} {k : OutputKind}

/-- The bytes in the pipes. -/
def buffered (s : Splitter) : Nat := s.stdout.pipe.buffer.length + s.stderr.pipe.buffer.length

/-- How much a pump and its pipes still have to do with what was read: a byte of a frame that is not complete goes on to the pump, from
there to its pipe, and from there to its reader. -/
def work (s : Splitter) : Nat :=
  s.buffered + match s.phase with
    | .reading r => 3 * r.size + 1
    | .writing _ rest => 2 * rest.length + 1
    | .ended _ => 0

/-- The bytes in the pipes after a change of one of them. -/
theorem buffered_setLane (s : Splitter) (k : OutputKind) (l : SplitLane) :
    (s.setLane k l).buffered + (s.lane k).pipe.buffer.length = s.buffered + l.pipe.buffer.length := by
  cases k <;> simp only [setLane, buffered, lane] <;> omega

/-- The bytes in the pipes are not a matter of what the pump does next. -/
@[simp] theorem buffered_with_phase (s : Splitter) (p : PumpPhase) : { s with phase := p }.buffered = s.buffered := rfl

@[simp] theorem buffered_finish (s : Splitter) (r : Except StreamError Unit) : (s.finish r).buffered = s.buffered := rfl

/-- The number of bytes that a read brought, if there was one. -/
def brought : Option Reading → Nat
  | some (.data bs) => bs.length
  | _ => 0

/-- Every move of a pump leaves it less to do, but for what it reads. -/
theorem Turn.work_lt {r : Option Reading} (h : s.Turn r s') (hdata : ∀ bs, r = some (.data bs) → bs ≠ [])
    (hwriting : ∀ k rest, s.phase = .writing k rest → rest ≠ []) :
    s'.work < s.work + 4 * brought r := by
  cases h with
  | @more r r' bs hp hb htake =>
    have hsize := FrameReader.size_of_take htake
    have hpos := List.length_pos_iff.mpr (hdata bs rfl)
    simp only [FrameReader.Progress.size] at hsize
    simp only [work, hp, buffered_with_phase, brought]
    omega
  | @complete r bs f hp hb htake =>
    have hsize := FrameReader.size_of_take htake
    have hpos := List.length_pos_iff.mpr (hdata bs rfl)
    simp only [FrameReader.Progress.size] at hsize
    rcases s.pass_cases f with ⟨-, -, heq⟩ | ⟨-, heq⟩
    · simp only [heq, work, hp, buffered_with_phase, brought]
      omega
    · simp only [heq, work, hp, buffered_with_phase, FrameReader.size, FrameReader.fresh, List.length_nil, brought]
      omega
  | unknown hp hb htake =>
    simp only [work, hp, buffered_finish, phase_finish]
    omega
  | ceased hp =>
    simp only [work, hp, buffered_finish, phase_finish]
    omega
  | broken hp =>
    simp only [work, hp, buffered_finish, phase_finish]
    omega
  | @put k rest n hp hopen hpos =>
    have hrest := hwriting k rest hp
    have hn := hpos hrest
    have hlength := List.length_pos_iff.mpr hrest
    have hbuffered := s.buffered_setLane k
      { s.lane k with pipe := { (s.lane k).pipe with buffer := (s.lane k).pipe.buffer ++ rest.take n } }
    simp only [List.length_append, List.length_take] at hbuffered
    by_cases hall : (rest.drop n).isEmpty = true
    · have hle := List.drop_eq_nil_iff.mp (List.isEmpty_iff.mp hall)
      simp only [work, hp, buffered_with_phase, if_pos hall, FrameReader.size, FrameReader.fresh, List.length_nil]
      omega
    · simp only [work, hp, buffered_with_phase, if_neg hall, List.length_drop]
      omega
  | @lose k rest hp hclosed =>
    have hlength := List.length_pos_iff.mpr (hwriting k rest hp)
    have hbuffered := s.buffered_setLane k { s.lane k with live := false }
    simp only at hbuffered
    rcases s.lose_cases k with heq | heq
    · simp only [heq, work, hp, buffered_with_phase, FrameReader.size, FrameReader.fresh, List.length_nil]
      omega
    · simp only [heq, work, hp, buffered_finish, phase_finish]
      omega

/-! ## What came in -/

/-- How a pump ends that somebody reads: at a tag that no stream has, else as its source ends or fails, which is a failure inside a
frame. -/
def outcome (input : Bytes × Except StreamError Unit) : Except StreamError Unit :=
  match (Frame.parse input.1).2, input.2 with
  | .error (.unknownTag t), _ => .error (.unknownTag t)
  | r, .ok () => r
  | _, .error e => .error e

variable {i : Intake} {frames : List Frame} {all later : Bytes × Except StreamError Unit}

/-- A pump that has ended while somebody read has had all frames of its source, and ended as they do. -/
theorem Paces.of_ended {r : Except StreamError Unit} (h : Paces (.ended r) i frames) (hreads : Feed.Reads i all later) :
    (Frame.parse all.1).1 = frames ∧ r = outcome all := by
  unfold Feed.Reads at hreads
  rcases h with ⟨hstop, hparse⟩ | ⟨e, fr, hstop, rfl, hparse⟩ | ⟨hstop, t, rfl, hparse⟩
  · rw [hstop] at hreads
    subst hreads
    refine ⟨by rw [hparse], ?_⟩
    unfold outcome
    rw [hparse]
    split
    · assumption
    · rfl
    · rename_i hended _
      cases hended
  · rw [hstop] at hreads
    subst hreads
    refine ⟨by rw [hparse], ?_⟩
    unfold outcome
    rw [hparse]
    -- a frame that is cut off is no unknown tag
    cases fr with
    | header got => cases got <;> rfl
    | payload kind length got => rfl
  · rw [hstop] at hreads
    subst hreads
    refine ⟨by rw [hparse], ?_⟩
    unfold outcome
    rw [hparse]

/-- The frames that a pump has had come first in its source. -/
theorem Paces.prefix_parse {p : PumpPhase} (h : Paces p i frames) (hreads : Feed.Reads i all later) :
    frames <+: (Frame.parse all.1).1 := by
  unfold Feed.Reads at hreads
  cases p with
  | reading r =>
    rw [h.2] at hreads
    rw [hreads]
    exact h.1.prefix_parse later.1
  | writing k rest =>
    rw [h.2] at hreads
    rw [hreads]
    exact h.1.prefix_parse later.1
  | ended r => exact (Paces.of_ended h hreads).1 ▸ List.prefix_refl frames

end Splitter

/-! ## The system -/

/-- A pump with its source and the readers of its pipes. -/
structure Splitting where
  split : SplitFeed
  readers : OutputKind → Receiver := fun _ => {}

namespace Splitting

/-- A pump that has not begun, with a source that is laid down to its end. -/
def start (arrivals : List Arrival) : Splitting := { split := { feed := ⟨arrivals, true⟩ } }

/-- One move of the pump or of a reader. -/
inductive Move
  | pump
  /-- A reader reads at most `n` bytes. -/
  | read (k : OutputKind) (n : Nat)
  /-- A reader goes away. -/
  | leave (k : OutputKind)

/-- Puts a reader in the place of one. -/
def setReader (s : Splitting) (k : OutputKind) (r : Receiver) : OutputKind → Receiver := fun k' => if k' = k then r else s.readers k'

/-- Makes a move, where it is possible and changes something. -/
def step (s : Splitting) : Move → Option Splitting
  | .pump => (s.split.step ()).map fun split => { s with split }
  | .read k n =>
    if n = 0 ∨ (s.readers k).gone = true ∨ (s.readers k).ended = true then none
    else match (s.split.splitter.lane k).pipe.read n with
      | (.waiting, _) => none
      | (got, pipe) =>
        some {
          split := { s.split with splitter := s.split.splitter.mapPipe k fun _ => pipe }
          readers := s.setReader k ((s.readers k).note got) }
  | .leave k =>
    if (s.readers k).gone then none
    else
      some {
        split := { s.split with splitter := s.split.splitter.mapPipe k Pipe.abandon }
        readers := s.setReader k { s.readers k with gone := true } }

/-- The moves of a pump and its readers, told apart by what they do. -/
inductive Turn (s : Splitting) : Splitting → Prop
  /-- The pump reads. -/
  | took {r : Reading} {n : Nat} {splitter : Splitter} {feed : Feed} (ht : s.split.splitter.Turn (some r) splitter)
      (hread : s.split.feed.read n = (r, feed)) (hn : ∀ fr, s.split.splitter.phase = .reading fr → n = fr.wants) :
      Turn s { s with split := { splitter, feed } }
  /-- The pump writes, or finds a reader gone. -/
  | gave {splitter : Splitter} (ht : s.split.splitter.Turn none splitter) : Turn s { s with split := { s.split with splitter } }
  /-- A reader receives bytes. -/
  | received {k : OutputKind} {bs later : Bytes} (hthere : (s.readers k).gone = false) (hgoing : (s.readers k).ended = false)
      (hb : (s.split.splitter.lane k).pipe.buffer = bs ++ later) (hne : bs ≠ []) :
      Turn s {
        split := { s.split with splitter := s.split.splitter.mapPipe k fun p => { p with buffer := later } }
        readers := s.setReader k { s.readers k with received := (s.readers k).received ++ bs } }
  /-- A reader finds the end of input. -/
  | found {k : OutputKind} (hthere : (s.readers k).gone = false) (hgoing : (s.readers k).ended = false)
      (hclosed : (s.split.splitter.lane k).pipe.closed = true) (hb : (s.split.splitter.lane k).pipe.buffer = []) :
      Turn s { s with readers := s.setReader k { s.readers k with ended := true } }
  /-- A reader goes away. -/
  | left {k : OutputKind} (hthere : (s.readers k).gone = false) :
      Turn s {
        split := { s.split with splitter := s.split.splitter.mapPipe k Pipe.abandon }
        readers := s.setReader k { s.readers k with gone := true } }

variable {s s' : Splitting} {m : Move}

/-- Every move is one of those. -/
theorem turn_of_step (h : s.step m = some s') : s.Turn s' := by
  cases m with
  | pump =>
    obtain ⟨split, hsplit, rfl⟩ := Option.map_eq_some_iff.mp h
    obtain ⟨⟨splitter, feed⟩, hstep, rfl⟩ := Option.map_eq_some_iff.mp hsplit
    rcases Splitter.turn_of_step hstep with ⟨r, n, hturn, hread, hn⟩ | ⟨hturn, rfl⟩
    · exact .took hturn hread hn
    · exact .gave hturn
  | read k n =>
    simp only [step] at h
    split at h
    · cases h
    · rename_i hmay
      simp only [not_or, Bool.not_eq_true] at hmay
      obtain ⟨hn, hthere, hgoing⟩ := hmay
      cases hread : (s.split.splitter.lane k).pipe.read n with
      | mk got pipe =>
        rw [hread] at h
        cases got with
        | data bs =>
          cases h
          obtain ⟨hb, hpipe, -, -⟩ := Pipe.read_data hread
          have hsame : (s.split.splitter.mapPipe k fun _ => pipe) =
              s.split.splitter.mapPipe k fun p => { p with buffer := pipe.buffer } := by
            refine Splitter.mapPipe_congr ?_
            rw [hpipe]
          rw [hsame]
          exact .received hthere hgoing hb (LawfulReadable.ne_nil (σ := Pipe) (by omega) hread)
        | eof =>
          cases h
          obtain ⟨hclosed, hb, rfl⟩ := Pipe.read_eof hread
          rw [Splitter.mapPipe_same]
          exact .found hthere hgoing hclosed hb
        | failed e => exact absurd hread Pipe.read_ne_failed
        | waiting => cases h
  | leave k =>
    simp only [step] at h
    split at h
    · cases h
    · rename_i hthere
      cases h
      exact .left (by simpa using hthere)

/-! ## What readers get -/

section

variable {k : OutputKind} {r : Receiver}

/-- What the readers have received after a change of one of them. -/
theorem received_setReader (s : Splitting) (k : OutputKind) (r : Receiver) :
    (fun k' => (s.setReader k r k').received) = fun k' => if k' = k then r.received else (s.readers k').received := by
  funext k'
  unfold setReader
  split <;> rfl

/-- Which readers have gone after a change of one of them. -/
theorem gone_setReader (s : Splitting) (k : OutputKind) (r : Receiver) :
    (fun k' => (s.setReader k r k').gone) = fun k' => if k' = k then r.gone else (s.readers k').gone := by
  funext k'
  unfold setReader
  split <;> rfl

/-- A change of a reader that changes nothing of what is looked at. -/
theorem ite_same {β : Type} {f : OutputKind → β} {b : β} (h : b = f k) : (fun k' => if k' = k then b else f k') = f := by
  funext k'
  split
  · rename_i heq
    rw [heq, h]
  · rfl

end

/-- What holds of a pump and its readers at any moment, with what was read of the source and the frames that came in for somebody. -/
structure Kept (arrivals : List Arrival) (s : Splitting) (i : Splitter.Intake) (frames : List Frame) : Prop where
  reads : ∃ later, s.split.feed = ⟨later, true⟩ ∧ Feed.Reads i (Feed.input arrivals) (Feed.input later)
  stop : (∀ r, s.split.splitter.phase ≠ .ended r) → i.stop = none
  had : frames <+: (Frame.parse (Feed.input arrivals).1).1
  received : ∀ k, (s.readers k).received <+: Frame.payloads k frames
  /-- As long as somebody is there, payloads are accounted for. -/
  shares : (∀ k, (s.readers k).gone = true) ∨
    s.split.splitter.Shares i frames (fun k => (s.readers k).received) fun k => (s.readers k).gone
  /-- What a reader was left with at the end of its input. -/
  ended : ∀ k, (s.readers k).ended = true → (s.readers k).received = Frame.payloads k frames ∧
    ∃ r, s.split.splitter.phase = .ended r ∧ Splitter.Paces (.ended r) i frames
  /-- A pipe is closed once its reader is gone or the pump is over. -/
  left : ∀ k, (s.readers k).gone = true → (s.split.splitter.lane k).pipe.closed = true
  closed : ∀ r, s.split.splitter.phase = .ended r → ∀ k, (s.split.splitter.lane k).pipe.closed = true
  /-- The pump never reads, writes, or waits in vain. -/
  wanting : ∀ r, s.split.splitter.phase = .reading r → 0 < r.wants
  writing : ∀ k rest, s.split.splitter.phase = .writing k rest → rest ≠ []
  capacity : ∀ k, 0 < (s.split.splitter.lane k).pipe.capacity

namespace Kept

variable {arrivals : List Arrival} {i : Splitter.Intake} {frames : List Frame} {k : OutputKind}

/-- A pump that has not begun. -/
theorem start (arrivals : List Arrival) : Kept arrivals (Splitting.start arrivals) {} [] where
  reads := ⟨arrivals, rfl, rfl⟩
  stop _ := rfl
  had := List.nil_prefix
  received _ := List.nil_prefix
  shares := Or.inr (Splitter.Routes.iff_shares.mp .start)
  ended _ h := by cases h
  left _ h := by cases h
  closed _ h := by cases h
  wanting r h := by
    cases h
    decide
  writing _ _ h := by cases h
  capacity k := by cases k <;> exact Nat.succ_pos _

/-- While a reader is there, payloads are accounted for. -/
theorem shares_of_there (h : Kept arrivals s i frames) (hthere : (s.readers k).gone = false) :
    s.split.splitter.Shares i frames (fun k => (s.readers k).received) fun k => (s.readers k).gone := by
  rcases h.shares with hgone | hshares
  · rw [hgone k] at hthere
    cases hthere
  · exact hshares

/-- A move of the pump keeps what holds, with what it has read then. -/
theorem pump {r : Option Reading} {splitter : Splitter} {feed : Feed} (h : Kept arrivals s i frames)
    (ht : s.split.splitter.Turn r splitter)
    (hreads : ∃ later, feed = ⟨later, true⟩ ∧ Feed.Reads ((r.map i.note).getD i) (Feed.input arrivals) (Feed.input later)) :
    ∃ frames', Kept arrivals { s with split := { splitter, feed } } ((r.map i.note).getD i) frames' := by
  have hgoing : ∀ p, s.split.splitter.phase ≠ .ended p := ht.phase_ne_ended
  have hnobody : ∀ k, (s.readers k).ended = false := by
    intro k
    cases hended : (s.readers k).ended with
    | false => rfl
    | true =>
      obtain ⟨-, p, hp, -⟩ := h.ended k hended
      exact absurd hp (hgoing p)
  have hstop : (∀ p, splitter.phase ≠ .ended p) → ((r.map i.note).getD i).stop = none := by
    intro hp
    cases r with
    | none => exact h.stop hgoing
    | some got =>
      obtain ⟨bs, rfl⟩ := ht.data_of_moving hp
      exact h.stop hgoing
  obtain ⟨frames', hhad, hreceived, hshares⟩ : ∃ frames', frames' <+: (Frame.parse (Feed.input arrivals).1).1 ∧
      (∀ k, (s.readers k).received <+: Frame.payloads k frames') ∧
      ((∀ k, (s.readers k).gone = true) ∨ splitter.Shares ((r.map i.note).getD i) frames' (fun k => (s.readers k).received)
        fun k => (s.readers k).gone) := by
    by_cases hall : ∀ k, (s.readers k).gone = true
    · exact ⟨frames, h.had, h.received, Or.inl hall⟩
    · obtain ⟨k, hk⟩ := Classical.not_forall.mp hall
      have hthere : (s.readers k).gone = false := by simpa using hk
      obtain ⟨frames', hshares⟩ := (h.shares_of_there hthere).turn ht hthere
      obtain ⟨later, -, hlater⟩ := hreads
      exact ⟨frames', hshares.paces.prefix_parse hlater, hshares.taken, Or.inr hshares⟩
  refine ⟨frames', { reads := hreads, stop := hstop, had := hhad, received := hreceived, shares := hshares, ended := ?_, left := ?_,
                     closed := ?_, wanting := fun fr hfr => ht.wants_pos hfr, writing := fun k rest hw => ht.writing_ne_nil hw,
                     capacity := ?_ }⟩
  · intro k hended
    rw [hnobody k] at hended
    cases hended
  · exact fun k hk => (ht.lane k).2.1 (h.left k hk)
  · exact fun p hp k => (ht.lane k).2.2 p hp
  · intro k
    rw [(ht.lane k).1]
    exact h.capacity k

/-- A reader that receives bytes keeps what holds. -/
theorem receive {bs later : Bytes} (h : Kept arrivals s i frames) (hthere : (s.readers k).gone = false)
    (hgoing : (s.readers k).ended = false) (hb : (s.split.splitter.lane k).pipe.buffer = bs ++ later) :
    Kept arrivals
      { split := { s.split with splitter := s.split.splitter.mapPipe k fun p => { p with buffer := later } }
        readers := s.setReader k { s.readers k with received := (s.readers k).received ++ bs } } i frames := by
  have hshares := (h.shares_of_there hthere).draw hthere hb
  have hout := s.received_setReader k { s.readers k with received := (s.readers k).received ++ bs }
  have hgone : (fun k' => (s.setReader k { s.readers k with received := (s.readers k).received ++ bs } k').gone) =
      fun k' => (s.readers k').gone := (s.gone_setReader k _).trans (ite_same rfl)
  rw [← hout, ← hgone] at hshares
  have hlane : ∀ k', ((s.split.splitter.mapPipe k fun p => { p with buffer := later }).lane k').pipe.closed =
      (s.split.splitter.lane k').pipe.closed ∧
      ((s.split.splitter.mapPipe k fun p => { p with buffer := later }).lane k').pipe.capacity =
        (s.split.splitter.lane k').pipe.capacity := by
    intro k'
    rw [Splitter.lane_mapPipe]
    split
    · rename_i heq
      subst heq
      exact ⟨rfl, rfl⟩
    · exact ⟨rfl, rfl⟩
  refine { reads := h.reads, stop := by simpa using h.stop, had := h.had, received := hshares.taken, shares := Or.inr hshares,
           ended := ?_, left := ?_, closed := ?_, wanting := by simpa using h.wanting, writing := by simpa using h.writing,
           capacity := fun k' => (hlane k').2 ▸ h.capacity k' }
  · intro k' hended
    by_cases heq : k' = k
    · subst heq
      simp [setReader, hgoing] at hended
    · simpa [setReader, heq] using h.ended k' (by simpa [setReader, heq] using hended)
  · intro k' hk'
    rw [(hlane k').1]
    exact h.left k' ((congrFun hgone k').symm.trans hk')
  · intro r hr k'
    rw [(hlane k').1]
    exact h.closed r (by simpa using hr) k'

/-- A reader that finds the end of its input has received all payloads of its stream. -/
theorem find (h : Kept arrivals s i frames) (hthere : (s.readers k).gone = false)
    (hclosed : (s.split.splitter.lane k).pipe.closed = true) (hb : (s.split.splitter.lane k).pipe.buffer = []) :
    Kept arrivals { s with readers := s.setReader k { s.readers k with ended := true } } i frames := by
  have hshares := h.shares_of_there hthere
  obtain ⟨r, hr⟩ := hshares.closed k hthere hclosed
  have hpaces := hshares.paces
  rw [hr] at hpaces
  have hall : (s.readers k).received = Frame.payloads k frames := by
    have hconserved := hshares.conserved k hthere
    rw [hb] at hconserved
    simpa [Splitter.held, hr] using hconserved.symm
  have hout : (fun k' => (s.setReader k { s.readers k with ended := true } k').received) = fun k' => (s.readers k').received :=
    (s.received_setReader k _).trans (ite_same rfl)
  have hgone : (fun k' => (s.setReader k { s.readers k with ended := true } k').gone) = fun k' => (s.readers k').gone :=
    (s.gone_setReader k _).trans (ite_same rfl)
  refine { h with received := fun k' => (congrFun hout k').symm ▸ h.received k', shares := Or.inr ?_, ended := ?_,
                  left := fun k' hk' => h.left k' ((congrFun hgone k').symm.trans hk') }
  · rw [hout, hgone]
    exact hshares
  · intro k' hended
    by_cases heq : k' = k
    · subst heq
      simpa [setReader] using ⟨hall, r, hr, hpaces⟩
    · simpa [setReader, heq] using h.ended k' (by simpa [setReader, heq] using hended)

/-- A reader that goes away keeps what holds. -/
theorem leave (h : Kept arrivals s i frames) (hthere : (s.readers k).gone = false) :
    Kept arrivals
      { split := { s.split with splitter := s.split.splitter.mapPipe k Pipe.abandon }
        readers := s.setReader k { s.readers k with gone := true } } i frames := by
  have hshares := (h.shares_of_there hthere).leave k
  have hout : (fun k' => (s.setReader k { s.readers k with gone := true } k').received) = fun k' => (s.readers k').received :=
    (s.received_setReader k _).trans (ite_same rfl)
  have hgone := s.gone_setReader k { s.readers k with gone := true }
  rw [← hout, ← hgone] at hshares
  have hlane : ∀ k', ((s.split.splitter.mapPipe k Pipe.abandon).lane k').pipe.capacity = (s.split.splitter.lane k').pipe.capacity ∧
      ((s.split.splitter.lane k').pipe.closed = true → ((s.split.splitter.mapPipe k Pipe.abandon).lane k').pipe.closed = true) ∧
      ((s.split.splitter.mapPipe k Pipe.abandon).lane k).pipe.closed = true := by
    intro k'
    rw [Splitter.lane_mapPipe, Splitter.lane_mapPipe, if_pos rfl]
    split
    · rename_i heq
      subst heq
      exact ⟨rfl, fun _ => rfl, rfl⟩
    · exact ⟨rfl, id, rfl⟩
  refine { reads := h.reads, stop := by simpa using h.stop, had := h.had, received := hshares.taken, shares := Or.inr hshares,
           ended := ?_, left := ?_, closed := ?_, wanting := by simpa using h.wanting, writing := by simpa using h.writing,
           capacity := fun k' => (hlane k').1 ▸ h.capacity k' }
  · intro k' hended
    have hreceived := congrFun hout k'
    have hsame : (s.setReader k { s.readers k with gone := true } k').ended = (s.readers k').ended := by
      unfold setReader
      split
      · rename_i heq
        rw [heq]
      · rfl
    simp only at hreceived hended ⊢
    rw [hreceived]
    simpa using h.ended k' (hsame.symm.trans hended)
  · intro k' hk'
    by_cases heq : k' = k
    · rw [heq]
      exact (hlane k).2.2
    · exact (hlane k').2.1 (h.left k' (by simpa [setReader, heq] using hk'))
  · exact fun r hr k' => (hlane k').2.1 (h.closed r (by simpa using hr) k')

/-- Every turn keeps what holds. -/
theorem turn (h : Kept arrivals s i frames) (ht : s.Turn s') : ∃ i' frames', Kept arrivals s' i' frames' := by
  cases ht with
  | @took r n splitter feed ht hread hn =>
    obtain ⟨later, hfeed, hlater⟩ := h.reads
    obtain ⟨later', hlater', htakes⟩ := Feed.read_input n later
    rw [hfeed] at hread
    rw [hread] at hlater' htakes
    have hreads : Feed.Reads (i.note r) (Feed.input arrivals) (Feed.input later') :=
      hlater.read (h.stop ht.phase_ne_ended) htakes
    obtain ⟨frames', hkept⟩ := h.pump ht ⟨later', hlater', hreads⟩
    exact ⟨_, frames', hkept⟩
  | gave ht =>
    obtain ⟨frames', hkept⟩ := h.pump ht h.reads
    exact ⟨_, frames', hkept⟩
  | received hthere hgoing hb hne => exact ⟨i, frames, h.receive hthere hgoing hb⟩
  | found hthere hgoing hclosed hb => exact ⟨i, frames, h.find hthere hclosed hb⟩
  | left hthere => exact ⟨i, frames, h.leave hthere⟩

/-- A reader that has found the end of its input has received all payloads that the source had for it, and the pump has ended as the
source does. -/
theorem all_of_ended (h : Kept arrivals s i frames) (hended : (s.readers k).ended = true) :
    (s.readers k).received = Frame.payloads k (Frame.parse (Feed.input arrivals).1).1 ∧
      s.split.splitter.phase = .ended (Splitter.outcome (Feed.input arrivals)) := by
  obtain ⟨hall, r, hr, hpaces⟩ := h.ended k hended
  obtain ⟨later, -, hreads⟩ := h.reads
  obtain ⟨hframes, rfl⟩ := hpaces.of_ended hreads
  exact ⟨by rw [hframes, hall], hr⟩

/-- A pump that has ended while somebody was there has ended as its source does. -/
theorem result_eq (h : Kept arrivals s i frames) (hthere : (s.readers k).gone = false) {r : Except StreamError Unit}
    (hr : s.split.splitter.phase = .ended r) : r = Splitter.outcome (Feed.input arrivals) := by
  have hpaces := (h.shares_of_there hthere).paces
  rw [hr] at hpaces
  obtain ⟨later, -, hreads⟩ := h.reads
  exact (hpaces.of_ended hreads).2

/-- A pump that cannot move is over, or its pipe is full. -/
theorem stuck (h : Kept arrivals s i frames) (hpump : s.step .pump = none) :
    (∃ r, s.split.splitter.phase = .ended r) ∨
      ∃ k rest, s.split.splitter.phase = .writing k rest ∧ (s.split.splitter.lane k).pipe.closed = false ∧
        (s.split.splitter.lane k).pipe.room = 0 := by
  simp only [Splitting.step, SplitFeed.step, Option.map_eq_none_iff] at hpump
  unfold Splitter.step at hpump
  split at hpump
  · -- the source has something, or its end
    rename_i fr hp
    obtain ⟨later, hfeed, -⟩ := h.reads
    obtain ⟨later', hlater', htakes⟩ := Feed.read_input fr.wants later
    rw [hfeed] at hpump
    cases hsrc : Feed.read fr.wants ⟨later, true⟩ with
    | mk got feed =>
      rw [hsrc] at htakes
      simp only [Readable.read, hsrc, Option.map_eq_none_iff] at hpump
      cases got with
      | waiting => exact htakes.elim
      | eof => cases hpump
      | failed e => cases hpump
      | data bs =>
        simp only [Splitter.take] at hpump
        split at hpump <;> cases hpump
  · rename_i k rest hp
    cases hwrite : (s.split.splitter.lane k).pipe.write rest with
    | mk came pipe =>
      simp only [hwrite] at hpump
      cases came with
      | took n => cases hpump
      | failed e => cases hpump
      | waiting => exact Or.inr ⟨k, rest, hp, Pipe.write_waiting hwrite⟩
  · rename_i r hp
    exact Or.inl ⟨r, hp⟩

/-- Where nothing moves any more, every reader that is there has found the end of its input. -/
theorem ended_of_atRest (h : Kept arrivals s i frames) (hrest : AtRest Splitting.step [.pump, .read .stdout 1, .read .stderr 1] s)
    (hthere : (s.readers k).gone = false) : (s.readers k).ended = true := by
  have hread : ∀ k, (s.readers k).gone = false → (s.readers k).ended = false →
      (s.split.splitter.lane k).pipe.closed = false ∧ (s.split.splitter.lane k).pipe.buffer = [] := by
    intro k hthere hgoing
    have hnone := hrest (.read k 1) (by cases k <;> simp)
    simp only [Splitting.step, hthere, hgoing] at hnone
    cases hpipe : (s.split.splitter.lane k).pipe.read 1 with
    | mk got pipe =>
      simp only [hpipe] at hnone
      cases got with
      | waiting => exact Pipe.read_waiting hpipe
      | data bs => simp at hnone
      | eof => simp at hnone
      | failed e => simp at hnone
  cases hgoing : (s.readers k).ended with
  | true => rfl
  | false =>
    obtain ⟨hopen, -⟩ := hread k hthere hgoing
    rcases h.stuck (hrest .pump (by simp)) with ⟨r, hp⟩ | ⟨k', rest, hp, hopen', hfull⟩
    · rw [h.closed r hp k] at hopen
      cases hopen
    · -- a full pipe has something for its reader
      have hthere' : (s.readers k').gone = false := by
        cases hgone : (s.readers k').gone with
        | false => rfl
        | true =>
          rw [h.left k' hgone] at hopen'
          cases hopen'
      have hgoing' : (s.readers k').ended = false := by
        cases hended : (s.readers k').ended with
        | false => rfl
        | true =>
          obtain ⟨-, r, hr, -⟩ := h.ended k' hended
          rw [hp] at hr
          cases hr
      obtain ⟨-, hempty⟩ := hread k' hthere' hgoing'
      have hcapacity := h.capacity k'
      rw [Pipe.room, hempty, List.length_nil] at hfull
      omega

end Kept

/-! ## How long a schedule can be -/

/-- How many things a reader can still do but receive bytes: find the end of its input, and go away. -/
def due (r : Receiver) : Nat := (if r.gone then 0 else 1) + if r.gone || r.ended then 0 else 1

/-- The bytes that a pump can still read. -/
def unread (s : SplitFeed) : Nat := if s.splitter.running then (Feed.input s.feed.coming).1.length else 0

/-- How much a pump and its readers still have to do. -/
def work (s : Splitting) : Nat :=
  4 * unread s.split + s.split.splitter.work + (due (s.readers .stdout) + due (s.readers .stderr))

/-- What readers can still do after a change of one of them. -/
theorem due_setReader (s : Splitting) (k : OutputKind) (r : Receiver) :
    due (s.setReader k r .stdout) + due (s.setReader k r .stderr) + due (s.readers k) =
      due (s.readers .stdout) + due (s.readers .stderr) + due r := by
  cases k <;> simp [setReader] <;> omega

/-- What a pump has to do after a change of a pipe, but for the bytes in the pipes. -/
theorem work_mapPipe (s : Splitter) (k : OutputKind) (f : Pipe → Pipe) :
    (s.mapPipe k f).work + (s.lane k).pipe.buffer.length = s.work + (f (s.lane k).pipe).buffer.length := by
  have hbuffered := s.buffered_setLane k { s.lane k with pipe := f (s.lane k).pipe }
  rw [Splitter.mapPipe]
  simp only [Splitter.work, Splitter.phase_setLane]
  dsimp only at hbuffered
  omega

/-- A change of a pipe is not a matter of what a pump can still read. -/
theorem unread_mapPipe (s : SplitFeed) (k : OutputKind) (f : Pipe → Pipe) :
    unread { s with splitter := s.splitter.mapPipe k f } = unread s := by
  have hrunning : (s.splitter.mapPipe k f).running = s.splitter.running := by
    unfold Splitter.running
    rw [Splitter.phase_mapPipe]
  unfold unread
  rw [hrunning]

/-- A pump that has ended reads nothing more, and one that goes on has read bytes of its source. -/
theorem unread_of_turn {splitter : Splitter} {feed : Feed} {r : Reading} {later later' : List Arrival}
    (ht : s.split.splitter.Turn (some r) splitter) (hfeed : s.split.feed = ⟨later, true⟩) (hfeed' : feed = ⟨later', true⟩)
    (htakes : Feed.Takes (Feed.input later) r (Feed.input later')) :
    unread { splitter, feed } + Splitter.brought (some r) ≤ unread s.split := by
  obtain ⟨fr, hp⟩ := ht.phase_of_read
  have hbefore : unread s.split = (Feed.input later).1.length := by simp [unread, Splitter.running, hp, hfeed]
  have hended : (∀ bs, r ≠ .data bs) → unread { splitter, feed } = 0 := by
    intro hnone
    have hover : ¬∀ p, splitter.phase ≠ .ended p := by
      intro hmoving
      obtain ⟨bs, hbs⟩ := ht.data_of_moving hmoving
      exact hnone bs hbs
    obtain ⟨p, hp'⟩ := Classical.not_forall.mp hover
    simp [unread, Splitter.running, Classical.not_not.mp hp']
  rw [hbefore]
  cases r with
  | data bs =>
    have htakes : Feed.input later = (bs ++ (Feed.input later').1, (Feed.input later').2) := htakes
    have hless : unread { splitter, feed } ≤ (Feed.input later').1.length := by
      subst hfeed'
      unfold unread
      split
      · exact Nat.le_refl _
      · exact Nat.zero_le _
    rw [htakes, List.length_append, Splitter.brought]
    omega
  | eof =>
    rw [hended (by simp)]
    exact Nat.zero_le _
  | failed e =>
    rw [hended (by simp)]
    exact Nat.zero_le _
  | waiting => exact htakes.elim

/-- Every turn leaves less to do. -/
theorem Kept.work_lt {arrivals : List Arrival} {i : Splitter.Intake} {frames : List Frame} (h : Kept arrivals s i frames)
    (ht : s.Turn s') : s'.work < s.work := by
  cases ht with
  | @took r n splitter feed ht hread hn =>
    obtain ⟨later, hfeed, -⟩ := h.reads
    obtain ⟨later', hlater', htakes⟩ := Feed.read_input n later
    obtain ⟨fr, hp⟩ := ht.phase_of_read
    have hpos : 0 < n := hn fr hp ▸ h.wanting fr hp
    have hdata : ∀ bs, some r = some (.data bs) → bs ≠ [] := by
      rintro bs ⟨⟩
      exact LawfulReadable.ne_nil (σ := Feed) hpos hread
    have hless := ht.work_lt hdata h.writing
    rw [hfeed] at hread
    rw [hread] at hlater' htakes
    have hunread : unread { splitter, feed } + Splitter.brought (some r) ≤ unread s.split := unread_of_turn ht hfeed hlater' htakes
    dsimp only [work]
    omega
  | @gave splitter ht =>
    have hless := ht.work_lt (by simp) h.writing
    have hunread : unread { s.split with splitter } ≤ unread s.split := by
      simp only [unread, ht.running, if_true]
      split
      · exact Nat.le_refl _
      · exact Nat.zero_le _
    dsimp only [work, Splitter.brought] at hless hunread ⊢
    omega
  | @received k bs later hthere hgoing hb hne =>
    have hdue := s.due_setReader k { s.readers k with received := (s.readers k).received ++ bs }
    have hwork := work_mapPipe s.split.splitter k fun p => { p with buffer := later }
    have hpos := List.length_pos_iff.mpr hne
    rw [hb, List.length_append] at hwork
    have hunread := unread_mapPipe s.split k fun p => { p with buffer := later }
    have hone : due { s.readers k with received := (s.readers k).received ++ bs } = due (s.readers k) := rfl
    dsimp only [work] at hdue hwork hone hunread ⊢
    omega
  | @found k hthere hgoing hclosed hb =>
    have hdue := s.due_setReader k { s.readers k with ended := true }
    have hone : due { s.readers k with ended := true } + 1 = due (s.readers k) := by simp [due, hthere, hgoing]
    dsimp only [work] at hdue hone ⊢
    omega
  | @left k hthere =>
    have hdue := s.due_setReader k { s.readers k with gone := true }
    have hwork := work_mapPipe s.split.splitter k Pipe.abandon
    have hone : due { s.readers k with gone := true } < due (s.readers k) := by
      simp only [due, hthere, if_true, Bool.true_or, Bool.false_eq_true, if_false]
      omega
    have hunread := unread_mapPipe s.split k Pipe.abandon
    dsimp only [work, Pipe.abandon, List.length_nil] at hdue hwork hone hunread ⊢
    omega

/-- What holds at any moment holds after every schedule. -/
theorem kept_of_follow {arrivals : List Arrival} {moves : List Move} (h : follow step (start arrivals) moves = some s) :
    ∃ i frames, Kept arrivals s i frames :=
  follow_keeps (P := fun s => ∃ i frames, Kept arrivals s i frames) h
    (fun _ _ _ _ hstep ⟨_, _, hkept⟩ => hkept.turn (turn_of_step hstep)) ⟨{}, [], Kept.start arrivals⟩

/-- No schedule goes on forever. -/
theorem length_le {arrivals : List Arrival} {moves : List Move} (h : follow step (start arrivals) moves = some s) :
    moves.length ≤ 4 * (Feed.input arrivals).1.length + 5 := by
  have hstart : (start arrivals).work = 4 * (Feed.input arrivals).1.length + 5 := rfl
  rw [← hstart]
  refine follow_length_le (P := fun s => ∃ i frames, Kept arrivals s i frames) (Option.isSome_iff_exists.mpr ⟨s, h⟩) ?_
    ⟨{}, [], Kept.start arrivals⟩
  rintro t m t' - hstep ⟨i, frames, hkept⟩
  have hturn := turn_of_step hstep
  exact ⟨hkept.turn hturn, hkept.work_lt hturn⟩

/-- What the readers of a split source get, after any schedule of what the pump and the readers do.
1. What a reader has received is the beginning of the payloads of its stream.
2. A reader that finds the end of its input has received the payloads of its stream in all complete frames of the source, whether the
   other has gone or not, and the pump has ended as the source does.
3. A pump that ends while somebody is there ends as the source does.
4. Where nothing moves any more, every reader that is there has found the end of its input.
5. No schedule goes on forever. -/
theorem routed {arrivals : List Arrival} {moves : List Move} (h : follow step (start arrivals) moves = some s) :
    (∀ k, (s.readers k).received <+: Frame.payloads k (Frame.parse (Feed.input arrivals).1).1) ∧
    (∀ k, (s.readers k).ended = true →
      (s.readers k).received = Frame.payloads k (Frame.parse (Feed.input arrivals).1).1 ∧
        s.split.splitter.phase = .ended (Splitter.outcome (Feed.input arrivals))) ∧
    (∀ k r, (s.readers k).gone = false → s.split.splitter.phase = .ended r → r = Splitter.outcome (Feed.input arrivals)) ∧
    (AtRest step [.pump, .read .stdout 1, .read .stderr 1] s → ∀ k, (s.readers k).gone = false → (s.readers k).ended = true) ∧
    moves.length ≤ 4 * (Feed.input arrivals).1.length + 5 := by
  obtain ⟨i, frames, hkept⟩ := kept_of_follow h
  exact ⟨fun k => (hkept.received k).trans (Splitter.prefix_payloads k hkept.had), fun k => hkept.all_of_ended,
    fun k r hthere hr => hkept.result_eq hthere hr, fun hrest k => hkept.ended_of_atRest hrest, length_le h⟩

/-- Two frames of each stream, the last cut off, read by two readers of which one goes away in the middle. -/
def interrupted : List Arrival :=
  [.bytes [1, 0, 0, 0, 0, 0, 0, 2, 0x61, 0x62, 2, 0, 0, 0, 0, 0, 0, 1, 0x63], .bytes [1, 0, 0, 0, 0, 0, 0, 1, 0x64, 2, 0, 0, 0],
   .failure .brokenPipe]

/-- The reader that stays receives all payloads of its stream, and the pump fails as the source does. -/
theorem routed_of_interrupted : ∃ s,
    follow step (start interrupted) (List.replicate 3 .pump ++ [.read .stdout 1, .leave .stdout] ++ List.replicate 8 .pump ++
      [.read .stderr 5, .read .stderr 5]) = some s ∧
    (s.readers .stdout).received = [0x61] ∧ (s.readers .stdout).gone = true ∧ (s.readers .stderr).ended = true ∧
    (s.readers .stderr).received = Frame.payloads .stderr (Frame.parse (Feed.input interrupted).1).1 ∧
    s.split.splitter.phase = .ended (.error .brokenPipe) := by
  have hrun : ((follow step (start interrupted) (List.replicate 3 .pump ++ [.read .stdout 1, .leave .stdout] ++
      List.replicate 8 .pump ++ [.read .stderr 5, .read .stderr 5])).map fun s =>
        ((s.readers .stdout).received, (s.readers .stdout).gone, (s.readers .stderr).ended)) = some ([0x61], true, true) := by
    decide +kernel
  obtain ⟨s, hs, hseen⟩ := Option.map_eq_some_iff.mp hrun
  obtain ⟨hreceived, hends⟩ := Prod.mk.inj hseen
  obtain ⟨hgone, hended⟩ := Prod.mk.inj hends
  obtain ⟨hall, hphase⟩ := (routed hs).2.1 .stderr hended
  -- three frames are complete, and the last is cut off in its header
  have hinput : (Feed.input interrupted).1 =
      [⟨.stdout, [0x61, 0x62]⟩, ⟨.stderr, [0x63]⟩, ⟨.stdout, [0x64]⟩].flatMap Frame.written ++ [2, 0, 0, 0] := by decide
  have hparse : (Frame.parse (Feed.input interrupted).1).2 = .error .truncatedHeader := by
    rw [hinput, Frame.parse_append (Frame.parse_written (by simp [Frame.Fits])), Frame.parse_short (by decide)]
    rfl
  have houtcome : Splitter.outcome (Feed.input interrupted) = .error .brokenPipe := by
    unfold Splitter.outcome
    rw [hparse]
    rfl
  rw [houtcome] at hphase
  exact ⟨s, hs, hreceived, hgone, hended, hall, hphase⟩

end Splitting

end JobPlane
