import JobPlane.Proofs.Frame.Readers

/-!
# A pump without readers

When both readers of a split source have gone, the pump has only its own writes to find it out by: a write to a stream's pipe fails, and
that stream is skipped from then on. `Splitting.deserted` says how far the pump still reads. It stops at the first frame after which it has
tried to write to each stream, and if no such frame comes it drains the source.
-/

namespace JobPlane

/-! ## What a reader still gets -/

namespace FrameReader

/-- The frames that a reader gets where it reads on to the end of the given bytes, and how they end. -/
def parse (r : FrameReader) (later : Bytes) : List Frame × Except StreamError Unit :=
  match r with
  | header got => Frame.parse (got ++ later)
  | payload kind length got =>
    if (got ++ later).length < length then ([], .error .truncatedPayload)
    else
      (⟨kind, (got ++ later).take length⟩ :: (Frame.parse ((got ++ later).drop length)).1,
        (Frame.parse ((got ++ later).drop length)).2)

variable {r r' : FrameReader} {bs : Bytes} {f : Frame}

/-- A reader between two frames gets the frames of the bytes. -/
theorem parse_fresh (later : Bytes) : fresh.parse later = Frame.parse later := rfl

/-- Where no bytes come, a reader gets no frame. -/
theorem parse_nil (h : 0 < r.wants) : r.parse [] = ([], r.close) := by
  cases r with
  | header got =>
    simp only [wants] at h
    simp only [parse, List.append_nil]
    rw [Frame.parse_short (by omega)]
    cases got <;> rfl
  | payload kind length got =>
    simp only [wants] at h
    simp only [parse, List.append_nil]
    rw [if_pos (by omega)]
    rfl

/-- A payload of which no more has come than there is: the frame is complete, or the reader goes on with it. -/
theorem parse_of_settle (kind : OutputKind) {length : Nat} {got : Bytes} (hg : got.length ≤ length) (later : Bytes) :
    settle (payload kind length got) = .more (payload kind length got) ∨
      ∃ f, settle (payload kind length got) = .complete f ∧
        (payload kind length got).parse later = (f :: (Frame.parse later).1, (Frame.parse later).2) := by
  by_cases hall : length ≤ got.length
  · right
    have hlength : length = got.length := Nat.le_antisymm hall hg
    subst hlength
    refine ⟨⟨kind, got⟩, by simp [settle], ?_⟩
    simp only [parse, List.length_append, List.take_left, List.drop_left]
    rw [if_neg (by omega)]
  · left
    simp [settle, hall]

/-- What taking in bytes comes to, of which there are no more than were asked for, for a reader that reads on: it gets what it would
have got, or its frame is complete and those of the following bytes come after it, or there are no more frames. -/
theorem parse_of_take (hpos : 0 < r.wants) (hb : bs.length ≤ r.wants) (later : Bytes) :
    (∃ r', r.take bs = .ok (.more r') ∧ r.parse (bs ++ later) = r'.parse later) ∨
      (∃ f, r.take bs = .ok (.complete f) ∧ r.parse (bs ++ later) = (f :: (Frame.parse later).1, (Frame.parse later).2)) ∨
      ∃ e, r.take bs = .error e ∧ r.parse (bs ++ later) = ([], .error e) := by
  cases r with
  | header got =>
    simp only [wants] at hpos hb
    have hparse : (header got).parse (bs ++ later) = Frame.parse ((got ++ bs) ++ later) := by simp only [parse, List.append_assoc]
    by_cases hshort : (got ++ bs).length < Frame.headerLength
    · exact Or.inl ⟨header (got ++ bs), take_short hshort, hparse⟩
    · have h8 : (got ++ bs).length = Frame.headerLength := by
        rw [List.length_append] at hshort ⊢
        omega
      cases ht : OutputKind.ofTag ((got ++ bs).headD 0) with
      | error e =>
        refine Or.inr (Or.inr ⟨e, take_bad_tag hshort ht, hparse.trans (Frame.parse_bad_tag ?_ ?_)⟩)
        · rw [List.length_append]
          omega
        · rwa [Frame.headD_append (by omega)]
      | ok kind =>
        have htake := take_header hshort ht
        have hnone : ([] : Bytes).length ≤ Bytes.toLength ((got ++ bs).drop 4) := Nat.zero_le _
        rw [Frame.parse_header h8 ht] at hparse
        rcases parse_of_settle kind hnone later with hmore | ⟨f, hf, hp⟩
        · exact Or.inl ⟨payload kind (Bytes.toLength ((got ++ bs).drop 4)) [], by rw [htake, hmore], hparse⟩
        · exact Or.inr (Or.inl ⟨f, by rw [htake, hf], hparse.trans hp⟩)
  | payload kind length got =>
    simp only [wants] at hpos hb
    have htake : (payload kind length got).take bs = .ok (settle (payload kind length (got ++ bs))) := rfl
    have hparse : (payload kind length got).parse (bs ++ later) = (payload kind length (got ++ bs)).parse later := by
      simp only [parse, List.append_assoc]
    have hle : (got ++ bs).length ≤ length := by
      rw [List.length_append]
      omega
    rcases parse_of_settle kind hle later with hmore | ⟨f, hf, hp⟩
    · exact Or.inl ⟨_, by rw [htake, hmore], hparse⟩
    · exact Or.inr (Or.inl ⟨f, by rw [htake, hf], hparse.trans hp⟩)

/-- A reader that reads on gets what it would have got. -/
theorem parse_of_more {r' : FrameReader} (hpos : 0 < r.wants) (hb : bs.length ≤ r.wants) (htake : r.take bs = .ok (.more r'))
    (later : Bytes) : r.parse (bs ++ later) = r'.parse later := by
  simpa [htake] using parse_of_take hpos hb later

/-- A frame that is complete comes before those of the following bytes. -/
theorem parse_of_complete {f : Frame} (hpos : 0 < r.wants) (hb : bs.length ≤ r.wants) (htake : r.take bs = .ok (.complete f))
    (later : Bytes) : r.parse (bs ++ later) = (f :: (Frame.parse later).1, (Frame.parse later).2) := by
  simpa [htake] using parse_of_take hpos hb later

/-- A reader that meets an unknown tag gets nothing more. -/
theorem parse_of_unknown {e : StreamError} (hpos : 0 < r.wants) (hb : bs.length ≤ r.wants) (htake : r.take bs = .error e)
    (later : Bytes) : r.parse (bs ++ later) = ([], .error e) := by
  simpa [htake] using parse_of_take hpos hb later

end FrameReader

namespace Splitter

/-- How a pump ends that reads to the end, from how the frames end and how the source does. -/
def ending (frames source : Except StreamError Unit) : Except StreamError Unit :=
  match frames, source with
  | .error (.unknownTag t), _ => .error (.unknownTag t)
  | r, .ok () => r
  | _, .error e => .error e

/-- A pump knows of a reader that it is gone, or finds it out with what it writes. -/
def Missed (s : Splitter) (k : OutputKind) : Prop := (s.lane k).live = false ∨ ∃ rest, s.phase = .writing k rest

/-- What pumps keep in mind: one that reads knows of no more than one reader that it is gone, and none writes for a reader that it knows
to be gone. -/
structure Heeds (s : Splitter) : Prop where
  reading : ∀ r, s.phase = .reading r → ∃ k, (s.lane k).live = true
  writing : ∀ k rest, s.phase = .writing k rest → (s.lane k).live = true

variable {s s' : Splitter} {r : Option Reading}

/-- A pump that reads writes for nobody. -/
theorem missed_of_reading {fr : FrameReader} (hp : s.phase = .reading fr) (k : OutputKind) : s.Missed k ↔ (s.lane k).live = false := by
  simp [Missed, hp]

/-- A pump that writes for a reader writes for no other. -/
theorem missed_of_writing {k : OutputKind} {rest : Bytes} (hp : s.phase = .writing k rest) (k' : OutputKind) :
    s.Missed k' ↔ (s.lane k').live = false ∨ k = k' := by
  simp [Missed, hp]

/-- With a frame that is not empty a pump finds out about the reader of its stream. -/
theorem missed_pass {fr : FrameReader} (hp : s.phase = .reading fr) (f : Frame) (k : OutputKind) :
    (s.pass f).Missed k ↔ s.Missed k ∨ (f.kind = k ∧ f.payload ≠ []) := by
  rw [missed_of_reading hp]
  rcases s.pass_cases f with ⟨-, hne, heq⟩ | ⟨hskip, heq⟩
  · rw [heq, missed_of_writing rfl, lane_with_phase]
    simp [hne]
  · rw [heq, missed_of_reading rfl, lane_with_phase, or_iff_left_of_imp]
    rintro ⟨rfl, hne⟩
    exact hskip.resolve_right hne

/-- A pump whose write fails goes on and knows what it has found out, or it has found out about all readers. -/
theorem missed_lose {k : OutputKind} {rest : Bytes} (hp : s.phase = .writing k rest) :
    ((s.lose k).phase = .reading .fresh ∧ ∀ k', (s.lose k).Missed k' ↔ s.Missed k') ∨
      ((s.lose k).phase = .ended (.error .readersGone) ∧ ∀ k', s.Missed k') := by
  have hlive : ∀ k', ((s.setLane k { s.lane k with live := false }).lane k').live = false ↔ s.Missed k' := by
    intro k'
    rw [missed_of_writing hp, lane_setLane]
    split
    · rename_i heq
      simp [heq]
    · rename_i hne
      simp [Ne.symm hne]
  unfold lose
  simp only
  split
  · left
    refine ⟨rfl, fun k' => ?_⟩
    rw [missed_of_reading rfl, lane_with_phase]
    exact hlive k'
  · rename_i hnone
    simp only [Bool.or_eq_true, not_or, Bool.not_eq_true] at hnone
    refine Or.inr ⟨rfl, fun k' => (hlive k').mp ?_⟩
    cases k' with
    | stdout => exact hnone.1
    | stderr => exact hnone.2

/-- A pump that reads is not about to find the last reader gone. -/
theorem Heeds.not_missed (h : s.Heeds) {fr : FrameReader} (hp : s.phase = .reading fr) : ∃ k, ¬s.Missed k := by
  obtain ⟨k, hk⟩ := h.reading fr hp
  refine ⟨k, ?_⟩
  rw [missed_of_reading hp, hk]
  simp

/-- Every move of a pump keeps this. -/
theorem Heeds.turn (h : s.Heeds) (ht : s.Turn r s') : s'.Heeds := by
  cases ht with
  | more hp hb htake =>
    refine ⟨fun fr _ => ?_, fun k rest hw => (by cases hw)⟩
    simpa using h.reading _ hp
  | @complete fr bs f hp hb htake =>
    rcases s.pass_cases f with ⟨hlive, -, heq⟩ | ⟨-, heq⟩
    · rw [heq]
      refine ⟨fun fr hr => (by cases hr), fun k rest hw => ?_⟩
      cases hw
      simpa using hlive
    · rw [heq]
      refine ⟨fun fr _ => ?_, fun k rest hw => (by cases hw)⟩
      simpa using h.reading _ hp
  | unknown hp hb htake => exact ⟨fun fr hr => (by cases hr), fun k rest hw => (by cases hw)⟩
  | ceased hp => exact ⟨fun fr hr => (by cases hr), fun k rest hw => (by cases hw)⟩
  | broken hp => exact ⟨fun fr hr => (by cases hr), fun k rest hw => (by cases hw)⟩
  | @put k rest n hp hopen hpos =>
    have hlive := h.writing k rest hp
    have hsame : ∀ k', (s.lane k').live = true → ((s.setLane k { s.lane k with
        pipe := { (s.lane k).pipe with buffer := (s.lane k).pipe.buffer ++ rest.take n } }).lane k').live = true := by
      intro k' hk'
      rw [lane_setLane]
      split
      · exact hlive
      · exact hk'
    refine ⟨fun fr _ => ⟨k, by simpa using hsame k hlive⟩, fun k' rest' hw => ?_⟩
    simp only at hw
    split at hw
    · cases hw
    · cases hw
      simpa using hsame k hlive
  | @lose k rest hp hclosed =>
    simp only [lose]
    split
    · rename_i hsome
      refine ⟨fun fr _ => ?_, fun k rest hw => (by cases hw)⟩
      rcases Bool.or_eq_true_iff.mp hsome with hout | herr
      · exact ⟨.stdout, hout⟩
      · exact ⟨.stderr, herr⟩
    · exact ⟨fun fr hr => (by cases hr), fun k rest hw => (by cases hw)⟩

end Splitter

namespace Splitting

/-- What a pump still gets of its source, but for the frame whose payload it is writing: the frames, and how it ends where it reads to
the end. -/
def coming (s : Splitting) : List Frame × Except StreamError Unit :=
  let later := Feed.input s.split.feed.coming
  let frames := match s.split.splitter.phase with
    | .reading r => r.parse later.1
    | _ => Frame.parse later.1
  (frames.1, Splitter.ending frames.2 later.2)

/-- With these frames a pump has tried to write for each reader. -/
def Tried (s : Splitting) (frames : List Frame) : Prop :=
  ∀ k, s.split.splitter.Missed k ∨ ∃ f ∈ frames, f.kind = k ∧ f.payload ≠ []

/-- A pump has tried with more frames if it has with fewer. -/
theorem Tried.mono {s : Splitting} {frames frames' : List Frame} (h : s.Tried frames) (hsub : frames ⊆ frames') : s.Tried frames' := by
  intro k
  rcases h k with hmissed | ⟨f, hf, hkind⟩
  · exact Or.inl hmissed
  · exact Or.inr ⟨f, hsub hf, hkind⟩

/-- What one move of a pump comes to whose readers have gone. -/
inductive Onward (s s' : Splitting) : Prop
  /-- A part of a frame came in, or a write failed and another stream is live. -/
  | same (hgoing : s'.split.splitter.running = true) (hcoming : s.coming = s'.coming)
      (hmissed : ∀ k, s'.split.splitter.Missed k ↔ s.split.splitter.Missed k)
  /-- A frame came in. -/
  | took {f : Frame} (hgoing : s'.split.splitter.running = true) (hcoming : s.coming = (f :: s'.coming.1, s'.coming.2))
      (hmissed : ∀ k, s'.split.splitter.Missed k ↔ s.split.splitter.Missed k ∨ (f.kind = k ∧ f.payload ≠ []))
      (hhope : ∃ k, ¬s.split.splitter.Missed k)
  /-- A write failed, and no stream is live. -/
  | stopped (hended : s'.split.splitter.phase = .ended (.error .readersGone)) (hcoming : s.coming = s'.coming)
      (hmissed : ∀ k, s.split.splitter.Missed k)
  /-- The source is over. -/
  | exhausted (hended : s'.split.splitter.phase = .ended s.coming.2) (hnone : s.coming.1 = []) (hhope : ∃ k, ¬s.split.splitter.Missed k)

variable {s s' : Splitting}

/-- What a pump still gets that reads. -/
theorem coming_of_reading {r : FrameReader} (hp : s.split.splitter.phase = .reading r) :
    s.coming = ((r.parse (Feed.input s.split.feed.coming).1).1,
      Splitter.ending (r.parse (Feed.input s.split.feed.coming).1).2 (Feed.input s.split.feed.coming).2) := by
  simp only [coming, hp]

/-- What a pump still gets that is not inside a frame. -/
theorem coming_of_between (hp : ∀ r, s.split.splitter.phase = .reading r → r = .fresh) :
    s.coming = ((Frame.parse (Feed.input s.split.feed.coming).1).1, Splitter.outcome (Feed.input s.split.feed.coming)) := by
  cases hphase : s.split.splitter.phase with
  | reading r =>
    rw [coming_of_reading hphase, hp r hphase]
    rfl
  | writing k rest =>
    simp only [coming, hphase]
    rfl
  | ended r =>
    simp only [coming, hphase]
    rfl

/-- Once a frame is passed on, the pump is not inside a frame. -/
theorem fresh_of_pass {s : Splitter} {f : Frame} {r : FrameReader} (h : (s.pass f).phase = .reading r) : r = .fresh := by
  rcases s.pass_cases f with ⟨-, -, heq⟩ | ⟨-, heq⟩
  · rw [heq] at h
    cases h
  · rw [heq] at h
    cases h
    rfl

/-- A pump that has passed on a frame goes on. -/
theorem running_pass (s : Splitter) (f : Frame) : (s.pass f).running = true := by
  rcases s.pass_cases f with ⟨-, -, heq⟩ | ⟨-, heq⟩ <;> rw [heq] <;> rfl

/-- Where a pump reads, what comes of it. -/
theorem onward_of_read {arrivals : List Arrival} {i : Splitter.Intake} {frames : List Frame} {r : Reading} {n : Nat}
    {splitter : Splitter} {feed : Feed} (h : Kept arrivals s i frames) (hheeds : s.split.splitter.Heeds)
    (ht : s.split.splitter.Turn (some r) splitter) (hread : s.split.feed.read n = (r, feed)) :
    s.Onward { s with split := { splitter, feed } } := by
  obtain ⟨later, hfeed, -⟩ := h.reads
  obtain ⟨later', hlater', htakes⟩ := Feed.read_input n later
  rw [hfeed] at hread
  rw [hread] at hlater' htakes
  simp only at hlater'
  subst hlater'
  -- what comes is what the reader gets of what was read and of what follows
  have hdata : ∀ fr bs, s.split.splitter.phase = .reading fr → r = .data bs → s.coming =
      ((fr.parse (bs ++ (Feed.input later').1)).1,
        Splitter.ending (fr.parse (bs ++ (Feed.input later').1)).2 (Feed.input later').2) := by
    rintro fr bs hp rfl
    have htakes : Feed.input later = (bs ++ (Feed.input later').1, (Feed.input later').2) := htakes
    rw [coming_of_reading hp, hfeed, htakes]
  cases ht with
  | @more fr fr' bs hp hb htake =>
    refine .same rfl ?_ fun k => ?_
    · rw [hdata fr bs hp rfl, FrameReader.parse_of_more (h.wanting fr hp) hb htake, coming_of_reading rfl]
    · rw [Splitter.missed_of_reading rfl, Splitter.missed_of_reading hp, Splitter.lane_with_phase]
  | @complete fr bs f hp hb htake =>
    refine .took (f := f) (running_pass _ f) ?_ (fun k => Splitter.missed_pass hp f k) (hheeds.not_missed hp)
    rw [hdata fr bs hp rfl, FrameReader.parse_of_complete (h.wanting fr hp) hb htake, coming_of_between fun _ => fresh_of_pass]
    rfl
  | @unknown fr bs e hp hb htake =>
    have hcoming := hdata fr bs hp rfl
    rw [FrameReader.parse_of_unknown (h.wanting fr hp) hb htake] at hcoming
    obtain ⟨t, rfl⟩ := FrameReader.take_error htake
    exact .exhausted (by rw [hcoming]; rfl) (by rw [hcoming]) (hheeds.not_missed hp)
  | @ceased fr hp =>
    have htakes : Feed.input later = ([], .ok ()) := htakes
    have hcoming : s.coming = ([], fr.close) := by
      rw [coming_of_reading hp, hfeed, htakes, FrameReader.parse_nil (h.wanting fr hp)]
      cases fr with
      | header got => cases got <;> rfl
      | payload kind length got => rfl
    exact .exhausted (by rw [hcoming]; rfl) (by rw [hcoming]) (hheeds.not_missed hp)
  | @broken fr e hp =>
    have htakes : Feed.input later = ([], .error e) := htakes
    have hcoming : s.coming = ([], .error e) := by
      rw [coming_of_reading hp, hfeed, htakes, FrameReader.parse_nil (h.wanting fr hp)]
      -- a frame that is cut off is no unknown tag
      cases fr with
      | header got => cases got <;> rfl
      | payload kind length got => rfl
    exact .exhausted (by rw [hcoming]; rfl) (by rw [hcoming]) (hheeds.not_missed hp)

/-- Where a pump writes whose readers have gone, what comes of it. -/
theorem onward_of_write {arrivals : List Arrival} {i : Splitter.Intake} {frames : List Frame} {splitter : Splitter}
    (h : Kept arrivals s i frames) (hgone : ∀ k, (s.readers k).gone = true) (ht : s.split.splitter.Turn none splitter) :
    s.Onward { s with split := { s.split with splitter } } := by
  cases ht with
  | @put k rest n hp hopen hpos =>
    rw [h.left k (hgone k)] at hopen
    cases hopen
  | @lose k rest hp hclosed =>
    have hcoming : s.coming = coming { s with split := { s.split with splitter := s.split.splitter.lose k } } := by
      rw [coming_of_between (by simp [hp]), coming_of_between]
      intro r hr
      rcases Splitter.missed_lose hp with ⟨hphase, -⟩ | ⟨hphase, -⟩
      · rw [hphase] at hr
        cases hr
        rfl
      · rw [hphase] at hr
        cases hr
    rcases Splitter.missed_lose hp with ⟨hphase, hmissed⟩ | ⟨hphase, hmissed⟩
    · refine .same ?_ hcoming hmissed
      unfold Splitter.running
      simp only [hphase]
    · exact .stopped hphase hcoming hmissed

/-- A pump that runs has not ended. -/
theorem not_ended_of_running (h : s.split.splitter.running = true) (r : Except StreamError Unit) :
    s.split.splitter.phase ≠ .ended r := by
  intro hr
  unfold Splitter.running at h
  simp only [hr] at h
  cases h

/-- Every move of a pump and readers that have gone is one of the pump, and keeps who has gone. -/
theorem onward_of_turn {arrivals : List Arrival} {i : Splitter.Intake} {frames : List Frame} (h : Kept arrivals s i frames)
    (hheeds : s.split.splitter.Heeds) (hgone : ∀ k, (s.readers k).gone = true) (ht : s.Turn s') :
    s.split.splitter.running = true ∧ s.Onward s' ∧ ∀ k, (s'.readers k).gone = true := by
  have hnobody : ∀ k, (s.readers k).gone ≠ false := by
    intro k hthere
    rw [hgone k] at hthere
    cases hthere
  cases ht with
  | took ht hread hn => exact ⟨ht.running, onward_of_read h hheeds ht hread, hgone⟩
  | gave ht => exact ⟨ht.running, onward_of_write h hgone ht, hgone⟩
  | received hthere hgoing hb hne => exact absurd hthere (hnobody _)
  | found hthere hgoing hclosed hb => exact absurd hthere (hnobody _)
  | left hthere => exact absurd hthere (hnobody _)

/-- Every move keeps what pumps keep in mind. -/
theorem heeds_turn (h : s.split.splitter.Heeds) (ht : s.Turn s') : s'.split.splitter.Heeds := by
  have hpipe : ∀ k f, (s.split.splitter.mapPipe k f).Heeds := by
    intro k f
    have hlive : ∀ k', ((s.split.splitter.mapPipe k f).lane k').live = (s.split.splitter.lane k').live := by
      intro k'
      rw [Splitter.lane_mapPipe]
      split
      · rename_i heq
        rw [heq]
      · rfl
    refine ⟨fun r hr => ?_, fun k' rest hw => ?_⟩
    · obtain ⟨k', hk'⟩ := h.reading r (by simpa using hr)
      exact ⟨k', (hlive k').trans hk'⟩
    · exact (hlive k').trans (h.writing k' rest (by simpa using hw))
  cases ht with
  | took ht hread hn => exact h.turn ht
  | gave ht => exact h.turn ht
  | @received k bs later hthere hgoing hb hne => exact hpipe k fun p => { p with buffer := later }
  | found hthere hgoing hclosed hb => exact h
  | @left k hthere => exact hpipe k Pipe.abandon

/-! ## How far a pump reads -/

/-- What has come of a pump since its readers have gone. -/
inductive Since (s s' : Splitting) : Prop
  /-- It has taken in frames, and not tried for each reader with fewer of them. -/
  | going (seen : List Frame) (hgoing : s'.split.splitter.running = true) (hcoming : s.coming = (seen ++ s'.coming.1, s'.coming.2))
      (hmissed : ∀ k, s'.split.splitter.Missed k ↔ s.split.splitter.Missed k ∨ ∃ f ∈ seen, f.kind = k ∧ f.payload ≠ [])
      (hfirst : ∀ shorter, shorter <+: seen → s.Tried shorter → shorter = seen)
  /-- It has tried for each reader. -/
  | stopped (seen : List Frame) (hended : s'.split.splitter.phase = .ended (.error .readersGone))
      (hcoming : s.coming = (seen ++ s'.coming.1, s'.coming.2)) (htried : s.Tried seen)
      (hfirst : ∀ shorter, shorter <+: seen → s.Tried shorter → shorter = seen)
  /-- It has come to the end of its source. -/
  | exhausted (hended : s'.split.splitter.phase = .ended s.coming.2) (hnot : ¬s.Tried s.coming.1)

/-- A pump whose readers have just gone has taken in nothing since. -/
theorem Since.start (h : s.split.splitter.running = true) : s.Since s :=
  .going [] h rfl (by simp) fun _ hshorter _ => List.prefix_nil.mp hshorter

/-- Since the readers have gone, each move takes in at most a frame more. -/
theorem Since.onward {s'' : Splitting} (h : s.Since s') (hgoing : s'.split.splitter.running = true) (ho : s'.Onward s'') :
    s.Since s'' := by
  cases h with
  | stopped seen hended hcoming htried hfirst => exact absurd hended (not_ended_of_running hgoing _)
  | exhausted hended hnot => exact absurd hended (not_ended_of_running hgoing _)
  | going seen _ hcoming hmissed hfirst =>
    have htried : s.Tried seen ↔ ∀ k, s'.split.splitter.Missed k := forall_congr' fun k => (hmissed k).symm
    cases ho with
    | same hgoing' hcoming' hmissed' =>
      exact .going seen hgoing' (hcoming.trans (by rw [hcoming'])) (fun k => (hmissed' k).trans (hmissed k)) hfirst
    | @took f hgoing' hcoming' hmissed' hhope =>
      refine .going (seen ++ [f]) hgoing' (hcoming.trans (by rw [hcoming']; simp)) (fun k => ?_) fun shorter hshorter ht => ?_
      · rw [hmissed', hmissed, or_assoc]
        simp [or_and_right, exists_or]
      · rcases List.prefix_concat_iff.mp hshorter with heq | hprefix
        · exact heq
        · -- with the frames so far it has not tried for each reader
          rw [hfirst shorter hprefix ht] at ht
          obtain ⟨k, hk⟩ := hhope
          exact absurd (htried.mp ht k) hk
    | stopped hended hcoming' hmissed' =>
      exact .stopped seen hended (hcoming.trans (by rw [hcoming'])) (htried.mpr hmissed') hfirst
    | exhausted hended hnone hhope =>
      have hall : s.coming = (seen, s'.coming.2) := by rw [hcoming, hnone, List.append_nil]
      refine .exhausted (by rw [hended, hall]) fun ht => ?_
      rw [hall] at ht
      obtain ⟨k, hk⟩ := hhope
      exact hk (htried.mp ht k)

/-- A pump that has taken in one frame that is not empty has tried for each reader if it had found out about the other. -/
theorem tried_first {blank : List Frame} {f : Frame} (hblank : ∀ g ∈ blank, g.payload = []) (hf : f.payload ≠ []) :
    s.Tried (blank ++ [f]) ↔ ∀ k, k ≠ f.kind → s.split.splitter.Missed k := by
  have hone : ∀ k, (∃ g ∈ blank ++ [f], g.kind = k ∧ g.payload ≠ []) ↔ f.kind = k := by
    intro k
    constructor
    · rintro ⟨g, hg, hkind, hne⟩
      rcases List.mem_append.mp hg with hg | hg
      · exact absurd (hblank g hg) hne
      · rw [← List.mem_singleton.mp hg]
        exact hkind
    · rintro rfl
      exact ⟨f, by simp, rfl, hf⟩
  constructor
  · intro h k hk
    rcases h k with hmissed | hsome
    · exact hmissed
    · exact absurd ((hone k).mp hsome).symm hk
  · intro h k
    by_cases hk : k = f.kind
    · exact Or.inr ((hone k).mpr hk.symm)
    · exact Or.inl (h k hk)

/-- A pump whose readers have gone never waits for them. -/
theorem ended_of_atRest {arrivals : List Arrival} {i : Splitter.Intake} {frames : List Frame} (h : Kept arrivals s i frames)
    (hgone : ∀ k, (s.readers k).gone = true) (hrest : AtRest step [.pump] s) : ∃ r, s.split.splitter.phase = .ended r := by
  rcases h.stuck (hrest .pump (by simp)) with hended | ⟨k, rest, -, hopen, -⟩
  · exact hended
  · rw [h.left k (hgone k)] at hopen
    cases hopen

/-- What has come of a pump since its readers have gone, after any schedule. -/
theorem since_of_follow {arrivals : List Arrival} {moves more : List Move} (h : follow step (start arrivals) moves = some s)
    (hgone : ∀ k, (s.readers k).gone = true) (hgoing : s.split.splitter.running = true) (hmore : follow step s more = some s') :
    s.Since s' ∧ ∀ k, (s'.readers k).gone = true := by
  have hheeds : s.split.splitter.Heeds :=
    follow_keeps (P := fun s => s.split.splitter.Heeds) h (fun _ _ _ _ hstep hheeds => heeds_turn hheeds (turn_of_step hstep))
      ⟨fun _ _ => ⟨.stdout, rfl⟩, fun _ _ hw => by cases hw⟩
  obtain ⟨hsince, hgone', -, -⟩ := follow_keeps
    (P := fun t => s.Since t ∧ (∀ k, (t.readers k).gone = true) ∧ t.split.splitter.Heeds ∧ ∃ i frames, Kept arrivals t i frames)
    hmore
    (by
      rintro t m t' - hstep ⟨hsince, hgone, hheeds, i, frames, hkept⟩
      have hturn := turn_of_step hstep
      obtain ⟨hgoing, honward, hgone'⟩ := onward_of_turn hkept hheeds hgone hturn
      exact ⟨hsince.onward hgoing honward, hgone', heeds_turn hheeds hturn, hkept.turn hturn⟩)
    ⟨.start hgoing, hgone, hheeds, kept_of_follow h⟩
  exact ⟨hsince, hgone'⟩

/-- What a pump does whose readers have both gone, after any schedule. What it still gets are the frames `s.coming`.
1. If there are frames among them after which it has tried to write for each reader, it takes in the first of them up to there, and ends
   with the failure that the readers are gone, a broken pipe. The frames that come later stay where they are.
2. If there are not, it takes in all frames, and ends as its source does.
3. As long as it runs, it has taken in no frame after those.
4. It has tried for each reader with the first frame that is not empty exactly if it had found out about the reader of the other stream
   before, with a write.
5. Where it does not move any more, it has ended.
6. No schedule goes on forever. -/
theorem deserted {arrivals : List Arrival} {moves more : List Move} (h : follow step (start arrivals) moves = some s)
    (hgone : ∀ k, (s.readers k).gone = true) (hgoing : s.split.splitter.running = true) (hmore : follow step s more = some s') :
    (∀ seen later, s.coming.1 = seen ++ later → s.Tried seen →
      (∀ shorter, shorter <+: seen → s.Tried shorter → shorter = seen) →
      ∀ r, s'.split.splitter.phase = .ended r → r = .error .readersGone ∧ s'.coming.1 = later) ∧
    (¬s.Tried s.coming.1 → ∀ r, s'.split.splitter.phase = .ended r → r = s.coming.2) ∧
    (s'.split.splitter.running = true → ∃ seen, s.coming = (seen ++ s'.coming.1, s'.coming.2) ∧
      ∀ shorter, shorter <+: seen → s.Tried shorter → shorter = seen) ∧
    (∀ blank f, (∀ g ∈ blank, g.payload = []) → f.payload ≠ [] →
      (s.Tried (blank ++ [f]) ↔ ∀ k, k ≠ f.kind → s.split.splitter.Missed k)) ∧
    (AtRest step [.pump] s' → ∃ r, s'.split.splitter.phase = .ended r) ∧
    (moves ++ more).length ≤ 4 * (Feed.input arrivals).1.length + 5 := by
  have hall : follow step (start arrivals) (moves ++ more) = some s' := follow_append_eq_some.mpr ⟨s, h, hmore⟩
  obtain ⟨i, frames, hkept⟩ := kept_of_follow hall
  obtain ⟨hsince, hgone'⟩ := since_of_follow h hgone hgoing hmore
  refine ⟨?_, ?_, ?_, fun blank f hblank hf => tried_first hblank hf, fun hrest => ended_of_atRest hkept hgone' hrest, length_le hall⟩
  · intro seen later hseen htried hfirst r hr
    cases hsince with
    | going seen' hgoing' hcoming hmissed hfirst' => exact absurd hr (not_ended_of_running hgoing' r)
    | stopped seen' hended hcoming htried' hfirst' =>
      rw [hended] at hr
      cases hr
      -- the first frames with which it has tried for each reader are the same
      have hboth : seen' ++ s'.coming.1 = seen ++ later := by rw [← hseen, hcoming]
      have hsame : seen' = seen := by
        rcases List.prefix_or_prefix_of_prefix (hboth ▸ List.prefix_append seen' _) (List.prefix_append seen later) with hle | hle
        · exact hfirst seen' hle htried'
        · exact (hfirst' seen hle htried).symm
      subst hsame
      exact ⟨rfl, List.append_cancel_left hboth⟩
    | exhausted hended hnot =>
      exact absurd (htried.mono (hseen ▸ List.subset_append_left _ _)) hnot
  · intro hnot r hr
    cases hsince with
    | going seen hgoing' hcoming hmissed hfirst => exact absurd hr (not_ended_of_running hgoing' r)
    | stopped seen hended hcoming htried hfirst =>
      refine absurd (htried.mono ?_) hnot
      rw [hcoming]
      exact List.subset_append_left _ _
    | exhausted hended hnot' =>
      rw [hended] at hr
      cases hr
      rfl
  · intro hgoing'
    cases hsince with
    | going seen _ hcoming hmissed hfirst => exact ⟨seen, hcoming, hfirst⟩
    | stopped seen hended hcoming htried hfirst => exact absurd hended (not_ended_of_running hgoing' _)
    | exhausted hended hnot => exact absurd hended (not_ended_of_running hgoing' _)

/-- Two frames of one stream. -/
def oneStream : List Arrival := [.bytes [1, 0, 0, 0, 0, 0, 0, 1, 0x61, 1, 0, 0, 0, 0, 0, 0, 1, 0x62]]

/-- Both readers go before anything comes, and no frame of the other stream follows: the pump drains the source. -/
theorem deserted_of_one_stream : ∃ s s',
    follow step (start oneStream) [.leave .stdout, .leave .stderr] = some s ∧ (∀ k, (s.readers k).gone = true) ∧
    s.split.splitter.running = true ∧ follow step s (List.replicate 6 .pump) = some s' ∧
    s.coming.1 = [⟨.stdout, [0x61]⟩, ⟨.stdout, [0x62]⟩] ∧ s'.split.splitter.phase = .ended (.ok ()) := by
  let s := (follow step (start oneStream) [.leave .stdout, .leave .stderr]).get (by decide)
  have hs : follow step (start oneStream) [.leave .stdout, .leave .stderr] = some s := (Option.some_get _).symm
  have hgone : ∀ k, (s.readers k).gone = true := by
    intro k
    cases k <;> rfl
  have hrun : (follow step s (List.replicate 6 .pump)).map (·.split.splitter.running) = some false := by decide +kernel
  obtain ⟨s', hs', hover⟩ := Option.map_eq_some_iff.mp hrun
  have hinput : Feed.input oneStream = ([⟨.stdout, [0x61]⟩, ⟨.stdout, [0x62]⟩].flatMap Frame.written, .ok ()) := rfl
  have hcoming : s.coming = ([⟨.stdout, [0x61]⟩, ⟨.stdout, [0x62]⟩], .ok ()) := by
    rw [coming_of_reading (r := .fresh) rfl, FrameReader.parse_fresh]
    simp only [show Feed.input s.split.feed.coming = Feed.input oneStream from rfl, hinput]
    rw [Frame.parse_written (by simp [Frame.Fits])]
    rfl
  -- nothing comes for the second reader
  have hnot : ¬s.Tried s.coming.1 := by
    intro htried
    rcases htried .stderr with hmissed | ⟨f, hf, hkind, -⟩
    · have hp : s.split.splitter.phase = .reading .fresh := rfl
      rw [Splitter.missed_of_reading hp] at hmissed
      cases hmissed
    · rw [hcoming] at hf
      simp only [List.mem_cons, List.not_mem_nil, or_false] at hf
      rcases hf with rfl | rfl <;> cases hkind
  obtain ⟨r, hr⟩ : ∃ r, s'.split.splitter.phase = .ended r := by
    unfold Splitter.running at hover
    split at hover
    · exact ⟨_, by assumption⟩
    · cases hover
  have hends : r = s.coming.2 := (deserted hs hgone rfl hs').2.1 hnot r hr
  rw [hcoming] at hends
  exact ⟨s, s', hs, hgone, rfl, hs', by rw [hcoming], by rw [hr, hends]⟩

end Splitting

end JobPlane
