import JobPlane.Frame.Writer
import JobPlane.Proofs.Frame.Parse
import JobPlane.Proofs.Stream.Sink

/-!
# Frames that are written and read back

Frames are written to a sink that may take them in any portions and stops at some byte, and what it holds is read back in any pieces
(`frames_of_written`). What is read are the frames that came through whole, and whether reading ends cleanly tells whether the sink stopped
between two frames.
-/

namespace JobPlane

namespace Frame

/-! ## Writing -/

/-- Writing a frame fills a sink with what is written for it. -/
theorem write_fills {n : Nat} {f : Frame} {s : Sink} (hf : f.Fits) (h : s.Takes n) : s.Fills n f.written (f.write s).2 := by
  obtain ⟨ps, hps, hwritten⟩ := pieces_of_fits hf
  have hwrite : f.write s = Sink.writePieces ps s := by simp only [write, hps]
  rw [hwrite, ← hwritten]
  exact Sink.writePieces_fills h ps

/-- Writing frames in order fills a sink with what is written for all of them. -/
theorem writeEach_fills {n : Nat} {fs : List Frame} {s : Sink} (hfit : ∀ f ∈ fs, f.Fits) (h : s.Takes n) :
    s.Fills n (fs.flatMap written) (writeEach fs s).2 := by
  induction fs generalizing s with
  | nil => exact Sink.Fills.nil h
  | cons f fs ih =>
    have hfirst := write_fills (hfit f List.mem_cons_self) h
    have hrest := ih (fun g hg => hfit g (List.mem_cons_of_mem f hg)) hfirst.takes
    rw [List.flatMap_cons]
    exact hfirst.append hrest

/-! ## The frames of a beginning -/

/-- The frames that lie wholly within the first `n` bytes of what is written for them. -/
def whole (n : Nat) : List Frame → List Frame
  | [] => []
  | f :: fs => if f.written.length ≤ n then f :: whole (n - f.written.length) fs else []

/-- `n` bytes of what is written for frames end where one of the frames ends, or reach past all of them. -/
def EndsBetween (n : Nat) (fs : List Frame) : Prop :=
  (fs.flatMap written).length ≤ n ∨ ∃ k, ((fs.take k).flatMap written).length = n

/-- No bytes at all end before the first frame. -/
theorem endsBetween_zero (fs : List Frame) : EndsBetween 0 fs := Or.inr ⟨0, rfl⟩

/-- Bytes that reach past the first frame end between two frames exactly if those of them that come after it do. -/
theorem endsBetween_cons {n : Nat} {f : Frame} {fs : List Frame} (h : f.written.length ≤ n) :
    EndsBetween n (f :: fs) ↔ EndsBetween (n - f.written.length) fs := by
  simp only [EndsBetween, List.flatMap_cons, List.length_append]
  constructor
  · rintro (hpast | ⟨k, hk⟩)
    · exact Or.inl (by omega)
    · cases k with
      | zero =>
        have hnone : n = 0 := by simpa using hk.symm
        exact Or.inr ⟨0, by simp [hnone]⟩
      | succ k =>
        rw [List.take_succ_cons, List.flatMap_cons, List.length_append] at hk
        exact Or.inr ⟨k, by omega⟩
  · rintro (hpast | ⟨k, hk⟩)
    · exact Or.inl (by omega)
    · refine Or.inr ⟨k + 1, ?_⟩
      rw [List.take_succ_cons, List.flatMap_cons, List.length_append]
      omega

/-- Some bytes of a frame, but not all, end inside of it. -/
theorem not_endsBetween_cons {n : Nat} {f : Frame} {fs : List Frame} (hpos : n ≠ 0) (h : n < f.written.length) :
    ¬EndsBetween n (f :: fs) := by
  rintro (hpast | ⟨k, hk⟩)
  · rw [List.flatMap_cons, List.length_append] at hpast
    omega
  · cases k with
    | zero => exact hpos (by simpa using hk.symm)
    | succ k =>
      rw [List.take_succ_cons, List.flatMap_cons, List.length_append] at hk
      omega

/-- A beginning of a frame that is not all of it holds no frame, and ends early. -/
theorem parse_torn {f : Frame} {n : Nat} (hf : f.Fits) (hpos : n ≠ 0) (h : n < f.encode.length) :
    ∃ e, parse (f.encode.take n) = ([], .error e) ∧ e.kind = .unexpectedEof := by
  have hsplit : f.encode = (f.kind.tag :: 0 :: 0 :: 0 :: Bytes.ofLength f.payload.length) ++ f.payload := by simp [encode]
  have h8 : (f.kind.tag :: 0 :: 0 :: 0 :: Bytes.ofLength f.payload.length).length = headerLength := by
    simp [Bytes.ofLength, headerLength]
  have hlength : Bytes.toLength ((f.kind.tag :: 0 :: 0 :: 0 :: Bytes.ofLength f.payload.length).drop 4) =
      f.payload.length := Bytes.toLength_ofLength hf
  have htag : OutputKind.ofTag ((f.kind.tag :: 0 :: 0 :: 0 :: Bytes.ofLength f.payload.length).headD 0) = .ok f.kind := by simp
  generalize f.kind.tag :: 0 :: 0 :: 0 :: Bytes.ofLength f.payload.length = head at *
  rw [hsplit, List.length_append] at h
  by_cases hshort : n < headerLength
  · refine ⟨.truncatedHeader, ?_, rfl⟩
    have htaken : (f.encode.take n).length = n := by
      rw [hsplit, List.length_take, List.length_append]
      omega
    have hsome : (f.encode.take n).isEmpty = false := by
      rw [List.isEmpty_eq_false_iff]
      intro hnil
      rw [hnil] at htaken
      exact hpos htaken.symm
    rw [parse_short (by omega), hsome]
    rfl
  · refine ⟨.truncatedPayload, ?_, rfl⟩
    have htaken : f.encode.take n = head ++ f.payload.take (n - head.length) := by
      rw [hsplit, List.take_append, List.take_of_length_le (by omega)]
    have hless : (f.payload.take (n - head.length)).length < f.payload.length := by
      rw [List.length_take]
      omega
    rw [htaken, parse_header h8 htag, hlength, if_pos hless]

/-- The frames of a beginning of what is written for frames: those that are not empty and lie wholly within it, and it ends early unless
it ends between two frames. -/
theorem parse_take {fs : List Frame} (hfit : ∀ f ∈ fs, f.Fits) (n : Nat) :
    ∃ ending, parse ((fs.flatMap written).take n) = ((whole n fs).filter (!·.payload.isEmpty), ending) ∧
      (EndsBetween n fs → ending = .ok ()) ∧ (¬EndsBetween n fs → ∃ e, ending = .error e ∧ e.kind = .unexpectedEof) := by
  induction fs generalizing n with
  | nil =>
    refine ⟨.ok (), by simp [whole], fun _ => rfl, fun hno => ?_⟩
    exact absurd (Or.inl (Nat.zero_le n)) hno
  | cons f fs ih =>
    have hf := hfit f List.mem_cons_self
    by_cases hwhole : f.written.length ≤ n
    · obtain ⟨ending, hparse, hends⟩ := ih (fun g hg => hfit g (List.mem_cons_of_mem f hg)) (n - f.written.length)
      refine ⟨ending, ?_, ?_⟩
      · have hfirst : parse f.written = ([f].filter (!·.payload.isEmpty), .ok ()) := by
          have hone : ∀ g ∈ [f], g.Fits := by simpa using hf
          simpa using parse_written hone
        have hrest : whole n (f :: fs) = [f] ++ whole (n - f.written.length) fs := by rw [whole, if_pos hwhole, List.singleton_append]
        rw [List.flatMap_cons, List.take_append, List.take_of_length_le hwhole, parse_append hfirst, hparse, hrest,
          List.filter_append]
      · rw [endsBetween_cons hwhole]
        exact hends
    · have hcut : ((f :: fs).flatMap written).take n = f.written.take n := by
        rw [List.flatMap_cons, List.take_append_of_le_length (by omega)]
      have hnone : whole n (f :: fs) = [] := by rw [whole, if_neg hwhole]
      rw [hcut, hnone]
      by_cases hzero : n = 0
      · subst hzero
        refine ⟨.ok (), by simp, fun _ => rfl, fun hno => ?_⟩
        exact absurd (endsBetween_zero _) hno
      · have hwritten : f.written = f.encode := by
          unfold written at hwhole ⊢
          split
          · rename_i hempty
            rw [if_pos hempty] at hwhole
            exact absurd (Nat.zero_le n) hwhole
          · rfl
        rw [hwritten] at hwhole ⊢
        obtain ⟨e, hparse, hkind⟩ := parse_torn hf hzero (by omega)
        refine ⟨.error e, hparse, fun hyes => ?_, fun _ => ⟨e, rfl, hkind⟩⟩
        exact absurd hyes (not_endsBetween_cons hzero (by rw [hwritten]; omega))

end Frame

/-! ## Reading -/

namespace FrameReader

/-- Reading a stretch to its end: the reader keeps track of what it has taken, or has met an unknown tag, after which there are no more
frames. -/
theorem readStretch_tracks {fuel : Nat} {r : FrameReader} {got bs : Bytes} {before : List Frame} (hr : r.Tracks got before.reverse)
    (hfuel : bs.length ≤ fuel) :
    (∃ r' before', readStretch fuel r before bs = (r', before', none) ∧ r'.Tracks (got ++ bs) before'.reverse) ∨
      ∃ r' before' e, readStretch fuel r before bs = (r', before', some e) ∧
        ∀ rest, Frame.parse (got ++ bs ++ rest) = (before'.reverse, .error e) := by
  induction fuel generalizing r got bs before with
  | zero =>
    obtain rfl : bs = [] := List.eq_nil_of_length_eq_zero (Nat.le_zero.mp hfuel)
    exact Or.inl ⟨r, before, rfl, by rwa [List.append_nil]⟩
  | succ fuel ih =>
    cases bs with
    | nil => exact Or.inl ⟨r, before, rfl, by rwa [List.append_nil]⟩
    | cons b bs =>
      have hpos := hr.wants_pos
      have hsplit := List.take_append_drop r.wants (b :: bs)
      have hasked : ((b :: bs).take r.wants).length ≤ r.wants := List.length_take_le _ _
      have hless : ((b :: bs).drop r.wants).length ≤ fuel := by
        rw [List.length_drop, List.length_cons] at *
        omega
      rw [readStretch, List.splitAt_eq]
      -- what is left of the stretch is read on by the same rule
      rcases hr.take hasked with ⟨r', htake, ht⟩ | ⟨f, htake, ht⟩ | ⟨e, htake, hp⟩
      · simp only [htake]
        have hrest := ih ht hless
        rwa [List.append_assoc, hsplit] at hrest
      · simp only [htake]
        rw [← List.reverse_cons] at ht
        have hrest := ih ht hless
        rwa [List.append_assoc, hsplit] at hrest
      · refine Or.inr ⟨r, before, e, by simp only [htake], fun rest => ?_⟩
        have hrest := hp ((b :: bs).drop r.wants ++ rest)
        rwa [List.append_assoc, ← List.append_assoc _ _ rest, hsplit, ← List.append_assoc] at hrest

/-- Reading on from stretches of bytes gives the frames of all that is read. -/
theorem readFrom_bytes {r : FrameReader} {got : Bytes} {before : List Frame} (reads : List Bytes)
    (hr : r.Tracks got before.reverse) : readFrom r before (reads.map .bytes) = Frame.parse (got ++ reads.flatten) := by
  induction reads generalizing r got before with
  | nil => rw [List.flatten_nil, List.append_nil, hr.parse_eq, List.map_nil, readFrom]
  | cons bs reads ih =>
    rw [List.map_cons, List.flatten_cons, readFrom, ← List.append_assoc]
    rcases readStretch_tracks hr (Nat.le_refl bs.length) with ⟨r', before', hread, ht⟩ | ⟨r', before', e, hread, hp⟩
    · rw [hread]
      exact ih ht
    · rw [hread, hp]

/-- Bytes have the same frames in whatever pieces they are read. -/
theorem readAll_bytes (reads : List Bytes) : readAll (reads.map .bytes) = Frame.parse reads.flatten := by
  have hfresh : fresh.Tracks [] ([] : List Frame).reverse := tracks_fresh
  exact readFrom_bytes reads hfresh

end FrameReader

namespace Frame

/-- Frames whose payloads fit are written to an empty sink that takes writes in any portions and stops after `n` bytes, and what it holds is
read back in any pieces.
1. The sink holds the first `n` bytes of what is written for the frames.
2. The frames read are those that are not empty and lie wholly within these bytes.
3. Reading ends cleanly if the bytes end between two frames, or all was written, and else with an early end of input. -/
theorem frames_of_written {fs : List Frame} {n : Nat} {portion : Nat → Option Nat} {reads : List Bytes} (hfit : ∀ f ∈ fs, f.Fits)
    (hportion : ∀ k, portion k ≠ some 0) (hreads : reads.flatten = (writeEach fs { limit := some n, portion }).2.bytes) :
    let sink := (writeEach fs { limit := some n, portion }).2
    let (got, ending) := FrameReader.readAll (reads.map .bytes)
    sink.bytes = (fs.flatMap written).take n ∧
    got = (whole n fs).filter (!·.payload.isEmpty) ∧
    (EndsBetween n fs → ending = .ok ()) ∧
    (¬EndsBetween n fs → ∃ e, ending = .error e ∧ e.kind = .unexpectedEof) := by
  intro sink
  have hfills := writeEach_fills hfit (Sink.Takes.mk (s := { limit := some n, portion }) (n := n) rfl hportion)
  have hheld : sink.bytes = (fs.flatMap written).take n := hfills.bytes_eq
  obtain ⟨ending, hparse, hclean, hearly⟩ := parse_take hfit n
  rw [FrameReader.readAll_bytes, hreads, hheld, hparse]
  exact ⟨rfl, rfl, hclean, hearly⟩

/-- Three frames, the second of them empty, written to a sink that takes one to three bytes at once and stops inside the header of the
third: one frame comes back, and then an early end of input. -/
theorem frames_of_written_torn :
    let fs : List Frame := [⟨.stdout, [111, 117, 116]⟩, ⟨.stderr, []⟩, ⟨.stderr, [101, 114, 114]⟩]
    let portion (k : Nat) : Option Nat := some (k % 3 + 1)
    let reads : List Bytes := [[1, 0, 0], [0, 0, 0, 0, 3, 111, 117, 116, 2], [0, 0]]
    (∀ f ∈ fs, f.Fits) ∧ (∀ k, portion k ≠ some 0) ∧ reads.flatten = (writeEach fs { limit := some 14, portion }).2.bytes ∧
      ¬EndsBetween 14 fs ∧
      ∃ e, FrameReader.readAll (reads.map .bytes) = ([⟨.stdout, [111, 117, 116]⟩], .error e) ∧ e.kind = .unexpectedEof := by
  intro fs portion reads
  have hfit : ∀ f ∈ fs, f.Fits := by decide
  have hportion (k : Nat) : portion k ≠ some 0 := by simp [portion]
  have hreads : reads.flatten = (writeEach fs { limit := some 14, portion }).2.bytes := by
    have hfills := writeEach_fills hfit (Sink.Takes.mk (s := { limit := some 14, portion }) (n := 14) rfl hportion)
    rw [hfills.bytes_eq]
    rfl
  have hinside : ¬EndsBetween 14 fs := by
    rw [endsBetween_cons (by decide), endsBetween_cons (by decide)]
    exact not_endsBetween_cons (by decide) (by decide)
  obtain ⟨-, hgot, -, hearly⟩ := frames_of_written hfit hportion hreads
  obtain ⟨e, hending, hkind⟩ := hearly hinside
  exact ⟨hfit, hportion, hreads, hinside, e, Prod.ext hgot hending, hkind⟩

end Frame

end JobPlane
