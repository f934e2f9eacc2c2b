import JobPlane.Frame.Reader

/-!
# The frames of a byte string

`Frame.parse` reads a byte string as a whole: the frames that are complete in it, and what comes after them. A reader that takes the
bytes as they come, in whatever pieces, has at every moment the frames of what it has read (`FrameReader.Tracks`), and frames that are
written one after another are the frames of what is written (`parse_written`).
-/

namespace JobPlane

namespace Frame

/-- A frame whose payload has a length that fits into a header. -/
def Fits (f : Frame) : Prop := f.payload.length < 4294967296

instance (f : Frame) : Decidable f.Fits := inferInstanceAs (Decidable (_ < _))

/-- What is written for a frame that fits: nothing for an empty payload. -/
def written (f : Frame) : Bytes := if f.payload.isEmpty then [] else f.encode

/-- A frame that fits is written, and the pieces make up what is written for it. -/
theorem pieces_of_fits {f : Frame} (h : f.Fits) : ∃ ps, f.pieces = .ok ps ∧ ps.flatten = f.written := by
  unfold Fits at h
  cases hp : f.payload with
  | nil => exact ⟨[], by simp [pieces, hp], by simp [written, hp]⟩
  | cons b bs =>
    rw [hp] at h
    refine ⟨_, by simp only [pieces, header, hp, h, List.isEmpty_cons, if_true]; rfl, ?_⟩
    simp [written, hp, encode]

/-- The frames of a byte string: those that are complete, and how what comes after them ends. -/
def parse (bs : Bytes) : List Frame × Except StreamError Unit :=
  if bs.length < headerLength then ([], if bs.isEmpty then .ok () else .error .truncatedHeader)
  else match OutputKind.ofTag (bs.headD 0) with
    | .error e => ([], .error e)
    | .ok kind =>
      let length := Bytes.toLength ((bs.drop 4).take 4)
      let rest := bs.drop headerLength
      if rest.length < length then ([], .error .truncatedPayload)
      else (⟨kind, rest.take length⟩ :: (parse (rest.drop length)).1, (parse (rest.drop length)).2)
termination_by bs.length
decreasing_by all_goals simp only [List.length_drop, headerLength] at *; omega

/-- Fewer bytes than a header has are no frame. -/
theorem parse_short {bs : Bytes} (h : bs.length < headerLength) :
    parse bs = ([], if bs.isEmpty then .ok () else .error .truncatedHeader) := by
  rw [parse, if_pos h]

/-- A header with an unknown tag ends the frames. -/
theorem parse_bad_tag {bs : Bytes} {e : StreamError} (h : headerLength ≤ bs.length)
    (ht : OutputKind.ofTag (bs.headD 0) = .error e) : parse bs = ([], .error e) := by
  rw [parse, if_neg (by omega)]
  split
  · rename_i e' he
    rw [ht] at he
    cases he
    rfl
  · rename_i k hk
    rw [ht] at hk
    cases hk

/-- The first byte of a header is not a matter of what follows it. -/
theorem headD_append {head : Bytes} (h8 : headerLength ≤ head.length) (rest : Bytes) : (head ++ rest).headD 0 = head.headD 0 := by
  cases head with
  | nil => simp [headerLength] at h8
  | cons x xs => rfl

/-- A header with a known tag is followed by as many bytes of payload as it says, and by what comes after them. -/
theorem parse_header {head : Bytes} {kind : OutputKind} (h8 : head.length = headerLength)
    (ht : OutputKind.ofTag (head.headD 0) = .ok kind) (rest : Bytes) :
    parse (head ++ rest) =
      if rest.length < Bytes.toLength (head.drop 4) then ([], .error .truncatedPayload)
      else
        (⟨kind, rest.take (Bytes.toLength (head.drop 4))⟩ :: (parse (rest.drop (Bytes.toLength (head.drop 4)))).1,
          (parse (rest.drop (Bytes.toLength (head.drop 4)))).2) := by
  have hhead := headD_append (by omega : headerLength ≤ head.length) rest
  have hrest : (head ++ rest).drop headerLength = rest := by simp [← h8]
  have hfour : ((head ++ rest).drop 4).take 4 = head.drop 4 := by
    unfold headerLength at h8
    rw [List.drop_append_of_le_length (by omega), List.take_append_of_le_length (by simp [h8]),
      List.take_of_length_le (by simp [h8])]
  rw [parse, if_neg (by simp only [List.length_append]; omega)]
  split
  · rename_i e he
    rw [hhead, ht] at he
    cases he
  · rename_i k hk
    rw [hhead, ht] at hk
    cases hk
    simp only [hrest, hfour]

@[simp] theorem parse_nil : parse [] = ([], .ok ()) := parse_short (by simp [headerLength])

/-- Where the frames of a byte string end at its end, the frames of what comes after it follow them. -/
theorem parse_append {a : Bytes} {fs : List Frame} (h : parse a = (fs, .ok ())) (b : Bytes) :
    parse (a ++ b) = (fs ++ (parse b).1, (parse b).2) := by
  -- One frame of `a` at a time; what is left of `a` after a frame is shorter.
  induction hn : a.length using Nat.strongRecOn generalizing a fs with
  | ind n ih =>
    by_cases hshort : a.length < headerLength
    · rw [parse_short hshort] at h
      cases a with
      | nil =>
        simp only [List.isEmpty_nil, if_true, Prod.mk.injEq, and_true] at h
        simp [← h]
      | cons x xs => simp at h
    · obtain ⟨head, rest, rfl, h8⟩ : ∃ head rest, a = head ++ rest ∧ head.length = headerLength :=
        ⟨a.take headerLength, a.drop headerLength, (List.take_append_drop _ a).symm, by simp; omega⟩
      have hhead := headD_append (by omega : headerLength ≤ head.length) rest
      cases ht : OutputKind.ofTag (head.headD 0) with
      | error e =>
        rw [parse_bad_tag (by omega) (by rw [hhead]; exact ht)] at h
        cases h
      | ok kind =>
        rw [parse_header h8 ht] at h
        rw [List.append_assoc, parse_header h8 ht]
        split at h
        · cases h
        · rename_i hall
          simp only [Prod.mk.injEq] at h
          obtain ⟨rfl, hok⟩ := h
          have hle : Bytes.toLength (head.drop 4) ≤ rest.length := by omega
          have hrest := ih (rest.drop (Bytes.toLength (head.drop 4))).length
            (by simp only [List.length_drop, List.length_append, headerLength] at *; omega) (Prod.ext rfl hok) rfl
          rw [if_neg (by simp only [List.length_append]; omega), List.take_append_of_le_length hle,
            List.drop_append_of_le_length hle, hrest]
          rfl

/-- A frame that fits and is not empty is the frame of what is written for it. -/
theorem parse_encode {f : Frame} (h : f.Fits) : parse f.encode = ([f], .ok ()) := by
  have hsplit : f.encode = (f.kind.tag :: 0 :: 0 :: 0 :: Bytes.ofLength f.payload.length) ++ f.payload := by simp [encode]
  have hlength : Bytes.toLength ((f.kind.tag :: 0 :: 0 :: 0 :: Bytes.ofLength f.payload.length).drop 4) =
      f.payload.length := Bytes.toLength_ofLength h
  have htag : OutputKind.ofTag ((f.kind.tag :: 0 :: 0 :: 0 :: Bytes.ofLength f.payload.length).headD 0) = .ok f.kind := by simp
  rw [hsplit, parse_header (by simp [Bytes.ofLength, headerLength]) htag, hlength, if_neg (Nat.lt_irrefl _)]
  simp

/-- The frames of what is written for frames that fit are those of them that are not empty. -/
theorem parse_written {fs : List Frame} (h : ∀ f ∈ fs, f.Fits) :
    parse (fs.flatMap written) = (fs.filter (!·.payload.isEmpty), .ok ()) := by
  induction fs with
  | nil => simp
  | cons f fs ih =>
    have hfs := ih (fun g hg => h g (List.mem_cons_of_mem f hg))
    cases he : f.payload.isEmpty with
    | true => simpa [written, he] using hfs
    | false =>
      simp only [List.flatMap_cons, written, he, Bool.false_eq_true, if_false]
      rw [parse_append (parse_encode (h f List.mem_cons_self)), hfs]
      simp [he]

/-! ## Payloads -/

/-- The payloads of one stream, one after another. -/
def payloads (k : OutputKind) (fs : List Frame) : Bytes := (fs.filter fun f => f.kind = k).flatMap payload

/-- One more frame is one more payload of its stream. -/
theorem payloads_concat (k : OutputKind) (fs : List Frame) (f : Frame) :
    payloads k (fs ++ [f]) = payloads k fs ++ if k = f.kind then f.payload else [] := by
  by_cases h : k = f.kind
  · simp [payloads, h]
  · have h' : f.kind ≠ k := fun heq => h heq.symm
    simp [payloads, h, h']

/-- Empty payloads are no matter. -/
theorem payloads_filter_isEmpty (k : OutputKind) (fs : List Frame) : payloads k (fs.filter (!·.payload.isEmpty)) = payloads k fs := by
  induction fs with
  | nil => rfl
  | cons f fs ih =>
    by_cases he : f.payload = [] <;> by_cases hk : f.kind = k <;> simp_all [payloads]

end Frame

namespace FrameReader

/-- The bytes that a reader has taken of a frame that is not complete. -/
def Holds (r : FrameReader) (raw : Bytes) : Prop :=
  match r with
  | header got => got = raw ∧ raw.length < Frame.headerLength
  | payload kind length got =>
    ∃ head, raw = head ++ got ∧ head.length = Frame.headerLength ∧ OutputKind.ofTag (head.headD 0) = .ok kind ∧
      Bytes.toLength (head.drop 4) = length ∧ got.length < length

/-- A reader between two frames has taken nothing of a frame. -/
theorem holds_fresh : fresh.Holds [] := ⟨rfl, by simp [Frame.headerLength]⟩

/-- A reader always asks for something. -/
theorem wants_pos {r : FrameReader} {raw : Bytes} (h : r.Holds raw) : 0 < r.wants := by
  cases r with
  | header got =>
    obtain ⟨rfl, h⟩ := h
    simp only [wants]
    omega
  | payload kind length got =>
    obtain ⟨head, -, -, -, -, h⟩ := h
    simp only [wants]
    omega

/-- A reader that needs more asks for something. -/
theorem wants_pos_of_take {r r' : FrameReader} {bs : Bytes} (h : r.take bs = .ok (.more r')) : 0 < r'.wants := by
  have hsettle : ∀ kind length got, settle (payload kind length got) = .more r' → 0 < r'.wants := by
    intro kind length got hmore
    simp only [settle] at hmore
    split at hmore
    · cases hmore
    · cases hmore
      simp only [wants]
      omega
  cases r with
  | header got =>
    simp only [take] at h
    split at h
    · cases h
      simp only [wants]
      omega
    · generalize (got ++ bs).headD 0 = tag at h
      cases hkind : OutputKind.ofTag tag with
      | error e =>
        rw [hkind] at h
        cases h
      | ok kind =>
        rw [hkind] at h
        exact hsettle _ _ _ (Except.ok.inj h)
  | payload kind length got => exact hsettle _ _ _ (Except.ok.inj h)

/-- What a reader has taken of a frame holds no frame, and ends as the reader says. -/
theorem parse_of_holds {r : FrameReader} {raw : Bytes} (h : r.Holds raw) : Frame.parse raw = ([], r.close) := by
  cases r with
  | header got =>
    obtain ⟨rfl, h⟩ := h
    rw [Frame.parse_short h]
    cases got <;> rfl
  | payload kind length got =>
    obtain ⟨head, rfl, h8, ht, rfl, hlt⟩ := h
    rw [Frame.parse_header h8 ht, if_pos hlt]
    rfl

/-- A header, and no more of its payload than it says: the frame is complete, or the reader goes on with the payload. -/
theorem settle_payload {kind : OutputKind} {head got : Bytes} (h8 : head.length = Frame.headerLength)
    (ht : OutputKind.ofTag (head.headD 0) = .ok kind) (hg : got.length ≤ Bytes.toLength (head.drop 4)) :
    (∃ r, settle (payload kind (Bytes.toLength (head.drop 4)) got) = .more r ∧ r.Holds (head ++ got)) ∨
      ∃ f, settle (payload kind (Bytes.toLength (head.drop 4)) got) = .complete f ∧
        Frame.parse (head ++ got) = ([f], .ok ()) := by
  by_cases hall : Bytes.toLength (head.drop 4) ≤ got.length
  · right
    refine ⟨⟨kind, got⟩, by simp [settle, hall], ?_⟩
    rw [Frame.parse_header h8 ht, if_neg (by omega), List.take_of_length_le hg, List.drop_of_length_le hg]
    simp
  · left
    exact ⟨payload kind (Bytes.toLength (head.drop 4)) got, by simp [settle, hall], head, rfl, h8, ht, rfl, by omega⟩

/-- A header of which a part is still to come. -/
theorem take_short {got bs : Bytes} (hshort : (got ++ bs).length < Frame.headerLength) :
    (header got).take bs = .ok (.more (header (got ++ bs))) := by
  simp only [take, if_pos hshort]

/-- A header with a tag that a stream has: the reader goes on to the payload, unless there is none. -/
theorem take_header {got bs : Bytes} {kind : OutputKind} (hfull : ¬ (got ++ bs).length < Frame.headerLength)
    (ht : OutputKind.ofTag ((got ++ bs).headD 0) = .ok kind) :
    (header got).take bs = .ok (settle (payload kind (Bytes.toLength ((got ++ bs).drop 4)) [])) := by
  simp only [take, if_neg hfull, ht]
  rfl

/-- A header with a tag that no stream has. -/
theorem take_bad_tag {got bs : Bytes} {e : StreamError} (hfull : ¬ (got ++ bs).length < Frame.headerLength)
    (ht : OutputKind.ofTag ((got ++ bs).headD 0) = .error e) : (header got).take bs = .error e := by
  simp only [take, if_neg hfull, ht]
  rfl

/-- What taking in bytes comes to, of which there are no more than were asked for: a part of a frame, a frame, or an unknown tag, after
which there are no frames whatever follows. -/
theorem take_cases {r : FrameReader} {raw bs : Bytes} (h : r.Holds raw) (hb : bs.length ≤ r.wants) :
    (∃ r', r.take bs = .ok (.more r') ∧ r'.Holds (raw ++ bs)) ∨
      (∃ f, r.take bs = .ok (.complete f) ∧ Frame.parse (raw ++ bs) = ([f], .ok ())) ∨
      ∃ e, r.take bs = .error e ∧ ∀ rest, Frame.parse (raw ++ bs ++ rest) = ([], .error e) := by
  cases r with
  | header got =>
    obtain ⟨rfl, hgot⟩ := h
    simp only [wants] at hb
    by_cases hshort : (got ++ bs).length < Frame.headerLength
    · exact Or.inl ⟨header (got ++ bs), take_short hshort, rfl, hshort⟩
    · have h8 : (got ++ bs).length = Frame.headerLength := by simp only [List.length_append] at *; omega
      cases ht : OutputKind.ofTag ((got ++ bs).headD 0) with
      | error e =>
        refine Or.inr (Or.inr ⟨e, take_bad_tag hshort ht, fun rest => Frame.parse_bad_tag ?_ ?_⟩)
        · simp only [List.length_append] at *
          omega
        · rwa [Frame.headD_append (by omega)]
      | ok kind =>
        have htake := take_header hshort ht
        have hnone : ([] : Bytes).length ≤ Bytes.toLength ((got ++ bs).drop 4) := Nat.zero_le _
        rcases settle_payload h8 ht hnone with ⟨r', hr', hh⟩ | ⟨f, hf, hp⟩
        · exact Or.inl ⟨r', by rw [htake, hr'], by simpa using hh⟩
        · exact Or.inr (Or.inl ⟨f, by rw [htake, hf], by simpa using hp⟩)
  | payload kind length got =>
    obtain ⟨head, rfl, h8, ht, rfl, hlt⟩ := h
    simp only [wants] at hb
    have htake : (payload kind (Bytes.toLength (head.drop 4)) got).take bs =
        .ok (settle (payload kind (Bytes.toLength (head.drop 4)) (got ++ bs))) := rfl
    have hle : (got ++ bs).length ≤ Bytes.toLength (head.drop 4) := by simp only [List.length_append]; omega
    rcases settle_payload h8 ht hle with ⟨r', hr', hh⟩ | ⟨f, hf, hp⟩
    · exact Or.inl ⟨r', by rw [htake, hr'], by simpa using hh⟩
    · exact Or.inr (Or.inl ⟨f, by rw [htake, hf], by simpa using hp⟩)

/-- Taking in bytes fails only at a tag that no stream has. -/
theorem take_error {r : FrameReader} {bs : Bytes} {e : StreamError} (h : r.take bs = .error e) : ∃ t, e = .unknownTag t := by
  cases r with
  | header got =>
    simp only [take] at h
    split at h
    · cases h
    · generalize (got ++ bs).headD 0 = tag at h
      unfold OutputKind.ofTag at h
      split at h
      · cases h
      · cases h
      · cases h
        exact ⟨_, rfl⟩
  | payload kind length got => cases h

/-! ## Reading on -/

/-- A reader that has taken so many bytes has had the given frames of them, and holds what comes after those. -/
def Tracks (r : FrameReader) (got : Bytes) (frames : List Frame) : Prop :=
  ∃ done raw, got = done ++ raw ∧ Frame.parse done = (frames, .ok ()) ∧ r.Holds raw

/-- A reader that has taken nothing has had no frames. -/
theorem tracks_fresh : fresh.Tracks [] [] := ⟨[], [], rfl, Frame.parse_nil, holds_fresh⟩

namespace Tracks

variable {r : FrameReader} {got bs : Bytes} {frames : List Frame}

/-- The frames that a reader has had are the frames of what it has taken, and it ends as they do. -/
theorem parse_eq (h : r.Tracks got frames) : Frame.parse got = (frames, r.close) := by
  obtain ⟨done, raw, rfl, hd, hr⟩ := h
  rw [Frame.parse_append hd, parse_of_holds hr]
  simp

/-- The frames that a reader has had come first in whatever it reads on. -/
theorem prefix_parse (h : r.Tracks got frames) (more : Bytes) : frames <+: (Frame.parse (got ++ more)).1 := by
  obtain ⟨done, raw, rfl, hd, -⟩ := h
  rw [List.append_assoc, Frame.parse_append hd]
  exact List.prefix_append _ _

/-- A reader always asks for something. -/
theorem wants_pos (h : r.Tracks got frames) : 0 < r.wants := by
  obtain ⟨_, _, _, _, hr⟩ := h
  exact FrameReader.wants_pos hr

/-- Reading on: the reader keeps track, has one more frame, or meets an unknown tag, after which there are no more frames. -/
theorem take (h : r.Tracks got frames) (hb : bs.length ≤ r.wants) :
    (∃ r', r.take bs = .ok (.more r') ∧ r'.Tracks (got ++ bs) frames) ∨
      (∃ f, r.take bs = .ok (.complete f) ∧ fresh.Tracks (got ++ bs) (frames ++ [f])) ∨
      ∃ e, r.take bs = .error e ∧ ∀ rest, Frame.parse (got ++ bs ++ rest) = (frames, .error e) := by
  obtain ⟨done, raw, rfl, hd, hr⟩ := h
  rcases take_cases hr hb with ⟨r', htake, hh⟩ | ⟨f, htake, hp⟩ | ⟨e, htake, hp⟩
  · exact Or.inl ⟨r', htake, done, raw ++ bs, by simp, hd, hh⟩
  · refine Or.inr (Or.inl ⟨f, htake, done ++ (raw ++ bs), [], by simp, ?_, holds_fresh⟩)
    rw [Frame.parse_append hd, hp]
  · refine Or.inr (Or.inr ⟨e, htake, fun rest => ?_⟩)
    rw [List.append_assoc done raw bs, List.append_assoc done, Frame.parse_append hd, hp]
    simp

/-- A reader that reads on keeps track. -/
theorem more {r' : FrameReader} (h : r.Tracks got frames) (hb : bs.length ≤ r.wants) (htake : r.take bs = .ok (.more r')) :
    r'.Tracks (got ++ bs) frames := by
  simpa [htake] using h.take hb

/-- A frame that is complete comes after those that the reader has had. -/
theorem complete {f : Frame} (h : r.Tracks got frames) (hb : bs.length ≤ r.wants) (htake : r.take bs = .ok (.complete f)) :
    fresh.Tracks (got ++ bs) (frames ++ [f]) := by
  simpa [htake] using h.take hb

/-- After an unknown tag there are no more frames. -/
theorem unknown {e : StreamError} (h : r.Tracks got frames) (hb : bs.length ≤ r.wants) (htake : r.take bs = .error e) :
    ∀ rest, Frame.parse (got ++ bs ++ rest) = (frames, .error e) := by
  simpa [htake] using h.take hb

end Tracks

end FrameReader

end JobPlane
