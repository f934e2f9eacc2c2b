import JobPlane.Proofs.Frame.RoundTrip

/-!
# How a byte string divides into frames

A byte string divides in exactly one way into complete frames, whose reserved bytes may be any, and a tail that is none (`Division`,
`exists_division`, `division_unique`). Reading it gives the frames of its division in whatever pieces it comes, and ends as the tail does;
where there is no tail, writing the frames again gives the normal form of what was read (`frames_of_bytes`).
-/

namespace JobPlane

namespace Bytes

/-- Four bytes are those that the number they spell is written in. -/
theorem ofLength_toLength {bs : Bytes} (h : bs.length = 4) : ofLength (toLength bs) = bs ∧ toLength bs < 4294967296 := by
  obtain ⟨a, b, c, d, rfl⟩ : ∃ a b c d, bs = [a, b, c, d] := by
    match bs, h with
    | [a, b, c, d], _ => exact ⟨a, b, c, d, rfl⟩
  have ha := a.toNat_lt
  have hb := b.toNat_lt
  have hc := c.toNat_lt
  have hd := d.toNat_lt
  simp only [toLength, ofLength, List.foldl_cons, List.foldl_nil, List.cons.injEq, ← UInt8.toNat_inj, UInt8.toNat_ofNat', and_true]
  omega

end Bytes

/-- The tag of a stream tells which one it is. -/
theorem OutputKind.ofTag_eq_ok_iff {t : UInt8} {k : OutputKind} : OutputKind.ofTag t = .ok k ↔ t = k.tag := by
  constructor
  · intro h
    unfold OutputKind.ofTag at h
    split at h <;> cases h <;> rfl
  · rintro rfl
    exact OutputKind.ofTag_tag k

/-- The header of a frame as it stands in a byte string. The bytes that are reserved may be any. -/
structure FrameHeader where
  kind : OutputKind
  reserved : UInt8 × UInt8 × UInt8
  length : Nat
  fits : length < 4294967296

namespace FrameHeader

/-- The bytes of a header. -/
def bytes (h : FrameHeader) : Bytes := h.kind.tag :: h.reserved.1 :: h.reserved.2.1 :: h.reserved.2.2 :: Bytes.ofLength h.length

/-- A header with its reserved bytes set to zero. -/
def cleared (h : FrameHeader) : FrameHeader := { h with reserved := (0, 0, 0) }

/-- Every header has the same length. -/
@[simp] theorem length_bytes (h : FrameHeader) : h.bytes.length = Frame.headerLength := rfl

/-- The tag at the start of a header is that of its stream. -/
theorem ofTag_bytes (h : FrameHeader) : OutputKind.ofTag (h.bytes.headD 0) = .ok h.kind := OutputKind.ofTag_tag h.kind

/-- The length at the end of a header is that of its payload. -/
theorem toLength_bytes (h : FrameHeader) : Bytes.toLength (h.bytes.drop 4) = h.length := Bytes.toLength_ofLength h.fits

/-- A header can be told from its bytes. -/
theorem bytes_inj {h h' : FrameHeader} (heq : h.bytes = h'.bytes) : h = h' := by
  have hkind := h.ofTag_bytes
  have hlength := h.toLength_bytes
  rw [heq, h'.ofTag_bytes] at hkind
  rw [heq, h'.toLength_bytes] at hlength
  cases h
  cases h'
  simp only [bytes, List.cons.injEq] at heq
  simp only [Except.ok.injEq] at hkind hlength
  simp [mk.injEq, Prod.ext_iff, hkind, hlength, heq]

/-- Eight bytes of which the first is a tag are a header. -/
theorem exists_bytes {bs : Bytes} {kind : OutputKind} (hlength : bs.length = Frame.headerLength)
    (htag : OutputKind.ofTag (bs.headD 0) = .ok kind) : ∃ h : FrameHeader, h.bytes = bs := by
  match bs, hlength with
  | [t, a, b, c, l₁, l₂, l₃, l₄], _ =>
    have hspelled := Bytes.ofLength_toLength (show [l₁, l₂, l₃, l₄].length = 4 from rfl)
    have ht : t = kind.tag := OutputKind.ofTag_eq_ok_iff.mp htag
    exact ⟨⟨kind, (a, b, c), Bytes.toLength [l₁, l₂, l₃, l₄], hspelled.2⟩, by simp only [bytes, hspelled.1, ht]⟩

end FrameHeader

/-- A frame as it stands in a byte string: a header and as many bytes as it says. -/
structure LaidFrame where
  header : FrameHeader
  payload : Bytes
  complete : payload.length = header.length

namespace LaidFrame

/-- The bytes of a frame where it stands. -/
def bytes (l : LaidFrame) : Bytes := l.header.bytes ++ l.payload

/-- What is read of it. -/
def frame (l : LaidFrame) : Frame := ⟨l.header.kind, l.payload⟩

/-- The frame with the reserved bytes of its header set to zero. -/
def cleared (l : LaidFrame) : LaidFrame := { l with header := l.header.cleared, complete := l.complete }

/-- What is read of a frame fits into one that is written. -/
theorem fits_frame (l : LaidFrame) : l.frame.Fits := by
  have hfits := l.header.fits
  rw [← l.complete] at hfits
  exact hfits

/-- Its bytes hold the one frame that is read of it. -/
theorem parse_bytes (l : LaidFrame) : Frame.parse l.bytes = ([l.frame], .ok ()) := by
  have hlength : Bytes.toLength (l.header.bytes.drop 4) = l.payload.length := by rw [l.header.toLength_bytes, l.complete]
  rw [bytes, Frame.parse_header l.header.length_bytes l.header.ofTag_bytes, hlength, if_neg (Nat.lt_irrefl _)]
  simp [frame]

/-- What is written for a frame that is read and not empty is the frame as it stood, but for the reserved bytes. -/
theorem bytes_cleared {l : LaidFrame} (h : l.payload ≠ []) : l.cleared.bytes = l.frame.written := by
  have hsome : l.payload.isEmpty = false := by simpa using h
  simp only [Frame.written, frame, hsome, Bool.false_eq_true, if_false, Frame.encode, cleared, bytes, FrameHeader.bytes,
    FrameHeader.cleared, l.complete]

end LaidFrame

/-- What stands behind the complete frames of a byte string. -/
inductive FrameTail
  | none
  /-- A part of a header. -/
  | inHeader (got : Bytes) (begun : got ≠ []) (short : got.length < Frame.headerLength)
  /-- A header, and a part of the payload that it announces. -/
  | inPayload (head : FrameHeader) (got : Bytes) (short : got.length < head.length)
  /-- A header with a tag that no stream has, and whatever follows it. -/
  | stray (tag : UInt8) (unknown : tag ≠ 1 ∧ tag ≠ 2) (others : Bytes) (whole : (tag :: others).length = Frame.headerLength) (rest : Bytes)

namespace FrameTail

/-- The bytes of a tail. -/
def bytes : FrameTail → Bytes
  | none => []
  | inHeader got _ _ => got
  | inPayload head got _ => head.bytes ++ got
  | stray tag _ others _ rest => tag :: others ++ rest

/-- How reading ends at a tail. -/
def ending : FrameTail → Except StreamError Unit
  | none => .ok ()
  | inHeader _ _ _ => .error .truncatedHeader
  | inPayload _ _ _ => .error .truncatedPayload
  | stray tag _ _ _ _ => .error (.unknownTag tag)

/-- The class of the failure that a tail is read as, if it is one. -/
def fault : FrameTail → Option FaultKind
  | none => Option.none
  | inHeader _ _ _ | inPayload _ _ _ => some .unexpectedEof
  | stray _ _ _ _ _ => some .invalidData

/-- A tag that no stream has is known for that. -/
theorem ofTag_unknown {tag : UInt8} (h : tag ≠ 1 ∧ tag ≠ 2) : OutputKind.ofTag tag = .error (.unknownTag tag) := by
  unfold OutputKind.ofTag
  split
  · exact absurd rfl h.1
  · exact absurd rfl h.2
  · rfl

/-- A tail holds no complete frame, and it ends as it is said to. -/
theorem parse_bytes (t : FrameTail) : Frame.parse t.bytes = ([], t.ending) := by
  cases t with
  | none => exact Frame.parse_nil
  | inHeader got begun short =>
    have hsome : got.isEmpty = false := by simpa using begun
    rw [bytes, Frame.parse_short short, hsome]
    rfl
  | inPayload head got short =>
    rw [bytes, Frame.parse_header head.length_bytes head.ofTag_bytes, head.toLength_bytes, if_pos short]
    rfl
  | stray tag unknown others whole rest =>
    refine Frame.parse_bad_tag ?_ (ofTag_unknown unknown)
    rw [bytes, List.length_append]
    omega

end FrameTail

/-- A byte string as complete frames and what stands behind them. -/
structure Division where
  laid : List LaidFrame
  tail : FrameTail

namespace Division

/-- The bytes that are divided. -/
def bytes (d : Division) : Bytes := d.laid.flatMap LaidFrame.bytes ++ d.tail.bytes

/-- What is read of the complete frames. -/
def frames (d : Division) : List Frame := d.laid.map LaidFrame.frame

/-- The complete frames with their reserved bytes set to zero, without those that are empty. -/
def normal (d : Division) : Bytes := (d.laid.filter (!·.payload.isEmpty)).flatMap (·.cleared.bytes)

/-- Complete frames hold the frames that are read of them. -/
theorem parse_laid (ls : List LaidFrame) : Frame.parse (ls.flatMap LaidFrame.bytes) = (ls.map LaidFrame.frame, .ok ()) := by
  induction ls with
  | nil => exact Frame.parse_nil
  | cons l ls ih =>
    rw [List.flatMap_cons, Frame.parse_append l.parse_bytes, ih]
    rfl

/-- A byte string holds the frames of its division, and ends as the tail does. -/
theorem parse_bytes (d : Division) : Frame.parse d.bytes = (d.frames, d.tail.ending) := by
  rw [bytes, Frame.parse_append (parse_laid d.laid), d.tail.parse_bytes, List.append_nil]
  rfl

/-- Every byte string divides into complete frames and a tail. -/
theorem exists_division (bs : Bytes) : ∃ d : Division, d.bytes = bs := by
  -- One frame of the string at a time; what is left after a frame is shorter.
  induction hn : bs.length using Nat.strongRecOn generalizing bs with
  | ind n ih =>
    by_cases hshort : bs.length < Frame.headerLength
    · by_cases hnone : bs = []
      · exact ⟨⟨[], .none⟩, hnone.symm⟩
      · exact ⟨⟨[], .inHeader bs hnone hshort⟩, rfl⟩
    · obtain ⟨head, rest, rfl, h8⟩ : ∃ head rest, bs = head ++ rest ∧ head.length = Frame.headerLength :=
        ⟨bs.take Frame.headerLength, bs.drop Frame.headerLength, (List.take_append_drop _ bs).symm, by simp; omega⟩
      cases htag : OutputKind.ofTag (head.headD 0) with
      | error e =>
        obtain ⟨tag, others, rfl⟩ : ∃ tag others, head = tag :: others := by
          cases head with
          | nil => cases h8
          | cons tag others => exact ⟨tag, others, rfl⟩
        have hunknown : tag ≠ 1 ∧ tag ≠ 2 := by
          constructor <;> rintro rfl <;> cases htag
        exact ⟨⟨[], .stray tag hunknown others h8 rest⟩, rfl⟩
      | ok kind =>
        obtain ⟨header, rfl⟩ := FrameHeader.exists_bytes h8 htag
        by_cases hpart : rest.length < header.length
        · exact ⟨⟨[], .inPayload header rest hpart⟩, rfl⟩
        · have hless : (rest.drop header.length).length < n := by
            rw [← hn, List.length_drop, List.length_append, h8, Frame.headerLength]
            omega
          obtain ⟨d, hd⟩ := ih _ hless _ rfl
          have hcomplete : (rest.take header.length).length = header.length := by
            rw [List.length_take]
            omega
          refine ⟨⟨⟨header, rest.take header.length, hcomplete⟩ :: d.laid, d.tail⟩, ?_⟩
          calc (⟨header, rest.take header.length, hcomplete⟩ : LaidFrame).bytes ++ d.laid.flatMap LaidFrame.bytes ++ d.tail.bytes
              = header.bytes ++ rest.take header.length ++ d.bytes := List.append_assoc _ _ _
            _ = header.bytes ++ rest := by rw [hd, List.append_assoc, List.take_append_drop]

/-! ## The division is the only one -/

/-- Bytes that begin with a header begin with no other. -/
theorem header_inj {h h' : FrameHeader} {x x' : Bytes} (heq : h.bytes ++ x = h'.bytes ++ x') : h = h' ∧ x = x' := by
  obtain ⟨hhead, hrest⟩ := List.append_inj heq rfl
  exact ⟨FrameHeader.bytes_inj hhead, hrest⟩

/-- Bytes that begin with a complete frame begin with no other. -/
theorem laid_inj {l l' : LaidFrame} {x x' : Bytes} (heq : l.bytes ++ x = l'.bytes ++ x') : l = l' ∧ x = x' := by
  rw [LaidFrame.bytes, LaidFrame.bytes, List.append_assoc, List.append_assoc] at heq
  obtain ⟨hheader, hrest⟩ := header_inj heq
  obtain ⟨hpayload, hx⟩ := List.append_inj hrest (by rw [l.complete, l'.complete, hheader])
  cases l
  cases l'
  simp only at hheader hpayload
  subst hheader hpayload
  exact ⟨rfl, hx⟩

/-- A header with a tag that no stream has begins none that has one. -/
theorem stray_ne_header {tag : UInt8} (unknown : tag ≠ 1 ∧ tag ≠ 2) {h : FrameHeader} {x y : Bytes} : tag :: x ≠ h.bytes ++ y := by
  intro heq
  obtain ⟨htag, -⟩ := List.cons.inj heq
  have hknown := OutputKind.ofTag_tag h.kind
  rw [← htag, FrameTail.ofTag_unknown unknown] at hknown
  cases hknown

/-- No tail begins with a complete frame. -/
theorem tail_ne_laid {t : FrameTail} {l : LaidFrame} {x : Bytes} : t.bytes ≠ l.bytes ++ x := by
  intro heq
  rw [LaidFrame.bytes, List.append_assoc] at heq
  cases t with
  | none =>
    have hlength := congrArg List.length heq
    simp only [FrameTail.bytes, List.length_append, FrameHeader.length_bytes, List.length_nil, Frame.headerLength] at hlength
    omega
  | inHeader got begun short =>
    have hlength := congrArg List.length heq
    simp only [FrameTail.bytes, List.length_append, FrameHeader.length_bytes] at hlength
    omega
  | inPayload head got short =>
    obtain ⟨rfl, hgot⟩ := header_inj heq
    have hlength := congrArg List.length hgot
    rw [List.length_append, l.complete] at hlength
    omega
  | stray tag unknown others whole rest => exact stray_ne_header unknown heq

/-- A tail can be told from its bytes. -/
theorem tail_inj {t t' : FrameTail} (heq : t.bytes = t'.bytes) : t = t' := by
  have hending := t.parse_bytes
  rw [heq, t'.parse_bytes] at hending
  -- tails of two sorts end in two ways
  cases t <;> cases t' <;>
    simp only [FrameTail.ending, Prod.mk.injEq, true_and, Except.error.injEq, StreamError.unknownTag.injEq, reduceCtorEq] at hending
  case none.none => rfl
  case inHeader.inHeader =>
    cases heq
    rfl
  case inPayload.inPayload =>
    obtain ⟨rfl, rfl⟩ := header_inj heq
    rfl
  case stray.stray tag _ others whole rest tag' _ others' whole' rest' =>
    obtain ⟨hhead, rfl⟩ := List.append_inj (heq : (tag :: others) ++ rest = (tag' :: others') ++ rest') (whole.trans whole'.symm)
    cases hhead
    rfl

/-- A byte string divides in one way only. -/
theorem division_unique {d d' : Division} (heq : d.bytes = d'.bytes) : d = d' := by
  obtain ⟨ls, t⟩ := d
  obtain ⟨ls', t'⟩ := d'
  simp only [bytes] at heq
  induction ls generalizing ls' with
  | nil =>
    cases ls' with
    | nil => rw [tail_inj heq]
    | cons l' ls' =>
      rw [List.flatMap_cons, List.append_assoc] at heq
      exact absurd heq tail_ne_laid
  | cons l ls ih =>
    rw [List.flatMap_cons, List.append_assoc] at heq
    cases ls' with
    | nil => exact absurd heq.symm tail_ne_laid
    | cons l' ls' =>
      rw [List.flatMap_cons, List.append_assoc] at heq
      obtain ⟨rfl, hrest⟩ := laid_inj heq
      cases ih ls' hrest
      rfl

end Division

/-! ## Reading -/

namespace FrameReader

/-- Reading ends at the header of an unknown tag, and nothing that comes after it, not even a failure, is a matter of the outcome. -/
theorem readFrom_stray {r : FrameReader} {got : Bytes} {before frames : List Frame} {tag : UInt8} (reads : List Bytes) (more : List Arrival)
    (hr : r.Tracks got before.reverse)
    (hstray : ∀ rest, Frame.parse (got ++ reads.flatten ++ rest) = (frames, .error (.unknownTag tag))) :
    readFrom r before (reads.map .bytes ++ more) = (frames, .error (.unknownTag tag)) := by
  induction reads generalizing r got before with
  | nil =>
    -- a reader that still goes on has not come to such a header
    have hnow := hstray []
    rw [List.flatten_nil, List.append_nil, List.append_nil, hr.parse_eq, Prod.mk.injEq] at hnow
    obtain ⟨-, hclose⟩ := hnow
    exact absurd hclose (by unfold close; split <;> simp)
  | cons bs reads ih =>
    rw [List.map_cons, List.cons_append, readFrom]
    rcases readStretch_tracks hr (Nat.le_refl bs.length) with ⟨r', before', hread, ht⟩ | ⟨r', before', e, hread, hp⟩
    · rw [hread]
      refine ih ht fun rest => ?_
      rw [← hstray rest, List.flatten_cons, ← List.append_assoc]
    · rw [hread]
      have hall := hp reads.flatten
      rw [← hstray [], List.flatten_cons, List.append_nil, ← List.append_assoc, hall]

end FrameReader

/-! ## Writing back -/

namespace Frame

/-- A sink without a limit takes frames that fit, each without a failure. -/
theorem writeEach_unlimited {fs : List Frame} {s : Sink} (hfit : ∀ f ∈ fs, f.Fits) (h : s.Unlimited) :
    (∀ r ∈ (writeEach fs s).1, r = .ok ()) ∧ (writeEach fs s).2.bytes = s.bytes ++ fs.flatMap written := by
  induction fs generalizing s with
  | nil => simp [writeEach]
  | cons f fs ih =>
    obtain ⟨ps, hps, hwritten⟩ := pieces_of_fits (hfit f List.mem_cons_self)
    obtain ⟨t, hpieces, ht, hbytes⟩ := h.writePieces ps
    have hwrite : f.write s = (.ok (), t) := by simp only [write, hps, hpieces]
    obtain ⟨hresults, hheld⟩ := ih (fun g hg => hfit g (List.mem_cons_of_mem f hg)) ht
    rw [writeEach, hwrite]
    refine ⟨?_, ?_⟩
    · intro r hr
      rcases List.mem_cons.mp hr with rfl | hr
      · rfl
      · exact hresults r hr
    · rw [hheld, hbytes, hwritten, List.flatMap_cons, List.append_assoc]

end Frame

namespace Division

/-- What is written for the frames of a division is its normal form. -/
theorem written_frames (d : Division) : d.frames.flatMap Frame.written = d.normal := by
  obtain ⟨ls, t⟩ := d
  simp only [frames, normal]
  induction ls with
  | nil => rfl
  | cons l ls ih =>
    rw [List.map_cons, List.flatMap_cons, ih]
    by_cases hempty : l.payload = []
    · simp [Frame.written, LaidFrame.frame, hempty]
    · rw [← LaidFrame.bytes_cleared hempty, List.filter_cons_of_pos (by simpa using hempty), List.flatMap_cons]

/-- All frames of a division fit into frames that are written. -/
theorem fits_frames (d : Division) : ∀ f ∈ d.frames, f.Fits := by
  intro f hf
  obtain ⟨l, -, rfl⟩ := List.mem_map.mp hf
  exact l.fits_frame

end Division

/-- Every byte string divides in exactly one way into complete frames and a tail.
1. In whatever pieces it is read, the frames that are read are the complete ones, and reading ends as the tail does.
2. The tail is an early end of input where it is a part of a frame, and invalid where it begins with a header of an unknown tag.
3. Such a header ends reading at once: nothing that comes after its eight bytes, not even a failure, is a matter of the outcome.
4. Where there is no tail, the frames can all be written again, in whatever portions the sink takes. What is written is the byte string
   with its reserved bytes set to zero and without the frames that are empty, and read again it gives the frames that are not empty. -/
theorem frames_of_bytes (bs : Bytes) :
    ∃ d : Division, d.bytes = bs ∧ (∀ d' : Division, d'.bytes = bs → d' = d) ∧
      (∀ reads : List Bytes, reads.flatten = bs → FrameReader.readAll (reads.map .bytes) = (d.frames, d.tail.ending)) ∧
      (∀ e, d.tail.ending = .error e → d.tail.fault = some e.kind) ∧
      (∀ tag unknown others whole rest, d.tail = .stray tag unknown others whole rest →
        ∀ (reads : List Bytes) (more : List Arrival), reads.flatten = d.laid.flatMap LaidFrame.bytes ++ tag :: others →
          FrameReader.readAll (reads.map .bytes ++ more) = (d.frames, .error (.unknownTag tag))) ∧
      (d.tail = .none → ∀ portion : Nat → Option Nat, (∀ k, portion k ≠ some 0) →
        let (results, sink) := Frame.writeEach d.frames { portion }
        (∀ r ∈ results, r = .ok ()) ∧ sink.bytes = d.normal ∧
        ∀ reads : List Bytes, reads.flatten = sink.bytes →
          FrameReader.readAll (reads.map .bytes) = (d.frames.filter (!·.payload.isEmpty), .ok ())) := by
  obtain ⟨d, hd⟩ := Division.exists_division bs
  refine ⟨d, hd, fun d' hd' => Division.division_unique (hd'.trans hd.symm), ?_, ?_, ?_, ?_⟩
  · intro reads hreads
    rw [FrameReader.readAll_bytes, hreads, ← hd, d.parse_bytes]
  · intro e he
    cases htail : d.tail <;> rw [htail] at he <;> cases he <;> rfl
  · intro tag unknown others whole rest htail reads more hreads
    have hfresh : FrameReader.fresh.Tracks [] ([] : List Frame).reverse := FrameReader.tracks_fresh
    refine FrameReader.readFrom_stray reads more hfresh fun after => ?_
    have hsplit : [] ++ reads.flatten ++ after = (⟨d.laid, .stray tag unknown others whole after⟩ : Division).bytes := by
      rw [List.nil_append, hreads, Division.bytes, FrameTail.bytes, List.append_assoc]
    rw [hsplit, Division.parse_bytes]
    rfl
  · intro _ portion hportion
    obtain ⟨hresults, hheld⟩ := Frame.writeEach_unlimited d.fits_frames (s := { portion }) ⟨rfl, hportion⟩
    rw [d.written_frames] at hheld
    refine ⟨hresults, hheld, fun reads hreads => ?_⟩
    rw [FrameReader.readAll_bytes, hreads, hheld]
    exact d.written_frames ▸ Frame.parse_written d.fits_frames

/-- A frame whose reserved bytes are not zero and an empty one, read in three pieces and written to a sink that takes three bytes at once:
both are read, and one of them is written again, with its reserved bytes zero. -/
theorem frames_of_bytes_reserved :
    let bs : Bytes := [1, 9, 8, 7, 0, 0, 0, 2, 104, 105, 2, 0, 0, 6, 0, 0, 0, 0]
    let reads : List Bytes := [[1, 9, 8], [7, 0, 0, 0, 2, 104], [105, 2, 0, 0, 6, 0, 0, 0, 0]]
    let frames : List Frame := [⟨.stdout, [104, 105]⟩, ⟨.stderr, []⟩]
    reads.flatten = bs ∧ FrameReader.readAll (reads.map .bytes) = (frames, .ok ()) ∧
      (Frame.writeEach frames { portion := fun _ => some 3 }).2.bytes = [1, 0, 0, 0, 0, 0, 0, 2, 104, 105] := by
  intro bs reads frames
  let d : Division := ⟨[⟨⟨.stdout, (9, 8, 7), 2, by decide⟩, [104, 105], rfl⟩, ⟨⟨.stderr, (0, 0, 6), 0, by decide⟩, [], rfl⟩], .none⟩
  obtain ⟨d', -, hunique, hread, -, -, hwritten⟩ := frames_of_bytes bs
  obtain rfl : d = d' := hunique d rfl
  obtain ⟨-, hbytes, -⟩ := hwritten rfl (fun _ => some 3) (by simp)
  exact ⟨rfl, hread reads rfl, hbytes⟩

end JobPlane
