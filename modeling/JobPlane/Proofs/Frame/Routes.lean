import JobPlane.Proofs.Frame.Split

/-!
# Where payloads are

`Splitter.Shares` accounts for the payloads that a pump has read, for each stream whose reader is still there: one after another, they are
what was taken out of the stream's pipe, what is in it, and what the pump still holds. As long as somebody is there every move of the pump
keeps this (`Shares.turn`), and so does a reader that takes something out of its pipe (`Shares.draw`) or goes away (`Shares.leave`).
`Splitter.Routes` is the same for a pump whose readers both stay.
-/

namespace JobPlane

namespace Splitter

variable {s s' : Splitter} {k : OutputKind}

/-- What a pump still holds of a stream. -/
def held (s : Splitter) (k : OutputKind) : Bytes :=
  match s.phase with
  | .writing k' rest => if k = k' then rest else []
  | _ => []

/-- How the reading of a source has gone: what was read, and how its end was found. -/
structure Intake where
  got : Bytes := []
  stop : Option (Except StreamError Unit) := none

/-- A read is noted. -/
def Intake.note (i : Intake) : Reading → Intake
  | .data bs => { i with got := i.got ++ bs }
  | .eof => { i with stop := some (.ok ()) }
  | .failed e => { i with stop := some (.error e) }
  | .waiting => i

/-- The frames that a pump has had of what it has read, and how that ended where the pump has ended. -/
def Paces (p : PumpPhase) (i : Intake) (frames : List Frame) : Prop :=
  match p with
  | .reading r => r.Tracks i.got frames ∧ i.stop = none
  | .writing _ _ => FrameReader.fresh.Tracks i.got frames ∧ i.stop = none
  | .ended r =>
    (i.stop = some (.ok ()) ∧ Frame.parse i.got = (frames, r)) ∨
      (∃ e fr, i.stop = some (.error e) ∧ r = .error e ∧ Frame.parse i.got = (frames, FrameReader.close fr)) ∨
      (i.stop = none ∧ ∃ t, r = .error (.unknownTag t) ∧ ∀ rest, Frame.parse (i.got ++ rest) = (frames, .error (.unknownTag t)))

/-- Every payload of the frames that came in for a reader that has not gone is in one place: taken out of its pipe, in the pipe, or with
the pump. -/
structure Shares (s : Splitter) (i : Intake) (frames : List Frame) (out : OutputKind → Bytes) (gone : OutputKind → Bool) : Prop where
  paces : Paces s.phase i frames
  taken : ∀ k, out k <+: Frame.payloads k frames
  conserved : ∀ k, gone k = false → Frame.payloads k frames = out k ++ (s.lane k).pipe.buffer ++ s.held k
  live : ∀ k, gone k = false → (s.lane k).live = true
  closed : ∀ k, gone k = false → (s.lane k).pipe.closed = true → ∃ r, s.phase = .ended r

/-- The payloads of frames are the beginning of those of these frames and more. -/
theorem prefix_payloads (k : OutputKind) {frames frames' : List Frame} (h : frames <+: frames') :
    Frame.payloads k frames <+: Frame.payloads k frames' := by
  obtain ⟨more, rfl⟩ := h
  simp [Frame.payloads]

namespace Shares

variable {i : Intake} {frames : List Frame} {out : OutputKind → Bytes} {gone : OutputKind → Bool}

/-- The pipe of a reader that is there is open while the pump moves. -/
theorem open_of_moving (h : s.Shares i frames out gone) (hp : ∀ p, s.phase ≠ .ended p) (hk : gone k = false) :
    (s.lane k).pipe.closed = false := by
  cases hclosed : (s.lane k).pipe.closed with
  | false => rfl
  | true =>
    obtain ⟨p, hended⟩ := h.closed k hk hclosed
    exact absurd hended (hp p)

/-- A pump that reads holds nothing. -/
theorem conserved_of_reading {r : FrameReader} (h : s.Shares i frames out gone) (hp : s.phase = .reading r) (hk : gone k = false) :
    Frame.payloads k frames = out k ++ (s.lane k).pipe.buffer := by
  have hconserved := h.conserved k hk
  simp only [held, hp, List.append_nil] at hconserved
  exact hconserved

/-- A reader that tracks what was read goes on in a pump that reads. -/
theorem reading {r r' : FrameReader} {i' : Intake} (h : s.Shares i frames out gone) (hp : s.phase = .reading r)
    (hpaces : Paces (.reading r') i' frames) : Shares { s with phase := .reading r' } i' frames out gone where
  paces := hpaces
  taken := h.taken
  conserved k hk := by simpa [held] using h.conserved_of_reading hp hk
  live k hk := by simpa using h.live k hk
  closed k hk hclosed := by simp [h.open_of_moving (by simp [hp]) hk] at hclosed

/-- A pump that reads ends. -/
theorem finish {r : FrameReader} {p : Except StreamError Unit} {i' : Intake} (h : s.Shares i frames out gone)
    (hp : s.phase = .reading r) (hpaces : Paces (.ended p) i' frames) : Shares (s.finish p) i' frames out gone where
  paces := hpaces
  taken := h.taken
  conserved k hk := by
    rw [lane_finish]
    simpa [held, Pipe.close] using h.conserved_of_reading hp hk
  live k hk := by
    rw [lane_finish]
    exact h.live k hk
  closed k _ _ := ⟨p, rfl⟩

/-- A complete frame is passed on. -/
theorem pass {r : FrameReader} {f : Frame} {i' : Intake} (h : s.Shares i frames out gone) (hp : s.phase = .reading r)
    (ht : FrameReader.fresh.Tracks i'.got (frames ++ [f])) (hstop : i'.stop = none) :
    Shares (s.pass f) i' (frames ++ [f]) out gone := by
  have hmore : ∀ k, out k <+: Frame.payloads k (frames ++ [f]) :=
    fun k => (h.taken k).trans (prefix_payloads k (List.prefix_append _ _))
  have hopen : ∀ k, gone k = false → (s.lane k).pipe.closed = false := fun k => h.open_of_moving (by simp [hp])
  rcases s.pass_cases f with ⟨hlive, hne, heq⟩ | ⟨hskip, heq⟩
  · rw [heq]
    refine ⟨⟨ht, hstop⟩, hmore, fun k hk => ?_, fun k hk => by simpa using h.live k hk, fun k hk hclosed => by simp [hopen k hk] at hclosed⟩
    rw [Frame.payloads_concat, h.conserved_of_reading hp hk]
    simp [held]
  · rw [heq]
    refine ⟨⟨ht, hstop⟩, hmore, fun k hk => ?_, fun k hk => by simpa using h.live k hk, fun k hk hclosed => by simp [hopen k hk] at hclosed⟩
    have hempty : k = f.kind → f.payload = [] := by
      rintro rfl
      simpa [h.live _ hk] using hskip
    rw [Frame.payloads_concat, h.conserved_of_reading hp hk]
    by_cases hkind : k = f.kind
    · simp [held, hkind, hempty hkind]
    · simp [held, hkind]

/-- A part of a payload goes into its pipe. -/
theorem put {rest : Bytes} {n : Nat} (h : s.Shares i frames out gone) (hp : s.phase = .writing k rest) :
    Shares { s.setLane k { s.lane k with pipe := { (s.lane k).pipe with buffer := (s.lane k).pipe.buffer ++ rest.take n } }
      with phase := if (rest.drop n).isEmpty then .reading .fresh else .writing k (rest.drop n) } i frames out gone := by
  have hpaces := h.paces
  rw [hp] at hpaces
  refine ⟨?_, h.taken, fun k' hk' => ?_, fun k' hk' => ?_, fun k' hk' hclosed => ?_⟩
  · cases hrest : (rest.drop n).isEmpty <;> exact hpaces
  · have hconserved := h.conserved k' hk'
    simp only [held, hp] at hconserved
    rw [hconserved]
    simp only [lane_with_phase, lane_setLane, held]
    by_cases heq : k' = k
    · subst heq
      cases hrest : (rest.drop n).isEmpty with
      | true => simp [List.drop_eq_nil_iff.mp (List.isEmpty_iff.mp hrest), List.take_of_length_le]
      | false => simp [List.take_append_drop]
    · cases hrest : (rest.drop n).isEmpty <;> simp [heq]
  · simp only [lane_with_phase, lane_setLane]
    split
    · rename_i heq
      exact h.live k (heq ▸ hk')
    · exact h.live k' hk'
  · have hopen : (s.lane k').pipe.closed = false := h.open_of_moving (by simp [hp]) hk'
    simp only [lane_with_phase, lane_setLane] at hclosed
    split at hclosed
    · rename_i heq
      subst heq
      simp [hopen] at hclosed
    · simp [hopen] at hclosed

/-- The pump finds a reader gone, while another is there. -/
theorem lose {rest : Bytes} (h : s.Shares i frames out gone) (hp : s.phase = .writing k rest) (hgone : gone k = true)
    {k' : OutputKind} (hstays : gone k' = false) : Shares (s.lose k) i frames out gone := by
  have hpaces := h.paces
  rw [hp] at hpaces
  have hother : ∀ j, gone j = false → j ≠ k := by
    rintro j hj rfl
    rw [hgone] at hj
    cases hj
  rw [lose_of_live (hother k' hstays) (h.live k' hstays)]
  refine ⟨hpaces, h.taken, fun j hj => ?_, fun j hj => ?_, fun j hj hclosed => ?_⟩
  · have hconserved := h.conserved j hj
    simpa [held, hp, lane_setLane, hother j hj] using hconserved
  · simpa [lane_setLane, hother j hj] using h.live j hj
  · have hopen : (s.lane j).pipe.closed = false := h.open_of_moving (by simp [hp]) hj
    simp [lane_setLane, hother j hj, hopen] at hclosed

/-- What the pump's moves keep while a reader is there: the payloads of those that are there stay in one place each, and none of them is
lost or comes twice. -/
theorem turn {r : Option Reading} (h : s.Shares i frames out gone) (ht : s.Turn r s') {j : OutputKind} (hstays : gone j = false) :
    ∃ frames', s'.Shares ((r.map i.note).getD i) frames' out gone := by
  have hpaces := h.paces
  cases ht with
  | more hp hb htake =>
    rw [hp] at hpaces
    exact ⟨frames, h.reading hp ⟨hpaces.1.more hb htake, hpaces.2⟩⟩
  | complete hp hb htake =>
    rw [hp] at hpaces
    exact ⟨_, h.pass hp (hpaces.1.complete hb htake) hpaces.2⟩
  | unknown hp hb htake =>
    rw [hp] at hpaces
    obtain ⟨t, rfl⟩ := FrameReader.take_error htake
    exact ⟨frames, h.finish hp (Or.inr (Or.inr ⟨hpaces.2, t, rfl, hpaces.1.unknown hb htake⟩))⟩
  | ceased hp =>
    rw [hp] at hpaces
    exact ⟨frames, h.finish hp (Or.inl ⟨rfl, hpaces.1.parse_eq⟩)⟩
  | @broken r e hp =>
    rw [hp] at hpaces
    exact ⟨frames, h.finish hp (Or.inr (Or.inl ⟨e, r, rfl, rfl, hpaces.1.parse_eq⟩))⟩
  | put hp hopen hpos => exact ⟨frames, h.put hp⟩
  | @lose k rest hp hclosed =>
    cases hgone : gone k with
    | false => simp [h.open_of_moving (by simp [hp]) hgone] at hclosed
    | true => exact ⟨frames, h.lose hp hgone hstays⟩

/-- A reader takes what is first in its pipe. -/
theorem draw {bs later : Bytes} (h : s.Shares i frames out gone) (hk : gone k = false) (hb : (s.lane k).pipe.buffer = bs ++ later) :
    Shares (s.mapPipe k fun p => { p with buffer := later }) i frames (fun k' => if k' = k then out k ++ bs else out k') gone where
  paces := by simpa using h.paces
  taken k' := by
    by_cases heq : k' = k
    · subst heq
      rw [if_pos rfl, h.conserved k' hk, hb]
      exact ⟨later ++ s.held k', by simp⟩
    · rw [if_neg heq]
      exact h.taken k'
  conserved k' hk' := by
    have hconserved := h.conserved k' hk'
    have hheld : (s.mapPipe k fun p => { p with buffer := later }).held k' = s.held k' := by simp [held]
    rw [hconserved, lane_mapPipe, hheld]
    by_cases heq : k' = k
    · subst heq
      simp [hb]
    · simp [heq]
  live k' hk' := by
    rw [lane_mapPipe]
    split
    · exact h.live k hk
    · exact h.live k' hk'
  closed k' hk' hclosed := by
    rw [lane_mapPipe] at hclosed
    rw [phase_mapPipe]
    split at hclosed
    · exact h.closed k hk hclosed
    · exact h.closed k' hk' hclosed

/-- A reader goes away. -/
theorem leave (h : s.Shares i frames out gone) (k : OutputKind) :
    Shares (s.mapPipe k Pipe.abandon) i frames out fun k' => if k' = k then true else gone k' := by
  have hstays : ∀ k', (if k' = k then true else gone k') = false → k' ≠ k ∧ gone k' = false := by
    intro k' hk'
    split at hk'
    · cases hk'
    · exact ⟨by assumption, hk'⟩
  refine ⟨by simpa using h.paces, h.taken, fun k' hk' => ?_, fun k' hk' => ?_, fun k' hk' hclosed => ?_⟩
  · obtain ⟨hne, hthere⟩ := hstays k' hk'
    have hheld : (s.mapPipe k Pipe.abandon).held k' = s.held k' := by simp [held]
    rw [hheld, lane_mapPipe, if_neg hne]
    exact h.conserved k' hthere
  · obtain ⟨hne, hthere⟩ := hstays k' hk'
    rw [lane_mapPipe, if_neg hne]
    exact h.live k' hthere
  · obtain ⟨hne, hthere⟩ := hstays k' hk'
    rw [lane_mapPipe, if_neg hne] at hclosed
    rw [phase_mapPipe]
    exact h.closed k' hthere hclosed

end Shares

/-! ## Readers that stay -/

/-- Every payload of the frames that came in is in one place: taken out of its pipe, in the pipe, or with the pump. Nobody has gone. -/
structure Routes (s : Splitter) (i : Intake) (frames : List Frame) (out : OutputKind → Bytes) : Prop where
  paces : Paces s.phase i frames
  conserved : ∀ k, Frame.payloads k frames = out k ++ (s.lane k).pipe.buffer ++ s.held k
  live : ∀ k, (s.lane k).live = true
  closed : ∀ k, (s.lane k).pipe.closed = true → ∃ r, s.phase = .ended r

namespace Routes

variable {i : Intake} {frames : List Frame} {out : OutputKind → Bytes}

/-- Where nobody has gone, all payloads are accounted for. -/
theorem iff_shares : s.Routes i frames out ↔ s.Shares i frames out fun _ => false := by
  constructor
  · intro h
    refine ⟨h.paces, fun k => ?_, fun k _ => h.conserved k, fun k _ => h.live k, fun k _ => h.closed k⟩
    rw [h.conserved k, List.append_assoc]
    exact List.prefix_append _ _
  · intro h
    exact ⟨h.paces, fun k => h.conserved k rfl, fun k => h.live k rfl, fun k => h.closed k rfl⟩

/-- A pump that has not begun. -/
theorem start : Routes {} {} [] fun _ => [] where
  paces := ⟨FrameReader.tracks_fresh, rfl⟩
  conserved k := by cases k <;> rfl
  live k := by cases k <;> rfl
  closed k h := by cases k <;> cases h

/-- The pipes are open while the pump moves. -/
theorem open_of_moving (h : s.Routes i frames out) (hp : ∀ p, s.phase ≠ .ended p) (k : OutputKind) :
    (s.lane k).pipe.closed = false :=
  (iff_shares.mp h).open_of_moving hp rfl

/-- What the pump's moves keep: payloads stay in one place each, and no payload is lost or comes twice. -/
theorem turn {r : Option Reading} (h : s.Routes i frames out) (ht : s.Turn r s') :
    ∃ frames', s'.Routes ((r.map i.note).getD i) frames' out := by
  obtain ⟨frames', hshares⟩ := (iff_shares.mp h).turn ht (j := .stdout) rfl
  exact ⟨frames', iff_shares.mpr hshares⟩

/-- A reader takes what is first in its pipe. -/
theorem draw {bs later : Bytes} (h : s.Routes i frames out) (hb : (s.lane k).pipe.buffer = bs ++ later) :
    Routes (s.mapPipe k fun p => { p with buffer := later }) i frames fun k' => if k' = k then out k ++ bs else out k' :=
  iff_shares.mpr ((iff_shares.mp h).draw rfl hb)

end Routes

end Splitter

end JobPlane
