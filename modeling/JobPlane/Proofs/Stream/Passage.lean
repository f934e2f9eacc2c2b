import JobPlane.Proofs.Moves
import JobPlane.Proofs.Stream.Copy
import JobPlane.Stream.Proxy

/-!
# One direction of a bridge

A passage is one direction of a bridge with the parties at its far ends: one sends, and one receives. Whatever the two of them and the
copy between them do, what is received is the beginning of what was sent (`Passage.Sound`), and what becomes of the pipes once the copy is
over makes no difference for the receiver (`Passage.Agrees`).
-/

namespace JobPlane.Proxy

variable {c : Copy}

/-- The destination of a copy that goes on is left as it is. -/
theorem afterMove_going (hgoing : c.result = none) (dst : Pipe) : afterMove c dst = dst := by
  simp [afterMove, hgoing]

/-- The destination of a copy that is over is closed. -/
theorem afterMove_over (hover : c.result.isSome = true) (dst : Pipe) : afterMove c dst = dst.close := by
  simp [afterMove, hover]

/-! ## The parties of a passage -/

/-- What a party has sent. -/
structure Sender where
  /-- The bytes that its connection took. -/
  sent : Bytes := []
  /-- It has announced that it sends no more, or has gone away. -/
  closed : Bool := false

/-- Takes note of what sending some bytes came to. -/
def Sender.note (bs : Bytes) (w : Writing) (s : Sender) : Sender := { s with sent := s.sent ++ w.taken bs }

/-- One direction of a bridge, from one far end to the other. -/
structure Passage where
  copy : Copy := {}
  source : Pipe
  destination : Pipe
  sender : Sender := {}
  receiver : Receiver := {}

namespace Passage

/-- A passage through which nothing has gone yet. -/
def fresh (before behind : Nat) : Passage := { source := { capacity := before }, destination := { capacity := behind } }

/-- One move in a passage. -/
inductive Move
  /-- The sender tries to send some bytes. -/
  | send (bs : Bytes)
  /-- The sender announces that it sends no more, or goes away. -/
  | close
  /-- The receiver tries to receive at most `n` bytes. -/
  | receive (n : Nat)
  /-- The receiver goes away. -/
  | leave
  | copy (m : Copy.Move)

/-- Makes a move, where it is possible; a party that has gone away receives no more. -/
def step (w : Passage) : Move → Option Passage
  | .send bs =>
    let (came, source) := w.source.write bs
    some { w with source, sender := w.sender.note bs came }
  | .close => some { w with source := w.source.close, sender := { w.sender with closed := true } }
  | .receive n =>
    if w.receiver.gone then none
    else
      let (got, destination) := w.destination.read n
      some { w with destination, receiver := w.receiver.note got }
  | .leave =>
    if w.receiver.gone then none
    else some { w with destination := w.destination.abandon, receiver := { w.receiver with gone := true } }
  | .copy m =>
    (w.copy.step w.source w.destination m).map fun (copy, source, destination) =>
      { w with copy, source, destination := afterMove copy destination }

/-- The bridge drops both connections. -/
def release (w : Passage) : Passage := { w with source := w.source.abandon, destination := w.destination.close }

/-- A copy that is over stays over. -/
theorem over_step {w w' : Passage} {m : Move} (hs : w.step m = some w') (hover : w.copy.result.isSome = true) :
    w'.copy.result.isSome = true := by
  cases m with
  | send bs =>
    cases hs
    exact hover
  | close =>
    cases hs
    exact hover
  | receive n =>
    simp only [step] at hs
    split at hs
    · cases hs
    · cases hs
      exact hover
  | leave =>
    simp only [step] at hs
    split at hs
    · cases hs
    · cases hs
      exact hover
  | copy m =>
    obtain ⟨moved, hcopy, -⟩ := Option.map_eq_some_iff.mp hs
    rw [(Copy.turn_of_step hcopy).1] at hover
    cases hover

/-! ## What is carried -/

/-- What holds of a passage through which some bytes were carried: written to its destination. -/
structure Sound (w : Passage) (carried : Bytes) : Prop where
  moved_eq : w.copy.moved = carried.length
  /-- What is carried is received in order, and as long as the receiver is there nothing of it is lost. -/
  received : w.receiver.received <+: carried
  inside : w.receiver.gone = false → carried = w.receiver.received ++ w.destination.buffer
  /-- What is sent is carried in order, and as long as the copy goes on nothing of it is lost. -/
  sent : carried <+: w.sender.sent
  going : w.copy.result = none →
    w.sender.sent = carried ++ w.copy.held ++ w.source.buffer ∧ w.source.closed = w.sender.closed
  sourceEnded : w.copy.sourceEnded = true → w.source.closed = true ∧ w.source.buffer = []
  idle : w.copy.held = [] → w.copy.filled = 0
  /-- The copy ends well with all that was sent, and else only if the receiver is gone. -/
  ok : ∀ n, w.copy.result = some (.ok n) →
    n = carried.length ∧ w.sender.sent = carried ∧ w.sender.closed = true ∧ w.source.closed = true
  error : ∀ e, w.copy.result = some (.error e) → w.receiver.gone = true
  /-- The destination is closed by the copy's end, and else only by the receiver. -/
  closed : w.copy.result.isSome = true → w.destination.closed = true
  destination : w.destination.closed = true → w.receiver.gone = true ∨ w.copy.result.isSome = true
  ended : w.receiver.ended = true → (∃ n, w.copy.result = some (.ok n)) ∧ w.receiver.received = carried

namespace Sound

variable {w w' : Passage} {carried bs : Bytes} {m : Move}

/-- Through a fresh passage nothing is carried yet. -/
theorem fresh (before behind : Nat) : Sound (Passage.fresh before behind) [] where
  moved_eq := rfl
  received := List.nil_prefix
  inside _ := rfl
  sent := List.nil_prefix
  going _ := ⟨rfl, rfl⟩
  sourceEnded h := by cases h
  idle _ := rfl
  ok n h := by cases h
  error e h := by cases h
  closed h := by cases h
  destination h := by cases h
  ended h := by cases h

/-- Where nothing more is carried, what is carried stays the same. -/
theorem nothing_more (h : Sound w carried) : ∃ more, Sound w (carried ++ more) := ⟨[], by rwa [List.append_nil]⟩

/-- Sending more bytes keeps a passage sound: a closed source takes none. -/
theorem send (h : Sound w carried) (bs : Bytes) :
    Sound { w with source := (w.source.write bs).2, sender := w.sender.note bs (w.source.write bs).1 } carried := by
  have hbuffer := Pipe.buffer_write bs w.source
  have hclosed := (Pipe.write_keeps bs w.source).2
  refine { h with sent := ?_, going := ?_, sourceEnded := ?_, ok := ?_ }
  · exact h.sent.trans (List.prefix_append _ _)
  · intro hgoing
    obtain ⟨hsent, hsame⟩ := h.going hgoing
    refine ⟨?_, hclosed.trans hsame⟩
    change w.sender.sent ++ _ = _
    rw [hsent, hbuffer, List.append_assoc _ w.source.buffer]
  · intro hend
    obtain ⟨hsource, hempty⟩ := h.sourceEnded hend
    refine ⟨hclosed.trans hsource, ?_⟩
    rw [hbuffer, hempty, Pipe.taken_of_closed hsource]
    rfl
  · intro n hn
    obtain ⟨hlength, hsent, hsender, hsource⟩ := h.ok n hn
    refine ⟨hlength, ?_, hsender, hclosed.trans hsource⟩
    change w.sender.sent ++ _ = _
    rw [Pipe.taken_of_closed hsource, List.append_nil, hsent]

/-- A passage stays sound when its sender announces the end. -/
theorem close (h : Sound w carried) :
    Sound { w with source := w.source.close, sender := { w.sender with closed := true } } carried :=
  { h with
    going := fun hgoing => ⟨(h.going hgoing).1, rfl⟩
    sourceEnded := fun hend => ⟨rfl, (h.sourceEnded hend).2⟩
    ok := fun n hn => ⟨(h.ok n hn).1, (h.ok n hn).2.1, rfl, rfl⟩ }

/-- Receiving keeps a passage sound. The end of input shows only behind all that was sent. -/
theorem receive (h : Sound w carried) (hthere : w.receiver.gone = false) (n : Nat) :
    Sound { w with destination := (w.destination.read n).2, receiver := w.receiver.note (w.destination.read n).1 } carried := by
  cases hread : w.destination.read n with
  | mk got rest =>
    have hinside := h.inside hthere
    cases got with
    | data bs =>
      obtain ⟨hb, hrest, -, -⟩ := Pipe.read_data hread
      have hclosed : rest.closed = w.destination.closed := by rw [hrest]
      have hall : carried = (w.receiver.received ++ bs) ++ rest.buffer := by rw [hinside, hb, List.append_assoc]
      refine { h with received := ?_, inside := fun _ => hall, closed := ?_, destination := ?_, ended := ?_ }
      · exact ⟨rest.buffer, hall.symm⟩
      · exact fun hover => hclosed.trans (h.closed hover)
      · exact fun hdestination => h.destination (hclosed.symm.trans hdestination)
      · intro hended
        obtain ⟨hok, hreceived⟩ := h.ended hended
        -- nothing is left behind an end that was found
        have hnone : bs ++ rest.buffer = [] := by
          rw [hinside, hb] at hreceived
          simpa using hreceived
        refine ⟨hok, ?_⟩
        change w.receiver.received ++ bs = carried
        rw [(List.append_eq_nil_iff.mp hnone).1, List.append_nil, hreceived]
    | eof =>
      obtain ⟨hclosed, hb, rfl⟩ := Pipe.read_eof hread
      refine { h with ended := fun _ => ?_ }
      have hall : w.receiver.received = carried := by rw [hinside, hb, List.append_nil]
      rcases h.destination hclosed with hgone | hover
      · rw [hthere] at hgone
        cases hgone
      · obtain ⟨result, hresult⟩ := Option.isSome_iff_exists.mp hover
        cases result with
        | ok n => exact ⟨⟨n, hresult⟩, hall⟩
        | error e =>
          have hgone := h.error e hresult
          rw [hthere] at hgone
          cases hgone
    | failed e => exact absurd hread Pipe.read_ne_failed
    | waiting =>
      have hrest : rest = w.destination := by
        unfold Pipe.read at hread
        split at hread
        · exact (Prod.mk.inj hread).2.symm
        · cases (Prod.mk.inj hread).1
      rw [hrest]
      exact h

/-- A passage stays sound when its receiver goes away. -/
theorem leave (h : Sound w carried) :
    Sound { w with destination := w.destination.abandon, receiver := { w.receiver with gone := true } } carried :=
  { h with
    inside := by simp
    error := fun _ _ => rfl
    closed := fun _ => rfl
    destination := fun _ => Or.inl rfl }

/-- While the copy goes on no end of input was found. -/
theorem not_ended (h : Sound w carried) (hgoing : w.copy.result = none) : w.receiver.ended ≠ true := by
  intro hended
  obtain ⟨⟨n, hok⟩, -⟩ := h.ended hended
  rw [hgoing] at hok
  cases hok

/-- What the copy reads it holds. -/
theorem read {later : Bytes} (h : Sound w carried) (hgoing : w.copy.result = none) (hend : w.copy.sourceEnded = false)
    (hb : w.source.buffer = bs ++ later) (hne : bs ≠ []) :
    Sound { w with
      copy := { w.copy with held := w.copy.held ++ bs, filled := w.copy.filled + bs.length }
      source := { w.source with buffer := later } } carried := by
  obtain ⟨hsent, hclosed⟩ := h.going hgoing
  refine { h with going := fun _ => ⟨?_, hclosed⟩, sourceEnded := ?_, idle := ?_ }
  · rw [hsent, hb]
    simp
  · intro hended
    rw [hend] at hended
    cases hended
  · intro hheld
    exact absurd (List.append_eq_nil_iff.mp hheld).2 hne

/-- What the copy writes is carried then. -/
theorem wrote {n : Nat} (h : Sound w carried) (hgoing : w.copy.result = none) (hn : n ≤ w.copy.held.length) :
    Sound { w with
      copy := { w.copy with
        held := w.copy.held.drop n
        filled := if (w.copy.held.drop n).isEmpty then 0 else w.copy.filled
        moved := w.copy.moved + n }
      destination := { w.destination with buffer := w.destination.buffer ++ w.copy.held.take n } }
      (carried ++ w.copy.held.take n) := by
  obtain ⟨hsent, hclosed⟩ := h.going hgoing
  have hlength : (w.copy.held.take n).length = n := by rw [List.length_take, Nat.min_eq_left hn]
  have hcut : w.sender.sent = carried ++ w.copy.held.take n ++ w.copy.held.drop n ++ w.source.buffer := by
    rw [hsent, List.append_assoc carried (List.take n _), List.take_append_drop]
  refine { h with
    moved_eq := ?_, received := ?_, inside := ?_, sent := ?_, going := fun _ => ⟨hcut, hclosed⟩, idle := ?_, ok := ?_, ended := ?_ }
  · rw [List.length_append, hlength, ← h.moved_eq]
  · exact h.received.trans (List.prefix_append _ _)
  · intro hthere
    rw [h.inside hthere, List.append_assoc]
  · refine ⟨w.copy.held.drop n ++ w.source.buffer, ?_⟩
    rw [hcut, List.append_assoc _ (List.drop n _)]
  · intro hheld
    exact if_pos (List.isEmpty_iff.mpr hheld)
  · intro n hok
    rw [hgoing] at hok
    cases hok
  · exact fun hended => absurd hended (h.not_ended hgoing)

/-- A copy fails only where the receiver is gone. -/
theorem failed (h : Sound w carried) (hgoing : w.copy.result = none) (hdestination : w.destination.closed = true) (e : StreamError) :
    Sound { w with copy := { w.copy with result := some (.error e) }, destination := w.destination.close } carried := by
  have hgone : w.receiver.gone = true := by
    rcases h.destination hdestination with hgone | hover
    · exact hgone
    · rw [hgoing] at hover
      cases hover
  refine { h with
    going := ?_, ok := ?_, error := fun _ _ => hgone, closed := fun _ => rfl, destination := fun _ => Or.inl hgone, ended := ?_ }
  · intro hnone
    cases hnone
  · intro n hok
    cases hok
  · exact fun hended => absurd hended (h.not_ended hgoing)

/-- A copy that ends well has carried all that was sent. -/
theorem conclude (h : Sound w carried) (hgoing : w.copy.result = none) (hend : w.copy.sourceEnded = true) (hheld : w.copy.held = []) :
    Sound { w with copy := { w.copy with result := some (.ok w.copy.moved) }, destination := w.destination.close } carried := by
  obtain ⟨hsent, hclosed⟩ := h.going hgoing
  obtain ⟨hsource, hempty⟩ := h.sourceEnded hend
  have hall : w.sender.sent = carried := by
    rw [hsent, hheld, hempty]
    simp
  refine { h with
    going := ?_, ok := ?_, error := ?_, closed := fun _ => rfl, destination := fun _ => Or.inr rfl, ended := ?_ }
  · intro hnone
    cases hnone
  · rintro n hok
    cases hok
    exact ⟨h.moved_eq, hall, hclosed.symm.trans hsource, hsource⟩
  · intro e herror
    cases herror
  · exact fun hended => absurd hended (h.not_ended hgoing)

/-- A turn of the copy keeps a passage sound, with what is carried then. -/
theorem turn {c : Copy} {src dst : Pipe} (h : Sound w carried) (hgoing : w.copy.result = none)
    (ht : w.copy.Turn w.source w.destination c src dst) :
    ∃ more, Sound { w with copy := c, source := src, destination := afterMove c dst } (carried ++ more) := by
  cases ht with
  | read hend hb hne =>
    rw [afterMove_going]
    case hgoing => exact hgoing
    exact (h.read hgoing hend hb hne).nothing_more
  | drained hsource hb =>
    rw [afterMove_going]
    case hgoing => exact hgoing
    exact nothing_more { h with sourceEnded := fun _ => ⟨hsource, hb⟩ }
  | @wrote n hopen hn =>
    rw [afterMove_going]
    case hgoing => exact hgoing
    exact ⟨_, h.wrote hgoing hn⟩
  | failed hdestination e =>
    rw [afterMove_over]
    case hover => rfl
    exact (h.failed hgoing hdestination e).nothing_more
  | conclude hend hheld =>
    rw [afterMove_over]
    case hover => rfl
    exact (h.conclude hgoing hend hheld).nothing_more

/-- Every move keeps a passage sound, with what is carried then. -/
theorem step (h : Sound w carried) (hs : w.step m = some w') : ∃ more, Sound w' (carried ++ more) := by
  cases m with
  | send bs =>
    cases hs
    exact (h.send bs).nothing_more
  | close =>
    cases hs
    exact h.close.nothing_more
  | receive n =>
    simp only [Passage.step] at hs
    split at hs
    · cases hs
    · rename_i hthere
      cases hs
      exact (h.receive (by simpa using hthere) n).nothing_more
  | leave =>
    simp only [Passage.step] at hs
    split at hs
    · cases hs
    · cases hs
      exact h.leave.nothing_more
  | copy m =>
    obtain ⟨⟨c, src, dst⟩, hcopy, heq⟩ := Option.map_eq_some_iff.mp hs
    cases heq
    obtain ⟨hgoing, hturn⟩ := Copy.turn_of_step hcopy
    exact h.turn hgoing hturn

/-- A passage whose copy is over stays sound when the connections are dropped. -/
theorem release (h : Sound w carried) (hover : w.copy.result.isSome = true) : Sound w.release carried := by
  refine { h with
    going := ?_, sourceEnded := fun _ => ⟨rfl, rfl⟩, ok := ?_, closed := fun _ => rfl, destination := fun _ => Or.inr hover }
  · intro hgoing
    rw [show w.copy.result = none from hgoing] at hover
    cases hover
  · intro n hn
    obtain ⟨hlength, hsent, hclosed, -⟩ := h.ok n hn
    exact ⟨hlength, hsent, hclosed, rfl⟩

/-- At the end of input all that was sent is received, and nothing more is sent. -/
theorem all_of_ended (h : Sound w carried) (hended : w.receiver.ended = true) :
    w.sender.closed = true ∧ w.receiver.received = w.sender.sent := by
  obtain ⟨⟨n, hok⟩, hall⟩ := h.ended hended
  obtain ⟨-, hsent, hclosed, -⟩ := h.ok n hok
  exact ⟨hclosed, hall.trans hsent.symm⟩

/-- What counts as carried: all that was sent if the copy ended well, and nothing if it failed. -/
theorem carried_eq (h : Sound w carried) :
    (∀ n, w.copy.result = some (.ok n) → w.sender.closed = true ∧ w.copy.carried = w.sender.sent.length) ∧
    ∀ e, w.copy.result = some (.error e) → w.receiver.gone = true ∧ w.copy.carried = 0 := by
  refine ⟨fun n hok => ?_, fun e herror => ⟨h.error e herror, ?_⟩⟩
  · obtain ⟨rfl, hsent, hclosed, -⟩ := h.ok n hok
    refine ⟨hclosed, ?_⟩
    rw [Copy.carried, hok, hsent]
  · rw [Copy.carried, herror]

end Sound

/-! ## What happens elsewhere -/

/-- Two passages that bring the receiver the same: they differ in their source at most once the copy is over, and in what the sender's
connection took. -/
structure Agrees (v w : Passage) : Prop where
  copy : v.copy = w.copy
  destination : v.destination = w.destination
  receiver : v.receiver = w.receiver
  source : v.copy.result = none → v.source = w.source

namespace Agrees

variable {v v' w : Passage} {m : Move} {carried : Bytes}

/-- Every passage agrees with itself. -/
theorem refl (w : Passage) : Agrees w w := ⟨rfl, rfl, rfl, fun _ => rfl⟩

/-- What is possible in one of two passages that agree is possible in the other, and they agree afterwards. -/
theorem step (h : Agrees v w) (hs : v.step m = some v') : ∃ w', w.step m = some w' ∧ Agrees v' w' := by
  obtain ⟨hcopy, hdestination, hreceiver, hsource⟩ := h
  cases m with
  | send bs =>
    cases hs
    refine ⟨_, rfl, hcopy, hdestination, hreceiver, fun hgoing => ?_⟩
    change (v.source.write bs).2 = (w.source.write bs).2
    rw [hsource hgoing]
  | close =>
    cases hs
    refine ⟨_, rfl, hcopy, hdestination, hreceiver, fun hgoing => ?_⟩
    change v.source.close = w.source.close
    rw [hsource hgoing]
  | receive n =>
    simp only [Passage.step] at hs ⊢
    rw [hreceiver, hdestination] at hs
    split at hs
    · cases hs
    · rename_i hthere
      cases hs
      rw [if_neg hthere]
      exact ⟨_, rfl, hcopy, rfl, rfl, hsource⟩
  | leave =>
    simp only [Passage.step] at hs ⊢
    rw [hreceiver, hdestination] at hs
    split at hs
    · cases hs
    · rename_i hthere
      cases hs
      rw [if_neg hthere]
      exact ⟨_, rfl, hcopy, rfl, rfl, hsource⟩
  | copy m =>
    obtain ⟨⟨c, src, dst⟩, hstep, heq⟩ := Option.map_eq_some_iff.mp hs
    cases heq
    -- the copy still goes on, so that the sources are the same
    obtain ⟨hgoing, -⟩ := Copy.turn_of_step hstep
    rw [hcopy, hsource hgoing, hdestination] at hstep
    refine ⟨{ w with copy := c, source := src, destination := afterMove c dst }, ?_, rfl, rfl, hreceiver, fun _ => rfl⟩
    simp [Passage.step, hstep]

/-- Passages that agree go on agreeing when the connections of one of them are dropped after its copy is over. -/
theorem release (h : Agrees v w) (hsound : Sound v carried) (hover : v.copy.result.isSome = true) : Agrees v.release w := by
  refine { h with destination := (Pipe.close_of_closed (hsound.closed hover)).trans h.destination, source := ?_ }
  intro hgoing
  rw [show v.copy.result = none from hgoing] at hover
  cases hover

end Agrees

end Passage

end JobPlane.Proxy
