import JobPlane.Proofs.Stream.Session
import JobPlane.Stream.Drain

/-!
# Connections that are given up

A parting is a connection being given up, with the party at its far end and with the time. The far end still sends, reads, announces its
end and goes away as it likes. Our end takes turns: it reads what is there, and where nothing is and its time is up it stops and goes away.
Time passes only while our end has nothing to do, so a turn is taken as soon as there is something to read or the time is up. What is read
and what is still in the pipe are always together what got in (`Parting.Sound`). `drained_in_time` says what is counted, and when our end
leaves.
-/

namespace JobPlane

open Proxy

/-- A connection being given up, with the party at its far end and the time. -/
structure Parting where
  drain : Drain
  /-- The connection, seen from the end that gives it up. -/
  link : Link
  /-- What the far end has done since the beginning. -/
  far : FarEnd := {}
  /-- The time since the beginning. -/
  clock : Nat := 0
  /-- When the far end announced that it sends no more, or went away. -/
  closedAt : Option Nat := none
  /-- When our end went away. -/
  leftAt : Option Nat := none

/-- Whether the far end sends nothing more after an act. -/
def Proxy.FarEnd.Act.closes : Act → Bool
  | .halfClose | .drop => true
  | .write _ | .read _ => false

namespace Parting

/-- The beginning: a connection in any state is given up. -/
def start (l : Link) : Parting where
  drain := (Drain.start l).1
  link := (Drain.start l).2
  closedAt := if l.incoming.closed then some 0 else none

/-- One move of a parting. -/
inductive Move
  /-- Our end takes a turn. -/
  | turn
  /-- Time passes. -/
  | wait
  | far (a : FarEnd.Act)

/-- What our end leaves after a turn; once it is over it goes away. -/
def after (s : Parting) (d : Drain) (l : Link) : Parting :=
  if d.timedOut.isSome then { s with drain := d, link := l.drop, leftAt := some s.clock } else { s with drain := d, link := l }

/-- Our end takes a turn: it reads, or stops where there is nothing to read and its time is up. -/
def turn (limit : Nat) (s : Parting) : Option Parting :=
  match s.drain.step s.link with
  | some (d, l) => some (s.after d l)
  | none => if s.drain.timedOut = none ∧ limit ≤ s.clock then some (s.after s.drain.expire s.link) else none

/-- Makes a move, where it is possible; a far end that has gone away does nothing more. -/
def step (limit : Nat) (s : Parting) : Move → Option Parting
  | .turn => s.turn limit
  | .wait => if (s.turn limit).isSome then none else some { s with clock := s.clock + 1 }
  | .far a =>
    if s.far.receiver.gone then none
    else
      let (far, l) := s.far.act s.link.flip a
      some { s with far, link := l.flip, closedAt := if a.closes then s.closedAt.or (some s.clock) else s.closedAt }

variable {limit : Nat} {l : Link} {s s' : Parting} {m : Move} {moves : List Move}

/-! ## What a move does -/

/-- What a turn of our end comes to. -/
inductive Turn (limit : Nat) (s : Parting) : Parting → Prop
  /-- It reads some of what is there. -/
  | read (hgoing : s.drain.timedOut = none) (hsome : s.link.incoming.buffer ≠ []) :
    Turn limit s { s with
      drain := { s.drain with discarded := s.drain.discarded + (s.link.incoming.buffer.take Drain.chunk).length }
      link := { s.link with incoming := { s.link.incoming with buffer := s.link.incoming.buffer.drop Drain.chunk } } }
  /-- It finds the end of input. -/
  | ended (hgoing : s.drain.timedOut = none) (hnone : s.link.incoming.buffer = []) (hclosed : s.link.incoming.closed = true) :
    Turn limit s { s with drain := { s.drain with timedOut := some false }, link := s.link.drop, leftAt := some s.clock }
  /-- It finds nothing, and its time is up. -/
  | timeUp (hgoing : s.drain.timedOut = none) (hnone : s.link.incoming.buffer = []) (hopen : s.link.incoming.closed = false)
      (hlimit : limit ≤ s.clock) :
    Turn limit s { s with drain := { s.drain with timedOut := some true }, link := s.link.drop, leftAt := some s.clock }

/-- A turn is one of these, or our end is over, or it has nothing to read and time left. -/
theorem turn_cases (limit : Nat) (s : Parting) :
    (∃ s', s.turn limit = some s' ∧ Turn limit s s') ∨
    (s.turn limit = none ∧ (s.drain.timedOut.isSome = true ∨
      s.link.incoming.buffer = [] ∧ s.link.incoming.closed = false ∧ s.clock < limit)) := by
  cases hover : s.drain.timedOut with
  | some b =>
    refine Or.inr ⟨?_, Or.inl rfl⟩
    simp [turn, Drain.step, hover]
  | none =>
    by_cases hbuffer : s.link.incoming.buffer = []
    · cases hclosed : s.link.incoming.closed with
      | true =>
        refine Or.inl ⟨_, ?_, .ended hover hbuffer hclosed⟩
        simp [turn, Drain.step, Link.read, Pipe.read, after, hover, hbuffer, hclosed]
      | false =>
        by_cases hlimit : limit ≤ s.clock
        · refine Or.inl ⟨_, ?_, .timeUp hover hbuffer hclosed hlimit⟩
          simp [turn, Drain.step, Link.read, Pipe.read, after, Drain.expire, hover, hbuffer, hclosed, hlimit]
        · refine Or.inr ⟨?_, Or.inr ⟨hbuffer, rfl, Nat.lt_of_not_le hlimit⟩⟩
          simp [turn, Drain.step, Link.read, Pipe.read, hover, hbuffer, hclosed, hlimit]
    · refine Or.inl ⟨_, ?_, .read hover hbuffer⟩
      simp [turn, Drain.step, Link.read, Pipe.read_of_ne_nil hbuffer, after, hover]

/-- What a turn comes to is one of these. -/
theorem turn_of_step (h : s.step limit .turn = some s') : Turn limit s s' := by
  rcases turn_cases limit s with ⟨t, ht, hturn⟩ | ⟨hnone, -⟩
  · obtain rfl : t = s' := Option.some.inj (ht.symm.trans h)
    exact hturn
  · exact absurd (hnone.symm.trans h) (by simp)

/-- A turn after which our end goes on has read something. -/
theorem Turn.buffer_lt (h : Turn limit s s') (hgoing : s'.drain.timedOut = none) :
    s'.link.incoming.buffer.length < s.link.incoming.buffer.length := by
  cases h with
  | read _ hsome =>
    have hpos := List.length_pos_iff.mpr hsome
    simp only [List.length_drop, Drain.chunk]
    omega
  | ended => cases hgoing
  | timeUp => cases hgoing

/-- A turn takes no time. -/
theorem Turn.clock_eq (h : Turn limit s s') : s'.clock = s.clock := by
  cases h <;> rfl

/-- Time passes only if our end is over, or has nothing to read and time left. -/
theorem idle_of_wait (h : s.step limit .wait = some s') :
    s' = { s with clock := s.clock + 1 } ∧ (s.drain.timedOut.isSome = true ∨
      s.link.incoming.buffer = [] ∧ s.link.incoming.closed = false ∧ s.clock < limit) := by
  simp only [step] at h
  split at h
  · cases h
  · rename_i hidle
    cases h
    rcases turn_cases limit s with ⟨t, ht, -⟩ | ⟨-, hwhy⟩
    · exact absurd (by rw [ht]; rfl) hidle
    · exact ⟨rfl, hwhy⟩

/-- What an act of the far end leaves. -/
structure Acted (s : Parting) (a : FarEnd.Act) (s' : Parting) : Prop where
  drain : s'.drain = s.drain
  clock : s'.clock = s.clock
  leftAt : s'.leftAt = s.leftAt
  capacity : s'.link.incoming.capacity = s.link.incoming.capacity
  sent : ∃ bs, s'.link.incoming.buffer = s.link.incoming.buffer ++ bs ∧ s'.far.sender.sent = s.far.sender.sent ++ bs ∧
    (s.link.incoming.closed = true → bs = [])
  closed : s'.link.incoming.closed = (s.link.incoming.closed || a.closes)
  closedAt : s'.closedAt = if a.closes then s.closedAt.or (some s.clock) else s.closedAt
  gone : s'.far.receiver.gone = true → a.closes = true
  outgoing : s.link.outgoing.closed = true → s'.link.outgoing.closed = true
  received : s'.far.receiver.received ++ s'.link.outgoing.buffer <+: s.far.receiver.received ++ s.link.outgoing.buffer

/-- A far end that has announced the end by now did so before, or does so now. -/
theorem Acted.closedAt_cases {a : FarEnd.Act} {t : Nat} (ha : Acted s a s') (ht : s'.closedAt = some t) :
    s.closedAt = some t ∨ t = s.clock := by
  rw [ha.closedAt] at ht
  split at ht
  · cases hbefore : s.closedAt with
    | none =>
      rw [hbefore] at ht
      exact Or.inr (Option.some.inj ht).symm
    | some u =>
      rw [hbefore] at ht
      exact Or.inl ht
  · exact Or.inl ht

/-- What an act of the far end leaves, for each of its acts. -/
theorem acted_of_step {a : FarEnd.Act} (h : s.step limit (.far a) = some s') : Acted s a s' := by
  simp only [step] at h
  split at h
  · cases h
  · rename_i hthere
    cases h
    -- only a write puts anything into the pipe
    have hnothing : ∃ bs, s.link.incoming.buffer = s.link.incoming.buffer ++ bs ∧ s.far.sender.sent = s.far.sender.sent ++ bs ∧
        (s.link.incoming.closed = true → bs = []) :=
      ⟨[], (List.append_nil _).symm, (List.append_nil _).symm, fun _ => rfl⟩
    cases a with
    | write bs =>
      obtain ⟨hcapacity, hclosed⟩ := Pipe.write_keeps bs s.link.incoming
      exact {
        drain := rfl, clock := rfl, leftAt := rfl, closedAt := rfl
        capacity := hcapacity
        sent := ⟨_, Pipe.buffer_write bs s.link.incoming, rfl, fun hshut => Pipe.taken_of_closed hshut bs⟩
        closed := hclosed.trans (Bool.or_false _).symm
        gone := fun hgone => absurd hgone hthere
        outgoing := id
        received := List.prefix_refl _ }
    | read n =>
      obtain ⟨hreceived, hgone, hclosed⟩ := s.far.receiver.note_read n s.link.outgoing
      exact {
        drain := rfl, clock := rfl, leftAt := rfl, closedAt := rfl, capacity := rfl
        sent := hnothing
        closed := (Bool.or_false _).symm
        gone := fun hnow => absurd (hgone.symm.trans hnow) hthere
        outgoing := fun hshut => hclosed.trans hshut
        received := hreceived ▸ List.prefix_refl _ }
    | halfClose =>
      exact {
        drain := rfl, clock := rfl, leftAt := rfl, closedAt := rfl, capacity := rfl
        sent := hnothing
        closed := (Bool.or_true _).symm
        gone := fun _ => rfl
        outgoing := id
        received := List.prefix_refl _ }
    | drop =>
      exact {
        drain := rfl, clock := rfl, leftAt := rfl, closedAt := rfl, capacity := rfl
        sent := hnothing
        closed := (Bool.or_true _).symm
        gone := fun _ => rfl
        outgoing := fun _ => rfl
        received := by simp [FarEnd.act, Link.flip, Link.drop, Pipe.abandon] }

/-! ## What a parting keeps -/

/-- What holds while our end goes on. -/
structure Going (limit : Nat) (l : Link) (s : Parting) : Prop where
  /-- What got into the pipe is read, or still there. -/
  counted : s.drain.discarded + s.link.incoming.buffer.length = l.incoming.buffer.length + s.far.sender.sent.length
  closed : s.link.incoming.closed = s.closedAt.isSome
  /-- Time does not pass between the far end's closing and our end's leaving. -/
  now : ∀ t, s.closedAt = some t → t = s.clock
  inTime : s.clock ≤ limit
  leftAt : s.leftAt = none

/-- What holds once our end is over, whether or not its time was up. -/
structure Left (limit : Nat) (l : Link) (s : Parting) (timedOut : Bool) : Prop where
  counted : s.drain.discarded = l.incoming.buffer.length + s.far.sender.sent.length
  /-- Nothing more gets into the pipe. -/
  closed : s.link.incoming.closed = true
  leftAt : ∃ t, s.leftAt = some t ∧ t ≤ s.clock ∧ t ≤ limit ∧ (timedOut = false → s.closedAt = some t) ∧
    (timedOut = true → t = limit ∧ ∀ u, s.closedAt = some u → t ≤ u)

/-- What holds of every parting. -/
structure Sound (limit : Nat) (l : Link) (s : Parting) : Prop where
  quiet : s.link.outgoing.closed = true
  received : s.far.receiver.received ++ s.link.outgoing.buffer <+: l.outgoing.buffer
  capacity : s.link.incoming.capacity = l.incoming.capacity
  gone : s.far.receiver.gone = true → s.closedAt.isSome = true
  going : s.drain.timedOut = none → Going limit l s
  left : ∀ b, s.drain.timedOut = some b → Left limit l s b

/-- A parting begins sound, with our end's announcement. -/
theorem sound_start (limit : Nat) (l : Link) : Sound limit l (start l) where
  quiet := rfl
  received := List.prefix_refl _
  capacity := rfl
  gone h := by cases h
  going _ := {
    counted := Nat.zero_add _
    closed := by
      simp only [start, Drain.start, Link.halfClose]
      cases l.incoming.closed <;> rfl
    now := by
      intro t ht
      simp only [start] at ht ⊢
      split at ht <;> cases ht
      rfl
    inTime := Nat.zero_le _
    leftAt := rfl }
  left b h := by cases h

namespace Sound

/-- A turn of our end keeps a parting sound. -/
theorem turn (h : Sound limit l s) (ht : Turn limit s s') : Sound limit l s' := by
  cases ht with
  | read hgoing hsome =>
    obtain ⟨hcounted, hclosed, hnow, hin, hleft⟩ := h.going hgoing
    refine { h with going := fun _ => ⟨?_, hclosed, hnow, hin, hleft⟩, left := ?_ }
    · have hsplit := congrArg List.length (List.take_append_drop Drain.chunk s.link.incoming.buffer)
      rw [List.length_append] at hsplit
      simp only
      omega
    · intro b hb
      exact absurd (hgoing.symm.trans hb) (by simp)
  | ended hgoing hnone hshut =>
    obtain ⟨hcounted, hclosed, hnow, hin, -⟩ := h.going hgoing
    rw [hnone, List.length_nil, Nat.add_zero] at hcounted
    rw [hshut] at hclosed
    obtain ⟨t, ht⟩ := Option.isSome_iff_exists.mp hclosed.symm
    refine { h with quiet := rfl, going := ?_, left := ?_ }
    · intro hnot
      cases hnot
    · rintro b ⟨⟩
      refine ⟨hcounted, rfl, s.clock, rfl, Nat.le_refl _, hin, fun _ => ?_, fun hup => by cases hup⟩
      rw [ht, hnow t ht]
  | timeUp hgoing hnone hopen hlimit =>
    obtain ⟨hcounted, hclosed, hnow, hin, -⟩ := h.going hgoing
    rw [hnone, List.length_nil, Nat.add_zero] at hcounted
    rw [hopen] at hclosed
    refine { h with quiet := rfl, going := ?_, left := ?_ }
    · intro hnot
      cases hnot
    · rintro b ⟨⟩
      refine ⟨hcounted, rfl, s.clock, rfl, Nat.le_refl _, hin, (fun hend => by cases hend), fun _ => ?_⟩
      refine ⟨Nat.le_antisymm hin hlimit, fun u hu => ?_⟩
      rw [hu] at hclosed
      cases hclosed

/-- The passing of time keeps a parting sound. -/
theorem wait (h : Sound limit l s) (hidle : s.drain.timedOut.isSome = true ∨
    s.link.incoming.buffer = [] ∧ s.link.incoming.closed = false ∧ s.clock < limit) :
    Sound limit l { s with clock := s.clock + 1 } := by
  refine { h with going := fun hgoing => ?_, left := fun b hb => ?_ }
  · obtain ⟨hcounted, hclosed, -, -, hleft⟩ := h.going hgoing
    rcases hidle with hover | ⟨-, hopen, hlimit⟩
    · rw [hgoing] at hover
      cases hover
    · refine ⟨hcounted, hclosed, fun t ht => ?_, hlimit, hleft⟩
      rw [hopen, ht] at hclosed
      cases hclosed
  · obtain ⟨hcounted, hclosed, t, ht, hle, hrest⟩ := h.left b hb
    exact ⟨hcounted, hclosed, t, ht, Nat.le_succ_of_le hle, hrest⟩

/-- What the far end does keeps a parting sound. -/
theorem act {a : FarEnd.Act} (h : Sound limit l s) (ha : Acted s a s') : Sound limit l s' := by
  obtain ⟨bs, hbuffer, hsent, hnothing⟩ := ha.sent
  refine ⟨ha.outgoing h.quiet, ha.received.trans h.received, ha.capacity.trans h.capacity, ?_, ?_, ?_⟩
  · intro hgone
    rw [ha.closedAt, if_pos (ha.gone hgone)]
    simp
  · intro hgoing
    rw [ha.drain] at hgoing
    obtain ⟨hcounted, hclosed, hnow, hin, hleft⟩ := h.going hgoing
    refine ⟨?_, ?_, ?_, ha.clock ▸ hin, ha.leftAt.trans hleft⟩
    · rw [ha.drain, hbuffer, hsent, List.length_append, List.length_append]
      omega
    · rw [ha.closed, hclosed, ha.closedAt]
      cases a.closes <;> simp
    · intro t ht
      rw [ha.clock]
      rcases ha.closedAt_cases ht with hbefore | hnew
      · exact hnow t hbefore
      · exact hnew
  · intro b hb
    rw [ha.drain] at hb
    obtain ⟨hcounted, hclosed, t, ht, hle, hlimit, hend, hup⟩ := h.left b hb
    refine ⟨?_, ?_, t, ha.leftAt.trans ht, ha.clock ▸ hle, hlimit, fun hf => ?_, fun htrue => ⟨(hup htrue).1, fun u hu => ?_⟩⟩
    · rw [ha.drain, hsent, hnothing hclosed, List.append_nil]
      exact hcounted
    · rw [ha.closed, hclosed]
      rfl
    · rw [ha.closedAt, hend hf]
      split <;> rfl
    · rcases ha.closedAt_cases hu with hbefore | hnew
      · exact (hup htrue).2 u hbefore
      · exact Nat.le_trans hle (Nat.le_of_eq hnew.symm)

/-- Every move keeps a parting sound. -/
theorem step (h : Sound limit l s) (hm : s.step limit m = some s') : Sound limit l s' := by
  cases m with
  | turn => exact h.turn (turn_of_step hm)
  | wait =>
    obtain ⟨rfl, hidle⟩ := idle_of_wait hm
    exact h.wait hidle
  | far a => exact h.act (acted_of_step hm)

end Sound

/-- Every parting is sound. -/
theorem sound_run (h : follow (step limit) (start l) moves = some s) : Sound limit l s :=
  follow_keeps h (fun _ _ _ _ hm ht => ht.step hm) (sound_start limit l)

/-! ## How a parting comes on -/

/-- Whether a move is a turn of our end or a unit of time. -/
def Move.advances : Move → Bool
  | .turn | .wait => true
  | .far _ => false

/-- How far a parting has come: the bytes read, the time passed, and its end. -/
def progress (s : Parting) : Nat := s.drain.discarded + s.clock + if s.drain.timedOut.isSome then 1 else 0

/-- A parting comes on with every turn of our end and with the time, and with nothing else. -/
theorem progress_step (h : s.step limit m = some s') : s.progress + (if m.advances then 1 else 0) ≤ s'.progress := by
  cases m with
  | turn =>
    cases turn_of_step h with
    | read hgoing hsome =>
      have hpos : 0 < (s.link.incoming.buffer.take Drain.chunk).length := by
        rw [List.length_take]
        exact Nat.lt_min.mpr ⟨by decide, List.length_pos_iff.mpr hsome⟩
      simp only [progress, Move.advances, hgoing, Option.isSome_none, if_true, Bool.false_eq_true, if_false]
      omega
    | ended hgoing => simp [progress, Move.advances, hgoing]
    | timeUp hgoing => simp [progress, Move.advances, hgoing]
  | wait =>
    obtain ⟨rfl, -⟩ := idle_of_wait h
    simp only [progress, Move.advances, if_true]
    omega
  | far a =>
    obtain ⟨hdrain, hclock⟩ := And.intro (acted_of_step h).drain (acted_of_step h).clock
    simp [progress, Move.advances, hdrain, hclock]

/-- A parting comes on with all its turns and all its time. -/
theorem progress_run (h : follow (step limit) s moves = some s') : s.progress + moves.countP Move.advances ≤ s'.progress := by
  induction moves generalizing s with
  | nil =>
    cases h
    exact Nat.le_refl _
  | cons m moves ih =>
    obtain ⟨t, hm, hrest⟩ := follow_cons_eq_some.mp h
    have hfirst := progress_step hm
    have hlater := ih hrest
    rw [List.countP_cons]
    omega

/-- By its own turns and with the time a parting comes to its end. -/
theorem exists_over (hgoing : s.drain.timedOut = none) (hclock : s.clock ≤ limit) :
    ∃ more s', (∀ m ∈ more, Move.advances m = true) ∧ follow (step limit) s more = some s' ∧ s'.drain.timedOut.isSome = true := by
  -- on what is left: the bytes in the pipe and the time
  induction hn : s.link.incoming.buffer.length + (limit - s.clock) using Nat.strongRecOn generalizing s with
  | ind n ih =>
    rcases turn_cases limit s with ⟨t, hstep, hturn⟩ | ⟨hnone, hover | ⟨-, -, hlimit⟩⟩
    · by_cases hover : t.drain.timedOut.isSome = true
      · exact ⟨[.turn], t, by simp [Move.advances], (follow_singleton _ _).trans hstep, hover⟩
      · have hgoing' : t.drain.timedOut = none := by simpa using hover
        have hless := hturn.buffer_lt hgoing'
        have hsame := hturn.clock_eq
        obtain ⟨more, s', hadvances, hfollow, hend⟩ := ih _ (by omega) hgoing' (hsame ▸ hclock) rfl
        exact ⟨.turn :: more, s', List.forall_mem_cons.mpr ⟨rfl, hadvances⟩, follow_cons_eq_some.mpr ⟨t, hstep, hfollow⟩, hend⟩
    · rw [hgoing] at hover
      cases hover
    · have hwait : s.step limit .wait = some { s with clock := s.clock + 1 } := by simp [step, hnone]
      have hless : s.link.incoming.buffer.length + (limit - (s.clock + 1)) < n := by omega
      obtain ⟨more, s', hadvances, hfollow, hend⟩ := ih _ hless (s := { s with clock := s.clock + 1 }) hgoing hlimit rfl
      exact ⟨.wait :: more, s', List.forall_mem_cons.mpr ⟨rfl, hadvances⟩, follow_cons_eq_some.mpr ⟨_, hwait, hfollow⟩, hend⟩

/-! ## The way through the pipe -/

/-- The far end is there with its pipe open, and our end goes on. -/
structure Sending (s : Parting) : Prop where
  going : s.drain.timedOut = none
  isOpen : s.link.incoming.closed = false
  there : s.far.receiver.gone = false

/-- The far end can send on, through the same pipe and at the same time. -/
structure Onward (s s' : Parting) : Prop where
  sending : Sending s'
  capacity : s'.link.incoming.capacity = s.link.incoming.capacity
  clock : s'.clock = s.clock

/-- A turn of our end makes room where something is in the pipe. -/
theorem Sending.turn (h : Sending s) (hsome : s.link.incoming.buffer ≠ []) (limit : Nat) :
    ∃ s', s.step limit .turn = some s' ∧ Onward s s' ∧ s'.far.sender.sent = s.far.sender.sent ∧
      s'.link.incoming.buffer.length < s.link.incoming.buffer.length := by
  rcases turn_cases limit s with ⟨s', hstep, hturn⟩ | ⟨-, hover | ⟨hnone, -⟩⟩
  · refine ⟨s', hstep, ?_⟩
    have hless := hturn.buffer_lt
    cases hturn with
    | read hgoing _ => exact ⟨⟨⟨hgoing, h.isOpen, h.there⟩, rfl, rfl⟩, rfl, hless hgoing⟩
    | ended _ hnone => exact absurd hnone hsome
    | timeUp _ hnone => exact absurd hnone hsome
  · rw [h.going] at hover
    cases hover
  · exact absurd hnone hsome

/-- A write of the far end gets some bytes in where there is room. -/
theorem Sending.write (h : Sending s) (hroom : s.link.incoming.room ≠ 0) {bs : Bytes} (hne : bs ≠ []) (limit : Nat) :
    ∃ n s', s.step limit (.far (.write bs)) = some s' ∧ Onward s s' ∧ 0 < n ∧ n ≤ bs.length ∧
      s'.far.sender.sent = s.far.sender.sent ++ bs.take n ∧
      s'.link.incoming.buffer.length = s.link.incoming.buffer.length + n := by
  have hpos := List.length_pos_iff.mpr hne
  obtain ⟨n, hn⟩ : ∃ n, n = min s.link.incoming.room bs.length := ⟨_, rfl⟩
  have hwrite : s.link.incoming.write bs = (.took n, { s.link.incoming with buffer := s.link.incoming.buffer ++ bs.take n }) := by
    rw [Pipe.write, if_neg (by simp [h.isOpen]), if_neg hroom, hn]
  have hstep : s.step limit (.far (.write bs)) = some { s with
      far := { s.far with sender := { s.far.sender with sent := s.far.sender.sent ++ bs.take n } }
      link := { s.link with incoming := { s.link.incoming with buffer := s.link.incoming.buffer ++ bs.take n } } } := by
    simp only [step, h.there, Bool.false_eq_true, if_false, FarEnd.act, Link.write, Link.flip, hwrite]
    rfl
  refine ⟨n, _, hstep, ⟨⟨h.going, h.isOpen, h.there⟩, rfl, rfl⟩, by omega, by omega, rfl, ?_⟩
  simp only [List.length_append, List.length_take]
  omega

/-- Whether a move is a turn of our end or a write of the far end. -/
def Move.carries : Move → Bool
  | .turn | .far (.write _) => true
  | .wait | .far _ => false

/-- While there is something to send, either end can move: a write takes bytes off those still to be sent, a turn off those in the pipe. -/
theorem Sending.exists_carries (h : Sending s) (hcapacity : 0 < s.link.incoming.capacity) {bs : Bytes} (hne : bs ≠ []) (limit : Nat) :
    ∃ m t k, Move.carries m = true ∧ s.step limit m = some t ∧ Onward s t ∧ t.far.sender.sent = s.far.sender.sent ++ bs.take k ∧
      2 * (bs.drop k).length + t.link.incoming.buffer.length < 2 * bs.length + s.link.incoming.buffer.length := by
  by_cases hroom : s.link.incoming.room = 0
  · have hsome : s.link.incoming.buffer ≠ [] := by
      intro hnone
      rw [Pipe.room, hnone, List.length_nil] at hroom
      omega
    obtain ⟨t, hstep, honward, hsent, hless⟩ := h.turn hsome limit
    refine ⟨.turn, t, 0, rfl, hstep, honward, ?_, ?_⟩
    · rw [hsent, List.take_zero, List.append_nil]
    · rw [List.drop_zero]
      omega
  · obtain ⟨k, t, hstep, honward, hpos, hle, hsent, hmore⟩ := h.write hroom hne limit
    refine ⟨.far (.write bs), t, k, rfl, hstep, honward, hsent, ?_⟩
    rw [List.length_drop]
    omega

/-- However small the pipe is, the far end gets into it whatever it likes, without the time passing. -/
theorem Sending.gets_in (h : Sending s) (hcapacity : 0 < s.link.incoming.capacity) (limit : Nat) (bs : Bytes) :
    ∃ more s', (∀ m ∈ more, Move.carries m = true) ∧ follow (step limit) s more = some s' ∧ Onward s s' ∧
      s'.far.sender.sent = s.far.sender.sent ++ bs := by
  -- on what is left to move: a byte still to be sent moves twice, a byte in the pipe once
  induction hn : 2 * bs.length + s.link.incoming.buffer.length using Nat.strongRecOn generalizing s bs with
  | ind n ih =>
    by_cases hbs : bs = []
    · exact ⟨[], s, by simp, rfl, ⟨h, rfl, rfl⟩, by rw [hbs, List.append_nil]⟩
    · obtain ⟨m, t, k, hm, hstep, ⟨ht, hsame, hclock⟩, hsent, hless⟩ := h.exists_carries hcapacity hbs limit
      obtain ⟨more, s', hcarries, hfollow, ⟨hs', hsame', hclock'⟩, hall⟩ :=
        ih _ (hn ▸ hless) ht (hsame ▸ hcapacity) (bs.drop k) rfl
      refine ⟨m :: more, s', List.forall_mem_cons.mpr ⟨hm, hcarries⟩, follow_cons_eq_some.mpr ⟨t, hstep, hfollow⟩, ?_, ?_⟩
      · exact ⟨hs', hsame'.trans hsame, hclock'.trans hclock⟩
      · rw [hall, hsent, List.append_assoc, List.take_append_drop]

/-! ## What a drained connection comes to -/

/-- What becomes of a connection that is given up, whatever its far end does and when, and however our end's turns fall between.
1. The far end receives nothing but what was on its way to it before, and behind that it finds the end of input.
2. Once our end is over, it has counted exactly the bytes that were in the pipe at the beginning or got in since. It has left no later than
its time was up: when the far end closed, or, if that had not closed by then, at the very end of its time.
3. Until then its time is not over, and none has passed since the far end closed. It can take a turn, or has read all there is and lets the
time pass; each of its turns has read a byte, so it comes to its end, also if the far end does nothing more. Through a pipe with any room at
all an open far end gets whatever it likes in no time. -/
theorem drained_in_time (h : follow (step limit) (start l) moves = some s) :
    (s.far.receiver.received ++ s.link.outgoing.buffer <+: l.outgoing.buffer ∧
      (s.link.outgoing.buffer = [] → ∀ n, (s.link.flip.read n).1 = .eof)) ∧
    (∀ timedOut, s.drain.timedOut = some timedOut →
      s.drain.discarded = l.incoming.buffer.length + s.far.sender.sent.length ∧
      ∃ t, s.leftAt = some t ∧ t ≤ limit ∧ (timedOut = false → s.closedAt = some t) ∧
        (timedOut = true → t = limit ∧ ∀ u, s.closedAt = some u → t ≤ u)) ∧
    (s.drain.timedOut = none →
      s.leftAt = none ∧ s.clock ≤ limit ∧ (∀ t, s.closedAt = some t → t = s.clock) ∧
      ((s.step limit .turn).isSome = true ∨ (s.step limit .wait).isSome = true ∧ s.link.incoming.buffer = []) ∧
      moves.countP Move.advances ≤ s.drain.discarded + s.clock ∧
      (∃ more s', (∀ m ∈ more, Move.advances m = true) ∧ follow (step limit) s more = some s' ∧
        s'.drain.timedOut.isSome = true) ∧
      (0 < l.incoming.capacity → s.closedAt = none → ∀ bs, ∃ more s', (∀ m ∈ more, Move.carries m = true) ∧
        follow (step limit) s more = some s' ∧ s'.drain.timedOut = none ∧ s'.clock = s.clock ∧
        s'.far.sender.sent = s.far.sender.sent ++ bs)) := by
  have hsound := sound_run h
  refine ⟨⟨hsound.received, fun hnone n => ?_⟩, fun b hb => ?_, fun hgoing => ?_⟩
  · simp [Link.read, Link.flip, Pipe.read, hnone, hsound.quiet]
  · obtain ⟨hcounted, -, t, ht, -, hlimit, hends⟩ := hsound.left b hb
    exact ⟨hcounted, t, ht, hlimit, hends⟩
  · obtain ⟨-, hclosed, hnow, hin, hleft⟩ := hsound.going hgoing
    refine ⟨hleft, hin, hnow, ?_, ?_, exists_over hgoing hin, fun hcapacity hopen bs => ?_⟩
    · rcases turn_cases limit s with ⟨s', hturn, -⟩ | ⟨hnone, hover | ⟨hempty, -⟩⟩
      · exact Or.inl (Option.isSome_iff_exists.mpr ⟨s', hturn⟩)
      · rw [hgoing] at hover
        cases hover
      · refine Or.inr ⟨?_, hempty⟩
        simp [step, hnone]
    · have hadvanced := progress_run h
      have hstart : (start l).progress = 0 := rfl
      have hprogress : s.progress = s.drain.discarded + s.clock := by
        rw [progress, hgoing]
        rfl
      omega
    · have hthere : s.far.receiver.gone = false := by
        refine Bool.eq_false_iff.mpr fun hgone => ?_
        have hsome := hsound.gone hgone
        rw [hopen] at hsome
        cases hsome
      have hsending : Sending s := ⟨hgoing, by rw [hclosed, hopen]; rfl, hthere⟩
      obtain ⟨more, s', hcarries, hfollow, honward, hsent⟩ := hsending.gets_in (hsound.capacity ▸ hcapacity) limit bs
      exact ⟨more, s', hcarries, hfollow, honward.sending.going, honward.clock, hsent⟩

/-- A far end that sends through a pipe for two bytes, looks whether anything comes, and announces its end before our time is up. -/
def announced : List Move :=
  [.far (.write [1, 2, 3]), .turn, .far (.read 5), .wait, .far (.write [2, 3]), .turn, .wait, .far (.write [4]), .far .halfClose,
   .turn, .turn]

/-- Our end leaves when the far end has announced its end, with all counted that it had sent, the byte of before included. -/
theorem drained_in_time_of_announced : ∃ s, follow (step 5) (start ⟨⟨2, [9], false⟩, ⟨2, [], false⟩⟩) announced = some s ∧
    s.far.sender.sent = [1, 2, 3, 4] ∧ s.far.receiver.ended = true ∧ s.closedAt = some 2 ∧ s.leftAt = some 2 ∧
    s.drain.discarded = 5 := by
  obtain ⟨s, hs⟩ : ∃ s, follow (step 5) (start ⟨⟨2, [9], false⟩, ⟨2, [], false⟩⟩) announced = some s := ⟨_, rfl⟩
  obtain ⟨-, hover, -⟩ := drained_in_time hs
  have hseen : s.far.sender.sent = [1, 2, 3, 4] ∧ s.far.receiver.ended = true ∧ s.closedAt = some 2 ∧
      s.drain.timedOut = some false := by
    cases hs
    exact ⟨rfl, rfl, rfl, rfl⟩
  obtain ⟨hsent, hended, hclosed, hdone⟩ := hseen
  obtain ⟨hcounted, t, hleft, -, hends, -⟩ := hover false hdone
  rw [hsent] at hcounted
  refine ⟨s, hs, hsent, hended, hclosed, ?_, hcounted⟩
  rw [hleft, ← hends rfl, hclosed]

end Parting

end JobPlane
