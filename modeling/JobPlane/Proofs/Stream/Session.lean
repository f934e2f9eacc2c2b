import JobPlane.Proofs.Stream.Passage

/-!
# Bridges with their parties

A session is a bridge with the parties at its two far ends, a client and a job, each of which sends, receives, announces its end and goes
away as it likes, while the two copies of the bridge move as they like. Each direction of a session is a passage
(`Session.passage_step`) that neither ends nor fails for anything that happens in the other (`Session.alone_run`).
`Session.transparent` says what the parties get from one another, when the bridge is over and what it counts.
-/

namespace JobPlane.Proxy

/-- One of the two parties that a bridge joins. -/
inductive Party
  | client
  | job
  deriving DecidableEq

/-- A party's connection, seen from the bridge. -/
def Party.link (p : Party) (b : Bridge) : Link :=
  match p with
  | .client => b.client
  | .job => b.job

/-- A bridge after something moved in a party's connection. -/
def Party.setLink (p : Party) (l : Link) (b : Bridge) : Bridge :=
  match p with
  | .client => { b with client := l }
  | .job => { b with job := l }

/-- Who sends in a direction. -/
def Direction.sender : Direction → Party
  | .toJob => .client
  | .toClient => .job

/-- Who receives in a direction. -/
def Direction.receiver : Direction → Party
  | .toJob => .job
  | .toClient => .client

/-- A party sends in one direction and receives in the other. -/
theorem Direction.party_eq (d : Direction) (p : Party) : p = d.sender ∨ p = d.receiver := by
  cases d <;> cases p <;> simp [sender, receiver]

/-- The copy of a direction. -/
def Direction.copy (d : Direction) (p : Proxy) : Copy :=
  match d with
  | .toJob => p.toJob
  | .toClient => p.toClient

/-- The count of a direction. -/
def Direction.count (d : Direction) (s : Stats) : Nat :=
  match d with
  | .toJob => s.toJob
  | .toClient => s.toClient

/-- What a party has done so far. -/
structure FarEnd where
  sender : Sender := {}
  receiver : Receiver := {}

namespace FarEnd

/-- What a party can do. -/
inductive Act
  | write (bs : Bytes)
  | read (n : Nat)
  | halfClose
  | drop

/-- A party acts on its end of its connection. -/
def act (f : FarEnd) (l : Link) : Act → FarEnd × Link
  | .write bs =>
    let (came, l) := l.write bs
    ({ f with sender := f.sender.note bs came }, l)
  | .read n =>
    let (got, l) := l.read n
    ({ f with receiver := f.receiver.note got }, l)
  | .halfClose => ({ f with sender := { f.sender with closed := true } }, l.halfClose)
  | .drop => (⟨{ f.sender with closed := true }, { f.receiver with gone := true }⟩, l.drop)

end FarEnd

/-- A bridge with its parties. -/
structure Session where
  bridge : Bridge
  far : Party → FarEnd

namespace Session

/-- A session in which nothing has happened yet. -/
def fresh (capacity : Party → Nat) : Session :=
  { bridge := { client := .fresh (capacity .client), job := .fresh (capacity .job) }, far := fun _ => {} }

/-- One move of a session. -/
inductive Move
  | bridge (m : Proxy.Move)
  | act (p : Party) (a : FarEnd.Act)

/-- Makes a move, where it is possible; a party that has gone away does nothing more. -/
def step (s : Session) : Move → Option Session
  | .bridge m => (s.bridge.step m).map fun bridge => { s with bridge }
  | .act p a =>
    if (s.far p).receiver.gone then none
    else
      let (f, l) := (s.far p).act (p.link s.bridge).flip a
      some { bridge := p.setLink l.flip s.bridge, far := fun q => if q = p then f else s.far q }

/-- One direction of a session. -/
def passage (s : Session) (d : Direction) : Passage where
  copy := d.copy s.bridge.proxy
  source := (d.sender.link s.bridge).incoming
  destination := (d.receiver.link s.bridge).outgoing
  sender := (s.far d.sender).sender
  receiver := (s.far d.receiver).receiver

/-- What a move is in one direction. -/
def Move.along (d : Direction) : Move → Option Passage.Move
  | .bridge (.copy d' m) => if d' = d then some (.copy m) else none
  | .bridge .conclude => none
  | .act p (.write bs) => if p = d.sender then some (.send bs) else none
  | .act p (.read n) => if p = d.sender then none else some (.receive n)
  | .act p .halfClose => if p = d.sender then some .close else none
  | .act p .drop => some (if p = d.sender then .close else .leave)

variable {s s' : Session} {m : Move} {d : Direction}

/-- What the bridge does in one direction is a move of that passage, and none of the other. -/
theorem passage_copy {d' : Direction} {m : Copy.Move} (h : s.step (.bridge (.copy d' m)) = some s') (d : Direction) :
    follow Passage.step (s.passage d) (Move.along d (.bridge (.copy d' m))).toList = some (s'.passage d) := by
  obtain ⟨b, hb, rfl⟩ := Option.map_eq_some_iff.mp h
  obtain ⟨moved, hproxy, rfl⟩ := Option.map_eq_some_iff.mp hb
  cases d' with
  | toJob =>
    obtain ⟨⟨c, src, dst⟩, hcopy, rfl⟩ := Option.map_eq_some_iff.mp hproxy
    cases d with
    | toJob =>
      have hstep : (s.passage .toJob).step (.copy m) = _ := congrArg (Option.map _) hcopy
      exact (follow_singleton _ _).trans hstep
    | toClient => rfl
  | toClient =>
    obtain ⟨⟨c, src, dst⟩, hcopy, rfl⟩ := Option.map_eq_some_iff.mp hproxy
    cases d with
    | toJob => rfl
    | toClient =>
      have hstep : (s.passage .toClient).step (.copy m) = _ := congrArg (Option.map _) hcopy
      exact (follow_singleton _ _).trans hstep

/-- What a party does is what the sender does in one direction, and what the receiver does in the other. -/
theorem passage_act {p : Party} {a : FarEnd.Act} (h : s.step (.act p a) = some s') (d : Direction) :
    follow Passage.step (s.passage d) (Move.along d (.act p a)).toList = some (s'.passage d) := by
  simp only [step] at h
  split at h
  · cases h
  · rename_i hthere
    cases h
    rcases d.party_eq p with rfl | rfl
    · cases a with
      | write bs => cases d <;> rfl
      | read n => cases d <;> rfl
      | halfClose => cases d <;> rfl
      | drop => cases d <;> rfl
    · cases a with
      | write bs => cases d <;> rfl
      | read n =>
        have hstep : (s.passage d).step (.receive n) = _ := if_neg hthere
        cases d <;> exact (follow_singleton _ _).trans hstep
      | halfClose => cases d <;> rfl
      | drop =>
        have hstep : (s.passage d).step .leave = _ := if_neg hthere
        cases d <;> exact (follow_singleton _ _).trans hstep

/-- A move of a session other than the bridge's last is in each direction the move of a passage, or none. -/
theorem passage_step (hne : m ≠ .bridge .conclude) (h : s.step m = some s') (d : Direction) :
    follow Passage.step (s.passage d) (m.along d).toList = some (s'.passage d) := by
  cases m with
  | bridge m =>
    cases m with
    | conclude => exact absurd rfl hne
    | copy d' m => exact passage_copy h d
  | act p a => exact passage_act h d

/-- A bridge ends once both copies are over, and drops both connections then. -/
theorem passage_conclude (h : s.step (.bridge .conclude) = some s') (d : Direction) :
    (s.passage d).copy.result.isSome = true ∧ s'.passage d = (s.passage d).release := by
  obtain ⟨b, hb, rfl⟩ := Option.map_eq_some_iff.mp h
  obtain ⟨moved, hproxy, rfl⟩ := Option.map_eq_some_iff.mp hb
  simp only [Proxy.step] at hproxy
  split at hproxy
  · rename_i hover
    simp only [Bool.and_eq_true] at hover
    cases hproxy
    cases d with
    | toJob => exact ⟨hover.1.1, rfl⟩
    | toClient => exact ⟨hover.1.2, rfl⟩
  · cases hproxy

/-- A bridge is over only by its last move. -/
theorem isOver_step (hne : m ≠ .bridge .conclude) (h : s.step m = some s') : s'.bridge.proxy.isOver = s.bridge.proxy.isOver := by
  cases m with
  | bridge m =>
    obtain ⟨b, hb, rfl⟩ := Option.map_eq_some_iff.mp h
    obtain ⟨moved, hproxy, rfl⟩ := Option.map_eq_some_iff.mp hb
    cases m with
    | conclude => exact absurd rfl hne
    | copy d m =>
      cases d with
      | toJob =>
        obtain ⟨after, -, rfl⟩ := Option.map_eq_some_iff.mp hproxy
        rfl
      | toClient =>
        obtain ⟨after, -, rfl⟩ := Option.map_eq_some_iff.mp hproxy
        rfl
  | act p a =>
    simp only [step] at h
    split at h
    · cases h
    · cases h
      cases p <;> rfl

/-! ## What a session keeps -/

/-- A sound passage with one that agrees with it and nothing else around it. -/
def Alone (v w : Passage) : Prop := (∃ carried, v.Sound carried) ∧ v.Agrees w

/-- What is possible in a passage of a session is possible in the passage alone. -/
theorem alone_follow {v v' w : Passage} {moves : List Passage.Move} (h : Alone v w) (hv : follow Passage.step v moves = some v') :
    ∃ w', follow Passage.step w moves = some w' ∧ Alone v' w' := by
  induction moves generalizing v w with
  | nil =>
    cases hv
    exact ⟨w, rfl, h⟩
  | cons m moves ih =>
    obtain ⟨⟨carried, hsound⟩, hagrees⟩ := h
    obtain ⟨v₁, hstep, hrest⟩ := follow_cons_eq_some.mp hv
    obtain ⟨w₁, hw, hagrees⟩ := hagrees.step hstep
    obtain ⟨more, hsound⟩ := hsound.step hstep
    obtain ⟨w', hfollow, halone⟩ := ih ⟨⟨_, hsound⟩, hagrees⟩ hrest
    exact ⟨w', follow_cons_eq_some.mpr ⟨w₁, hw, hfollow⟩, halone⟩

/-- A move of a session is for a passage what it is for the passage alone. -/
theorem alone_step {w : Passage} (h : Alone (s.passage d) w) (hs : s.step m = some s') :
    ∃ w', follow Passage.step w (m.along d).toList = some w' ∧ Alone (s'.passage d) w' := by
  by_cases hconclude : m = .bridge .conclude
  · subst hconclude
    obtain ⟨⟨carried, hsound⟩, hagrees⟩ := h
    obtain ⟨hover, hrelease⟩ := passage_conclude hs d
    rw [hrelease]
    exact ⟨w, rfl, ⟨carried, hsound.release hover⟩, hagrees.release hsound hover⟩
  · exact alone_follow h (passage_step hconclude hs d)

/-- A schedule of a session is for a passage what its moves in that direction are for the passage alone. -/
theorem alone_run {w : Passage} {moves : List Move} (h : Alone (s.passage d) w) (hs : follow step s moves = some s') :
    ∃ w', follow Passage.step w (moves.filterMap (Move.along d)) = some w' ∧ Alone (s'.passage d) w' := by
  induction moves generalizing s w with
  | nil =>
    cases hs
    exact ⟨w, rfl, h⟩
  | cons m moves ih =>
    obtain ⟨t, hm, hrest⟩ := follow_cons_eq_some.mp hs
    obtain ⟨w₁, hw₁, halone⟩ := alone_step h hm
    obtain ⟨w', hw', halone⟩ := ih halone hrest
    refine ⟨w', ?_, halone⟩
    have hfirst : (m :: moves).filterMap (Move.along d) = (m.along d).toList ++ moves.filterMap (Move.along d) := by
      cases hd : m.along d <;> simp [hd]
    rw [hfirst]
    exact follow_append_eq_some.mpr ⟨w₁, hw₁, hw'⟩

/-- A bridge is over only if both its copies are. -/
def EndsWithCopies (s : Session) : Prop := s.bridge.proxy.isOver = true → ∀ d, (s.passage d).copy.result.isSome = true

/-- Every move keeps a bridge from being over before its copies are. -/
theorem EndsWithCopies.step (hs : EndsWithCopies s) (h : s.step m = some s') : EndsWithCopies s' := by
  intro hover d
  by_cases hconclude : m = .bridge .conclude
  · subst hconclude
    obtain ⟨hcopy, hrelease⟩ := passage_conclude h d
    rw [hrelease]
    exact hcopy
  · rw [isOver_step hconclude h] at hover
    have hkeeps : ∀ v a v', a ∈ (m.along d).toList → Passage.step v a = some v' → v.copy.result.isSome = true →
        v'.copy.result.isSome = true := fun v a v' _ hstep => Passage.over_step hstep
    exact follow_keeps (P := fun v => v.copy.result.isSome = true) (passage_step hconclude h d) hkeeps (hs hover d)

/-- Something holds of both directions if it holds of each of them. -/
theorem forall_direction {P : Direction → Prop} : (∀ d, P d) ↔ P .toJob ∧ P .toClient := by
  constructor
  · exact fun h => ⟨h .toJob, h .toClient⟩
  · intro h d
    cases d
    · exact h.1
    · exact h.2

/-- A bridge's last move is possible exactly where both its copies are over and it is not. -/
theorem conclude_isSome : (s.step (.bridge .conclude)).isSome = true ↔
    (∀ d, (s.passage d).copy.result.isSome = true) ∧ s.bridge.proxy.isOver = false := by
  have hcopies : (∀ d, (s.passage d).copy.result.isSome = true) ↔
      s.bridge.proxy.toJob.result.isSome = true ∧ s.bridge.proxy.toClient.result.isSome = true := forall_direction
  rw [hcopies]
  simp only [step, Bridge.step, Proxy.step, Option.isSome_map]
  split
  · rename_i hover
    simpa using hover
  · rename_i hgoing
    simpa using hgoing

/-- Where a bridge is at rest, so are its copies. -/
theorem copy_atRest (h : AtRest Bridge.step Proxy.moves s.bridge) (d : Direction) (m : Copy.Move) :
    (s.passage d).copy.step (s.passage d).source (s.passage d).destination m = none := by
  have hmem : Proxy.Move.copy d m ∈ Proxy.moves := by
    cases d <;> cases m <;> simp [Proxy.moves]
  have hnone := h _ hmem
  simp only [Bridge.step, Option.map_eq_none_iff] at hnone
  cases d with
  | toJob => exact Option.map_eq_none_iff.mp hnone
  | toClient => exact Option.map_eq_none_iff.mp hnone

/-- What the parties of a bridge get from one another, after any schedule of what they do and what the bridge does. In each direction,
1. what is received is the beginning of what was sent;
2. the end of input is found only after the sender has announced it or is gone, and behind all that was sent;
3. the receiver gets what it gets, and the copy ends as it ends, as if there was nothing but this direction and what is done in it;
4. a copy that is not over has no move left only while it waits for its sender to send more, or for its receiver to make room.
Both copies are over exactly if the bridge is, or can be with its next move. Once it is, it counts all bytes that were sent for a copy
that found the end of input, and none for a copy that failed, whose receiver is gone. -/
theorem transparent {capacity : Party → Nat} {moves : List Move} (h : follow step (fresh capacity) moves = some s) :
    (∀ d,
      (s.passage d).receiver.received <+: (s.passage d).sender.sent ∧
      ((s.passage d).receiver.ended = true →
        (s.passage d).sender.closed = true ∧ (s.passage d).receiver.received = (s.passage d).sender.sent) ∧
      (∃ w, follow Passage.step (.fresh (capacity d.sender) (capacity d.receiver)) (moves.filterMap (Move.along d)) = some w ∧
        w.receiver = (s.passage d).receiver ∧ w.copy = (s.passage d).copy) ∧
      (AtRest Bridge.step Proxy.moves s.bridge → (s.passage d).copy.result = none →
        (s.passage d).source.closed = false ∧ (s.passage d).source.buffer = [] ∨
        (s.passage d).destination.closed = false ∧ (s.passage d).destination.room = 0)) ∧
    ((∀ d, (s.passage d).copy.result.isSome = true) ↔
      s.bridge.proxy.stats.isSome = true ∨ (s.step (.bridge .conclude)).isSome = true) ∧
    ∀ stats, s.bridge.proxy.stats = some stats → ∀ d,
      (∀ n, (s.passage d).copy.result = some (.ok n) →
        (s.passage d).sender.closed = true ∧ d.count stats = (s.passage d).sender.sent.length) ∧
      (∀ e, (s.passage d).copy.result = some (.error e) → (s.passage d).receiver.gone = true ∧ d.count stats = 0) := by
  have halone : ∀ d, ∃ w, follow Passage.step (.fresh (capacity d.sender) (capacity d.receiver)) (moves.filterMap (Move.along d)) =
      some w ∧ Alone (s.passage d) w := by
    intro d
    have hfresh : (fresh capacity).passage d = .fresh (capacity d.sender) (capacity d.receiver) := by
      cases d <;> rfl
    refine alone_run ?_ h
    rw [hfresh]
    exact ⟨⟨[], Passage.Sound.fresh _ _⟩, Passage.Agrees.refl _⟩
  have hends : EndsWithCopies s := by
    refine follow_keeps h (fun t a t' _ hstep ht => ht.step hstep) ?_
    intro hover
    cases hover
  have hstats : s.bridge.proxy.stats.isSome = s.bridge.proxy.isOver := by
    unfold stats
    split <;> simp [*]
  refine ⟨fun d => ?_, ?_, ?_⟩
  · obtain ⟨w, hw, ⟨carried, hsound⟩, hagrees⟩ := halone d
    refine ⟨hsound.received.trans hsound.sent, hsound.all_of_ended, ⟨w, hw, hagrees.receiver.symm, hagrees.copy.symm⟩, ?_⟩
    intro hrest hgoing
    rcases Copy.waits_of_atRest hgoing hsound.idle (copy_atRest hrest d) with ⟨-, hopen, hfull⟩ | ⟨-, hopen, hempty⟩
    · exact Or.inr ⟨hopen, hfull⟩
    · exact Or.inl ⟨hopen, hempty⟩
  · rw [hstats, conclude_isSome]
    constructor
    · intro hcopies
      cases hover : s.bridge.proxy.isOver with
      | true => exact Or.inl rfl
      | false => exact Or.inr ⟨hcopies, rfl⟩
    · rintro (hover | ⟨hcopies, -⟩)
      · exact hends hover
      · exact hcopies
  · intro stats hs d
    obtain ⟨w, -, ⟨carried, hsound⟩, -⟩ := halone d
    have hcount : d.count stats = (s.passage d).copy.carried := by
      unfold Proxy.stats at hs
      split at hs
      · cases hs
        cases d <;> rfl
      · cases hs
    rw [hcount]
    exact hsound.carried_eq

/-- A session in which the job goes away before all that the client sent has reached it, while its own output is still on the way. -/
def jobGone : List Move :=
  [.act .client (.write [1, 2, 3]), .bridge (.copy .toJob .read), .bridge (.copy .toJob .write), .act .job (.read 1),
   .act .job (.write [7]), .act .client (.write [3]), .act .job .drop, .bridge (.copy .toJob .read), .bridge (.copy .toJob .write),
   .bridge (.copy .toClient .read), .bridge (.copy .toClient .write), .bridge (.copy .toClient .read),
   .bridge (.copy .toClient .conclude), .bridge .conclude, .act .client (.read 5), .act .client (.read 5)]

/-- The job receives the beginning of what the client sent, the client all that the job sent, and its end; what went to the job counts for
nothing. -/
theorem transparent_of_job_gone : ∃ s, follow step (fresh fun _ => 2) jobGone = some s ∧
    s.bridge.proxy.stats = some ⟨0, 1⟩ ∧ (s.passage .toJob).sender.sent = [1, 2, 3] ∧ (s.passage .toJob).receiver.received = [1] ∧
    (s.passage .toJob).receiver.received <+: (s.passage .toJob).sender.sent ∧
    (s.passage .toClient).receiver.ended = true ∧ (s.passage .toClient).receiver.received = (s.passage .toClient).sender.sent ∧
    ∀ d, (s.passage d).copy.result.isSome = true := by
  obtain ⟨s, hs⟩ : ∃ s, follow step (fresh fun _ => 2) jobGone = some s := ⟨_, rfl⟩
  obtain ⟨hparts, hends, -⟩ := transparent hs
  have hseen : s.bridge.proxy.stats = some ⟨0, 1⟩ ∧ (s.passage .toJob).sender.sent = [1, 2, 3] ∧
      (s.passage .toJob).receiver.received = [1] ∧ (s.passage .toClient).receiver.ended = true := by
    cases hs
    exact ⟨rfl, rfl, rfl, rfl⟩
  obtain ⟨hstats, hsent, hreceived, hended⟩ := hseen
  refine ⟨s, hs, hstats, hsent, hreceived, (hparts .toJob).1, hended, ((hparts .toClient).2.1 hended).2, ?_⟩
  exact hends.mpr (Or.inl (by rw [hstats]; rfl))

end Session

end JobPlane.Proxy
