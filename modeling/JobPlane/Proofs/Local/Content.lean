import JobPlane.Proofs.Local.Serving

/-!
# What an attach is sent

The content of an attach over a whole run (`attach_content`): whatever its flags, whether or not its job has a terminal, and whenever it
subscribes, it is sent a selection of the job's chunks in the order they were written, each at most once. The selection is settled by
the flags and the moment of the subscribe, except that a follower that falls too far behind loses chunks.
-/

namespace JobPlane.Serving

open Server

variable {m : Joining} {fell : Bool} {later taken : List Frame} {s t u : Serving}

/-! ## Runs -/

/-- A follower that takes an event of which the ones before are not all kept was too far behind. -/
theorem behind_of_lapses {a : Move} (h : s.lapses a = true) : backlog < s.server.behind s.log := by
  unfold lapses at h
  split at h
  · split at h
    · rename_i next _ hp
      simpa [behind, hp] using h
    · cases h
  · cases h

/-- A run keeps what was sent tied to the log, and a follower that is never too far behind loses nothing. -/
theorem Content.run (h : Content m fell later taken s) {as : List Move} (hu : follow Serving.step s as = some u)
    (hfit : ∀ c, .push c ∈ as → c.Fits) :
    ∃ fell' later taken, Content m fell' later taken u ∧
      (fell = false → Throughout Serving.step (fun t => t.server.behind t.log ≤ backlog) s as → fell' = false) := by
  induction as generalizing s fell later taken with
  | nil =>
    cases hu
    exact ⟨fell, later, taken, h, fun hf _ => hf⟩
  | cons a as ih =>
    obtain ⟨t, ha, ht⟩ := follow_cons_eq_some.mp hu
    obtain ⟨later', taken', h'⟩ := h.step ha (fun c hc => hfit c (by simp [hc]))
    obtain ⟨fell', later'', taken'', h'', hkeep⟩ := ih h' ht (fun c hc => hfit c (List.mem_cons_of_mem a hc))
    refine ⟨fell', later'', taken'', h'', fun hf hb => hkeep ?_ (hb.tail ha)⟩
    rw [hf, Bool.false_or]
    cases hl : s.lapses a with
    | false => rfl
    | true => exact absurd hb.head (Nat.not_le_of_lt (behind_of_lapses hl))

/-- An attach that has not subscribed yet, with what its flags and its job are. -/
structure Unserved (flags : AttachFlags) (tty : Bool) (s : Serving) : Prop where
  server : s.server = { flags, tty }
  sent : s.sent = []
  out_open : s.out.closed = false
  fits : ∀ c ∈ s.log.chunks.toList, c.Fits

/-- An attach stays as it is until it subscribes. -/
theorem Unserved.step {flags : AttachFlags} {tty : Bool} (h : Unserved flags tty s) {a : Move} (ha : s.step a = some t)
    (hne : a ≠ .serve) (hfit : ∀ c, a = .push c → c.Fits) : Unserved flags tty t := by
  have hbuf : s.out.buffer = [] := (List.append_eq_nil_iff.mp h.sent).2
  cases a with
  | push c =>
    simp only [Serving.step] at ha
    split at ha
    · cases ha
    · cases ha
      refine ⟨h.server, h.sent, h.out_open, fun x hx => ?_⟩
      simp only [OutputLog.push, Array.toList_push, List.mem_append, List.mem_singleton] at hx
      rcases hx with hx | rfl
      · exact h.fits x hx
      · exact hfit x rfl
  | close =>
    simp only [Serving.step] at ha
    split at ha
    · cases ha
    · cases ha
      exact ⟨h.server, h.sent, h.out_open, h.fits⟩
  | serve => exact absurd rfl hne
  | read n =>
    simp only [Serving.step] at ha
    split at ha
    · rename_i hr
      exact absurd hbuf (Pipe.read_data hr).2.2.2
    · cases ha

/-- The first move of a server is to subscribe. -/
theorem Unserved.subscribe {flags : AttachFlags} {tty : Bool} (h : Unserved flags tty s) (ht : s.step .serve = some t) :
    Content s.joining false [] [] t := by
  have hnext : t = { s with server := s.server.subscribe s.log } := by
    simp only [Serving.step, h.server, Server.step, Server.next, Option.map_some, Option.some.injEq] at ht
    rw [← ht, h.server]
  rw [hnext]
  exact Content.subscribed (by rw [h.server]) h.sent h.out_open (fun _ => h.fits)

/-! ## Coming to an end -/

/-- Nothing is on the way: the server can do nothing, and the client has read all that was sent. -/
def Resting (s : Serving) : Prop := s.step .serve = none ∧ s.out.buffer = []

/-- Where an attach is sent nothing more, or is up to date, it has been sent everything it was to be sent. -/
theorem Content.complete (h : Content m fell later taken s) (hroom : 0 < s.out.capacity)
    (hend : s.out.closed = true ∨ s.Resting) :
    s.server.sending = [] ∧ (s.out.closed = true ↔ m.follows = false ∨ s.log.closed = true) ∧
      ∃ live, taken = m.history ++ live ∧ (m.follows = false → live = []) ∧
        (m.follows = true → Picked m.flags fell later live) := by
  have hphase := h.phase
  by_cases hclosed : s.out.closed = true
  · have hp := h.ended.mpr hclosed
    refine ⟨h.idle hp, ?_⟩
    rw [hp] at hphase
    cases hphase with
    | replayed hm => exact ⟨by simp [hclosed, hm], [], by simp, fun _ => rfl, fun hf => by simp [hm] at hf⟩
    | followed live hm hlog hlive =>
      exact ⟨by simp [hclosed, hlog], live, rfl, fun hf => by simp [hm] at hf, fun _ => hlive⟩
  · obtain ⟨hstep, hbuf⟩ := hend.resolve_left hclosed
    simp only [Serving.step, Option.map_eq_none_iff] at hstep
    have hopen : s.out.closed = false := by simpa using hclosed
    -- nothing is left to be sent, since a write would be taken
    cases hs : s.server.sending with
    | cons p ps =>
      cases p with
      | nil => simp [Server.step, hs] at hstep
      | cons b bs =>
        have hroom' : s.out.room ≠ 0 := by simp [Pipe.room, hbuf]; omega
        simp [Server.step, hs, Pipe.write, hopen, hroom'] at hstep
    | nil =>
      refine ⟨rfl, ?_⟩
      simp only [Server.step, hs] at hstep
      generalize hp : s.server.phase = phase at hphase
      have hsize := h.size
      cases hphase with
      | history i hi hlogs =>
        simp only [Server.next, hp] at hstep
        split at hstep
        · cases hstep
        · split at hstep <;> cases hstep
      | live n live hm hn hlive =>
        -- no event is there, so the next one is past the last chunk
        simp only [Server.next, hp] at hstep
        split at hstep
        · cases hstep
        · rename_i hge
          split at hstep
          · cases hstep
          · rename_i hlog
            have hevents : s.log.events = s.log.chunks.size := by simp [OutputLog.events, hlog]
            have hall : later.length ≤ n := by
              rcases catchUp_cases s.log.events (m.seen.length + n) with ⟨-, heq⟩ | ⟨hlt, -, hkept⟩
              · omega
              · unfold backlog at *
                omega
            rw [List.take_of_length_le hall] at hlive
            exact ⟨by simp [hopen, hm, hlog], live, rfl, fun hf => by simp [hm] at hf, fun _ => hlive⟩
      | replayed => exact absurd (h.ended.mp hp) hclosed
      | followed => exact absurd (h.ended.mp hp) hclosed

/-- What an attach has taken at any moment: first so many chunks of the history, then a selection of those from after. -/
theorem Content.split (h : Content m fell later taken s) :
    ∃ hist live, taken = hist ++ live ∧ hist <+: m.history ∧ (live ≠ [] → hist = m.history) ∧
      live.Sublist (wanted m.flags later) ∧ (m.follows = false → live = []) ∧
      (fell = false → live <+: wanted m.flags later) := by
  have hphase := h.phase
  generalize s.server.phase = phase at hphase
  cases hphase with
  | history i hi hlogs =>
    refine ⟨_, [], (List.append_nil _).symm, ?_, fun hne => absurd rfl hne, List.nil_sublist _, fun _ => rfl,
      fun _ => List.nil_prefix⟩
    unfold Joining.history
    split
    · exact List.IsPrefix.filter _ (List.take_prefix i m.seen)
    · exact List.nil_prefix
  | live n live hm hn hlive =>
    have hle : (wanted m.flags (later.take n)) <+: wanted m.flags later := List.IsPrefix.filter _ (List.take_prefix n later)
    refine ⟨m.history, live, rfl, List.prefix_refl _, fun _ => rfl, hlive.sublist.trans hle.sublist, fun hf => by simp [hm] at hf,
      fun hfell => ?_⟩
    subst hfell
    cases hlive
    exact hle
  | replayed hm => exact ⟨m.history, [], by simp, List.prefix_refl _, fun _ => rfl, List.nil_sublist _, fun _ => rfl,
      fun _ => List.nil_prefix⟩
  | followed live hm hclosed hlive =>
    refine ⟨m.history, live, rfl, List.prefix_refl _, fun _ => rfl, hlive.sublist, fun hf => by simp [hm] at hf, fun hfell => ?_⟩
    subst hfell
    cases hlive
    exact List.prefix_refl _

/-! ## The way to rest -/

/-- More than the moves that a chunk still causes once it is taken. -/
def weight (c : Frame) : Nat := 2 * (c.payload.length + Frame.headerLength) + 3

/-- More than the moves that a server in a phase still makes to take events, and that what it takes then causes. -/
def ahead (log : OutputLog) : ServerPhase → Nat
  | .registered => total weight log.chunks.toList + 4
  | .history i _ _ => total weight (log.chunks.toList.drop i) + 3
  | .live i => total weight (log.chunks.toList.drop i) + 2
  | .ended => 0

/-- More than the moves that the server and the client still make while the job writes nothing. -/
def pace (s : Serving) : Nat :=
  ahead s.log s.server.phase + 2 * s.server.sending.flatten.length + s.server.sending.length + s.out.buffer.length

/-- The moves that the job has no part in. A read is for at least a byte. -/
inductive Move.Own : Move → Prop
  | serve : Own .serve
  | read (n : Nat) (hn : 0 < n) : Own (.read n)

/-- Taking a chunk leaves less to be taken than it weighs. -/
theorem total_drop_of_getElem? {cs : List Frame} {i j : Nat} {c : Frame} (hij : i ≤ j) (hc : cs[j]? = some c) :
    total weight (cs.drop (j + 1)) + weight c ≤ total weight (cs.drop i) := by
  obtain ⟨hj, rfl⟩ := List.getElem?_eq_some_iff.mp hc
  have hdrop : cs.drop j = (cs.drop i).drop (j - i) := by rw [List.drop_drop, Nat.add_sub_cancel' hij]
  have hle := total_le_of_sublist weight (List.drop_sublist (j - i) (cs.drop i))
  rw [← hdrop, List.drop_eq_getElem_cons hj] at hle
  simp only [total] at hle
  omega

/-- The pieces sent for a chunk weigh less than the chunk. -/
theorem pieces_lt_weight {server : Server} {c : Frame} {ps : List Bytes} (h : server.pieces c = .ok ps) :
    2 * ps.flatten.length + ps.length < weight c := by
  unfold Server.pieces at h
  split at h
  · cases h
    simp [weight]
  · split at h
    · cases h
      simp [weight]
      omega
    · unfold Frame.pieces at h
      split at h
      · cases h
        simp [weight]
      · unfold Frame.header at h
        split at h
        · cases h
          simp [weight, Frame.headerLength, Bytes.ofLength]
        · cases h

/-- Beginning a chunk in a phase: less is then ahead than the chunk and what follows it, also where nothing more is sent. -/
theorem begin_ahead {server server' : Server} {log : OutputLog} {c : Option Frame} {phase : ServerPhase} {out out' : Pipe} {n : Nat}
    (hb : server.begin c phase out = (server', out')) (hc : ∀ x, c = some x → ahead log phase + weight x ≤ n)
    (hn : 0 < n) :
    ahead log server'.phase + 2 * server'.sending.flatten.length + server'.sending.length < n ∧ out'.buffer = out.buffer := by
  unfold Server.begin at hb
  split at hb
  · rename_i ps hps
    obtain ⟨x, hx, hp⟩ := Option.map_eq_some_iff.mp hps
    have hlt := pieces_lt_weight hp
    have hle := hc x hx
    cases hb
    exact ⟨by simp only; omega, rfl⟩
  · cases hb
    exact ⟨by simpa [finish, ahead] using hn, rfl⟩

/-- An event that is taken leaves less ahead. -/
theorem next_ahead {server server' : Server} {log : OutputLog} {out out' : Pipe} (hs : server.sending = [])
    (hi : ∀ i upTo follows, server.phase = .history i upTo follows → i ≤ upTo)
    (hn : server.next log out = some (server', out')) :
    ahead log server'.phase + 2 * server'.sending.flatten.length + server'.sending.length < ahead log server.phase ∧
      out'.buffer = out.buffer := by
  have htake {i j : Nat} (hij : i ≤ j) (x : Frame) (hx : log.chunks[j]? = some x) :
      total weight (log.chunks.toList.drop (j + 1)) + weight x ≤ total weight (log.chunks.toList.drop i) :=
    total_drop_of_getElem? hij (by rwa [Array.getElem?_toList])
  unfold Server.next at hn
  split at hn
  · rename_i hp
    cases hn
    have hle := total_le_of_sublist weight
      (List.drop_sublist (if server.flags.logs then 0 else log.chunks.size) log.chunks.toList)
    simp only [subscribe, hp, hs, ahead, List.flatten_nil, List.length_nil, and_true]
    omega
  · rename_i i upTo follows hp
    rw [hp]
    split at hn
    · rw [Option.some.injEq] at hn
      refine begin_ahead hn (fun x hx => ?_) (by simp [ahead])
      have := htake (Nat.le_refl i) x hx
      simp only [ahead]
      omega
    · split at hn
      · cases hn
        have hle := total_le_of_sublist weight (List.drop_sublist (upTo - i) (log.chunks.toList.drop i))
        rw [List.drop_drop, Nat.add_sub_cancel' (hi i upTo follows hp)] at hle
        simp only [hs, ahead, List.flatten_nil, List.length_nil, and_true]
        omega
      · cases hn
        exact ⟨by simp [ahead], rfl⟩
  · rename_i i hp
    rw [hp]
    simp only at hn
    split at hn
    · rw [Option.some.injEq] at hn
      refine begin_ahead hn (fun x hx => ?_) (by simp [ahead])
      have hle : i ≤ catchUp log.events i := by
        rcases catchUp_cases log.events i with ⟨-, heq⟩ | ⟨-, hlt, -⟩ <;> omega
      have := htake hle x hx
      simp only [ahead]
      omega
    · split at hn
      · cases hn
        exact ⟨by simp [ahead], rfl⟩
      · cases hn
  · cases hn

/-- Every move that the job has no part in leaves fewer such moves to be made. -/
theorem Content.pace_lt (h : Content m fell later taken s) {a : Move} (hown : a.Own) (ht : s.step a = some t) :
    t.pace < s.pace := by
  cases hown with
  | serve =>
    simp only [Serving.step, Option.map_eq_some_iff] at ht
    obtain ⟨⟨server, out⟩, hstep, rfl⟩ := ht
    simp only [pace]
    rcases step_cases hstep with ⟨ps, hs, rfl, rfl⟩ | ⟨p, ps, n, hs, hp, hw, rfl⟩ | ⟨hclosed, -⟩ | ⟨hs, hn⟩
    · simp only [hs, List.flatten_cons, List.nil_append, List.length_cons]
      omega
    · obtain ⟨-, hroom, rfl, rfl⟩ := Pipe.write_took hw
      have hpos : 0 < p.length := List.length_pos_iff.mpr hp
      simp only [hs, List.flatten_cons, List.length_append, List.length_cons, List.length_drop, List.length_take]
      omega
    · have hp := h.ended.mpr hclosed
      simp [Server.step, h.idle hp, Server.next, hp] at hstep
    · have hphase := h.phase
      obtain ⟨hlt, hbuf⟩ := next_ahead hs (by
        intro i upTo follows hp
        rw [hp] at hphase
        cases hphase
        assumption) hn
      rw [hbuf]
      omega
  | read n hn =>
    simp only [Serving.step] at ht
    split at ht
    · rename_i bs out hr
      obtain ⟨-, rfl, -, hne⟩ := Pipe.read_data hr
      cases ht
      have hpos : 0 < s.out.buffer.length := List.length_pos_iff.mpr hne
      simp only [pace, List.length_drop]
      omega
    · cases ht

/-! ## The content of an attach -/

/-- The room in the pipe to the client never changes. -/
theorem step_capacity {a : Move} (ht : s.step a = some t) : t.out.capacity = s.out.capacity := by
  cases a with
  | push c =>
    simp only [Serving.step] at ht
    split at ht <;> cases ht
    rfl
  | close =>
    simp only [Serving.step] at ht
    split at ht <;> cases ht
    rfl
  | serve =>
    simp only [Serving.step, Option.map_eq_some_iff] at ht
    obtain ⟨⟨server, out⟩, hstep, rfl⟩ := ht
    exact Server.step_capacity hstep
  | read n =>
    simp only [Serving.step] at ht
    split at ht
    · rename_i hr
      obtain ⟨-, rfl, -, -⟩ := Pipe.read_data hr
      cases ht
      rfl
    · cases ht

/-- The room in the pipe to the client never changes in a run. -/
theorem run_capacity {as : List Move} (hu : follow step s as = some u) : u.out.capacity = s.out.capacity :=
  follow_keeps (P := fun v => v.out.capacity = s.out.capacity) hu (fun _ _ _ _ hstep hv => (step_capacity hstep).trans hv) rfl

/-- The bytes sent to an attach, whatever it asks for, with and without a terminal, and whenever it subscribes.
1. What was sent so far, with what is still to be sent of a chunk, are the encodings of chunks from before the subscribe, and then of
   chunks from after it, in the order they were written and each at most once.
2. Those from before are the first so many of the chunks asked for, if the attach asks for the history, and none otherwise; nothing
   from after is sent until that is done.
3. Those from after are some of the chunks asked for, and none if the attach does not ask to follow. If it is never too far behind
   they are the first so many.
4. Once the end was announced, or once nothing more can be sent and the client has read everything, nothing is missing: all of the
   history was sent and, to a follower that was never too far behind, all that came after.
5. The end is announced to a follower only after the log was closed; and once nothing more can be sent, it was announced exactly if
   the attach does not follow or the log is closed.
6. An attach that asks for the history and follows was then sent exactly the chunks asked for.
7. As long as the job writes nothing, the server and the client come to where nothing more can be sent in a bounded number of moves. -/
theorem attach_content {flags : AttachFlags} {tty : Bool} {capacity : Nat} {before after : List Move}
    (hroom : 0 < capacity) (hs : follow step (joined flags tty capacity) before = some s) (hbefore : .serve ∉ before)
    (ht : step s .serve = some t) (hu : follow step t after = some u) (hfit : ∀ c, .push c ∈ before ++ after → c.Fits) :
    let history := if flags.logs then wanted flags s.log.chunks.toList else []
    let keepsUp := Throughout step (fun t => t.server.behind t.log ≤ backlog) t after
    let isDone := u.out.closed = true ∨ u.Resting
    ∃ later hist live,
      u.log.chunks.toList = s.log.chunks.toList ++ later ∧
      u.sent ++ u.server.sending.flatten = encodings tty (hist ++ live) ∧
      (hist <+: history ∧ (live ≠ [] → hist = history)) ∧
      (live.Sublist (wanted flags later) ∧ (flags.stream = false → live = []) ∧ (keepsUp → live <+: wanted flags later)) ∧
      (isDone → u.server.sending = [] ∧ hist = history ∧ (flags.stream = true → keepsUp → live = wanted flags later)) ∧
      ((u.out.closed = true → flags.stream = true → u.log.closed = true) ∧
        (u.Resting → (u.out.closed = true ↔ flags.stream = false ∨ u.log.closed = true))) ∧
      (isDone → flags.logs = true → flags.stream = true → keepsUp → u.sent = encodings tty (wanted flags u.log.chunks.toList)) ∧
      ∀ own : List Move, (∀ a ∈ own, a.Own) → (follow step u own).isSome → own.length ≤ u.pace := by
  intro history keepsUp isDone
  have hunserved : Unserved flags tty s :=
    follow_keeps hs (fun v a v' ha hstep hv => hv.step hstep (fun he => hbefore (he ▸ ha))
        (fun c hc => hfit c (List.mem_append_left _ (hc ▸ ha))))
      ⟨rfl, rfl, rfl, by simp [joined]⟩
  have hcapacity : 0 < u.out.capacity := by
    rw [run_capacity hu, step_capacity ht, run_capacity hs]
    exact hroom
  have hflags : s.joining.flags = flags := by simp [joining, hunserved.server]
  have htty : s.joining.tty = tty := by simp [joining, hunserved.server]
  have hhistory : s.joining.history = history := by simp only [Joining.history, hflags]; rfl
  obtain ⟨fell, later, taken, h, hkeep⟩ :=
    (hunserved.subscribe ht).run hu (fun c hc => hfit c (List.mem_append_right _ hc))
  have hkeep : keepsUp → fell = false := hkeep rfl
  have hno (hf : flags.stream = false) : s.joining.follows = false := by simp [Joining.follows, hflags, hf]
  have hover (hf : s.joining.follows = false) (hstream : flags.stream = true) : u.log.closed = true ∧ later = [] :=
    h.wasClosed (by simpa [Joining.follows, hflags, hstream] using hf)
  have hbound (own : List Move) (hown : ∀ a ∈ own, a.Own) (hsome : (follow step u own).isSome) : own.length ≤ u.pace := by
    refine follow_length_le (P := fun v => ∃ fell later taken, Content s.joining fell later taken v) hsome ?_
      ⟨fell, later, taken, h⟩
    intro v a v' ha hstep hv
    obtain ⟨_, _, _, hv⟩ := hv
    have hpush (c : Frame) : a ≠ .push c := by
      rintro rfl
      cases hown _ ha
    exact ⟨⟨_, hv.step hstep fun c hc => absurd hc (hpush c)⟩, hv.pace_lt (hown a ha) hstep⟩
  have hsent := h.sent
  rw [htty] at hsent
  by_cases hdone : isDone
  · obtain ⟨hsending, hclosed, live, rfl, hnone, hpicked⟩ := h.complete hcapacity hdone
    rw [hhistory] at hsent
    have hall (hstream : flags.stream = true) (hk : keepsUp) : live = wanted flags later := by
      cases hm : s.joining.follows with
      | false => rw [hnone hm, (hover hm hstream).2, wanted_nil]
      | true =>
        have hp := hpicked hm
        rw [hkeep hk, hflags] at hp
        cases hp
        rfl
    have hsub : live.Sublist (wanted flags later) := by
      cases hm : s.joining.follows with
      | false => rw [hnone hm]; exact List.nil_sublist _
      | true => exact hflags ▸ (hpicked hm).sublist
    refine ⟨later, history, live, h.chunks, hsent, ⟨List.prefix_refl _, fun _ => rfl⟩,
      ⟨hsub, fun hf => hnone (hno hf), fun hk => ?_⟩, fun _ => ⟨hsending, rfl, hall⟩, ⟨?_, ?_⟩, ?_, hbound⟩
    · cases hstream : flags.stream with
      | false => rw [hnone (hno hstream)]; exact List.nil_prefix
      | true => exact (hall hstream hk) ▸ List.prefix_refl _
    · intro hc hstream
      rcases hclosed.mp hc with hm | hlog
      · exact (hover hm hstream).1
      · exact hlog
    · intro _
      rw [hclosed]
      refine ⟨?_, fun hc => hc.imp_left hno⟩
      rintro (hm | hlog)
      · cases hstream : flags.stream with
        | false => exact Or.inl rfl
        | true => exact Or.inr (hover hm hstream).1
      · exact Or.inr hlog
    · intro _ hlogs hstream hk
      rw [hsending, List.flatten_nil, List.append_nil, hall hstream hk] at hsent
      have hhist : history = wanted flags s.log.chunks.toList := if_pos hlogs
      have hchunks : u.log.chunks.toList = s.log.chunks.toList ++ later := h.chunks
      rw [hsent, hhist, hchunks, wanted_append]
  · obtain ⟨hist, live, rfl, hpre, hthen, hsub, hnone, hfirst⟩ := h.split
    rw [hhistory] at hpre hthen
    rw [hflags] at hsub hfirst
    exact ⟨later, hist, live, h.chunks, hsent, ⟨hpre, hthen⟩, ⟨hsub, fun hf => hnone (hno hf), fun hk => hfirst (hkeep hk)⟩,
      fun hd => absurd hd hdone, ⟨fun hc => absurd (Or.inl hc) hdone, fun hr => absurd (Or.inr hr) hdone⟩,
      fun hd => absurd hd hdone, hbound⟩

/-- A subscribe between a job's chunks: the attach asks for one stream, and is sent the chunk of it from before and the one from after,
without a gap and without a repeat, and then the end. -/
theorem attach_content_across_subscribe :
    let flags : AttachFlags := { stdout := true, logs := true, stream := true }
    let before : List Move := [.push ⟨.stdout, [97]⟩, .push ⟨.stderr, [98]⟩]
    let after : List Move := [.push ⟨.stdout, [99]⟩] ++ List.replicate 12 .serve ++ [.close, .serve, .read 64]
    ∃ s t u, follow step (joined flags false 64) before = some s ∧ step s .serve = some t ∧ follow step t after = some u ∧
      u.out.closed = true ∧ u.received = encodings false [⟨.stdout, [97]⟩, ⟨.stdout, [99]⟩] := by
  intro flags before after
  have hrun : ∃ s ∈ follow step (joined flags false 64) before, ∃ t ∈ step s .serve, ∃ u ∈ follow step t after,
      (u.out.closed = true ∧ u.out.buffer = [] ∧
        u.log.chunks.toList = [⟨.stdout, [97]⟩, ⟨.stderr, [98]⟩, ⟨.stdout, [99]⟩]) ∧
      Throughout step (fun t => t.server.behind t.log ≤ backlog) t after := by decide +kernel
  obtain ⟨s, hs, t, ht, u, hu, ⟨hclosed, hbuf, hchunks⟩, hkeepsUp⟩ := hrun
  have hfit (c : Frame) (hc : .push c ∈ before ++ after) : c.Fits := by
    simp [before, after] at hc
    rcases hc with rfl | rfl | rfl <;> decide
  obtain ⟨_, _, _, -, -, -, -, -, -, hall, -⟩ := attach_content (by decide) hs (by decide) ht hu hfit
  have hsent := hall (Or.inl hclosed) rfl rfl hkeepsUp
  rw [sent, hbuf, List.append_nil, hchunks] at hsent
  exact ⟨s, t, u, hs, ht, hu, hclosed, hsent⟩

end JobPlane.Serving
