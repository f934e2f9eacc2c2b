import JobPlane.Proofs.Local.FirstOutput
import JobPlane.Proofs.Local.Follower

/-!
# The output of a finished job

Once a job's log is closed, its chunks are everything the job ever wrote, and stay so (`chunks_run`, `log_run`). An attach that is
joined to the job from then on is served from that log alone (`Replays`): it follows nothing, the chunks that were written are the
chunks that it is sent, and each of its server's moves brings it nearer to its end.
-/

namespace JobPlane.LocalHost

open Server Serving

variable {h h' : LocalHost} {id : String} {i : Nat}

/-! ## Logs -/

/-- The chunks in the log of a job; a job that is not known has none. -/
def chunks (h : LocalHost) (id : String) : List Frame := ((h.job? id).map (·.log.chunks.toList)).getD []

/-- The log of a known job holds the chunks of the job. -/
theorem chunks_of_job {j : LocalJob} (hj : h.job? id = some j) : h.chunks id = j.log.chunks.toList := by
  simp [chunks, hj]

/-- A job that is not known has no chunks. -/
theorem chunks_of_unknown (hj : h.job? id = none) : h.chunks id = [] := by simp [chunks, hj]

/-- A job that a move makes known has an empty log. -/
theorem chunks_of_new {m : Move} (hm : h.step m = some h') (hj : h.job? id = none) : h'.chunks id = [] := by
  cases hj' : h'.job? id with
  | none => exact chunks_of_unknown hj'
  | some j' =>
    rw [chunks_of_job hj']
    rcases step_origin hm hj' with hlog | ⟨j, hknown, -⟩
    · simp [hlog]
    · rw [hj] at hknown
      cases hknown

/-- Only a known job writes. -/
theorem emittedIn_of_unknown {m : Move} (hm : h.step m = some h') (hj : h.job? id = none) : emittedIn id m = none := by
  cases step_moved hm with
  | emitted x c j hknown =>
    refine if_neg ?_
    rintro rfl
    rw [hj] at hknown
    cases hknown
  | _ => rfl

/-- Every move adds to the chunks of a job what the job writes in it. -/
theorem chunks_step {m : Move} (hempty : h.StartsEmpty) (hm : h.step m = some h') :
    h'.chunks id = h.chunks id ++ (emittedIn id m).toList := by
  cases hj : h.job? id with
  | none => rw [chunks_of_new hm hj, emittedIn_of_unknown hm hj, chunks_of_unknown hj, Option.toList_none, List.append_nil]
  | some j =>
    by_cases hfails : j.state = .starting ∧ ∃ reason, m = .spawnFailed id reason
    · -- a job that is forgotten has not started, and so has written nothing
      obtain ⟨hstarting, reason, rfl⟩ := hfails
      have hnone : h'.job? id = none := by
        cases step_moved hm with
        | spawnFailed => rw [job?_spawnFailed, if_pos rfl]
      simp [chunks_of_unknown hnone, chunks_of_job hj, hempty id j hj hstarting, emittedIn]
    · have hstays : j.state ≠ .starting ∨ ∀ reason, m ≠ .spawnFailed id reason := by
        by_cases hstarting : j.state = .starting
        · exact Or.inr fun reason hm => hfails ⟨hstarting, reason, hm⟩
        · exact Or.inl hstarting
      obtain ⟨j', hj', -, -, hlog, -⟩ := step_job hm hj hstays
      rw [chunks_of_job hj', chunks_of_job hj, hlog, chunks_logAfter]

/-- The chunks of a job after a schedule are those from before and what the job wrote in it. -/
theorem chunks_run {ms : List Move} (hempty : h.StartsEmpty) (hrun : follow step h ms = some h') :
    h'.chunks id = h.chunks id ++ emitted id ms := by
  induction ms generalizing h with
  | nil =>
    cases hrun
    simp
  | cons m ms ih =>
    obtain ⟨h₁, hm, hrest⟩ := follow_cons_eq_some.mp hrun
    rw [ih (hempty.step hm) hrest, chunks_step hempty hm, emitted_cons, List.append_assoc]

/-- Whatever happens on a host, a job keeps a log that is closed. -/
theorem log_run {ms : List Move} {j : LocalJob} (hrun : follow step h ms = some h') (hj : h.job? id = some j)
    (hstarted : j.state ≠ .starting) (hclosed : j.log.closed = true) :
    ∃ j', h'.job? id = some j' ∧ j'.state ≠ .starting ∧ j'.spec = j.spec ∧ j'.log = j.log := by
  refine follow_keeps (P := fun h => ∃ j', h.job? id = some j' ∧ j'.state ≠ .starting ∧ j'.spec = j.spec ∧ j'.log = j.log) hrun ?_
    ⟨j, hj, hstarted, rfl, rfl⟩
  rintro h m h' - hm ⟨j₁, hj₁, hstarted₁, hspec₁, hlog₁⟩
  obtain ⟨j₂, hj₂, hstarted₂, hspec₂, hlog₂⟩ := log_step hm hj₁ hstarted₁ (hlog₁ ▸ hclosed)
  exact ⟨j₂, hj₂, hstarted₂, hspec₂.trans hspec₁, hlog₂.trans hlog₁⟩

/-! ## Attaches to a job whose log is closed -/

/-- What an attach is sent of a log that was closed before it subscribed. -/
def replay (flags : AttachFlags) (all : List Frame) : List Frame := if flags.logs then wanted flags all else []

/-- An attach is being served from a log that is closed and holds certain chunks. -/
structure Replays (id : String) (i : Nat) (flags : AttachFlags) (tty : Bool) (all : List Frame) (h : LocalHost) (s : Serving) : Prop where
  shows : Shows id i h s
  closed : s.log.closed = true
  chunks : s.log.chunks.toList = all
  room : 0 < s.out.capacity
  content : Unserved flags tty s ∨
    ∃ m fell taken, Content m fell [] taken s ∧ m.flags = flags ∧ m.tty = tty ∧ m.wasClosed = true

namespace Replays

variable {flags : AttachFlags} {tty : Bool} {all : List Frame} {s : Serving}

/-- A server that subscribes to a closed log has fewer moves to make than before. -/
theorem subscribe_pace {t : Serving} (hu : Unserved flags tty s) (ht : s.step .serve = some t) : t.pace < s.pace := by
  simp only [Serving.step, Option.map_eq_some_iff] at ht
  obtain ⟨⟨server, out⟩, hstep, rfl⟩ := ht
  simp only [Server.step, hu.server] at hstep
  obtain ⟨hlt, hbuf⟩ := next_ahead rfl (by simp) hstep
  simp only [Serving.pace, hbuf, hu.server, List.flatten_nil, List.length_nil] at hlt ⊢
  omega

/-- A move of an attach being served from a closed log: what it has been sent stays tied to the log, and only a read of nothing leaves it
as many moves to make. -/
theorem content_step {a : Serving.Move} {t : Serving} (hr : Replays id i flags tty all h s) (ha : s.step a = some t) :
    (Unserved flags tty t ∨ ∃ m fell taken, Content m fell [] taken t ∧ m.flags = flags ∧ m.tty = tty ∧ m.wasClosed = true) ∧
      t.log = s.log ∧ t.pace ≤ s.pace ∧ (a = .serve → t.pace < s.pace) := by
  have hclosed := hr.closed
  cases a with
  | push c => simp [Serving.step, hclosed] at ha
  | close => simp [Serving.step, hclosed] at ha
  | serve =>
    have hlog : t.log = s.log := by
      simp only [Serving.step, Option.map_eq_some_iff] at ha
      obtain ⟨_, -, rfl⟩ := ha
      rfl
    rcases hr.content with hu | ⟨m, fell, taken, hc, hflags, htty, hwas⟩
    · have hlt := subscribe_pace hu ha
      exact ⟨Or.inr ⟨_, false, [], hu.subscribe ha, by simp [joining, hu.server], by simp [joining, hu.server], hclosed⟩,
        hlog, Nat.le_of_lt hlt, fun _ => hlt⟩
    · have hlt := hc.pace_lt .serve ha
      obtain ⟨later, taken', hc'⟩ := hc.step ha (by simp)
      obtain ⟨-, rfl⟩ := hc'.wasClosed hwas
      exact ⟨Or.inr ⟨m, _, taken', hc', hflags, htty, hwas⟩, hlog, Nat.le_of_lt hlt, fun _ => hlt⟩
  | read n =>
    have hread := ha
    simp only [Serving.step] at hread
    split at hread
    · rename_i bs out hread'
      cases hread
      obtain ⟨-, hout, -, -⟩ := Pipe.read_data hread'
      have hle : Serving.pace { s with out, received := s.received ++ bs } ≤ s.pace := by
        simp only [Serving.pace, hout, List.length_drop]
        omega
      refine ⟨?_, rfl, hle, by simp⟩
      rcases hr.content with hu | ⟨m, fell, taken, hc, hflags, htty, hwas⟩
      · exact Or.inl (hu.step ha (by simp) (by simp))
      · obtain ⟨later, taken', hc'⟩ := hc.step ha (by simp)
        obtain ⟨-, rfl⟩ := hc'.wasClosed hwas
        exact Or.inr ⟨m, _, taken', hc', hflags, htty, hwas⟩
    · cases hread

/-- Every move of a host goes on serving from the closed log. The client reads what was sent, and each move of the server leaves it fewer
moves to make. -/
theorem step (hr : Replays id i flags tty all h s) {m : Move} (hm : h.step m = some h')
    (hreads : ∀ f, m = .client i f → Reads f) :
    ∃ s', Replays id i flags tty all h' s' ∧ s'.received = s.received ++ h.heardIn i m ∧
      (if serves i m then 1 else 0) + s'.pace ≤ s.pace := by
  obtain ⟨s', hs', hfollows, hreceived, -⟩ := hr.shows.step hm fun f a hf _ => hreads f hf a.link
  have hroom : 0 < s'.out.capacity := hfollows.capacity ▸ hr.room
  have hserves (hne : m ≠ .serve i) : serves i m = false := by
    cases m <;> simp_all [serves]
  have hmove {a : Serving.Move} (ha : s.step a = some s') :
      Replays id i flags tty all h' s' ∧ s'.pace ≤ s.pace ∧ (a = .serve → s'.pace < s.pace) := by
    obtain ⟨hcontent, hlog, hle, hlt⟩ := hr.content_step ha
    exact ⟨⟨hs', hlog ▸ hr.closed, hlog ▸ hr.chunks, hroom, hcontent⟩, hle, hlt⟩
  refine ⟨s', ?_⟩
  cases hfollows with
  | serve hm ha =>
    obtain ⟨hr', -, hlt⟩ := hmove ha
    have hlt := hlt rfl
    refine ⟨hr', hreceived, ?_⟩
    rw [if_pos (by simp [hm, serves])]
    omega
  | other a hne _ _ ha =>
    obtain ⟨hr', hle, -⟩ := hmove ha
    exact ⟨hr', hreceived, by simpa [hserves hne] using hle⟩
  | stay hne heq =>
    subst heq
    exact ⟨⟨hs', hr.closed, hr.chunks, hr.room, hr.content⟩, hreceived, by simp [hserves hne]⟩

/-- In every schedule of a host an attach goes on being served from the closed log, and its server makes a bounded number of moves. -/
theorem run (hr : Replays id i flags tty all h s) {ms : List Move} (hrun : follow LocalHost.step h ms = some h')
    (hreads : Attentive i ms) :
    ∃ s', Replays id i flags tty all h' s' ∧ s'.received = s.received ++ heard i h ms ∧
      ms.countP (serves i) + s'.pace ≤ s.pace := by
  induction ms generalizing h s with
  | nil =>
    cases hrun
    exact ⟨s, hr, by simp [heard], by simp⟩
  | cons m ms ih =>
    obtain ⟨h₁, hm, hrest⟩ := follow_cons_eq_some.mp hrun
    obtain ⟨s₁, hr₁, hreceived₁, hpace₁⟩ := hr.step hm fun f hf => hreads f (by simp [hf])
    obtain ⟨s', hr', hreceived, hpace⟩ := ih hr₁ hrest fun f hf => hreads f (List.mem_cons_of_mem m hf)
    refine ⟨s', hr', ?_, ?_⟩
    · rw [hreceived, hreceived₁, List.append_assoc]
      simp [heard, hm]
    · rw [List.countP_cons]
      omega

/-- What the client has read begins what the attach is to be sent of the log. -/
theorem received_prefix (hr : Replays id i flags tty all h s) : s.received <+: encodings tty (replay flags all) := by
  rcases hr.content with hu | ⟨m, fell, taken, hc, rfl, rfl, hwas⟩
  · rw [(List.append_eq_nil_iff.mp hu.sent).1]
    exact List.nil_prefix
  · have hseen : m.seen = all := by rw [← hr.chunks, hc.chunks, List.append_nil]
    obtain ⟨hist, live, rfl, hpre, -, -, hlive, -⟩ := hc.split
    rw [hlive (by simp [Joining.follows, hwas]), List.append_nil] at hc
    have hsent : s.received ++ (s.out.buffer ++ s.server.sending.flatten) = encodings m.tty hist := by
      rw [← hc.sent, Serving.sent, List.append_assoc]
    have hall : encodings m.tty hist <+: encodings m.tty (replay m.flags all) := by
      rw [← hseen]
      exact encodings_prefix hpre
    exact (hsent ▸ List.prefix_append _ _).trans hall

/-- A client that has read all that was sent, where the end has come or the server can do nothing, has read all that the attach is to be
sent of the log, and the end has come. -/
theorem received_all (hr : Replays id i flags tty all h s) (hread : s.out.buffer = [])
    (hend : s.out.closed = true ∨ s.step .serve = none) :
    s.received = encodings tty (replay flags all) ∧ s.out.closed = true := by
  rcases hr.content with hu | ⟨m, fell, taken, hc, rfl, rfl, hwas⟩
  · rcases hend with hclosed | hnone
    · rw [hu.out_open] at hclosed
      cases hclosed
    · simp [Serving.step, hu.server, Server.step, Server.next] at hnone
  · have hseen : m.seen = all := by rw [← hr.chunks, hc.chunks, List.append_nil]
    have hfollows : m.follows = false := by simp [Joining.follows, hwas]
    obtain ⟨hsending, hclosed, live, rfl, hlive, -⟩ := hc.complete hr.room (hend.imp_right fun hnone => ⟨hnone, hread⟩)
    have hsent := hc.sent
    rw [hsending, hlive hfollows, List.flatten_nil, List.append_nil, List.append_nil, Serving.sent, hread, List.append_nil] at hsent
    refine ⟨?_, hclosed.mpr (Or.inl hfollows)⟩
    rw [hsent, ← hseen]
    rfl

end Replays

/-- An attach to a job whose log is closed is accepted, and is served from that log. -/
theorem replays_of_attach {r : AttachRequest} {j : LocalJob} (hfits : h.LogsFit) (hj : h.job? r.job = some j)
    (hstarted : j.state ≠ .starting) (hclosed : j.log.closed = true) (wait : Bool) :
    ∃ h' s, h.attach r wait = .ok (h.attaches.size, h') ∧
      Replays r.job h.attaches.size r.flags j.spec.config.tty j.log.chunks.toList h' s ∧ s.received = [] ∧
      s.pace = total weight j.log.chunks.toList + 4 := by
  let a : Attachment := { request := r, standing := .joined { flags := r.flags, tty := j.spec.config.tty } }
  let s : Serving := { log := j.log, server := { flags := r.flags, tty := j.spec.config.tty }, out := { capacity := 65536 } }
  have hnew : (h.attaches.push a)[h.attaches.size]? = some a := by simp
  refine ⟨{ h with attaches := h.attaches.push a }, s, ?_, ?_, rfl, ?_⟩
  · simp [attach, hj, hstarted, accept, a]
  · exact ⟨⟨⟨a, hnew, rfl, rfl, rfl⟩, ⟨j, hj, hstarted, rfl⟩, fun hended => by cases hended⟩, hclosed, rfl, Nat.zero_lt_succ _,
      Or.inl ⟨rfl, rfl, rfl, hfits r.job j hj⟩⟩
  · simp [Serving.pace, s, ahead]

end JobPlane.LocalHost
