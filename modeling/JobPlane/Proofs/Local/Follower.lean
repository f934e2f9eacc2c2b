import JobPlane.Proofs.Local.Shows

/-!
# Following a job to its end

An attach that asks for the whole of a job's output, history and what follows, from the moment it is joined (`Follower`) to the moment
its client finds the end (`Followed`). What its client has then read are the chunks of the job's log, all of them exactly if the server
has never passed over chunks that were not kept for it.
-/

namespace JobPlane.LocalHost

open Server Serving

variable {h h' : LocalHost} {job : String} {i : Nat} {flags : AttachFlags} {tty lagged : Bool}

/-- Whether a move lets the server of an attach pass over chunks that are not kept for it. -/
def passesOver (i : Nat) (h : LocalHost) : Move → Bool
  | .serve k =>
    if k = i then
      ((h.attaches[i]?).bind fun a => (server? a).bind fun server => (h.job? a.request.job).map fun j =>
        lapses { log := j.log, server, out := a.link.incoming } .serve).getD false
    else false
  | _ => false

/-- Where a host shows an attach being served, it passes over chunks as the attach by itself does. -/
theorem Shows.passesOver {s : Serving} (hs : Shows job i h s) : h.passesOver i (.serve i) = s.lapses .serve := by
  obtain ⟨a, ha, hid, hst, -⟩ := hs.attach
  obtain ⟨j, hj, -, hlog⟩ := hs.job
  simp [LocalHost.passesOver, ha, server?, hst, hid, hj, hlog, lapses]

/-- A move that serves no attach lets no server pass over chunks. -/
theorem passesOver_of_ne {m : Move} (hm : m ≠ .serve i) : h.passesOver i m = false := by
  cases m <;> simp only [LocalHost.passesOver]
  rename_i k
  rw [if_neg fun hk => hm (by rw [hk])]

/-- An attach that is being served the output of a job: `lagged` says whether chunks were passed over. -/
structure Follower (job : String) (i : Nat) (flags : AttachFlags) (tty lagged : Bool) (h : LocalHost) (s : Serving) : Prop where
  shows : Shows job i h s
  terminal : h.hasTerminal job = tty
  room : 0 < s.out.capacity
  content : (Unserved flags tty s ∧ lagged = false) ∨
    ∃ m later taken, Content m lagged later taken s ∧ m.flags = flags ∧ m.tty = tty

namespace Follower

variable {s : Serving}

/-- Every move goes on serving, and what the client reads is what it was sent. -/
theorem step (hf : Follower job i flags tty lagged h s) {m : Move} (hm : h.step m = some h')
    (hreads : ∀ f a, m = .client i f → h.attaches[i]? = some a → ReadsAt a.link f) (hfit : ∀ c, m = .emit job c → c.Fits) :
    ∃ s', Follower job i flags tty (lagged || h.passesOver i m) h' s' ∧ s'.received = s.received ++ h.heardIn i m := by
  obtain ⟨s', hs', hfollows, hreceived, -⟩ := hf.shows.step hm hreads
  obtain ⟨j, hj, hstarted, -⟩ := hf.shows.job
  obtain ⟨j', hj', -, hspec, -⟩ := step_job hm hj (Or.inl hstarted)
  have hterminal : h'.hasTerminal job = tty := by
    rw [← hf.terminal]
    simp [hasTerminal, hj, hj', hspec]
  have hroom : 0 < s'.out.capacity := hfollows.capacity ▸ hf.room
  refine ⟨s', ⟨hs', hterminal, hroom, ?_⟩, hreceived⟩
  cases hfollows with
  | serve hm hstep =>
    rw [hm, hf.shows.passesOver]
    right
    rcases hf.content with ⟨hu, rfl⟩ | ⟨m, later, taken, hc, hflags, htty⟩
    · have hnone : s.lapses .serve = false := by simp [lapses, hu.server]
      rw [hnone]
      exact ⟨_, [], [], hu.subscribe hstep, by simp [joining, hu.server], by simp [joining, hu.server]⟩
    · obtain ⟨later', taken', hc'⟩ := hc.step hstep (by simp)
      exact ⟨m, later', taken', hc', hflags, htty⟩
  | other b hne hb hpush hstep =>
    rw [passesOver_of_ne hne, Bool.or_false]
    have hfit' (c : Frame) (hc : b = .push c) : c.Fits := hfit c (hpush c hc)
    rcases hf.content with ⟨hu, hlagged⟩ | ⟨m, later, taken, hc, hflags, htty⟩
    · exact Or.inl ⟨hu.step hstep hb hfit', hlagged⟩
    · obtain ⟨later', taken', hc'⟩ := hc.step hstep hfit'
      have hnone : s.lapses b = false := by cases b <;> first | rfl | exact absurd rfl hb
      rw [hnone, Bool.or_false] at hc'
      exact Or.inr ⟨m, later', taken', hc', hflags, htty⟩
  | stay hne heq =>
    rw [passesOver_of_ne hne, Bool.or_false, heq]
    exact hf.content

end Follower

/-! ## Before the client reads -/

/-- A process that starts leaves its job the terminal it has. -/
theorem hasTerminal_spawned {id : String} {hasInput : Bool} (hm : h.step (.spawned id hasInput) = some h') :
    h'.hasTerminal id = h.hasTerminal id := by
  obtain ⟨j, j', hj, -, hj', -, hspec, -⟩ := spawned_job hm
  simp [hasTerminal, hj, hj', hspec]

/-- An attach whose client has not read yet: it waits for its job, is joined to it, or was given up. -/
inductive Registered (job : String) (i : Nat) (flags : AttachFlags) (lagged : Bool) (h : LocalHost) : Prop
  | waiting (a : Attachment) (ha : h.attaches[i]? = some a) (hjob : a.request.job = job) (hflags : a.request.flags = flags)
      (hp : a.standing = .pending) (huntouched : Untouched a) (hlagged : lagged = false)
  | joined (s : Serving) (tty : Bool) (hf : Follower job i flags tty lagged h s) (hnone : s.received = [])
  | givenUp (a : Attachment) (ha : h.attaches[i]? = some a) (hgiven : GivenUp a)

/-- An attach that a host accepts is registered there. -/
theorem registered_of_attach {r : AttachRequest} {wait : Bool} (hfits : h.LogsFit) (hm : h.attach r wait = .ok (i, h')) :
    Registered r.job i r.flags false h' := by
  obtain ⟨standing, rfl, rfl, hst⟩ := attach_eq_ok hm
  have hnew : (h.attaches.push { request := r, standing })[h.attaches.size]? = some { request := r, standing } := by simp
  rcases hst with ⟨rfl, -⟩ | ⟨j, hj, hstarted, rfl⟩
  · exact .waiting _ hnew rfl rfl rfl rfl rfl
  · refine .joined { log := j.log, server := { flags := r.flags, tty := j.spec.config.tty }, out := { capacity := 65536 } } _
      ⟨⟨⟨_, hnew, rfl, rfl, rfl⟩, ⟨j, hj, hstarted, rfl⟩, fun hended => by cases hended⟩, ?_, Nat.zero_lt_succ _,
        Or.inl ⟨⟨rfl, rfl, rfl, hfits r.job j hj⟩, rfl⟩⟩ rfl
    have hterminal : h.hasTerminal r.job = j.spec.config.tty := by simp [hasTerminal, hj]
    exact hterminal

/-- An attach that a host accepts is joined at once, unless it may wait and has to. -/
theorem standing_of_attach {r : AttachRequest} {wait : Bool} (hm : h.attach r wait = .ok (i, h')) :
    ∃ a, h'.attaches[i]? = some a ∧ (a.standing = .pending ∧ wait = true ∨ ∃ server, a.standing = .joined server) := by
  obtain ⟨standing, rfl, rfl, hst⟩ := attach_eq_ok hm
  refine ⟨{ request := r, standing }, by simp, ?_⟩
  rcases hst with hp | ⟨j, -, -, hj⟩
  · exact Or.inl hp
  · exact Or.inr ⟨_, hj⟩

/-- An attach stays registered until its client reads. -/
theorem Registered.step (hr : Registered job i flags lagged h) (hempty : h.StartsEmpty) {m : Move} (hm : h.step m = some h')
    (hclient : ∀ f, m ≠ .client i f) (hfit : ∀ c, m = .emit job c → c.Fits) :
    Registered job i flags (lagged || h.passesOver i m) h' := by
  cases hr with
  | waiting a ha hjob hflags hp huntouched hlagged =>
    obtain ⟨a', ha', hstep⟩ := step_attach hm ha
    have huntouched' := hstep.untouched huntouched fun f hf => absurd hf (hclient f)
    have hne (hserve : m ≠ .serve i) : (lagged || h.passesOver i m) = false := by
      rw [hlagged, passesOver_of_ne hserve, Bool.false_or]
    cases hstep with
    | served j s s' incoming hj hs => simp [hp] at hs
    | client f => exact absurd rfl (hclient f)
    | parted s hs => simp [hp] at hs
    | carried x m outgoing => exact .waiting _ ha' hjob hflags hp huntouched' (hne (by simp))
    | joined x hasInput j _ hid hj =>
      have hshows := spawned_shows hempty hm ha hid hp huntouched
      rw [hne (by simp), ← hjob, hid]
      rw [hflags] at hshows
      exact .joined _ _ ⟨hshows, hasTerminal_spawned hm, Nat.zero_lt_succ _,
        Or.inl ⟨⟨rfl, rfl, rfl, by simp [Serving.joined]⟩, rfl⟩⟩ rfl
    | refused x reason => exact .givenUp _ ha' (Or.inr ⟨_, rfl⟩)
    | withdrawn x => exact .givenUp _ ha' (Or.inl rfl)
    | kept _ hserve => exact .waiting _ ha' hjob hflags hp huntouched' (hne hserve)
  | joined s tty hf hnone =>
    obtain ⟨s', hf', hreceived⟩ := hf.step hm (fun f a hf' => absurd hf' (hclient f)) hfit
    exact .joined s' tty hf' (by rw [hreceived, hnone, heardIn_of_ne hclient, List.append_nil])
  | givenUp a ha hgiven =>
    obtain ⟨a', ha', hstep⟩ := step_attach hm ha
    exact .givenUp a' ha' (hstep.givenUp hgiven)

/-- A registered attach that is joined is being served. -/
theorem Registered.follower (hr : Registered job i flags lagged h) {a : Attachment} {server : Server}
    (ha : h.attaches[i]? = some a) (hst : a.standing = .joined server) :
    ∃ s tty, Follower job i flags tty lagged h s ∧ s.received = [] := by
  cases hr with
  | waiting a' ha' hjob hflags hp =>
    rw [ha] at ha'
    cases ha'
    simp [hst] at hp
  | joined s tty hf hnone => exact ⟨s, tty, hf, hnone⟩
  | givenUp a' ha' hgiven =>
    rw [ha] at ha'
    cases ha'
    simp [GivenUp, hst] at hgiven

/-! ## Once the client has found the end -/

/-- The client of an attach has found the end: what it has read are the chunks of the job's log, all of them exactly if none were passed
over. -/
structure Followed (job : String) (i : Nat) (tty lagged : Bool) (got : Bytes) (h : LocalHost) : Prop where
  output : ∃ j kept, h.job? job = some j ∧ j.state ≠ .starting ∧ j.spec.config.tty = tty ∧ j.log.closed = true ∧
    got = encodings tty kept ∧ kept.Sublist j.log.chunks.toList ∧ (kept = j.log.chunks.toList ↔ lagged = false) ∧
    (tty = false → ∀ c ∈ kept, c.Fits)
  ended : ∃ a server, h.attaches[i]? = some a ∧ a.standing = .joined server ∧ server.phase = .ended ∧ server.sending = []

namespace Followed

variable {got : Bytes}

/-- A server that is over passes over nothing. -/
theorem passesOver (hf : Followed job i tty lagged got h) (m : Move) : h.passesOver i m = false := by
  obtain ⟨a, server, ha, hst, hphase, hsending⟩ := hf.ended
  cases m <;> simp only [LocalHost.passesOver]
  split
  · simp only [ha, server?, hst, Option.bind_some]
    cases h.job? a.request.job <;> simp [lapses, hphase, hsending]
  · rfl

/-- What the client of an attach has read does not change any more once it has found the end. -/
theorem step (hf : Followed job i tty lagged got h) {m : Move} (hm : h.step m = some h') : Followed job i tty lagged got h' where
  output := by
    obtain ⟨j, kept, hj, hstarted, htty, hclosed, hgot, hsub, hall, hfit⟩ := hf.output
    obtain ⟨j', hj', hstarted', hspec, hsame⟩ := log_step hm hj hstarted hclosed
    exact ⟨j', kept, hj', hstarted', by rw [hspec, htty], by rw [hsame, hclosed], hgot, by rwa [hsame], by rwa [hsame], hfit⟩
  ended := by
    obtain ⟨a, server, ha, hst, hphase, hsending⟩ := hf.ended
    obtain ⟨a', ha', hstep⟩ := step_attach hm ha
    cases hstep with
    | served j s s' incoming hj hs hserve =>
      rw [hst] at hs
      cases hs
      simp [Server.step, Server.next, hphase, hsending] at hserve
    | joined x hasInput j hp => simp [hst] at hp
    | refused x reason hp => simp [hst] at hp
    | withdrawn x hp => simp [hst] at hp
    | _ => exact ⟨_, server, ha', hst, hphase, hsending⟩

end Followed

/-- Where the client of an attach finds the end, it has read what the server did not pass over. -/
theorem Follower.followed {s : Serving} (hf : Follower job i flags tty lagged h s) (hflags : flags.stdout = true ∧ flags.stderr = true)
    (hlogs : flags.logs = true) (hstream : flags.stream = true) (hclosed : s.out.closed = true) (hread : s.out.buffer = []) :
    Followed job i tty lagged s.received h := by
  obtain ⟨a, ha, -, hst, -⟩ := hf.shows.attach
  obtain ⟨j, hj, hstarted, hlog⟩ := hf.shows.job
  rcases hf.content with ⟨hu, -⟩ | ⟨m, later, taken, hc, rfl, rfl⟩
  · simp [hu.out_open] at hclosed
  · obtain ⟨hsending, hcause, live, rfl, hnone, hpicked⟩ := hc.complete hf.room (Or.inl hclosed)
    have hphase := hc.phase
    rw [hc.ended.mpr hclosed] at hphase
    have hall (cs : List Frame) : wanted m.flags cs = cs := wanted_all hflags cs
    have hhistory : m.history = m.seen := by simp [Joining.history, hlogs, hall]
    have hsent := hc.sent
    rw [hsending, List.flatten_nil, List.append_nil, Serving.sent, hread, List.append_nil, hhistory] at hsent
    obtain ⟨hlogClosed, hsub, hkept⟩ : s.log.closed = true ∧ (m.seen ++ live).Sublist s.log.chunks.toList ∧
        (m.seen ++ live = s.log.chunks.toList ↔ lagged = false) := by
      rw [hc.chunks]
      cases hm : m.follows with
      | false =>
        obtain ⟨hwas, hlater⟩ := hc.wasClosed (by simpa [Joining.follows, hstream] using hm)
        exact ⟨hwas, by simp [hnone hm, hlater], by simp [hnone hm, hlater, hphase.fell_eq_false hm]⟩
      | true =>
        have hp := hpicked hm
        refine ⟨by simpa [hm] using hcause.mp hclosed, List.Sublist.append_left (hall later ▸ hp.sublist) _, ?_⟩
        cases lagged with
        | true => simpa using hp.ne
        | false =>
          cases hp
          simp [hall]
    have hterminal : j.spec.config.tty = m.tty := by simpa [hasTerminal, hj] using hf.terminal
    refine ⟨⟨j, m.seen ++ live, hj, hstarted, hterminal, by rw [hlog, hlogClosed], hsent, by rwa [hlog], by rwa [hlog], ?_⟩,
      ⟨a, s.server, ha, hst, hc.ended.mpr hclosed, hsending⟩⟩
    exact fun hno c hmem => hc.fits hno c (hsub.subset hmem)

end JobPlane.LocalHost
