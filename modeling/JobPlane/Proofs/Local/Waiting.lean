import JobPlane.Local.Cluster
import JobPlane.Proofs.Local.Host

/-!
# Attaches that wait for their job

An attach that is accepted before its job runs waits, and is told once what came of that: the job's process runs, or it does not start, or
the attaches waiting for the job are given up (`answer`). `waiting_attach_answered` says that every attach that ever waited is told by the
first of these moves, and by nothing else, and that an attach waits only for a job that has not started.
-/

namespace JobPlane

/-! ## What is told -/

/-- What somebody finds who waits for an attach to be confirmed, as it stands. -/
def Standing.awaited : Standing → Awaited
  | .pending => .timedOut
  | .withdrawn => .closed
  | .refused reason => .refused reason
  | .joined _ => .ready

/-- Only somebody who waits for an attach that waits finds nothing. -/
theorem Standing.awaited_eq_timedOut {s : Standing} : s.awaited = .timedOut ↔ s = .pending := by
  cases s <;> simp [awaited]

/-- Waiting for a session comes out as its attach stands with the host. -/
theorem LocalCluster.awaited_eq (c : LocalCluster) (s : Session) :
    c.awaited s = ((c.attachment? s).map (·.standing.awaited)).getD .closed := by
  unfold awaited
  cases c.attachment? s with
  | none => rfl
  | some a => cases hst : a.standing <;> simp [Standing.awaited, hst]

namespace LocalHost

variable {h h' h₀ : LocalHost} {m : Move} {ms : List Move} {i : Nat} {a : Attachment} {job : String}

/-- What a move tells the attaches that wait for a job, if it is one that tells them something. -/
def answer (job : String) : Move → Option Awaited
  | .spawned id _ => if id = job then some .ready else none
  | .spawnFailed id reason => if id = job then some (.refused ("job failed to start: " ++ reason)) else none
  | .detach id => if id = job then some .closed else none
  | _ => none

/-- An attach that is told something does not wait any more. -/
theorem answer_ne_timedOut : answer job m ≠ some .timedOut := by
  unfold answer
  split <;> simp

/-- Moves leave an attach waiting exactly if none of them has something to tell. -/
theorem told_eq_timedOut : (ms.findSome? (answer job)).getD .timedOut = .timedOut ↔ ms.findSome? (answer job) = none := by
  cases htold : ms.findSome? (answer job) with
  | none => simp
  | some w =>
    obtain ⟨m, -, hm⟩ := List.exists_of_findSome?_eq_some htold
    simp only [Option.getD_some, reduceCtorEq, iff_false]
    rintro rfl
    exact answer_ne_timedOut hm

/-- An attach is among those that wait for a job if it stands so and asked for that job. -/
theorem mem_pendingFor : i ∈ h.pendingFor job ↔ ∃ a, h.attaches[i]? = some a ∧ a.standing = .pending ∧ a.request.job = job := by
  have hsome : (h.attaches[i]?).any (·.isPendingFor job) ↔ ∃ a, h.attaches[i]? = some a ∧ a.standing = .pending ∧ a.request.job = job := by
    cases h.attaches[i]? with
    | none => simp
    | some a => simp [Attachment.isPendingFor]
  rw [pendingFor, List.mem_filter, hsome, List.mem_range, and_iff_right_iff_imp]
  rintro ⟨a, ha, -⟩
  obtain ⟨hi, -⟩ := Array.getElem?_eq_some_iff.mp ha
  exact hi

/-! ## One move -/

/-- An attach never asks for something else. -/
theorem AttachStep.request {a' : Attachment} (hstep : AttachStep h i a m a') : a'.request = a.request := by
  cases hstep <;> rfl

/-- An attach that does not wait is told nothing else. -/
theorem AttachStep.awaited {a' : Attachment} (hstep : AttachStep h i a m a') (hanswered : a.standing ≠ .pending) :
    a'.standing.awaited = a.standing.awaited := by
  cases hstep with
  | served j s s' incoming hj hs => rw [hs]; rfl
  | joined _ _ _ hp | refused _ _ hp | withdrawn _ hp => exact absurd hp hanswered
  | client | parted | carried | kept => rfl

/-- When the process of its job runs, an attach that waits is joined to the job. -/
theorem spawned_attach {hasInput : Bool} (hm : h.step (.spawned a.request.job hasInput) = some h') (ha : h.attaches[i]? = some a)
    (hp : a.standing = .pending) :
    ∃ j, h.job? a.request.job = some j ∧ h'.attaches[i]? =
      some { a with standing := .joined { flags := a.request.flags, tty := j.spec.config.tty } } := by
  cases step_moved hm with
  | spawned _ _ j f hj =>
    refine ⟨j, hj, ?_⟩
    refine (mapPending_attach (h := h.mapJob _ f) ha _ _).trans ?_
    simp [Attachment.isPendingFor, hp]

/-- An attach that waits goes on to wait unless the move tells it something. -/
theorem step_pending (hm : h.step m = some h') (ha : h.attaches[i]? = some a) (hp : a.standing = .pending) :
    ∃ a', h'.attaches[i]? = some a' ∧ a'.request = a.request ∧
      a'.standing.awaited = (answer a.request.job m).getD .timedOut := by
  have hwaits {id : String} {f : Attachment → Attachment} {w : Awaited} (hh' : h'.attaches = (h.mapPending id f).attaches)
      (hanswer : answer a.request.job m = if id = a.request.job then some w else none) (hrequest : (f a).request = a.request)
      (hw : (f a).standing.awaited = w) :
      ∃ a', h'.attaches[i]? = some a' ∧ a'.request = a.request ∧ a'.standing.awaited = (answer a.request.job m).getD .timedOut := by
    refine ⟨_, by rw [hh']; exact mapPending_attach ha id f, ?_⟩
    by_cases hid : id = a.request.job
    · simp [Attachment.isPendingFor, hp, hid, hanswer, hrequest, hw]
    · simp [Attachment.isPendingFor, hp, hanswer, hid, Ne.symm hid, Standing.awaited]
  -- three moves tell something to all attaches that wait for a job; the others change no standing of one that waits
  cases m with
  | spawned id hasInput =>
    cases step_moved hm with
    | spawned _ _ j f => exact hwaits rfl rfl rfl rfl
  | spawnFailed id reason =>
    cases step_moved hm with
    | spawnFailed => exact hwaits rfl rfl rfl rfl
  | detach id =>
    cases step_moved hm with
    | detached => exact hwaits rfl rfl rfl rfl
  | submit | attach | stop | emit | closeOutput | exit | serve | part | carry | client =>
    obtain ⟨a', ha', hstep⟩ := step_attach hm ha
    have hwaiting : a'.standing = .pending := by cases hstep <;> simp_all
    exact ⟨a', ha', hstep.request, Standing.awaited_eq_timedOut.mpr hwaiting⟩

/-- An attach that is accepted and waits, waits for a job that is not known or has not started. -/
theorem starting_of_attach {r : AttachRequest} {wait : Bool} (hm : h.attach r wait = .ok (i, h')) (ha : h'.attaches[i]? = some a)
    (hp : a.standing = .pending) : a.request = r ∧ h'.jobs = h.jobs ∧ ∀ j, h.job? r.job = some j → j.state = .starting := by
  have hnew {standing : Standing} (hh' : h' = { h with attaches := h.attaches.push { request := r, standing } })
      (hi : i = h.attaches.size) : a.request = r ∧ a.standing = standing ∧ h'.jobs = h.jobs := by
    subst hh' hi
    rw [Array.getElem?_push_size, Option.some.injEq] at ha
    subst ha
    exact ⟨rfl, rfl, rfl⟩
  unfold attach at hm
  split at hm
  · rename_i hj
    split at hm <;> cases hm
    obtain ⟨hr, -, hjobs⟩ := hnew rfl rfl
    exact ⟨hr, hjobs, fun j hj' => by simp [hj] at hj'⟩
  · rename_i j hj
    split at hm
    · rename_i hstarting
      split at hm <;> cases hm
      obtain ⟨hr, -, hjobs⟩ := hnew rfl rfl
      refine ⟨hr, hjobs, fun j' hj' => ?_⟩
      rw [hj, Option.some.injEq] at hj'
      exact hj' ▸ hstarting
    · cases hm
      obtain ⟨-, hst, -⟩ := hnew rfl rfl
      rw [hp] at hst
      cases hst

/-- A job that has started after a move had started before, or its process began to run in this move. -/
theorem started_origin {j' : LocalJob} (hm : h.step m = some h') (hj' : h'.job? job = some j') (hstarted : j'.state ≠ .starting) :
    (∃ hasInput, m = .spawned job hasInput) ∨ ∃ j, h.job? job = some j ∧ j.state ≠ .starting := by
  have hmapped {x : String} {f : LocalJob → LocalJob} (hjobs : h'.job? job = (h.mapJob x f).job? job)
      (hspec : ∀ j, (f j).spec = j.spec)
      (hf : ∀ j, job = x → h.job? job = some j → (f j).state ≠ .starting → j.state ≠ .starting) :
      ∃ j, h.job? job = some j ∧ j.state ≠ .starting := by
    rw [hj', job?_mapJob h x job hspec] at hjobs
    obtain ⟨j, hj, rfl⟩ := Option.map_eq_some_iff.mp hjobs.symm
    refine ⟨j, hj, ?_⟩
    split at hstarted
    · rename_i hx
      exact hf j hx hj hstarted
    · exact hstarted
  cases step_moved hm with
  | submitted spec =>
    rw [job?_submitted, Option.or_eq_some_iff] at hj'
    rcases hj' with hj | ⟨-, hnew⟩
    · exact Or.inr ⟨j', hj, hstarted⟩
    · split at hnew <;> cases hnew
      exact absurd rfl hstarted
  | spawned x hasInput _ f _ _ hf =>
    by_cases hx : job = x
    · exact Or.inl ⟨hasInput, hx ▸ rfl⟩
    · exact Or.inr (hmapped (x := x) (f := f) rfl (fun j => (hf j).1) fun _ hjob => absurd hjob hx)
  | spawnFailed x reason =>
    rw [job?_spawnFailed] at hj'
    split at hj'
    · cases hj'
    · exact Or.inr ⟨j', hj', hstarted⟩
  | stopped x => exact Or.inr (hmapped rfl (fun _ => rfl) fun _ _ _ hs => hs)
  | emitted x c => exact Or.inr (hmapped rfl (fun _ => rfl) fun _ _ _ hs => hs)
  | outputClosed x => exact Or.inr (hmapped rfl (fun _ => rfl) fun _ _ _ hs => hs)
  | exited x code j hj hrun =>
    refine Or.inr (hmapped rfl (fun _ => rfl) fun j₁ hx hj₁ _ => ?_)
    rw [hx, hj, Option.some.injEq] at hj₁
    simp [← hj₁, hrun]
  | carried x m i a outgoing f _ hf =>
    exact Or.inr (hmapped (x := x) (f := f) rfl (fun j => (hf j).1) fun j _ _ hs => (hf j).2.1 ▸ hs)
  | attached | detached | leftAlone | served | parted | client => exact Or.inr ⟨j', hj', hstarted⟩

/-- A job that is starting goes on to do so until its process runs or does not start. -/
theorem isStarting_of_step (hm : h.step m = some h') (hs : h.isStarting job) (hanswer : answer job m = none) : h'.isStarting job := by
  obtain ⟨j, hj, hstarting⟩ := exists_of_isStarting hs
  have hstays : ∀ reason, m ≠ .spawnFailed job reason := by
    rintro reason rfl
    simp [answer] at hanswer
  obtain ⟨j', hj', -⟩ := step_job hm hj (Or.inr hstays)
  have hstarting' : j'.state = .starting := by
    refine Decidable.byContradiction fun hstarted => ?_
    rcases started_origin hm hj' hstarted with ⟨hasInput, rfl⟩ | ⟨j₁, hj₁, hstarted₁⟩
    · simp [answer] at hanswer
    · rw [hj, Option.some.injEq] at hj₁
      exact hstarted₁ (hj₁ ▸ hstarting)
  simp [isStarting, hj', hstarting']

/-! ## Every move -/

/-- The attaches that wait, wait for jobs that are not known or have not started. -/
def WaitsForStart (h : LocalHost) : Prop :=
  ∀ (i : Nat) (a : Attachment), h.attaches[i]? = some a → a.standing = .pending →
    ∀ j, h.job? a.request.job = some j → j.state = .starting

/-- Every move keeps the attaches that wait at jobs that have not started. -/
theorem WaitsForStart.step (hall : h.WaitsForStart) (hm : h.step m = some h') : h'.WaitsForStart := by
  intro i a' ha' hp' j' hj'
  refine Decidable.byContradiction fun hstarted => ?_
  cases ha : h.attaches[i]? with
  | none =>
    -- the attach is new, and no job has changed
    obtain ⟨r, wait, hattach⟩ := attach_of_new hm ha ha'
    obtain ⟨hr, hjobs, hstarting⟩ := starting_of_attach hattach ha' hp'
    refine hstarted (hstarting j' ?_)
    rw [← hj', hr, job?, job?, hjobs]
  | some a =>
    obtain ⟨a'', ha'', hstep⟩ := step_attach hm ha
    obtain rfl : a' = a'' := Option.some.inj (ha'.symm.trans ha'')
    have hp : a.standing = .pending := by
      refine Decidable.byContradiction fun hanswered => ?_
      have hsame := hstep.awaited hanswered
      rw [hp'] at hsame
      exact hanswered (Standing.awaited_eq_timedOut.mp hsame.symm)
    rw [hstep.request] at hj'
    rcases started_origin hm hj' hstarted with ⟨hasInput, rfl⟩ | ⟨j, hj, hstarted⟩
    · obtain ⟨_, -, hjoined⟩ := spawned_attach hm ha hp
      rw [ha', Option.some.injEq] at hjoined
      rw [hjoined] at hp'
      cases hp'
    · exact hstarted (hall i a ha hp j hj)

/-- What an attach that does not wait was told stays so, whatever happens. -/
theorem run_answered (hrun : follow step h ms = some h') (ha : h.attaches[i]? = some a) (hanswered : a.standing ≠ .pending) :
    ∃ a', h'.attaches[i]? = some a' ∧ a'.request = a.request ∧ a'.standing.awaited = a.standing.awaited := by
  refine follow_keeps (P := fun h => ∃ b, h.attaches[i]? = some b ∧ b.request = a.request ∧ b.standing.awaited = a.standing.awaited)
    hrun ?_ ⟨a, ha, rfl, rfl⟩
  rintro h m h' - hm ⟨b, hb, hrequest, hsame⟩
  obtain ⟨b', hb', hstep⟩ := step_attach hm hb
  have hstands : b.standing ≠ .pending := by
    rwa [ne_eq, ← Standing.awaited_eq_timedOut, hsame, Standing.awaited_eq_timedOut]
  exact ⟨b', hb', hstep.request.trans hrequest, (hstep.awaited hstands).trans hsame⟩

/-- An attach that waits is told by the first move that tells something to those who wait for its job, and by no other one. -/
theorem run_pending (hrun : follow step h ms = some h') (ha : h.attaches[i]? = some a) (hp : a.standing = .pending) :
    ∃ a', h'.attaches[i]? = some a' ∧ a'.request = a.request ∧
      a'.standing.awaited = (ms.findSome? (answer a.request.job)).getD .timedOut := by
  -- by induction on the moves: the first one leaves the attach waiting, or what it tells stays so
  induction ms generalizing h a with
  | nil =>
    cases hrun
    exact ⟨a, ha, rfl, Standing.awaited_eq_timedOut.mpr hp⟩
  | cons m ms ih =>
    obtain ⟨h₁, hm, hrun⟩ := follow_cons_eq_some.mp hrun
    obtain ⟨a₁, ha₁, hrequest, hawaited⟩ := step_pending hm ha hp
    cases hanswer : answer a.request.job m with
    | none =>
      rw [hanswer] at hawaited
      obtain ⟨a', ha', hrequest', hawaited'⟩ := ih hrun ha₁ (Standing.awaited_eq_timedOut.mp hawaited)
      rw [hrequest] at hrequest' hawaited'
      exact ⟨a', ha', hrequest', by rw [List.findSome?_cons, hanswer, hawaited']⟩
    | some w =>
      rw [hanswer, Option.getD_some] at hawaited
      have hanswered : a₁.standing ≠ .pending := by
        rw [ne_eq, ← Standing.awaited_eq_timedOut, hawaited]
        rintro rfl
        exact answer_ne_timedOut hanswer
      obtain ⟨a', ha', hrequest', hawaited'⟩ := run_answered hrun ha₁ hanswered
      refine ⟨a', ha', hrequest'.trans hrequest, ?_⟩
      rw [List.findSome?_cons, hanswer, hawaited', hawaited, Option.getD_some]

/-- The move from `g` to `g'` by which an attach in place `i`, which asked for `r`, is told what it waited for. -/
inductive Answered (i : Nat) (r : AttachRequest) (g : LocalHost) : Move → LocalHost → Awaited → Prop
  | confirmed (g' : LocalHost) (hasInput : Bool) (j j' : LocalJob) (a' : Attachment) (hj : g.job? r.job = some j)
      (hstarting : j.state = .starting) (hj' : g'.job? r.job = some j') (hrun : j'.state = .running)
      (ha' : g'.attaches[i]? = some a') (hjoined : a'.standing = .joined { flags := r.flags, tty := j'.spec.config.tty }) :
      Answered i r g (.spawned r.job hasInput) g' .ready
  | refused (g' : LocalHost) (reason : String) (hstarting : g.isStarting r.job) (hgone : g'.job? r.job = none) :
      Answered i r g (.spawnFailed r.job reason) g' (.refused ("job failed to start: " ++ reason))
  | givenUp (g' : LocalHost) : Answered i r g (.detach r.job) g' .closed

/-- A move that tells something to an attach that waits is one of these. -/
theorem answered_of_step {w : Awaited} (hm : h.step m = some h') (ha : h.attaches[i]? = some a) (hp : a.standing = .pending)
    (hanswer : answer a.request.job m = some w) : Answered i a.request h m h' w := by
  unfold answer at hanswer
  split at hanswer <;> simp only [Option.ite_none_right_eq_some, Option.some.injEq, reduceCtorEq] at hanswer
  · obtain ⟨rfl, rfl⟩ := hanswer
    obtain ⟨j, j', hj, hstarting, hj', hrun, hspec, -⟩ := spawned_job hm
    obtain ⟨j₁, hj₁, ha'⟩ := spawned_attach hm ha hp
    rw [hj, Option.some.injEq] at hj₁
    exact .confirmed h' _ j j' _ hj hstarting hj' hrun ha' (by rw [hspec, hj₁])
  · obtain ⟨rfl, rfl⟩ := hanswer
    cases step_moved hm with
    | spawnFailed _ _ j hj hstarting =>
      exact .refused _ _ (by simp [isStarting, hj, hstarting]) (by rw [job?_spawnFailed, if_pos rfl])
  · obtain ⟨rfl, rfl⟩ := hanswer
    exact .givenUp h'

/-- What becomes of an attach that waits, in every schedule: `pre` is what happens on the host until then, and `post` what happens later.
1. The job it waits for is not known or has not started.
2. Later it still waits for that job and has been told nothing, or it waits for none and has been told one thing: that it is joined, that
   the job did not start, or that it was given up.
3. It is told so by the first move that has something to tell, and that finds it waiting: the process of its job runs and it is joined to
   the job as it asked, or the process does not start and the job is forgotten, or the attaches waiting for the job are given up.
4. If its job is starting, then it does not wait any more when the job is not. -/
theorem waiting_attach_answered {host : String} {pre post : List Move} (hpre : follow step { id := host } pre = some h₀)
    (ha : h₀.attaches[i]? = some a) (hp : a.standing = .pending) (hpost : follow step h₀ post = some h) :
    let id := a.request.job
    let told := post.findSome? (answer id)
    (∀ j, h₀.job? id = some j → j.state = .starting) ∧
    (∃ a', h.attaches[i]? = some a' ∧ a'.request = a.request ∧ a'.standing.awaited = told.getD .timedOut ∧
      ∀ job, i ∈ h.pendingFor job ↔ job = id ∧ told = none) ∧
    (∀ w, told = some w → ∃ before m after g g', post = before ++ m :: after ∧ follow step h₀ before = some g ∧
      g.step m = some g' ∧ follow step g' after = some h ∧ i ∈ g.pendingFor id ∧ Answered i a.request g m g' w) ∧
    (h₀.isStarting id → h.isStarting id = false → i ∉ h.pendingFor id) := by
  intro id told
  obtain ⟨a', ha', hrequest, hawaited⟩ := run_pending hpost ha hp
  have hwaits (job : String) : i ∈ h.pendingFor job ↔ job = id ∧ told = none := by
    have hnone : a'.standing = .pending ↔ told = none := by
      rw [← Standing.awaited_eq_timedOut, hawaited, told_eq_timedOut]
    rw [mem_pendingFor, ha', ← hnone]
    simp only [Option.some.injEq, exists_eq_left', hrequest]
    exact ⟨fun ⟨hst, hjob⟩ => ⟨hjob.symm, hst⟩, fun ⟨hjob, hst⟩ => ⟨hst, hjob.symm⟩⟩
  refine ⟨?_, ⟨a', ha', hrequest, hawaited, hwaits⟩, ?_, ?_⟩
  · have hall : h₀.WaitsForStart :=
      follow_keeps hpre (fun _ _ _ _ hm hall => hall.step hm) (by intro k b hb; simp at hb)
    exact hall i a ha hp
  · intro w hw
    obtain ⟨before, m, after, hsplit, hm, hbefore⟩ := List.findSome?_eq_some_iff.mp hw
    rw [hsplit, follow_append_eq_some] at hpost
    obtain ⟨g, hg, hrest⟩ := hpost
    obtain ⟨g', hstep, hafter⟩ := follow_cons_eq_some.mp hrest
    obtain ⟨b, hb, hbrequest, hbawaited⟩ := run_pending hg ha hp
    rw [List.findSome?_eq_none_iff.mpr hbefore] at hbawaited
    have hbp := Standing.awaited_eq_timedOut.mp hbawaited
    refine ⟨before, m, after, g, g', hsplit, hg, hstep, hafter, mem_pendingFor.mpr ⟨b, hb, hbp, by rw [hbrequest]⟩, ?_⟩
    rw [← hbrequest]
    exact answered_of_step hstep hb hbp (by rw [hbrequest]; exact hm)
  · intro hstarting hstarted hwaiting
    obtain ⟨-, hnone⟩ := (hwaits id).mp hwaiting
    have hstill : h.isStarting id := by
      refine follow_keeps (P := (·.isStarting id = true)) hpost ?_ hstarting
      intro g m g' hm hstep hs
      exact isStarting_of_step hstep hs (List.findSome?_eq_none_iff.mp hnone m hm)
    rw [hstarted] at hstill
    cases hstill

/-- Four attaches wait: for a job whose process then runs, for one whose process does not start, for one that nobody waits for any more, and
for one that nothing happens to. -/
theorem waiting_attach_answered_four_ways :
    let attach (job : String) : Move := .attach { job, flags := { stdout := true, stream := true } } true
    let pre : List Move := [attach "j", .submit { id := "j" }, .submit { id := "k" }, attach "k", attach "l", attach "m"]
    let post : List Move := [.spawned "j" false, .spawnFailed "k" "no such file", .detach "l", .detach "j"]
    ∃ h₀ h, follow step { id := "h" } pre = some h₀ ∧ follow step h₀ post = some h ∧
      ∀ p ∈ [(0, Awaited.ready), (1, .refused "job failed to start: no such file"), (2, .closed), (3, .timedOut)],
        ∃ a a', h₀.attaches[p.1]? = some a ∧ a.standing = .pending ∧ h.attaches[p.1]? = some a' ∧ a'.standing.awaited = p.2 := by
  intro attach pre post
  have hrun : ∃ h₀ ∈ follow step { id := "h" } pre, ∃ h ∈ follow step h₀ post,
      ∀ p ∈ [(0, Awaited.ready), (1, .refused "job failed to start: no such file"), (2, .closed), (3, .timedOut)],
        ∃ a ∈ h₀.attaches[p.1]?, a.standing = .pending ∧ (post.findSome? (answer a.request.job)).getD .timedOut = p.2 := by
    decide +kernel
  obtain ⟨h₀, hpre, h, hpost, hwait⟩ := hrun
  refine ⟨h₀, h, hpre, hpost, fun p hp => ?_⟩
  obtain ⟨a, ha, hpending, hanswer⟩ := hwait p hp
  obtain ⟨-, ⟨a', ha', -, hawaited, -⟩, -⟩ := waiting_attach_answered hpre ha hpending hpost
  exact ⟨a, a', ha, hpending, ha', hawaited.trans hanswer⟩

end LocalHost

end JobPlane
