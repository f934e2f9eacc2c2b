import JobPlane.Local.Host
import JobPlane.Proofs.Moves

/-!
# What a host's moves do

What a move of a host does to one of its jobs and to one of its attaches. A job that has started stays known, and only what it writes
changes its log (`step_job`). An attach changes in a few ways only (`AttachStep`), and no attach is ever forgotten (`step_attach`).
-/

namespace JobPlane.LocalHost

/-! ## Jobs -/

/-- A change of one job that keeps its ID leaves each job in its place. -/
theorem job?_mapJob_of_id (h : LocalHost) (id x : String) {f : LocalJob → LocalJob}
    (hf : ∀ j, j.spec.id = id → (f j).spec.id = id) :
    (h.mapJob id f).job? x = (h.job? x).map fun j => if x = id then f j else j := by
  unfold job? mapJob
  induction h.jobs with
  | nil => rfl
  | cons j js ih =>
    have hid : (if j.spec.id == id then f j else j).spec.id = j.spec.id := by
      split
      · rename_i hj
        rw [beq_iff_eq] at hj
        rw [hf j hj, hj]
      · rfl
    simp only [List.map_cons, List.find?_cons, hid, ih]
    cases hx : j.spec.id == x with
    | false => rfl
    | true =>
      rw [beq_iff_eq] at hx
      subst hx
      simp

/-- A change of one job leaves each job in its place. -/
theorem job?_mapJob (h : LocalHost) (id x : String) {f : LocalJob → LocalJob} (hf : ∀ j, (f j).spec = j.spec) :
    (h.mapJob id f).job? x = (h.job? x).map fun j => if x = id then f j else j :=
  h.job?_mapJob_of_id id x fun j hj => by rw [hf, hj]

/-- Changes of attaches leave the jobs alone. -/
@[simp] theorem job?_mapPending (h : LocalHost) (job x : String) (f : Attachment → Attachment) :
    (h.mapPending job f).job? x = h.job? x := rfl

/-- A job that is told the size of a terminal keeps its ID. -/
theorem sized_id (h : LocalHost) (spec : JobSpec) : (h.sized spec).id = spec.id := by
  unfold sized
  split
  · split <;> rfl
  · rfl

/-- A job that is accepted leaves the others in their places. -/
theorem job?_submitted (h : LocalHost) (spec : JobSpec) (x : String) :
    LocalHost.job? { h with jobs := h.jobs ++ [{ spec := h.sized spec }] } x =
      (h.job? x).or (if x = spec.id then some { spec := h.sized spec } else none) := by
  simp only [job?, List.find?_append, List.find?_cons, List.find?_nil, sized_id]
  by_cases hx : x = spec.id
  · simp [hx]
  · have hx' : (spec.id == x) = false := by simpa using fun he => hx he.symm
    simp [hx, hx']

/-- Forgetting a job leaves the others in their places. -/
theorem job?_spawnFailed (h : LocalHost) (id reason x : String) :
    (h.spawnFailed id reason).job? x = if x = id then none else h.job? x := by
  change (h.jobs.filter fun j => j.spec.id != id).find? (fun j => j.spec.id == x) = _
  rw [List.find?_filter]
  by_cases hx : x = id
  · subst hx
    rw [if_pos rfl, List.find?_eq_none]
    intro j _
    simp
  · rw [if_neg hx]
    unfold job?
    congr 1
    funext j
    by_cases hj : j.spec.id = x <;> simp [hj, hx]

/-! ## Moves -/

variable {h h' : LocalHost}

/-- Only a success counts as something. -/
theorem eq_ok_of_toOption {ε α : Type} {x : Except ε α} {a : α} (h : x.toOption = some a) : x = .ok a := by
  cases x with
  | error e => cases h
  | ok b => exact congrArg _ (Option.some.inj h)

/-- What a host is after a move, for every move that is possible. -/
inductive Moved (h : LocalHost) : Move → LocalHost → Prop
  | submitted (spec : JobSpec) (hnew : h.job? spec.id = none) :
      Moved h (.submit spec) { h with jobs := h.jobs ++ [{ spec := h.sized spec }] }
  | spawned (id : String) (hasInput : Bool) (j : LocalJob) (f : LocalJob → LocalJob) (hj : h.job? id = some j)
      (hstarting : j.state = .starting) (hf : ∀ j, (f j).spec = j.spec ∧ (f j).state = .running ∧ (f j).log = j.log) :
      Moved h (.spawned id hasInput)
        ((h.mapJob id f).mapPending id fun a =>
          { a with standing := .joined { flags := a.request.flags, tty := j.spec.config.tty } })
  | spawnFailed (id reason : String) (j : LocalJob) (hj : h.job? id = some j) (hstarting : j.state = .starting) :
      Moved h (.spawnFailed id reason) (h.spawnFailed id reason)
  | attached (r : AttachRequest) (wait : Bool) (standing : Standing)
      (hst : standing = .pending ∧ wait = true ∨ ∃ j, h.job? r.job = some j ∧ j.state ≠ .starting ∧
        standing = .joined { flags := r.flags, tty := j.spec.config.tty }) :
      Moved h (.attach r wait) { h with attaches := h.attaches.push { request := r, standing } }
  | detached (job : String) : Moved h (.detach job) (h.detach job)
  | leftAlone (id : String) : Moved h (.stop id) h
  | stopped (id : String) : Moved h (.stop id) (h.mapJob id fun j => { j with stopping := true })
  | emitted (id : String) (c : Frame) (j : LocalJob) (hj : h.job? id = some j) (hrun : j.state = .running)
      (hopen : j.log.closed = false) : Moved h (.emit id c) (h.mapJob id fun j => { j with log := j.log.push c })
  | outputClosed (id : String) (j : LocalJob) (hj : h.job? id = some j) (hrun : j.state = .running)
      (hopen : j.log.closed = false) :
      Moved h (.closeOutput id) (h.mapJob id fun j => { j with log := j.log.close, input := j.input.map Pipe.abandon })
  | exited (id : String) (code : Option Nat) (j : LocalJob) (hj : h.job? id = some j) (hrun : j.state = .running)
      (hclosed : j.log.closed = true) : Moved h (.exit id code) (h.mapJob id fun j => { j with state := .exited code })
  | served (i : Nat) (a : Attachment) (j : LocalJob) (s s' : Server) (incoming : Pipe) (ha : h.attaches[i]? = some a)
      (hj : h.job? a.request.job = some j) (hs : a.standing = .joined s)
      (hstep : s.step j.log a.link.incoming = some (s', incoming)) :
      Moved h (.serve i) { h with
        attaches := h.attaches.setIfInBounds i { a with standing := .joined s', link := { a.link with incoming } } }
  | parted (i : Nat) (a : Attachment) (s : Server) (ha : h.attaches[i]? = some a) (hs : a.standing = .joined s)
      (hover : s.phase = .ended) : Moved h (.part i) { h with attaches := h.attaches.setIfInBounds i a.part }
  | carried (id : String) (m : Copy.Move) (i : Nat) (a : Attachment) (outgoing : Pipe) (f : LocalJob → LocalJob)
      (ha : h.attaches[i]? = some a) (hf : ∀ j, (f j).spec = j.spec ∧ (f j).state = j.state ∧ (f j).log = j.log) :
      Moved h (.carry id m) { h.mapJob id f with
        attaches := h.attaches.setIfInBounds i { a with link := { a.link with outgoing } } }
  | client (i : Nat) (f : Link → Link) (a : Attachment) (ha : h.attaches[i]? = some a) :
      Moved h (.client i f) { h with attaches := h.attaches.setIfInBounds i { a with link := f a.link } }

/-- A job that is starting is known. -/
theorem exists_of_isStarting {id : String} (hs : h.isStarting id = true) : ∃ j, h.job? id = some j ∧ j.state = .starting := by
  unfold isStarting at hs
  cases hj : h.job? id with
  | none => simp [hj] at hs
  | some j => exact ⟨j, rfl, by simpa [hj] using hs⟩

/-- Where a process runs, its job has started, and the attaches that waited for it are joined to it. -/
theorem moved_spawned {id : String} (hs : h.isStarting id = true) (hasInput : Bool) :
    Moved h (.spawned id hasInput) (h.spawned id hasInput) := by
  obtain ⟨j, hj, hstarting⟩ := exists_of_isStarting hs
  simp only [LocalHost.spawned, hj]
  refine .spawned id hasInput j _ hj hstarting ?_
  intro j
  exact ⟨rfl, rfl, rfl⟩

/-- Accepting an attach puts it behind the others: it waits, if it may, or is joined at once. -/
theorem attach_eq_ok {r : AttachRequest} {wait : Bool} {n : Nat} (hm : h.attach r wait = .ok (n, h')) :
    ∃ standing, h' = { h with attaches := h.attaches.push { request := r, standing } } ∧ n = h.attaches.size ∧
      (standing = .pending ∧ wait = true ∨ ∃ j, h.job? r.job = some j ∧ j.state ≠ .starting ∧
        standing = .joined { flags := r.flags, tty := j.spec.config.tty }) := by
  unfold attach at hm
  split at hm
  · split at hm <;> cases hm
    rename_i hwait
    exact ⟨.pending, rfl, rfl, Or.inl ⟨rfl, hwait⟩⟩
  · rename_i j hj
    split at hm
    · split at hm <;> cases hm
      rename_i hwait
      exact ⟨.pending, rfl, rfl, Or.inl ⟨rfl, hwait⟩⟩
    · rename_i hstarted
      cases hm
      exact ⟨_, rfl, rfl, Or.inr ⟨j, hj, hstarted, rfl⟩⟩

/-- An attach that is accepted is a move. -/
theorem step_of_attach {r : AttachRequest} {wait : Bool} {n : Nat} (ha : h.attach r wait = .ok (n, h')) :
    h.step (.attach r wait) = some h' := by
  simp [step, ha, Except.toOption]

/-- A job that has exited is not told to stop. -/
theorem moved_stop {id : String} (hm : h.stop id = .ok h') : Moved h (.stop id) h' := by
  unfold stop at hm
  split at hm
  · cases hm
  · rw [Except.ok.injEq] at hm
    subst hm
    split
    · exact .leftAlone id
    · exact .stopped id

/-- A job writes a chunk only while it runs and its log is open. -/
theorem moved_emit {id : String} {c : Frame} (hm : h.emit id c = some h') : Moved h (.emit id c) h' := by
  unfold emit at hm
  split at hm
  · rename_i j hj
    split at hm
    · rename_i hrun
      cases hm
      simp only [Bool.and_eq_true, decide_eq_true_eq, Bool.not_eq_true'] at hrun
      exact .emitted id c j hj hrun.1 hrun.2
    · cases hm
  · cases hm

/-- A job's log is closed only while the job runs and the log is open. -/
theorem moved_closeOutput {id : String} (hm : h.closeOutput id = some h') : Moved h (.closeOutput id) h' := by
  unfold closeOutput at hm
  split at hm
  · rename_i j hj
    split at hm
    · rename_i hrun
      cases hm
      simp only [Bool.and_eq_true, decide_eq_true_eq, Bool.not_eq_true'] at hrun
      exact .outputClosed id j hj hrun.1 hrun.2
    · cases hm
  · cases hm

/-- A job exits only once its log is closed. -/
theorem moved_exit {id : String} {code : Option Nat} (hm : h.exit id code = some h') : Moved h (.exit id code) h' := by
  unfold LocalHost.exit at hm
  split at hm
  · rename_i j hj
    split at hm
    · rename_i hrun
      cases hm
      simp only [Bool.and_eq_true, decide_eq_true_eq] at hrun
      exact .exited id code j hj hrun.1 hrun.2
    · cases hm
  · cases hm

/-- Serving an attach is a move of its server, from its job's log into the pipe to its client. -/
theorem moved_serve {i : Nat} (hm : h.serve i = some h') : Moved h (.serve i) h' := by
  simp only [serve, Option.bind_eq_bind, Option.bind_eq_some_iff] at hm
  obtain ⟨a, ha, j, hj, hm⟩ := hm
  split at hm
  · rename_i s hs
    obtain ⟨⟨s', incoming⟩, hstep, hm⟩ := Option.bind_eq_some_iff.mp hm
    cases hm
    exact .served i a j s s' incoming ha hj hs hstep
  · cases hm

/-- The host's end of an attach goes away only once the attach is served. -/
theorem moved_part {i : Nat} (hm : h.part i = some h') : Moved h (.part i) h' := by
  simp only [LocalHost.part, Option.bind_eq_bind, Option.bind_eq_some_iff] at hm
  obtain ⟨a, ha, hm⟩ := hm
  split at hm
  · rename_i s hs
    split at hm
    · rename_i hover
      cases hm
      simp only [Bool.and_eq_true, Server.isOver, decide_eq_true_eq] at hover
      exact .parted i a s ha hs hover.1.2
    · cases hm
  · cases hm

/-- Carrying input takes bytes from the client of one attach, and changes nothing of a job but its input. -/
theorem moved_carry {id : String} {m : Copy.Move} (hm : h.carry id m = some h') : Moved h (.carry id m) h' := by
  simp only [carry, Option.bind_eq_bind, Option.bind_eq_some_iff] at hm
  obtain ⟨j, -, i, -, a, ha, pipe, -, ⟨feed, outgoing, pipe'⟩, -, hm⟩ := hm
  cases hm
  refine .carried id m i a outgoing _ ha ?_
  intro j
  exact ⟨rfl, rfl, rfl⟩

/-- Every move makes of a host one of these. -/
theorem step_moved {m : Move} (hm : h.step m = some h') : Moved h m h' := by
  cases m with
  | submit spec =>
    have hs := eq_ok_of_toOption hm
    unfold submit at hs
    split at hs <;> cases hs
    rename_i hnew
    exact .submitted spec hnew
  | spawned id hasInput =>
    simp only [step] at hm
    split at hm <;> cases hm
    rename_i hs
    exact moved_spawned hs hasInput
  | spawnFailed id reason =>
    simp only [step] at hm
    split at hm <;> cases hm
    rename_i hs
    obtain ⟨j, hj, hstarting⟩ := exists_of_isStarting hs
    exact .spawnFailed id reason j hj hstarting
  | attach r wait =>
    simp only [step, Option.map_eq_some_iff] at hm
    obtain ⟨⟨n, h₁⟩, hs, rfl⟩ := hm
    obtain ⟨standing, rfl, -, hst⟩ := attach_eq_ok (eq_ok_of_toOption hs)
    exact .attached r wait standing hst
  | detach job =>
    cases hm
    exact .detached job
  | stop id => exact moved_stop (eq_ok_of_toOption hm)
  | emit id c => exact moved_emit hm
  | closeOutput id => exact moved_closeOutput hm
  | exit id code => exact moved_exit hm
  | serve i => exact moved_serve hm
  | part i => exact moved_part hm
  | carry id m => exact moved_carry hm
  | client i f =>
    simp only [step, Option.map_eq_some_iff] at hm
    obtain ⟨a, ha, rfl⟩ := hm
    exact .client i f a ha

/-- A host keeps its ID. -/
theorem step_id {m : Move} (hm : h.step m = some h') : h'.id = h.id := by
  cases step_moved hm <;> rfl

/-! ## Jobs after a move -/

/-- The log of a job after a move. -/
def logAfter (id : String) (l : OutputLog) : Move → OutputLog
  | .emit x c => if x = id then l.push c else l
  | .closeOutput x => if x = id then l.close else l
  | _ => l

/-- Whether a move adds to a job's log. -/
def Writes (id : String) : Move → Prop
  | .emit x _ => x = id
  | .closeOutput x => x = id
  | _ => False

/-- A move that does not add to a job's log leaves it as it is. -/
theorem logAfter_of_not_writes {m : Move} {id : String} (l : OutputLog) (hw : ¬Writes id m) : logAfter id l m = l := by
  cases m <;> simp only [logAfter] <;> first | rfl | exact if_neg hw

/-- A job stays known as it is unless it fails to start, it never starts again, its log changes only by what it writes, and it writes only
while the log is open. -/
theorem step_job {m : Move} {id : String} {j : LocalJob} (hm : h.step m = some h') (hj : h.job? id = some j)
    (hstays : j.state ≠ .starting ∨ ∀ reason, m ≠ .spawnFailed id reason) :
    ∃ j', h'.job? id = some j' ∧ (j.state ≠ .starting → j'.state ≠ .starting) ∧ j'.spec = j.spec ∧ j'.log = logAfter id j.log m ∧
      (Writes id m → j.log.closed = false) := by
  have hsame (hjobs : h'.job? id = h.job? id) (hw : ¬Writes id m) (hl : logAfter id j.log m = j.log) :
      ∃ j', h'.job? id = some j' ∧ (j.state ≠ .starting → j'.state ≠ .starting) ∧ j'.spec = j.spec ∧
        j'.log = logAfter id j.log m ∧ (Writes id m → j.log.closed = false) :=
    ⟨j, hjobs.trans hj, fun hs => hs, rfl, hl.symm, fun h => absurd h hw⟩
  have hmapped {x : String} {f : LocalJob → LocalJob} (hjobs : h'.job? id = (h.mapJob x f).job? id)
      (hspec : ∀ j, (f j).spec = j.spec) (hstate : j.state ≠ .starting → (f j).state ≠ .starting)
      (hlog : (if id = x then f j else j).log = logAfter id j.log m) (hw : Writes id m → j.log.closed = false) :
      ∃ j', h'.job? id = some j' ∧ (j.state ≠ .starting → j'.state ≠ .starting) ∧ j'.spec = j.spec ∧
        j'.log = logAfter id j.log m ∧ (Writes id m → j.log.closed = false) := by
    refine ⟨if id = x then f j else j, ?_, fun hstarted => ?_, by split <;> simp [hspec], hlog, hw⟩
    · rw [hjobs, job?_mapJob h x id hspec, hj]
      rfl
    · split
      · exact hstate hstarted
      · exact hstarted
  cases step_moved hm with
  | submitted spec hnew => exact hsame (by rw [job?_submitted, hj]; rfl) (fun hw => hw) rfl
  | spawned x hasInput j₀ f _ _ hf =>
    refine hmapped (x := x) (f := f) rfl (fun j => (hf j).1) (fun _ => by simp [hf]) ?_ (fun hw => absurd hw fun hw => hw)
    split
    · exact (hf j).2.2
    · rfl
  | spawnFailed x reason j₀ hj₀ hstarting =>
    have hne : id ≠ x := by
      rintro rfl
      rcases hstays with hstarted | hno
      · rw [hj] at hj₀
        cases hj₀
        exact hstarted hstarting
      · exact hno reason rfl
    exact hsame (by rw [job?_spawnFailed, if_neg hne]) (fun hw => hw) rfl
  | stopped x =>
    refine hmapped rfl (fun _ => rfl) (fun hs => hs) ?_ (fun hw => absurd hw fun hw => hw)
    split <;> rfl
  | emitted x c j₀ hj₀ _ hopen =>
    refine hmapped rfl (fun _ => rfl) (fun hs => hs) ?_ ?_
    · simp only [logAfter, eq_comm (a := x)]
      split <;> rfl
    · rintro rfl
      rw [hj] at hj₀
      cases hj₀
      exact hopen
  | outputClosed x j₀ hj₀ _ hopen =>
    refine hmapped rfl (fun _ => rfl) (fun hs => hs) ?_ ?_
    · simp only [logAfter, eq_comm (a := x)]
      split <;> rfl
    · rintro rfl
      rw [hj] at hj₀
      cases hj₀
      exact hopen
  | exited x code =>
    refine hmapped rfl (fun _ => rfl) (fun _ => by simp) ?_ (fun hw => absurd hw fun hw => hw)
    split <;> rfl
  | carried x m i a outgoing f _ hf =>
    refine hmapped (x := x) (f := f) rfl (fun j => (hf j).1) (fun hs => by rwa [(hf j).2.1]) ?_ (fun hw => absurd hw fun hw => hw)
    simp only [logAfter]
    split
    · exact (hf j).2.2
    · rfl
  | attached | detached | leftAlone | served | parted | client => exact hsame rfl (fun hw => hw) rfl

/-- A job that has started keeps a log that is closed: it writes only while its log is open. -/
theorem log_step {m : Move} {id : String} {j : LocalJob} (hm : h.step m = some h') (hj : h.job? id = some j)
    (hstarted : j.state ≠ .starting) (hclosed : j.log.closed = true) :
    ∃ j', h'.job? id = some j' ∧ j'.state ≠ .starting ∧ j'.spec = j.spec ∧ j'.log = j.log := by
  obtain ⟨j', hj', hstarted', hspec, hlog, hopen⟩ := step_job hm hj (Or.inl hstarted)
  have hno : ¬Writes id m := fun hw => by simp [hopen hw] at hclosed
  exact ⟨j', hj', hstarted' hstarted, hspec, hlog.trans (logAfter_of_not_writes j.log hno)⟩

/-- When the process of a job runs, the job was starting, and now runs; it is the same otherwise. -/
theorem spawned_job {id : String} {hasInput : Bool} (hm : h.step (.spawned id hasInput) = some h') :
    ∃ j j', h.job? id = some j ∧ j.state = .starting ∧ h'.job? id = some j' ∧ j'.state = .running ∧ j'.spec = j.spec ∧
      j'.log = j.log := by
  cases step_moved hm with
  | spawned _ _ j f hj hstarting hf =>
    obtain ⟨hspec, hrun, hlog⟩ := hf j
    refine ⟨j, f j, hj, hstarting, ?_, hrun, hspec, hlog⟩
    rw [job?_mapPending, job?_mapJob h id id fun j => (hf j).1, hj, Option.map_some, if_pos rfl]

/-- A job after a move was there before, and its log has changed only by what it wrote, or it is new and has written nothing. One that
has not started had not before, and has written nothing since. -/
theorem step_origin {m : Move} {id : String} {j' : LocalJob} (hm : h.step m = some h') (hj' : h'.job? id = some j') :
    j'.log = {} ∨ ∃ j, h.job? id = some j ∧ j'.log = logAfter id j.log m ∧
      (j'.state = .starting → j.state = .starting ∧ j'.log = j.log) := by
  have hsame (hjobs : h'.job? id = h.job? id) (hl : ∀ l, logAfter id l m = l) :
      ∃ j, h.job? id = some j ∧ j'.log = logAfter id j.log m ∧ (j'.state = .starting → j.state = .starting ∧ j'.log = j.log) :=
    ⟨j', hjobs ▸ hj', (hl _).symm, fun hs => ⟨hs, rfl⟩⟩
  have hmapped {x : String} {f : LocalJob → LocalJob} (hjobs : h'.job? id = (h.mapJob x f).job? id)
      (hspec : ∀ j, (f j).spec = j.spec) (hl : id ≠ x → ∀ l, logAfter id l m = l)
      (hf : ∀ j, h.job? x = some j →
        (f j).log = logAfter x j.log m ∧ ((f j).state = .starting → j.state = .starting ∧ (f j).log = j.log)) :
      ∃ j, h.job? id = some j ∧ j'.log = logAfter id j.log m ∧ (j'.state = .starting → j.state = .starting ∧ j'.log = j.log) := by
    rw [hj', job?_mapJob h x id hspec] at hjobs
    obtain ⟨j, hj, heq⟩ := Option.map_eq_some_iff.mp hjobs.symm
    split at heq
    · rename_i hx
      subst heq hx
      exact ⟨j, hj, hf j hj⟩
    · rename_i hx
      subst heq
      exact ⟨j, hj, (hl hx _).symm, fun hs => ⟨hs, rfl⟩⟩
  cases step_moved hm with
  | submitted spec hnew =>
    rw [job?_submitted] at hj'
    cases hj : h.job? id with
    | some j =>
      rw [hj] at hj'
      cases hj'
      exact Or.inr ⟨_, rfl, rfl, fun hs => ⟨hs, rfl⟩⟩
    | none =>
      rw [hj, Option.none_or] at hj'
      split at hj' <;> cases hj'
      exact Or.inl rfl
  | spawned x hasInput _ f _ _ hf =>
    refine Or.inr (hmapped (x := x) (f := f) rfl (fun j => (hf j).1) (fun _ _ => rfl) fun j _ => ⟨(hf j).2.2, fun hst => ?_⟩)
    rw [(hf j).2.1] at hst
    cases hst
  | spawnFailed x reason =>
    have hj := hj'
    rw [job?_spawnFailed] at hj
    split at hj
    · cases hj
    · exact Or.inr ⟨j', hj, rfl, fun hs => ⟨hs, rfl⟩⟩
  | stopped x => exact Or.inr (hmapped rfl (fun _ => rfl) (fun _ _ => rfl) fun j _ => ⟨rfl, fun hst => ⟨hst, rfl⟩⟩)
  | emitted x c j hj hrun =>
    refine Or.inr (hmapped rfl (fun _ => rfl) (fun hx _ => if_neg (Ne.symm hx)) fun j₁ hj₁ => ⟨(if_pos rfl).symm, fun hst => ?_⟩)
    rw [hj] at hj₁
    cases hj₁
    rw [hrun] at hst
    cases hst
  | outputClosed x j hj hrun =>
    refine Or.inr (hmapped rfl (fun _ => rfl) (fun hx _ => if_neg (Ne.symm hx)) fun j₁ hj₁ => ⟨(if_pos rfl).symm, fun hst => ?_⟩)
    rw [hj] at hj₁
    cases hj₁
    rw [hrun] at hst
    cases hst
  | exited x code =>
    refine Or.inr (hmapped rfl (fun _ => rfl) (fun _ _ => rfl) fun j _ => ⟨rfl, fun hst => ?_⟩)
    cases hst
  | carried x m i a outgoing f _ hf =>
    refine Or.inr (hmapped (x := x) (f := f) rfl (fun j => (hf j).1) (fun _ _ => rfl) fun j _ => ⟨(hf j).2.2, fun hst => ?_⟩)
    exact ⟨(hf j).2.1 ▸ hst, (hf j).2.2⟩
  | attached | detached | leftAlone | served | parted | client => exact Or.inr (hsame rfl fun _ => rfl)

/-- A job that has not started has written nothing. -/
def StartsEmpty (h : LocalHost) : Prop := ∀ id j, h.job? id = some j → j.state = .starting → j.log = {}

/-- Every move keeps the logs of jobs that have not started empty. -/
theorem StartsEmpty.step {m : Move} (he : h.StartsEmpty) (hm : h.step m = some h') : h'.StartsEmpty := by
  intro id j' hj' hs
  rcases step_origin hm hj' with hlog | ⟨j, hj, -, hstarting⟩
  · exact hlog
  · obtain ⟨hs, hlog⟩ := hstarting hs
    rw [hlog, he id j hj hs]

/-! ## Attaches -/

/-- What a move does to the attach in a place. -/
inductive AttachStep (h : LocalHost) (i : Nat) (a : Attachment) : Move → Attachment → Prop
  | served (j : LocalJob) (s s' : Server) (incoming : Pipe) (hj : h.job? a.request.job = some j) (hs : a.standing = .joined s)
      (hstep : s.step j.log a.link.incoming = some (s', incoming)) :
      AttachStep h i a (.serve i) { a with standing := .joined s', link := { a.link with incoming } }
  | client (f : Link → Link) : AttachStep h i a (.client i f) { a with link := f a.link }
  | parted (s : Server) (hs : a.standing = .joined s) (hover : s.phase = .ended) : AttachStep h i a (.part i) a.part
  | carried (id : String) (m : Copy.Move) (outgoing : Pipe) :
      AttachStep h i a (.carry id m) { a with link := { a.link with outgoing } }
  | joined (id : String) (hasInput : Bool) (j : LocalJob) (hp : a.standing = .pending) (hid : a.request.job = id)
      (hj : h.job? id = some j) :
      AttachStep h i a (.spawned id hasInput)
        { a with standing := .joined { flags := a.request.flags, tty := j.spec.config.tty } }
  | refused (id reason : String) (hp : a.standing = .pending) :
      AttachStep h i a (.spawnFailed id reason) (a.giveUp (.refused ("job failed to start: " ++ reason)))
  | withdrawn (job : String) (hp : a.standing = .pending) : AttachStep h i a (.detach job) (a.giveUp .withdrawn)
  | kept (m : Move) (hserve : m ≠ .serve i) (hclient : ∀ f, m ≠ .client i f) : AttachStep h i a m a

/-- An attach that is waited for by a job waits for it. -/
theorem standing_of_isPendingFor {a : Attachment} {job : String} (h : a.isPendingFor job = true) :
    a.standing = .pending ∧ a.request.job = job := by
  simpa [Attachment.isPendingFor] using h

/-- Changing the attaches that wait for a job changes the attach in a place if it is one of them. -/
theorem mapPending_attach {i : Nat} {a : Attachment} (ha : h.attaches[i]? = some a) (job : String)
    (f : Attachment → Attachment) :
    (h.mapPending job f).attaches[i]? = some (if a.isPendingFor job then f a else a) := by
  simp [mapPending, ha]

/-- Putting an attach into a place changes that place, and no other. -/
theorem attaches_set {as : Array Attachment} {i j : Nat} {a b : Attachment} (ha : as[i]? = some a) :
    (as.setIfInBounds j b)[i]? = if j = i then some b else some a := by
  obtain ⟨hi, -⟩ := Array.getElem?_eq_some_iff.mp ha
  by_cases hji : j = i
  · subst hji
    simp [hi]
  · rw [Array.getElem?_setIfInBounds_ne hji, if_neg hji, ha]

/-- No attach is ever forgotten, and it changes in these ways only. -/
theorem step_attach {m : Move} {i : Nat} {a : Attachment} (hm : h.step m = some h') (ha : h.attaches[i]? = some a) :
    ∃ a', h'.attaches[i]? = some a' ∧ AttachStep h i a m a' := by
  have hkept (hsame : h'.attaches[i]? = h.attaches[i]?) (hserve : m ≠ .serve i) (hclient : ∀ f, m ≠ .client i f) :
      ∃ a', h'.attaches[i]? = some a' ∧ AttachStep h i a m a' := ⟨a, hsame.trans ha, .kept m hserve hclient⟩
  have hwaits {job : String} {f : Attachment → Attachment} (hh' : h'.attaches = (h.mapPending job f).attaches)
      (hf : a.standing = .pending → a.request.job = job → AttachStep h i a m (f a)) (hserve : m ≠ .serve i)
      (hclient : ∀ f, m ≠ .client i f) : ∃ a', h'.attaches[i]? = some a' ∧ AttachStep h i a m a' := by
    refine ⟨_, by rw [hh']; exact mapPending_attach ha job f, ?_⟩
    split
    · rename_i hp
      obtain ⟨hp, hid⟩ := standing_of_isPendingFor hp
      exact hf hp hid
    · exact .kept m hserve hclient
  have hput {k : Nat} {b b' : Attachment} (hb : h.attaches[k]? = some b) (hh' : h'.attaches = h.attaches.setIfInBounds k b')
      (hsame : k = i → AttachStep h i b m b') (hother : k ≠ i → AttachStep h i a m a) :
      ∃ a', h'.attaches[i]? = some a' ∧ AttachStep h i a m a' := by
    rw [hh', attaches_set ha]
    by_cases hk : k = i
    · subst hk
      rw [ha] at hb
      cases hb
      exact ⟨_, if_pos rfl, hsame rfl⟩
    · exact ⟨a, if_neg hk, hother hk⟩
  cases step_moved hm with
  | spawned id hasInput j f hj => exact hwaits rfl (fun hp hid => .joined id hasInput j hp hid hj) (by simp) (by simp)
  | spawnFailed id reason => exact hwaits rfl (fun hp _ => .refused id reason hp) (by simp) (by simp)
  | detached job => exact hwaits rfl (fun hp _ => .withdrawn job hp) (by simp) (by simp)
  | attached r wait standing =>
    refine hkept ?_ (by simp) (by simp)
    obtain ⟨hi, -⟩ := Array.getElem?_eq_some_iff.mp ha
    rw [Array.getElem?_push, if_neg (by omega)]
  | served k b j s s' incoming hb hj hs hstep =>
    refine hput hb rfl ?_ (fun hk => .kept _ (by simpa using hk) (by simp))
    rintro rfl
    exact .served j s s' incoming hj hs hstep
  | parted k b s hb hs hover =>
    refine hput hb rfl ?_ (fun _ => .kept _ (by simp) (by simp))
    rintro rfl
    exact .parted s hs hover
  | carried id m k b outgoing f hb => exact hput hb rfl (fun _ => .carried id m outgoing) (fun _ => .kept _ (by simp) (by simp))
  | client k f b hb =>
    refine hput hb rfl ?_ (fun hk => .kept _ (by simp) (by simpa using hk))
    rintro rfl
    exact .client f
  | submitted | leftAlone | stopped | emitted | outputClosed | exited => exact hkept rfl (by simp) (by simp)

/-- An attach that a move brings was accepted by it. -/
theorem attach_of_new {m : Move} {i : Nat} {a : Attachment} (hm : h.step m = some h') (hnone : h.attaches[i]? = none)
    (ha : h'.attaches[i]? = some a) : ∃ r wait, h.attach r wait = .ok (i, h') := by
  rw [Array.getElem?_eq_none_iff] at hnone
  obtain ⟨hi, -⟩ := Array.getElem?_eq_some_iff.mp ha
  have hsame (hs : h'.attaches.size = h.attaches.size) : False := by omega
  cases step_moved hm with
  | attached r wait standing =>
    simp only [step, Option.map_eq_some_iff] at hm
    obtain ⟨⟨n, h₁⟩, hs, hh₁⟩ := hm
    have hok := eq_ok_of_toOption hs
    obtain ⟨-, -, hn, -⟩ := attach_eq_ok hok
    have hi : n = i := by
      simp only [Array.size_push] at hi
      omega
    exact ⟨r, wait, by rw [hok, hi, ← hh₁]⟩
  | submitted | leftAlone | stopped | emitted | outputClosed | exited => exact (hsame rfl).elim
  | spawned | spawnFailed | detached => exact (hsame (Array.size_map ..)).elim
  | served | parted | carried | client => exact (hsame (Array.size_setIfInBounds ..)).elim

/-- An attach that a move brings is fresh: it waits, or is joined at once. -/
theorem step_new {m : Move} {i : Nat} {a : Attachment} (hm : h.step m = some h') (hnone : h.attaches[i]? = none)
    (ha : h'.attaches[i]? = some a) :
    a.link = .fresh 65536 ∧
      (a.standing = .pending ∨ ∃ s j, a.standing = .joined s ∧ h.job? a.request.job = some j ∧ j.state ≠ .starting) := by
  obtain ⟨r, wait, hattach⟩ := attach_of_new hm hnone ha
  obtain ⟨standing, rfl, rfl, hst⟩ := attach_eq_ok hattach
  rw [Array.getElem?_push_size] at ha
  cases ha
  refine ⟨rfl, ?_⟩
  rcases hst with ⟨hp, -⟩ | ⟨j, hj, hstarted, hst⟩
  · exact Or.inl hp
  · exact Or.inr ⟨_, j, hst, hj, hstarted⟩

/-- The attaches that are joined are joined to jobs that have started. -/
def JoinsStarted (h : LocalHost) : Prop :=
  ∀ (i : Nat) (a : Attachment) (s : Server), h.attaches[i]? = some a → a.standing = .joined s →
    ∃ j, h.job? a.request.job = some j ∧ j.state ≠ .starting

/-- Every move joins attaches only to jobs that have started. -/
theorem JoinsStarted.step {m : Move} (hall : h.JoinsStarted) (hm : h.step m = some h') : h'.JoinsStarted := by
  intro i a' s' ha' hs'
  have hkeeps {job : String} {j : LocalJob} (hj : h.job? job = some j) (hstarted : j.state ≠ .starting) :
      ∃ j, h'.job? job = some j ∧ j.state ≠ .starting := by
    obtain ⟨j', hj', hstarted', -⟩ := step_job hm hj (Or.inl hstarted)
    exact ⟨j', hj', hstarted' hstarted⟩
  cases ha : h.attaches[i]? with
  | none =>
    obtain ⟨-, hp | ⟨s, j, -, hj, hstarted⟩⟩ := step_new hm ha ha'
    · rw [hp] at hs'
      cases hs'
    · exact hkeeps hj hstarted
  | some a =>
    obtain ⟨a'', ha'', hstep⟩ := step_attach hm ha
    rw [ha'] at ha''
    cases ha''
    have hbefore {s : Server} (hs : a.standing = .joined s) : ∃ j, h'.job? a.request.job = some j ∧ j.state ≠ .starting := by
      obtain ⟨j, hj, hstarted⟩ := hall i a s ha hs
      exact hkeeps hj hstarted
    cases hstep with
    | served j s s' incoming hj hs => exact hbefore hs
    | client f => exact hbefore hs'
    | parted s hs => exact hbefore hs
    | carried id m outgoing => exact hbefore hs'
    | joined id hasInput j hp hid hj =>
      obtain ⟨_, j', -, -, hj', hrun, -⟩ := spawned_job hm
      exact ⟨j', hid ▸ hj', by simp [hrun]⟩
    | refused id reason hp => cases hs'
    | withdrawn job hp => cases hs'
    | kept _ hserve hclient => exact hbefore hs'

end JobPlane.LocalHost
