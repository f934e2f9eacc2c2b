import JobPlane.Proofs.Local.Replay
import JobPlane.Proofs.Local.Submission
import Mathlib.Data.List.Nodup

/-!
# The life of a job

What happens to a job on its host, whatever the host is asked and however its own moves fall between (`job_lifecycle`). A job goes
through its states in one order (`StateStep`), a host never knows two jobs by one ID (`DistinctJobs`), and a job has exited only once
its log is closed (`ExitsClosed`); each of these is kept by every move. What is left of a job that has exited is its log, and every
attach that asks for the history from then on is sent all of it.
-/

namespace JobPlane.LocalHost

open Server Serving

variable {h h' : LocalHost} {id : String}

/-! ## States -/

/-- Where a job is in its life, if it is known. -/
def state? (h : LocalHost) (id : String) : Option JobState := (h.job? id).map (·.state)

/-- Whether a move is one that takes a job from one state to the next. -/
def advances (id : String) : Move → Bool
  | .submit spec => spec.id = id
  | .spawned x _ => x = id
  | .spawnFailed x _ => x = id
  | .exit x _ => x = id
  | _ => false

/-- What a move makes of where a job is in its life. -/
inductive StateStep (id : String) : Move → Option JobState → Option JobState → Prop
  | submitted (spec : JobSpec) (hid : spec.id = id) : StateStep id (.submit spec) none (some .starting)
  | spawned (hasInput : Bool) : StateStep id (.spawned id hasInput) (some .starting) (some .running)
  | spawnFailed (reason : String) : StateStep id (.spawnFailed id reason) (some .starting) none
  | exited (code : Option Nat) : StateStep id (.exit id code) (some .running) (some (.exited code))
  | kept (m : Move) (state : Option JobState) (hm : advances id m = false) : StateStep id m state state

/-- The states of the jobs where one job is changed. -/
theorem state?_mapJob (h : LocalHost) (id x : String) {f : LocalJob → LocalJob} (hf : ∀ j, (f j).spec = j.spec) :
    (h.mapJob x f).state? id = (h.job? id).map fun j => (if id = x then f j else j).state := by
  rw [state?, job?_mapJob h x id hf, Option.map_map]
  rfl

/-- Every move takes every job through its life in the one order. -/
theorem state_step {m : Move} (hm : h.step m = some h') : StateStep id m (h.state? id) (h'.state? id) := by
  have hkept (hsame : h'.state? id = h.state? id) (hm : advances id m = false) : StateStep id m (h.state? id) (h'.state? id) := by
    rw [hsame]
    exact .kept m _ hm
  have hmapped {x : String} {f : LocalJob → LocalJob} (hjobs : h'.job? id = (h.mapJob x f).job? id)
      (hf : ∀ j, (f j).spec = j.spec) (hstate : id = x → ∀ j, (f j).state = j.state) : h'.state? id = h.state? id := by
    rw [state?, hjobs, ← state?, state?_mapJob h id x hf, state?]
    refine Option.map_congr fun j _ => ?_
    split
    · exact hstate ‹_› j
    · rfl
  cases step_moved hm with
  | submitted spec hnew =>
    by_cases hid : spec.id = id
    · subst hid
      have hnow : LocalHost.state? { h with jobs := h.jobs ++ [{ spec := h.sized spec }] } spec.id = some .starting := by
        rw [state?, job?_submitted, hnew]
        simp
      rw [hnow, state?, hnew]
      exact .submitted spec rfl
    · refine hkept ?_ (by simp [advances, hid])
      rw [state?, job?_submitted, if_neg (Ne.symm hid), Option.or_none, state?]
  | spawned x hasInput j f hj hstarting hf =>
    by_cases hid : x = id
    · subst hid
      have hnow : ((h.mapJob x f).mapPending x fun a =>
          { a with standing := .joined { flags := a.request.flags, tty := j.spec.config.tty } }).state? x = some .running := by
        rw [state?, job?_mapPending, ← state?, state?_mapJob h x x fun j => (hf j).1, hj]
        simp [hf]
      rw [hnow, state?, hj, Option.map_some, hstarting]
      exact .spawned hasInput
    · exact hkept (hmapped (x := x) (f := f) rfl (fun j => (hf j).1) fun he => absurd he.symm hid) (by simp [advances, hid])
  | spawnFailed x reason j hj hstarting =>
    rw [state?, state?, job?_spawnFailed]
    by_cases hid : x = id
    · subst hid
      rw [if_pos rfl, hj, Option.map_some, hstarting]
      exact .spawnFailed reason
    · rw [if_neg (Ne.symm hid)]
      exact .kept _ _ (by simp [advances, hid])
  | exited x code j hj hrun =>
    by_cases hid : x = id
    · subst hid
      have hnow : (h.mapJob x fun j => { j with state := .exited code }).state? x = some (.exited code) := by
        rw [state?_mapJob h x x (f := fun j => { j with state := .exited code }) fun _ => rfl, hj]
        simp
      rw [hnow, state?, hj, Option.map_some, hrun]
      exact .exited code
    · exact hkept (hmapped rfl (fun _ => rfl) fun he => absurd he.symm hid) (by simp [advances, hid])
  | stopped x => exact hkept (hmapped rfl (fun _ => rfl) fun _ _ => rfl) rfl
  | emitted x c => exact hkept (hmapped rfl (fun _ => rfl) fun _ _ => rfl) rfl
  | outputClosed x => exact hkept (hmapped rfl (fun _ => rfl) fun _ _ => rfl) rfl
  | carried x m i a outgoing f _ hf =>
    exact hkept (hmapped (x := x) (f := f) rfl (fun j => (hf j).1) fun _ j => (hf j).2.1) rfl
  | attached | detached | leftAlone | served | parted | client => exact hkept rfl rfl

/-- A job that has exited never leaves that state. -/
theorem StateStep.exited_stays {m : Move} {before after : Option JobState} (hs : StateStep id m before after) {code : Option Nat}
    (hb : before = some (.exited code)) : after = some (.exited code) := by
  cases hs with
  | kept => exact hb
  | _ => cases hb

/-- Whatever happens on a host, a job that has exited stays so. -/
theorem exited_run {ms : List Move} {code : Option Nat} (hrun : follow step h ms = some h')
    (hexited : h.state? id = some (.exited code)) : h'.state? id = some (.exited code) :=
  follow_keeps (P := fun h => h.state? id = some (.exited code)) hrun (fun _ _ _ _ hm hs => (state_step hm).exited_stays hs) hexited

/-! ## The jobs of a host -/

/-- No two jobs of a host have one ID. -/
def DistinctJobs (h : LocalHost) : Prop := (h.jobs.map (·.spec.id)).Nodup

/-- The IDs of the jobs where one job is changed. -/
theorem ids_mapJob (x : String) {f : LocalJob → LocalJob} (hf : ∀ j, j.spec.id = x → (f j).spec.id = x) :
    (h.mapJob x f).jobs.map (·.spec.id) = h.jobs.map (·.spec.id) := by
  rw [mapJob, List.map_map]
  refine List.map_congr_left fun j _ => ?_
  simp only [Function.comp_apply]
  split
  · rename_i hj
    rw [beq_iff_eq] at hj
    rw [hf j hj, hj]
  · rfl

/-- Every move keeps the IDs of jobs apart. -/
theorem DistinctJobs.step {m : Move} (hd : h.DistinctJobs) (hm : h.step m = some h') : h'.DistinctJobs := by
  have hmapped {x : String} {f : LocalJob → LocalJob} (hf : ∀ j, (f j).spec = j.spec) : (h.mapJob x f).DistinctJobs := by
    rw [DistinctJobs, ids_mapJob x fun j hj => by rw [hf, hj]]
    exact hd
  cases step_moved hm with
  | submitted spec hnew =>
    rw [DistinctJobs, List.map_append, List.map_singleton, sized_id, List.nodup_append]
    refine ⟨hd, by simp, ?_⟩
    rintro _ ha _ hb rfl
    obtain ⟨j, hj, rfl⟩ := List.mem_map.mp ha
    rw [List.mem_singleton] at hb
    exact absurd (by simpa using hb) (List.find?_eq_none.mp hnew j hj)
  | spawned _ _ _ f _ _ hf => exact hmapped fun j => (hf j).1
  | spawnFailed x => exact (List.filter_sublist.map _).nodup hd
  | carried _ _ _ _ _ f _ hf => exact hmapped fun j => (hf j).1
  | stopped | emitted | outputClosed | exited => exact hmapped fun _ => rfl
  | attached | detached | leftAlone | served | parted | client => exact hd

/-- Where IDs are kept apart, the jobs of a host are those known by their IDs. -/
theorem job?_eq_some_iff (hd : h.DistinctJobs) {j : LocalJob} : h.job? id = some j ↔ j ∈ h.jobs ∧ j.spec.id = id := by
  constructor
  · intro hj
    exact ⟨List.mem_of_find?_eq_some hj, by simpa using List.find?_some hj⟩
  · rintro ⟨hmem, rfl⟩
    cases hfound : h.job? j.spec.id with
    | none => exact absurd (List.find?_eq_none.mp hfound j hmem) (by simp)
    | some j' =>
      have hsame : j'.spec.id = j.spec.id := by simpa using List.find?_some hfound
      rw [List.inj_on_of_nodup_map hd (List.mem_of_find?_eq_some hfound) hmem hsame]

/-- What a host reports: the jobs that start or run, and no others. -/
theorem mem_snapshot (hd : h.DistinctJobs) {spec : JobSpec} :
    spec ∈ h.snapshot.jobs ↔ ∃ j, h.job? spec.id = some j ∧ j.spec = spec ∧ j.state.isExited = false := by
  simp only [snapshot, List.mem_mergeSort, List.mem_map, List.mem_filter, Bool.not_eq_true']
  refine exists_congr fun j => ?_
  rw [job?_eq_some_iff hd]
  constructor
  · rintro ⟨⟨hmem, hlive⟩, rfl⟩
    exact ⟨⟨hmem, rfl⟩, rfl, hlive⟩
  · rintro ⟨⟨hmem, -⟩, rfl, hlive⟩
    exact ⟨⟨hmem, hlive⟩, rfl⟩

/-- A host reports its jobs in the order of their IDs, no ID twice. -/
theorem snapshot_sorted (hd : h.DistinctJobs) : (h.snapshot.jobs.map (·.id)).Pairwise (· < ·) := by
  let live := (h.jobs.filter fun j => !j.state.isExited).map (·.spec)
  have hsorted : (live.mergeSort fun a b => decide (a.id ≤ b.id)).Pairwise fun a b => a.id ≤ b.id := by
    refine (List.pairwise_mergeSort ?_ ?_ live).imp fun hle => by simpa using hle
    · intro a b c hab hbc
      simp only [decide_eq_true_eq] at *
      exact String.le_trans hab hbc
    · intro a b
      simpa using String.le_total a.id b.id
  have hnodup : ((live.mergeSort fun a b => decide (a.id ≤ b.id)).map (·.id)).Nodup := by
    refine ((List.mergeSort_perm live _).map _).nodup_iff.mpr ?_
    have hsub : (live.map (·.id)).Sublist (h.jobs.map (·.spec.id)) := by
      rw [List.map_map]
      exact List.filter_sublist.map _
    exact hsub.nodup hd
  have hboth := (List.pairwise_map.mpr hsorted).and hnodup
  exact hboth.imp fun hab => Decidable.byContradiction fun hge => hab.2 (String.le_antisymm hab.1 hge)

/-! ## The end of a job -/

/-- The logs of the jobs that have exited are closed. -/
def ExitsClosed (h : LocalHost) : Prop := ∀ id j, h.job? id = some j → j.state.isExited = true → j.log.closed = true

/-- A job that has exited has started. -/
theorem started_of_isExited {state : JobState} (he : state.isExited = true) : state ≠ .starting := by
  rintro rfl
  cases he

/-- A job exits only once its log is closed, and a log stays closed. -/
theorem ExitsClosed.step {m : Move} (hc : h.ExitsClosed) (hm : h.step m = some h') : h'.ExitsClosed := by
  intro id j' hj' he
  have hstate : StateStep id m (h.state? id) (h'.state? id) := state_step hm
  have hnow : h'.state? id = some j'.state := by rw [state?, hj', Option.map_some]
  rw [hnow] at hstate
  have hexits {before : Option JobState} (hb : h.state? id = before) (hs : StateStep id m before (some j'.state)) :
      j'.log.closed = true := by
    generalize hafter : some j'.state = after at hs
    cases hs with
    | submitted | spawned => rw [Option.some.injEq] at hafter; simp [hafter, JobState.isExited] at he
    | spawnFailed => cases hafter
    | exited code =>
      cases step_moved hm with
      | exited _ _ j hj hrun hclosed =>
        rw [job?_mapJob h id id (f := fun j => { j with state := .exited code }) fun _ => rfl, hj] at hj'
        simp only [Option.map_some, if_true, Option.some.injEq] at hj'
        rw [← hj']
        exact hclosed
    | kept =>
      rw [← hafter, state?] at hb
      obtain ⟨j, hj, hsame⟩ := Option.map_eq_some_iff.mp hb
      rw [← hsame] at he
      have hclosed := hc id j hj he
      obtain ⟨j₁, hj₁, -, -, hlog⟩ := log_step hm hj (started_of_isExited he) hclosed
      rw [hj'] at hj₁
      cases hj₁
      rw [hlog, hclosed]
  exact hexits rfl hstate

/-- What the life of a host's jobs keeps. -/
structure Tended (h : LocalHost) : Prop where
  distinct : h.DistinctJobs
  exitsClosed : h.ExitsClosed
  startsEmpty : h.StartsEmpty

/-- Every schedule keeps the jobs of a host so. -/
theorem tended_run {host : String} {ms : List Move} (hrun : follow step { id := host } ms = some h) : h.Tended := by
  refine follow_keeps hrun (fun _ _ _ _ hm ht => ⟨ht.distinct.step hm, ht.exitsClosed.step hm, ht.startsEmpty.step hm⟩) ?_
  exact ⟨List.nodup_nil, (fun id j hj => by cases hj), (fun id j hj => by cases hj)⟩

/-- What jobs have written fits into frames if it did in every move. -/
theorem logsFit_run {host : String} {ms : List Move} (hrun : follow step { id := host } ms = some h)
    (hfit : ∀ id c, .emit id c ∈ ms → c.Fits) : h.LogsFit :=
  follow_keeps hrun (fun _ _ _ hmem hm hf => hf.step hm fun id c hc => hfit id c (hc ▸ hmem)) fun id j hj => by cases hj

/-! ## The life of a job -/

/-- What holds of the jobs of a host after any schedule of moves: submissions, processes that start or do not, stops, attaches, output,
exits, and what the host does by itself.
1. Whatever move comes next, it takes each job through its life in the one order, and a job that has exited stays so in every schedule.
2. A job of an ID that the host knows is not accepted. In a cluster the submission is refused, and nothing at all changes.
3. The host reports the jobs that start or run and no others, each once and in the order of their IDs; and so does the cluster for it.
4. The log of a job holds what the job ever wrote. It is closed when the job has exited, and once it is closed it stays as it is.
5. An attach to a job that has exited is accepted at any time, however many there were. In every schedule that follows, its client hears
   a beginning of what the job ever wrote of the kinds that were asked for, if the attach asks for the history and all chunks fit into
   frames; its server makes only so many moves; and once the client has read what came, and the end has come or the server can do nothing,
   it has heard all of that, and the end has come. -/
theorem job_lifecycle {host : String} {before : List Move} (hbefore : follow step { id := host } before = some h) :
    ((∀ id m h', h.step m = some h' → StateStep id m (h.state? id) (h'.state? id)) ∧
      ∀ id code after h', follow step h after = some h' → h.state? id = some (.exited code) → h'.state? id = some (.exited code)) ∧
    (∀ spec, (h.job? spec.id).isSome → h.step (.submit spec) = none ∧ ∀ (c : LocalCluster) key, c.host? key = some h →
      Cluster.addJobs [(key, [spec])] c = (.error (.unavailable ("job " ++ spec.id ++ " already exists on host " ++ h.id)), c)) ∧
    ((∀ spec, spec ∈ h.snapshot.jobs ↔ ∃ j, h.job? spec.id = some j ∧ j.spec = spec ∧ (j.state = .starting ∨ j.state = .running)) ∧
      (h.snapshot.jobs.map (·.id)).Pairwise (· < ·) ∧
      ∀ c : LocalCluster, h ∈ c.hosts → ∃ hosts, Cluster.hosts c = (.ok hosts, c) ∧ (h.id, h.snapshot) ∈ hosts) ∧
    (∀ id j, h.job? id = some j → j.log.chunks.toList = emitted id before ∧ (j.state.isExited = true → j.log.closed = true) ∧
      (j.log.closed = true → ∀ after h', follow step h after = some h' → ∃ j', h'.job? id = some j' ∧ j'.log = j.log)) ∧
    ∀ (r : AttachRequest) j wait, h.job? r.job = some j → j.state.isExited = true → r.flags.logs = true →
      (∀ id c, .emit id c ∈ before → c.Fits) →
      let i := h.attaches.size
      let all := encodings j.spec.config.tty (wanted r.flags (emitted r.job before))
      ∃ h₁, h.attach r wait = .ok (i, h₁) ∧ ∀ after h', follow step h₁ after = some h' → Attentive i after →
        heard i h₁ after <+: all ∧
        after.countP (serves i) ≤ total weight (emitted r.job before) + 4 ∧
        ∀ a, h'.attaches[i]? = some a → a.link.incoming.buffer = [] → a.link.incoming.closed = true ∨ h'.step (.serve i) = none →
          heard i h₁ after = all ∧ a.link.incoming.closed = true := by
  have htended := tended_run hbefore
  have hempty : LocalHost.StartsEmpty { id := host } := fun id j hj => by cases hj
  have hchunks {id : String} {j : LocalJob} (hj : h.job? id = some j) : j.log.chunks.toList = emitted id before := by
    rw [← chunks_of_job hj, chunks_run hempty hbefore]
    rfl
  refine ⟨⟨fun id m h' hm => state_step hm, fun id code after h' hrun => exited_run hrun⟩, ?_, ⟨?_, snapshot_sorted htended.distinct, ?_⟩,
    ?_, ?_⟩
  · intro spec hknown
    obtain ⟨j, hj⟩ := Option.isSome_iff_exists.mp hknown
    refine ⟨by simp [step, submit_known hj, Except.toOption], fun c key hh => ?_⟩
    exact (LocalCluster.addJobs_single c key spec).trans (LocalCluster.addOne_known hh hj)
  · intro spec
    rw [mem_snapshot htended.distinct]
    refine exists_congr fun j => and_congr_right fun _ => and_congr_right fun _ => ?_
    cases j.state <;> simp [JobState.isExited]
  · intro c hmem
    exact ⟨c.snapshot, rfl, List.mem_map_of_mem hmem⟩
  · intro id j hj
    refine ⟨hchunks hj, htended.exitsClosed id j hj, fun hclosed after h' hrun => ?_⟩
    have hstarted : j.state ≠ .starting := fun hs => by simp [htended.startsEmpty id j hj hs] at hclosed
    obtain ⟨j', hj', -, -, hlog⟩ := log_run hrun hj hstarted hclosed
    exact ⟨j', hj', hlog⟩
  · intro r j wait hj he hlogs hfit i all
    obtain ⟨h₁, s, hattach, hreplays, hnone, hpace⟩ :=
      replays_of_attach (logsFit_run hbefore hfit) hj (started_of_isExited he) (htended.exitsClosed r.job j hj he) wait
    rw [hchunks hj] at hreplays hpace
    refine ⟨h₁, hattach, fun after h' hrun hreads => ?_⟩
    obtain ⟨s', hreplays', hreceived, hbound⟩ := hreplays.run hrun hreads
    have hheard : s'.received = heard i h₁ after := by rw [hreceived, hnone, List.nil_append]
    have hall : encodings j.spec.config.tty (replay r.flags (emitted r.job before)) = all := by rw [replay, if_pos hlogs]
    refine ⟨?_, Nat.le_trans (Nat.le_add_right _ _) (hpace ▸ hbound), fun a ha hread hend => ?_⟩
    · rw [← hheard, ← hall]
      exact hreplays'.received_prefix
    · obtain ⟨a', ha', -, -, hout⟩ := hreplays'.shows.attach
      rw [ha] at ha'
      cases ha'
      rw [hout] at hread hend ⊢
      rw [hreplays'.shows.serve] at hend
      rw [← hheard, ← hall]
      exact hreplays'.received_all hread hend

/-- A job that has written to both its streams and exited, and two attaches after that ask for its standard output, one of which asks to
follow and to wait: the client of each hears what the job wrote there, and then the end. -/
theorem job_lifecycle_of_finished :
    let request (stream : Bool) : AttachRequest := { job := "j", flags := { stdout := true, logs := true, stream } }
    let before : List Move := [.submit { id := "j" }, .spawned "j" false, .emit "j" ⟨.stdout, [97]⟩, .emit "j" ⟨.stderr, [98]⟩,
      .emit "j" ⟨.stdout, [99]⟩, .closeOutput "j", .exit "j" (some 0), .attach (request false) false]
    let after : List Move := List.replicate 13 (.serve 1) ++ [.client 1 fun l => (l.read 64).2]
    ∃ h h₁ h', follow step { id := "h" } before = some h ∧ h.attach (request true) true = .ok (1, h₁) ∧
      follow step h₁ after = some h' ∧ heard 1 h₁ after = encodings false [⟨.stdout, [97]⟩, ⟨.stdout, [99]⟩] ∧
      (h'.attaches[1]?).any (·.link.incoming.closed) := by
  intro request before after
  have hrun : ∃ h ∈ follow step { id := "h" } before, ∃ j ∈ h.job? "j", ∃ p ∈ (h.attach (request true) true).toOption,
      ∃ h' ∈ follow step p.2 after, ∃ a ∈ h'.attaches[1]?,
        (h.attaches.size = 1 ∧ j.state.isExited = true ∧ j.spec.config.tty = false) ∧
          a.link.incoming.buffer = [] ∧ a.link.incoming.closed = true := by decide +kernel
  obtain ⟨h, hbefore, j, hj, ⟨n, h₁⟩, hattach, h', hafter, a, ha, ⟨hsize, he, htty⟩, hread, hclosed⟩ := hrun
  have hfit (id : String) (c : Frame) (hc : .emit id c ∈ before) : c.Fits := by
    simp [before] at hc
    rcases hc with ⟨-, rfl⟩ | ⟨-, rfl⟩ | ⟨-, rfl⟩ <;> decide
  have hreads : Attentive 1 after := by
    intro f hf
    simp [after] at hf
    rw [hf]
    exact reads_read 64
  obtain ⟨-, -, -, -, hreplays⟩ := job_lifecycle hbefore
  obtain ⟨h₂, hattach₂, hheard⟩ := hreplays (request true) j true hj he rfl hfit
  rw [hsize] at hattach₂ hheard
  have hsame : h₁ = h₂ := by
    have h := eq_ok_of_toOption hattach
    rw [hattach₂] at h
    cases h
    rfl
  subst hsame
  obtain ⟨-, -, hend⟩ := hheard after h' hafter hreads
  obtain ⟨hall, -⟩ := hend a ha hread (Or.inl hclosed)
  refine ⟨h, h₁, h', hbefore, hattach₂, hafter, ?_, ?_⟩
  · rw [hall, htty]
    rfl
  · rw [ha]
    exact hclosed

end JobPlane.LocalHost
