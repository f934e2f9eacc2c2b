import JobPlane.Proofs.Local.Cluster
import JobPlane.Proofs.Local.Waiting

/-!
# Submissions that fail

What is left of a submission that a cluster refuses. One that names an unknown host is refused before anything is done
(`addJobs_unknownHost`). A job that is submitted alone is refused because its host is unknown or has a job of its ID, and then nothing has
changed; or its process does not start, for whatever reason, and then the host has forgotten it, and the attaches that waited for it are
told (`NotAdded`).
-/

namespace JobPlane

namespace LocalHost

variable {h h' : LocalHost} {spec : JobSpec} {id reason : String}

/-- A host that has just accepted a job. -/
def accepted (h : LocalHost) (spec : JobSpec) : LocalHost := { h with jobs := h.jobs ++ [{ spec := h.sized spec }] }

/-- A job of an ID that is known is not accepted. -/
theorem submit_known {j : LocalJob} (hj : h.job? spec.id = some j) :
    h.submit spec = .error (.unavailable ("job " ++ spec.id ++ " already exists on host " ++ h.id)) := by
  simp [submit, hj]

/-- A job of a new ID is accepted. -/
theorem submit_new (hj : h.job? spec.id = none) : h.submit spec = .ok (h.accepted spec) := by
  simp [submit, hj, accepted]

/-- A job that was just accepted is found by its ID. -/
theorem job?_accepted (hj : h.job? spec.id = none) : (h.accepted spec).job? spec.id = some { spec := h.sized spec } := by
  rw [accepted, job?_submitted, hj]
  simp

/-- The process of a job that was just accepted can start. -/
theorem step_spawned_accepted (hj : h.job? spec.id = none) (hasInput : Bool) :
    (h.accepted spec).step (.spawned spec.id hasInput) = some ((h.accepted spec).spawned spec.id hasInput) := by
  simp [step, isStarting, job?_accepted hj]

/-- What the host tells the attaches that wait for a job that does not start. -/
def tellFailed (h : LocalHost) (id reason : String) : LocalHost :=
  h.mapPending id (·.giveUp (.refused ("job failed to start: " ++ reason)))

/-- An attach that waits for a job that does not start is told why, and the others are left as they are. -/
theorem tellFailed_attaches (h : LocalHost) (id reason : String) (i : Nat) :
    (h.tellFailed id reason).attaches[i]? =
      (h.attaches[i]?).map fun a => if a.isPendingFor id then a.giveUp (.refused ("job failed to start: " ++ reason)) else a := by
  simp [tellFailed, mapPending]

/-- A job that was just accepted and does not start is forgotten, and with that the jobs are those from before. -/
theorem spawnFailed_accepted (hj : h.job? spec.id = none) (reason : String) :
    (h.accepted spec).spawnFailed spec.id reason = h.tellFailed spec.id reason := by
  have hothers : h.jobs.filter (·.spec.id != spec.id) = h.jobs :=
    List.filter_eq_self.mpr fun j hmem => by simpa using List.find?_eq_none.mp hj j hmem
  simp [spawnFailed, tellFailed, accepted, mapPending, hothers, sized_id]

end LocalHost

namespace LocalCluster

open LocalHost

variable {c c' : LocalCluster} {h g : LocalHost} {host : String} {spec : JobSpec} {batches : List (String × List JobSpec)}
  {e : ClusterError} {hinder : Option String}

/-- A submission that names a host that is not known is refused for one such host, and nothing is done. -/
theorem addJobs_unknownHost {specs : List JobSpec} (hmem : (host, specs) ∈ batches) (hunknown : c.host? host = none) :
    ∃ x ∈ batches.map (·.1), c.host? x = none ∧ c.addJobs batches = (.error (.hostNotFound x), c) := by
  cases hfound : batches.find? fun b => (c.host? b.1).isNone with
  | none => exact absurd (List.find?_eq_none.mp hfound _ hmem) (by simp [hunknown])
  | some b =>
    refine ⟨b.1, List.mem_map_of_mem (List.mem_of_find?_eq_some hfound), by simpa using List.find?_some hfound, ?_⟩
    simp [addJobs, resolve, hfound]

/-- Submits one job. `hinder` is a failure from outside to start its process. -/
def addOne (c : LocalCluster) (host : String) (spec : JobSpec) (hinder : Option String) : Except ClusterError Unit × LocalCluster :=
  match c.submit host spec with
  | .error e => (.error e, c)
  | .ok c => c.start host spec hinder

/-- A submission of one job submits it, and nothing hinders its process from outside. -/
theorem addJobs_single (c : LocalCluster) (host : String) (spec : JobSpec) :
    c.addJobs [(host, [spec])] = c.addOne host spec none := by
  cases hh : c.host? host with
  | none => simp [addJobs, resolve, addOne, submit, hh]
  | some h =>
    simp only [addJobs, resolve, addOne, startAll, List.find?_cons, List.find?_nil, hh, List.flatMap_cons, List.flatMap_nil,
      List.map_cons, List.map_nil, List.append_nil, Option.isNone_some]
    cases c.submit host spec with
    | error e => rfl
    | ok k => rcases hstart : k.start host spec none with ⟨_ | _, k'⟩ <;> simp only [hstart]

/-- A job that is held up alone and then let go on, or hindered, is submitted alone. -/
theorem release_single (hheld : c.addJobsHeld [(host, [spec])] = (none, c')) (hnew : ∀ held ∈ c.held, held.spec.id ≠ spec.id) :
    c'.release spec.id hinder = some (c.addOne host spec hinder) := by
  cases hh : c.host? host with
  | none => simp [addJobsHeld, resolve, hh] at hheld
  | some h =>
    simp only [addJobsHeld, resolve, List.find?_cons, List.find?_nil, hh, List.flatMap_cons, List.flatMap_nil, List.map_cons,
      List.map_nil, List.append_nil, Option.isNone_some] at hheld
    cases hsubmit : c.submit host spec with
    | error e => simp [hsubmit] at hheld
    | ok k =>
      simp only [hsubmit, Prod.mk.injEq, true_and] at hheld
      have hsame : k.held = c.held := by
        simp only [submit, hh] at hsubmit
        cases hs : h.submit spec with
        | error e => simp [hs, Except.map] at hsubmit
        | ok h' =>
          simp only [hs, Except.map, Except.ok.injEq] at hsubmit
          rw [← hsubmit]
          rfl
      have hothers : k.held.filter (·.spec.id != spec.id) = k.held := by
        rw [hsame]
        exact List.filter_eq_self.mpr fun held hmem => by simpa using hnew held hmem
      rw [← hheld]
      simp only [release, addOne, hsubmit, List.find?_cons, beq_self_eq_true, Option.map_some, List.filter_cons, bne_self_eq_false,
        Bool.false_eq_true, if_false, hothers, startAll]
      rcases k.start host spec hinder with ⟨_ | _, k'⟩ <;> rfl

/-- Submitting one job of an ID that is known is refused, and nothing is done. -/
theorem addOne_known {j : LocalJob} (hh : c.host? host = some h) (hj : h.job? spec.id = some j) :
    c.addOne host spec hinder = (.error (.unavailable ("job " ++ spec.id ++ " already exists on host " ++ h.id)), c) := by
  simp [addOne, submit, hh, submit_known hj, Except.map]

/-- What submitting one job of a new ID comes to: its process does not start, or it does. -/
theorem addOne_new (hh : c.host? host = some h) (hj : h.job? spec.id = none) :
    (∃ reason, c.addOne host spec hinder =
      (.error (.unavailable ("failed to start job " ++ spec.id ++ ": " ++ reason)), c.setHost (h.tellFailed spec.id reason))) ∨
    ∃ hasInput g c', (h.accepted spec).step (.spawned spec.id hasInput) = some g ∧ c.addOne host spec hinder = (.ok (), c') ∧
      c'.host? host = some g ∧ c'.sessions = c.sessions := by
  have hfound : (c.setHost (h.accepted spec)).host? host = some (h.accepted spec) := host?_setHost_self hh rfl
  have hsubmit : c.submit host spec = .ok (c.setHost (h.accepted spec)) := by simp [submit, hh, submit_new hj, Except.map]
  have hjob : (((h.accepted spec).job? spec.id).map (·.spec)).getD spec = h.sized spec := by rw [job?_accepted hj]; rfl
  simp only [addOne, hsubmit, start, hfound, hjob, sized_id]
  split
  · rename_i failure _
    exact Or.inl ⟨failure.message, by rw [spawnFailed_accepted hj, setHost_setHost c (by rfl)]⟩
  · have hspawned := step_spawned_accepted hj (h.sized spec).config.attachStdin
    exact Or.inr ⟨_, _, _, hspawned, rfl, host?_setHost_self hfound (step_id hspawned), rfl⟩

/-- Why one job is not added, and the cluster then. -/
inductive NotAdded (c : LocalCluster) (host : String) (spec : JobSpec) : ClusterError → LocalCluster → Prop
  | unknownHost (hh : c.host? host = none) : NotAdded c host spec (.hostNotFound host) c
  | known (h : LocalHost) (j : LocalJob) (hh : c.host? host = some h) (hj : h.job? spec.id = some j) :
      NotAdded c host spec (.unavailable ("job " ++ spec.id ++ " already exists on host " ++ h.id)) c
  | notStarted (h : LocalHost) (reason : String) (hh : c.host? host = some h) (hj : h.job? spec.id = none) :
      NotAdded c host spec (.unavailable ("failed to start job " ++ spec.id ++ ": " ++ reason))
        (c.setHost (h.tellFailed spec.id reason))

/-- One job that is not added is refused for one of these reasons. -/
theorem notAdded_of_addOne (ha : c.addOne host spec hinder = (.error e, c')) : NotAdded c host spec e c' := by
  cases hh : c.host? host with
  | none =>
    simp only [addOne, submit, hh] at ha
    cases ha
    exact .unknownHost hh
  | some h =>
    cases hj : h.job? spec.id with
    | some j =>
      rw [addOne_known hh hj] at ha
      cases ha
      exact .known h j hh hj
    | none =>
      rcases addOne_new hh hj with ⟨reason, heq⟩ | ⟨hasInput, g, c₁, -, heq, -⟩
      · rw [heq] at ha
        cases ha
        exact .notStarted h reason hh hj
      · rw [heq] at ha
        cases ha

/-- Once a job is added alone, who waits for an attach that waited for it finds it confirmed. -/
theorem awaited_of_addOne {s : Session} {i : Nat} {a : Attachment} (hs : c.sessions[s.serial]? = some (host, i))
    (hh : c.host? host = some h) (ha : h.attaches[i]? = some a) (hpending : a.isPendingFor spec.id = true)
    (hadd : c.addOne host spec hinder = (.ok (), c')) : c'.awaited s = .ready := by
  cases hj : h.job? spec.id with
  | some j =>
    rw [addOne_known hh hj] at hadd
    cases hadd
  | none =>
    rcases addOne_new hh hj with ⟨reason, heq⟩ | ⟨hasInput, g, c₁, hm, heq, hg, hsessions⟩
    · rw [heq] at hadd
      cases hadd
    · rw [heq] at hadd
      cases hadd
      obtain ⟨hp, hjob⟩ := standing_of_isPendingFor hpending
      obtain ⟨j, -, hjoined⟩ := spawned_attach (h := h.accepted spec) (hjob ▸ hm) ha hp
      simp [awaited, attachment?, hsessions, hs, hg, hjoined]

end LocalCluster

end JobPlane
