import JobPlane.Proofs.Local.Register
import JobPlane.Proofs.Request.Run

/-!
# Runs side by side

A control plane over a cluster on one machine carries out any number of runs side by side, each asking its next question at any time, while
the hosts and their jobs go on (`Scheduling`). A job that is submitted is accepted first, and its process starts some time later, or does
not; between the two everything else may go on. A run that is carried out at once is one that asks all its questions in a row
(`Scheduling.follow_perform`).

What holds whatever happens (`Scheduling.Sound`, `Sound.follow`): hosts and jobs can be told apart by their IDs, a job that a run has submitted with success
is registered on its host as the run described it, and no two runs are about to start one job.
-/

namespace JobPlane

open Plan (Exchange)
open LocalCluster (Undisturbed Registers)

/-! ## What a run has asked -/

namespace Run

variable {select : Selector} {limits : RunLimits} {app : App} {new : NewJob} {interactive : Bool} {h : List Exchange}
  {r : Except Refusal Dispatched}

/-- A connection that a run closes was one that it made. -/
theorem Course.closes (hc : Course select limits app new interactive h r) {n : Connection} (hx : ⟨.close n, ()⟩ ∈ h) :
    ∃ host, ⟨.dial host, .ok n⟩ ∈ h := by
  cases hc with
  | notFound h e hmissing hquiet => cases (Ask.eq_false_of_reachesCluster (hquiet _ hx)).2.2.2
  | placed release artifact image fresh h r hrelease himage hplaced =>
    cases hplaced with
    | dialled hosts host c calls r hselect ho =>
      have hcalls : (⟨.close n, ()⟩ : Exchange) ∉ calls := fun hx => by cases (ho.keepsConnection _ hx).2
      have hclosing : ⟨.close n, ()⟩ ∈ closing c r := by simpa [lookups, hcalls] using hx
      cases r with
      | ok d => cases hclosing
      | error e =>
        cases List.mem_singleton.mp hclosing
        exact ⟨host, by simp⟩
    | _ => simp [lookups] at hx

/-- What a run submits is one job, under an ID that it was given. -/
theorem Course.submits (hc : Course select limits app new interactive h r) {batches : List (String × List JobSpec)}
    {added : Except ClusterError Unit} (hx : ⟨.addJobs batches, added⟩ ∈ h) :
    ∃ host job, batches = [(host, [job])] ∧ ⟨.freshId, job.id⟩ ∈ h := by
  obtain ⟨release, artifact, image, fresh, hosts, host, between, after, heq, -, -, hasked, -⟩ := hc.submission hx rfl
  refine ⟨host, .build fresh app new image release.env interactive, by simpa using hasked, ?_⟩
  rw [heq]
  simp [lookups, JobSpec.build]

/-- A run that is not interactive and succeeds comes to a summary, of the job that it has submitted. -/
theorem Course.scheduled {d : Dispatched} (hc : Course select limits app new false h (.ok d)) :
    ∃ host fresh image env, let job := JobSpec.build fresh app new image env false
      ⟨.addJobs [(host, [job])], .ok ()⟩ ∈ h ∧ d = .scheduled (Run.summary ⟨host, job.id⟩ new) := by
  cases hc with
  | placed release artifact image fresh h r hrelease himage hplaced =>
    cases hplaced with
    | submitted hosts host hselect => exact ⟨host, fresh, image, release.env, by simp, rfl⟩

end Run

/-! ## Answers -/

/-- What a control plane answers without a submission. -/
structure Quiet (p p' : ControlPlane LocalCluster) (x : Exchange) : Prop where
  undisturbed : p.cluster.Undisturbed p'.cluster
  ids : p'.ids = p.ids
  dialled : p.cluster.dialled ≤ p'.cluster.dialled
  /-- Only the connection is closed that is asked for. -/
  closed : ∀ n ∈ p'.cluster.closed, n ∈ p.cluster.closed ∨ ∃ c : Connection, x.asked = .close c ∧ n = c.serial
  /-- A connection that is made is the latest one. -/
  connects : ∀ host c, x = ⟨.dial host, .ok c⟩ → c.serial < p'.cluster.dialled
  /-- A fresh ID is one of those that the control plane has. -/
  names : ∀ id, x = ⟨.freshId, id⟩ → ∃ n, id = p.ids n
  adds : ∀ batches, x ≠ ⟨.addJobs batches, .ok ()⟩

/-- Where the cluster is left undisturbed, no connection is made or closed, and no ID is given. -/
theorem Quiet.of_undisturbed {p p' : ControlPlane LocalCluster} {x : Exchange} (hu : p.cluster.Undisturbed p'.cluster)
    (hids : p'.ids = p.ids) (hd : p'.cluster.dialled = p.cluster.dialled) (hc : p'.cluster.closed = p.cluster.closed)
    (hconnects : ∀ host c, x ≠ ⟨.dial host, .ok c⟩) (hnames : ∀ id, x ≠ ⟨.freshId, id⟩)
    (hadds : ∀ batches, x ≠ ⟨.addJobs batches, .ok ()⟩) : Quiet p p' x where
  undisturbed := hu
  ids := hids
  dialled := Nat.le_of_eq hd.symm
  closed _ hn := Or.inl (hc ▸ hn)
  connects host c hx := absurd hx (hconnects host c)
  names id hx := absurd hx (hnames id)
  adds := hadds

namespace LocalCluster

variable {c : LocalCluster} {n : Connection}

/-- What a host is asked over a connection, and answers by a move that is none of a submission. -/
theorem undisturbed_onHost {f : LocalHost → Except ClusterError LocalHost} {m : LocalHost.Move} {h' : LocalHost}
    (hf : ∀ h, (f h).toOption = h.step m) (hquiet : m.enters = false) (ha : c.onHost n f = .ok h') : c.Undisturbed (c.setHost h') := by
  obtain ⟨h, hh, hmoved⟩ := onHost_eq_ok ha
  refine .step hh ?_ hquiet
  rw [← hf, hmoved]
  rfl

/-- To attach to a job is none of a submission, and neither makes nor closes a connection. -/
theorem undisturbed_attach (c : LocalCluster) (n : Connection) (r : AttachRequest) (wait : Bool) :
    c.Undisturbed (c.attach n r wait).2 ∧ (c.attach n r wait).2.dialled = c.dialled ∧ (c.attach n r wait).2.closed = c.closed := by
  unfold attach
  split
  · exact ⟨.of_hosts rfl, rfl, rfl⟩
  · rename_i h i h' heq
    obtain ⟨hh, hattach⟩ := onHost_attach heq
    exact ⟨(Undisturbed.step hh (LocalHost.step_of_attach hattach) rfl).trans (.of_hosts rfl), rfl, rfl⟩

end LocalCluster

/-- What is asked of the control plane that submits nothing is answered without a submission. -/
theorem quiet_answer (p : ControlPlane LocalCluster) {q : Ask} (hq : q.submits = false) :
    Quiet p (ControlPlane.answer q p).2 ⟨q, (ControlPlane.answer q p).1⟩ := by
  cases q with
  | addJobs => cases hq
  | app | release | artifact | listHosts | awaitReady => exact .of_undisturbed (.of_hosts rfl) rfl rfl rfl (by simp) (by simp) (by simp)
  | freshId =>
    exact {
      undisturbed := .of_hosts rfl
      ids := rfl
      dialled := Nat.le_refl _
      closed := fun n hn => Or.inl hn
      connects := by simp
      names := fun id hx => ⟨p.issued, by cases hx; rfl⟩
      adds := by simp }
  | dial host =>
    simp only [ControlPlane.answer, ControlPlane.onCluster, Cluster.dial]
    split
    · exact {
        undisturbed := .of_hosts rfl
        ids := rfl
        dialled := Nat.le_succ _
        closed := fun n hn => Or.inl hn
        connects := fun x c hx => by
          cases hx
          exact Nat.lt_succ_self _
        names := by simp
        adds := by simp }
    · exact .of_undisturbed (.of_hosts rfl) rfl rfl rfl (by simp) (by simp) (by simp)
  | attach c r wait =>
    obtain ⟨hu, hd, hc⟩ := LocalCluster.undisturbed_attach p.cluster c r wait
    exact .of_undisturbed hu rfl hd hc (by simp) (by simp) (by simp)
  | detach c job =>
    simp only [ControlPlane.answer, ControlPlane.onCluster, Cluster.detach]
    split
    · rename_i h' heq
      have hu := LocalCluster.undisturbed_onHost (m := .detach job) (fun _ => rfl) rfl heq
      exact .of_undisturbed hu rfl rfl rfl (by simp) (by simp) (by simp)
    · exact .of_undisturbed (.of_hosts rfl) rfl rfl rfl (by simp) (by simp) (by simp)
  | stop c job =>
    simp only [ControlPlane.answer, ControlPlane.onCluster, Cluster.stop]
    split
    · rename_i h' heq
      have hu := LocalCluster.undisturbed_onHost (m := .stop job) (fun _ => rfl) rfl heq
      exact .of_undisturbed hu rfl rfl rfl (by simp) (by simp) (by simp)
    · exact .of_undisturbed (.of_hosts rfl) rfl rfl rfl (by simp) (by simp) (by simp)
  | close c =>
    exact {
      undisturbed := .of_hosts rfl
      ids := rfl
      dialled := Nat.le_refl _
      closed := fun n hn => by
        rcases List.mem_cons.mp hn with rfl | hn
        · exact Or.inr ⟨c, rfl, rfl⟩
        · exact Or.inl hn
      connects := by simp
      names := by simp
      adds := by simp }
  | drain s ms =>
    have hw := LocalCluster.works_drain p.cluster s ms
    exact .of_undisturbed (.of_works hw) rfl hw.dialled hw.closed (by simp) (by simp) (by simp)
  | drop s =>
    have hw := LocalCluster.works_setLink p.cluster s (Cluster.link s p.cluster).drop
    exact .of_undisturbed (.of_works hw) rfl hw.dialled hw.closed (by simp) (by simp) (by simp)

/-! ## Runs side by side -/

/-- A run that is under way or over. -/
structure Errand where
  select : Selector
  limits : RunLimits
  app : App
  new : NewJob
  interactive : Bool
  /-- What was asked and answered so far. -/
  history : List Exchange := []
  /-- What is left to do. -/
  left : Plan (Except Refusal Dispatched)
  /-- The job that the run is about to submit was accepted, and its process has not started. -/
  submitted : Bool := false

/-- A run that begins. -/
def Errand.begun (select : Selector) (limits : RunLimits) (app : App) (new : NewJob) (interactive : Bool) : Errand :=
  { select, limits, app, new, interactive, left := runJob select limits app new interactive }

/-- A run is answered, and goes on. -/
def Errand.answered (e : Errand) (x : Exchange) (left : Plan (Except Refusal Dispatched)) : Errand :=
  { e with history := e.history ++ [x], left, submitted := false }

/-- What a run has come to, if it has succeeded. -/
def Errand.outcome? (e : Errand) : Option Dispatched :=
  match e.left with
  | .done (.ok d) => some d
  | _ => none

/-- A run has come to something where nothing is left to do but to say so. -/
theorem Errand.outcome?_eq_some {e : Errand} {d : Dispatched} : e.outcome? = some d ↔ e.left = .done (.ok d) := by
  unfold outcome?
  split
  · rename_i d' hleft
    simp [hleft]
  · rename_i hnot
    simp only [reduceCtorEq, false_iff]
    exact hnot d

/-- A control plane that carries out runs side by side. -/
structure Scheduling where
  plane : ControlPlane LocalCluster
  errands : List Errand := []

namespace Scheduling

/-- What happens. -/
inductive Event
  /-- A run begins. -/
  | run (select : Selector) (limits : RunLimits) (app : App) (new : NewJob) (interactive : Bool)
  /-- A run asks its next question and is answered. -/
  | ask (i : Nat)
  /-- The job that a run submits is accepted by its host. -/
  | submit (i : Nat)
  /-- The process of a job that was accepted starts, or does not; `hinder` is a failure from outside. The run is answered. -/
  | start (i : Nat) (hinder : Option String)
  /-- The process of a job exits, with a code unless it is killed. -/
  | exit (x job : String) (code : Option Nat)
  /-- A host makes a move that is none of a submission: a job writes, say, or somebody attaches to it or stops it. -/
  | host (x : String) (m : LocalHost.Move)
  /-- The cluster is left to itself. -/
  | settle

/-- What an event leads to, where it is possible. -/
def step (s : Scheduling) : Event → Option Scheduling
  | .run select limits app new interactive =>
    some { s with errands := s.errands ++ [.begun select limits app new interactive] }
  | .ask i => do
    let e ← s.errands[i]?
    match e.submitted, e.left with
    | false, .ask q next =>
      let (r, plane) := ControlPlane.answer q s.plane
      some { plane, errands := s.errands.set i (e.answered ⟨q, r⟩ (next r)) }
    | _, _ => none
  | .submit i => do
    let e ← s.errands[i]?
    match e.submitted, e.left with
    | false, .ask (.addJobs [(host, [job])]) _ =>
      let cluster ← (s.plane.cluster.submit host job).toOption
      some { plane := { s.plane with cluster }, errands := s.errands.set i { e with submitted := true } }
    | _, _ => none
  | .start i hinder => do
    let e ← s.errands[i]?
    match e.submitted, e.left with
    | true, .ask (.addJobs [(host, [job])]) next =>
      let (r, cluster) := s.plane.cluster.start host job hinder
      some { plane := { s.plane with cluster }, errands := s.errands.set i (e.answered ⟨.addJobs [(host, [job])], r⟩ (next r)) }
    | _, _ => none
  | .exit x job code => some { s with plane := { s.plane with cluster := s.plane.cluster.finish x job code } }
  | .host x m => do
    let h ← s.plane.cluster.host? x
    let h' ← h.step m
    if m.enters then none else some { s with plane := { s.plane with cluster := s.plane.cluster.setHost h' } }
  | .settle => some { s with plane := { s.plane with cluster := s.plane.cluster.settle } }

end Scheduling

namespace Errand

variable {e : Errand} {c c' : LocalCluster}

/-- The host and the ID of a job that was accepted and has not started. -/
def place (e : Errand) : Option (String × String) :=
  match e.submitted, e.left with
  | true, .ask (.addJobs [(host, [job])]) _ => some (host, job.id)
  | _, _ => none

/-- What holds of a run beside others. -/
structure Sound (c : LocalCluster) (e : Errand) : Prop where
  /-- What was asked so far and what is left make up a history of the run. -/
  course : ∀ h r, e.left.Yields h r → Run.Course e.select e.limits e.app e.new e.interactive (e.history ++ h) r
  /-- The IDs it was given are not empty. -/
  named : ∀ id, ⟨.freshId, id⟩ ∈ e.history → id ≠ ""
  /-- The connections it made were made by now. -/
  connected : ∀ host n, ⟨.dial host, .ok n⟩ ∈ e.history → n.serial < c.dialled
  /-- A job that it submitted with success is registered as the run described it, and its process has started. -/
  started : ∀ host job, ⟨.addJobs [(host, [job])], .ok ()⟩ ∈ e.history →
    ∃ spec : JobSpec, spec.RunsAs job ∧ c.registered? host job.id = some (spec, false)
  /-- A job of it that was accepted is registered as the run described it, and its process has not started. -/
  accepted : e.submitted = true → ∃ host job next, e.left = .ask (.addJobs [(host, [job])]) next ∧
    ∃ spec : JobSpec, spec.RunsAs job ∧ c.registered? host job.id = some (spec, true)

/-- Answers by which nothing is found, reached or connected to. -/
def barren : (q : Ask) → Unit → q.Answer × Unit
  | .app id, _ => (.error (.appNotFound id), ())
  | .release id, _ => (.error (.releaseNotFound id), ())
  | .artifact id, _ => (.error (.artifactNotFound id), ())
  | .freshId, _ => ("0", ())
  | .listHosts, _ => (.error .closed, ())
  | .dial _, _ => (.error .closed, ())
  | .addJobs _, _ => (.error .closed, ())
  | .attach _ _ _, _ => (.error .closed, ())
  | .detach _ _, _ => (.error .closed, ())
  | .stop _ _, _ => (.error .closed, ())
  | .close _, _ => ((), ())
  | .awaitReady _ _, _ => (.closed, ())
  | .drain _ _, _ => (0, ())
  | .drop _, _ => ((), ())

/-- A run that begins has asked nothing. -/
theorem Sound.begun (select : Selector) (limits : RunLimits) (app : App) (new : NewJob) (interactive : Bool) (c : LocalCluster) :
    (Errand.begun select limits app new interactive).Sound c where
  course _ _ hy := Run.course_of_yields hy
  named _ hx := by cases hx
  connected _ _ hx := by cases hx
  started _ _ hx := by cases hx
  accepted hsub := by cases hsub

/-- A job that a run is about to start is registered as one whose process has not started. -/
theorem Sound.starting {x id : String} (hs : e.Sound c) (hp : e.place = some (x, id)) : ∃ spec, c.registered? x id = some (spec, true) := by
  cases hsub : e.submitted with
  | false => simp [place, hsub] at hp
  | true =>
    obtain ⟨host, job, next, hl, spec, -, hentry⟩ := hs.accepted hsub
    simp only [place, hsub, hl, Option.some.injEq, Prod.mk.injEq] at hp
    obtain ⟨rfl, rfl⟩ := hp
    exact ⟨spec, hentry⟩

/-- Whatever a run asks next and is answered, it can come to an end in which nothing is connected to any more, and no empty ID is given. -/
theorem Sound.exists_course (hs : e.Sound c) {q : Ask} {next : q.Answer → Plan (Except Refusal Dispatched)} (hl : e.left = .ask q next)
    (r : q.Answer) : ∃ rest outcome, Run.Course e.select e.limits e.app e.new e.interactive (e.history ++ ⟨q, r⟩ :: rest) outcome ∧
      (∀ id, ⟨.freshId, id⟩ ∈ rest → id ≠ "") ∧ ∀ host n, ⟨.dial host, .ok n⟩ ∉ rest := by
  have hy := Plan.Yields.ask (q := q) r (Plan.yields_history barren (next r) ())
  rw [← hl] at hy
  refine ⟨(next r).history barren (), _, hs.course _ _ hy, fun id hx => ?_, fun host n hx => ?_⟩
  · obtain ⟨t, rfl⟩ := Plan.answer_of_mem_history hx
    exact (by decide : "0" ≠ "")
  · obtain ⟨t, ht⟩ := Plan.answer_of_mem_history hx
    cases ht

/-- What a run submits is one job under an ID that is not empty. -/
theorem Sound.submission (hs : e.Sound c) {batches : List (String × List JobSpec)}
    {next : Except ClusterError Unit → Plan (Except Refusal Dispatched)} (hl : e.left = .ask (.addJobs batches) next) :
    ∃ host job, batches = [(host, [job])] ∧ job.id ≠ "" := by
  obtain ⟨rest, outcome, hc, hnamed, -⟩ := hs.exists_course hl (.ok ())
  obtain ⟨host, job, hbatches, hfresh⟩ := hc.submits (List.mem_append_right _ List.mem_cons_self)
  refine ⟨host, job, hbatches, ?_⟩
  simp only [List.mem_append, List.mem_cons] at hfresh
  rcases hfresh with hfresh | hfresh | hfresh
  · exact hs.named _ hfresh
  · cases hfresh
  · exact hnamed _ hfresh

/-- A connection that a run closes was made by now. -/
theorem Sound.closing (hs : e.Sound c) {n : Connection} {next : Unit → Plan (Except Refusal Dispatched)}
    (hl : e.left = .ask (.close n) next) : n.serial < c.dialled := by
  obtain ⟨rest, outcome, hc, -, hnone⟩ := hs.exists_course hl ()
  obtain ⟨host, hdialled⟩ := hc.closes (List.mem_append_right _ List.mem_cons_self)
  simp only [List.mem_append, List.mem_cons] at hdialled
  rcases hdialled with hdialled | hdialled | hdialled
  · exact hs.connected host n hdialled
  · cases hdialled
  · exact absurd hdialled (hnone host n)

/-- A run goes on as it was where the jobs it relies on stay registered as they are. -/
theorem Sound.stays (hs : e.Sound c) (hd : c.dialled ≤ c'.dialled)
    (hstarted : ∀ x id spec, c.registered? x id = some (spec, false) → c'.registered? x id = some (spec, false))
    (hplace : ∀ x id, e.place = some (x, id) → c'.registered? x id = c.registered? x id) : e.Sound c' where
  course := hs.course
  named := hs.named
  connected host n hx := Nat.lt_of_lt_of_le (hs.connected host n hx) hd
  started host job hx := by
    obtain ⟨spec, hruns, hentry⟩ := hs.started host job hx
    exact ⟨spec, hruns, hstarted host job.id spec hentry⟩
  accepted hsub := by
    obtain ⟨host, job, next, hl, spec, hruns, hentry⟩ := hs.accepted hsub
    refine ⟨host, job, next, hl, spec, hruns, ?_⟩
    rw [hplace host job.id (by simp [place, hsub, hl]), hentry]

/-- A run goes on as it was where the cluster is left undisturbed. -/
theorem Sound.undisturbed (hs : e.Sound c) (hu : c.Undisturbed c') (hd : c.dialled ≤ c'.dialled) : e.Sound c' :=
  hs.stays hd (fun x id _ hentry => (hu.entries x id).trans hentry) fun x id _ => hu.entries x id

/-- A run goes on as it was where something else is registered of a job that had not started, and which is not its own. -/
theorem Sound.registers {x id : String} {entry : Option (JobSpec × Bool)} (hs : e.Sound c) (hr : c.Registers x id entry c')
    (hbefore : ∀ spec, c.registered? x id ≠ some (spec, false)) (hplace : e.place ≠ some (x, id)) : e.Sound c' := by
  refine hs.stays (Nat.le_of_eq hr.dialled.symm) (hr.started hbefore) fun y k hk => ?_
  rw [hr.entries, if_neg]
  rintro ⟨rfl, rfl⟩
  exact hplace hk

/-- A run that is answered goes on soundly if it is given no empty ID, a connection that was made by now, and a success only for a job that
is registered as it described it. -/
theorem Sound.answered (hs : e.Sound c) {q : Ask} {next : q.Answer → Plan (Except Refusal Dispatched)} (hl : e.left = .ask q next)
    {r : q.Answer} (hd : c.dialled ≤ c'.dialled)
    (hstarted : ∀ x id spec, c.registered? x id = some (spec, false) → c'.registered? x id = some (spec, false))
    (hnames : ∀ id, (⟨q, r⟩ : Exchange) = ⟨.freshId, id⟩ → id ≠ "")
    (hconnects : ∀ host n, (⟨q, r⟩ : Exchange) = ⟨.dial host, .ok n⟩ → n.serial < c'.dialled)
    (hadds : ∀ host job, (⟨q, r⟩ : Exchange) = ⟨.addJobs [(host, [job])], .ok ()⟩ →
      ∃ spec : JobSpec, spec.RunsAs job ∧ c'.registered? host job.id = some (spec, false)) : (e.answered ⟨q, r⟩ (next r)).Sound c' where
  course h outcome hy := by
    have hcourse := hs.course (⟨q, r⟩ :: h) outcome (hl ▸ .ask r hy)
    simpa [Errand.answered] using hcourse
  named id hx := by
    rcases List.mem_append.mp hx with hx | hx
    · exact hs.named id hx
    · exact hnames id (List.mem_singleton.mp hx).symm
  connected host n hx := by
    rcases List.mem_append.mp hx with hx | hx
    · exact Nat.lt_of_lt_of_le (hs.connected host n hx) hd
    · exact hconnects host n (List.mem_singleton.mp hx).symm
  started host job hx := by
    rcases List.mem_append.mp hx with hx | hx
    · obtain ⟨spec, hruns, hentry⟩ := hs.started host job hx
      exact ⟨spec, hruns, hstarted host job.id spec hentry⟩
    · exact hadds host job (List.mem_singleton.mp hx).symm
  accepted hsub := by cases hsub

end Errand

namespace Scheduling

variable {s s' : Scheduling} {i : Nat} {e : Errand}

/-- What holds of runs side by side. -/
structure Sound (s : Scheduling) : Prop where
  named : s.plane.cluster.Named
  /-- The connections that are closed were made by now. -/
  connected : ∀ n ∈ s.plane.cluster.closed, n < s.plane.cluster.dialled
  fresh : ∀ n, s.plane.ids n ≠ ""
  errands : ∀ (i : Nat) (e : Errand), s.errands[i]? = some e → e.Sound s.plane.cluster
  /-- No two runs are about to start one job. -/
  apart : ∀ (i k : Nat) (a b : Errand), s.errands[i]? = some a → s.errands[k]? = some b → a.place ≠ none → a.place = b.place →
    i = k

/-- One run goes on, and the others are not hindered by it. -/
theorem Sound.set (hs : s.Sound) (he : s.errands[i]? = some e) {plane : ControlPlane LocalCluster} {e' : Errand}
    (hn : plane.cluster.Named) (hc : ∀ n ∈ plane.cluster.closed, n < plane.cluster.dialled) (hids : plane.ids = s.plane.ids)
    (hgoes : e'.Sound plane.cluster)
    (hothers : ∀ (k : Nat) (b : Errand), s.errands[k]? = some b → k ≠ i →
      b.Sound plane.cluster ∧ (e'.place = none ∨ b.place ≠ e'.place)) :
    Sound { plane, errands := s.errands.set i e' } := by
  have hi : i < s.errands.length := (List.getElem?_eq_some_iff.mp he).1
  have hat (k : Nat) : (s.errands.set i e')[k]? = if k = i then some e' else s.errands[k]? := by
    rw [List.getElem?_set]
    by_cases hk : i = k
    · simp [← hk, hi]
    · simp [hk, Ne.symm hk]
  refine ⟨hn, hc, by rw [hids]; exact hs.fresh, fun k b hb => ?_, fun k l a b ha hb hplace hsame => ?_⟩
  · rw [hat] at hb
    split at hb
    · cases hb
      exact hgoes
    · exact (hothers k b hb ‹_›).1
  · rw [hat] at ha hb
    split at ha
    · rename_i hk
      cases ha
      split at hb
      · rename_i hl
        rw [hk, hl]
      · rcases (hothers l b hb ‹_›).2 with hnone | hother
        · exact absurd hnone hplace
        · exact absurd hsame.symm hother
    · split at hb
      · cases hb
        rcases (hothers k a ha ‹_›).2 with hnone | hother
        · exact absurd (hsame.trans hnone) hplace
        · exact absurd hsame hother
      · exact hs.apart k l a b ha hb hplace hsame

/-- A run begins. -/
theorem Sound.run (hs : s.Sound) (select : Selector) (limits : RunLimits) (app : App) (new : NewJob) (interactive : Bool) :
    Sound { s with errands := s.errands ++ [.begun select limits app new interactive] } := by
  have hat (k : Nat) (b : Errand) (hb : (s.errands ++ [.begun select limits app new interactive])[k]? = some b) :
      s.errands[k]? = some b ∨ b = .begun select limits app new interactive := by
    rw [List.getElem?_append] at hb
    split at hb
    · exact Or.inl hb
    · exact Or.inr (List.mem_singleton.mp (List.mem_of_getElem? hb))
  refine ⟨hs.named, hs.connected, hs.fresh, fun k b hb => ?_, fun k l a b ha hb hplace hsame => ?_⟩
  · rcases hat k b hb with hb | rfl
    · exact hs.errands k b hb
    · exact .begun select limits app new interactive s.plane.cluster
  · -- a run that begins is about to start no job
    rcases hat k a ha with ha | rfl
    · rcases hat l b hb with hb | rfl
      · exact hs.apart k l a b ha hb hplace hsame
      · exact absurd hsame hplace
    · exact absurd rfl hplace

/-- A run is answered without a submission. -/
theorem Sound.quiet (hs : s.Sound) (he : s.errands[i]? = some e) {q : Ask} {next : q.Answer → Plan (Except Refusal Dispatched)}
    (hl : e.left = .ask q next) {r : q.Answer} {plane : ControlPlane LocalCluster} (hq : Quiet s.plane plane ⟨q, r⟩) :
    Sound { plane, errands := s.errands.set i (e.answered ⟨q, r⟩ (next r)) } := by
  have hsound := hs.errands i e he
  refine hs.set he (hq.undisturbed.named hs.named) (fun n hn => ?_) hq.ids ?_ fun k b hb _ =>
    ⟨(hs.errands k b hb).undisturbed hq.undisturbed hq.dialled, Or.inl rfl⟩
  · refine Nat.lt_of_lt_of_le ?_ hq.dialled
    rcases hq.closed n hn with hn | ⟨c, hasked, rfl⟩
    · exact hs.connected n hn
    · cases hasked
      exact hsound.closing hl
  · refine hsound.answered hl hq.dialled (fun x id spec hentry => (hq.undisturbed.entries x id).trans hentry) (fun id hx => ?_)
      hq.connects fun host job hx => absurd hx (hq.adds _)
    obtain ⟨n, rfl⟩ := hq.names id hx
    exact hs.fresh n

/-- The job that a run submits is accepted by its host. -/
theorem Sound.submit (hs : s.Sound) (he : s.errands[i]? = some e) {host : String} {job : JobSpec}
    {next : Except ClusterError Unit → Plan (Except Refusal Dispatched)} (hl : e.left = .ask (.addJobs [(host, [job])]) next)
    {cluster : LocalCluster} (hsubmit : s.plane.cluster.submit host job = .ok cluster) :
    Sound { plane := { s.plane with cluster }, errands := s.errands.set i { e with submitted := true } } := by
  have hsound := hs.errands i e he
  obtain ⟨hnew, spec, hruns, hr⟩ := LocalCluster.registers_submit hsubmit
  obtain ⟨host', job', hsame, hid⟩ := hsound.submission hl
  cases hsame
  have hbefore : ∀ spec, s.plane.cluster.registered? host job.id ≠ some (spec, false) := by simp [hnew]
  have hplace : Errand.place { e with submitted := true } = some (host, job.id) := by simp [Errand.place, hl]
  -- what another run is about to start is registered, and this job was not
  have hother (k : Nat) (b : Errand) (hb : s.errands[k]? = some b) : b.place ≠ some (host, job.id) := by
    intro hsame
    obtain ⟨spec, hentry⟩ := (hs.errands k b hb).starting hsame
    rw [hnew] at hentry
    cases hentry
  refine hs.set he (hr.named hs.named hid) (by simpa only [hr.closed, hr.dialled] using hs.connected) rfl ?_ fun k b hb _ =>
    ⟨(hs.errands k b hb).registers hr hbefore (hother k b hb), Or.inr (by rw [hplace]; exact hother k b hb)⟩
  have hstays := hsound.registers hr hbefore (hother i e he)
  exact {
    course := hstays.course
    named := hstays.named
    connected := hstays.connected
    started := hstays.started
    accepted := fun _ => ⟨host, job, next, hl, spec, hruns, by rw [hr.entries, if_pos ⟨rfl, rfl⟩]⟩ }

/-- The process of a job that was accepted starts, or does not, and the run is answered. -/
theorem Sound.start (hs : s.Sound) (he : s.errands[i]? = some e) (hsub : e.submitted = true) {host : String} {job : JobSpec}
    {next : Except ClusterError Unit → Plan (Except Refusal Dispatched)} (hl : e.left = .ask (.addJobs [(host, [job])]) next)
    {hinder : Option String} {r : Except ClusterError Unit} {cluster : LocalCluster}
    (hstart : s.plane.cluster.start host job hinder = (r, cluster)) :
    Sound {
      plane := { s.plane with cluster }
      errands := s.errands.set i (e.answered ⟨.addJobs [(host, [job])], r⟩ (next r)) } := by
  have hsound := hs.errands i e he
  obtain ⟨host', job', next', hl', spec, hruns, hentry⟩ := hsound.accepted hsub
  obtain ⟨host'', job'', hsame, hid⟩ := hsound.submission hl
  rw [hl'] at hl
  cases hl
  cases hsame
  obtain ⟨entry, hr, hok⟩ : ∃ entry, s.plane.cluster.Registers host job.id entry cluster ∧
      (r = .ok () → entry = some (spec, false)) := by
    have hcases := LocalCluster.registers_start hentry hinder
    rw [hstart] at hcases
    rcases hcases with ⟨-, hr⟩ | ⟨⟨error, hfailed⟩, hr⟩
    · exact ⟨_, hr, fun _ => rfl⟩
    · exact ⟨_, hr, fun hok => by cases hfailed.symm.trans hok⟩
  have hbefore : ∀ spec, s.plane.cluster.registered? host job.id ≠ some (spec, false) := by simp [hentry]
  have hplace : e.place = some (host, job.id) := by simp [Errand.place, hsub, hl']
  have hother (k : Nat) (b : Errand) (hb : s.errands[k]? = some b) (hk : k ≠ i) : b.place ≠ some (host, job.id) := fun hsame =>
    hk (hs.apart k i b e hb he (by simp [hsame]) (hsame.trans hplace.symm))
  refine hs.set he (hr.named hs.named hid) (by simpa only [hr.closed, hr.dialled] using hs.connected) rfl ?_ fun k b hb hk =>
    ⟨(hs.errands k b hb).registers hr hbefore (hother k b hb hk), Or.inl rfl⟩
  refine hsound.answered hl' (Nat.le_of_eq hr.dialled.symm) (hr.started hbefore) (by simp) (by simp) fun x j hx => ?_
  cases hx
  exact ⟨spec, hruns, by rw [hr.entries, if_pos ⟨rfl, rfl⟩, hok rfl]⟩

/-- A run submits its job at once. -/
theorem Sound.addJobs (hs : s.Sound) (he : s.errands[i]? = some e) {host : String} {job : JobSpec}
    {next : Except ClusterError Unit → Plan (Except Refusal Dispatched)} (hl : e.left = .ask (.addJobs [(host, [job])]) next) :
    let (r, plane) := ControlPlane.answer (.addJobs [(host, [job])]) s.plane
    Sound { plane, errands := s.errands.set i (e.answered ⟨.addJobs [(host, [job])], r⟩ (next r)) } := by
  have hanswer : ControlPlane.answer (.addJobs [(host, [job])]) s.plane = s.plane.onCluster (·.addOne host job none) := by
    simp only [ControlPlane.answer, Cluster.addJobs, LocalCluster.addJobs_single]
  simp only [hanswer, ControlPlane.onCluster, LocalCluster.addOne]
  cases hsubmit : s.plane.cluster.submit host job with
  | error error => exact hs.quiet he hl (.of_undisturbed (.of_hosts rfl) rfl rfl rfl (by simp) (by simp) (by simp))
  | ok cluster =>
    have hi : i < s.errands.length := (List.getElem?_eq_some_iff.mp he).1
    have haccepted : (s.errands.set i { e with submitted := true })[i]? = some { e with submitted := true } := by simp [hi]
    rcases hstart : cluster.start host job none with ⟨r, cluster'⟩
    have hstarted := (hs.submit he hl hsubmit).start haccepted rfl hl hstart
    simpa [Errand.answered, hstart] using hstarted

/-- Where the cluster is left undisturbed, runs go on as they were. -/
theorem Sound.undisturbed (hs : s.Sound) {cluster : LocalCluster} (hu : s.plane.cluster.Undisturbed cluster)
    (hd : cluster.dialled = s.plane.cluster.dialled) (hc : cluster.closed = s.plane.cluster.closed) :
    Sound { s with plane := { s.plane with cluster } } where
  named := hu.named hs.named
  connected := by simpa only [hd, hc] using hs.connected
  fresh := hs.fresh
  errands k b hb := (hs.errands k b hb).undisturbed hu (Nat.le_of_eq hd.symm)
  apart := hs.apart

/-- While something goes on in the cluster by itself, runs go on as they were. -/
theorem Sound.works (hs : s.Sound) {cluster : LocalCluster} (hw : s.plane.cluster.Works cluster) :
    Sound { s with plane := { s.plane with cluster } } := hs.undisturbed (.of_works hw) hw.dialled hw.closed

/-- What happens leaves runs side by side sound. -/
theorem Sound.step (hs : s.Sound) {event : Event} (hstep : s.step event = some s') : s'.Sound := by
  cases event with
  | run select limits app new interactive =>
    cases hstep
    exact hs.run select limits app new interactive
  | ask i =>
    obtain ⟨e, he, hstep⟩ := Option.bind_eq_some_iff.mp hstep
    split at hstep
    · rename_i q next hsub hl
      cases hstep
      cases hq : q.submits with
      | false => exact hs.quiet he hl (quiet_answer s.plane hq)
      | true =>
        cases q with
        | addJobs batches =>
          obtain ⟨host, job, rfl, -⟩ := (hs.errands i e he).submission hl
          exact hs.addJobs he hl
        | _ => cases hq
    · cases hstep
  | submit i =>
    obtain ⟨e, he, hstep⟩ := Option.bind_eq_some_iff.mp hstep
    split at hstep
    · rename_i host job next hsub hl
      obtain ⟨cluster, hsubmit, hstep⟩ := Option.bind_eq_some_iff.mp hstep
      cases hstep
      exact hs.submit he hl (LocalHost.eq_ok_of_toOption hsubmit)
    · cases hstep
  | start i hinder =>
    obtain ⟨e, he, hstep⟩ := Option.bind_eq_some_iff.mp hstep
    split at hstep
    · rename_i host job next hsub hl
      cases hstep
      exact hs.start he hsub hl rfl
    · cases hstep
  | host x m =>
    obtain ⟨h, hh, hstep⟩ := Option.bind_eq_some_iff.mp hstep
    obtain ⟨h', hm, hstep⟩ := Option.bind_eq_some_iff.mp hstep
    split at hstep
    · cases hstep
    · rename_i hquiet
      cases hstep
      exact hs.undisturbed (.step hh hm (by simpa using hquiet)) rfl rfl
  | exit x job code =>
    cases hstep
    exact hs.works (LocalCluster.works_finish s.plane.cluster x job code)
  | settle =>
    cases hstep
    exact hs.works (LocalCluster.works_settle s.plane.cluster)

/-- Whatever happens leaves runs side by side sound. -/
theorem Sound.follow (hs : s.Sound) {events : List Event} (hrun : follow Scheduling.step s events = some s') : s'.Sound :=
  follow_keeps hrun (fun _ _ _ _ hstep ht => ht.step hstep) hs

/-- A control plane over hosts that were just added carries out no run, and its hosts are named and have no jobs. -/
theorem sound_of_addHosts {runtime : Runtime} {sandbox : Sandbox} {hosts : List String} {plane : ControlPlane LocalCluster}
    (hhosts : ({ runtime, sandbox } : LocalCluster).addHosts hosts = (plane.cluster, .ok ())) (hids : ∀ n, plane.ids n ≠ "") :
    Sound { plane } := by
  have hbare := LocalCluster.Bare.addHosts (c := { runtime, sandbox }) ⟨by simp, by simp, by simp, rfl⟩ hosts
  rw [hhosts] at hbare
  have hbare : plane.cluster.Bare := hbare
  exact {
    named := hbare.named
    connected := by simp [hbare.closed]
    fresh := hids
    errands := by simp
    apart := by simp }

/-- A run that is carried out at once does what it does when it asks its questions one after the other, and nothing else happens. -/
theorem follow_perform (he : s.errands[i]? = some e) (hsub : e.submitted = false) :
    ∃ n, follow Scheduling.step s (List.replicate n (.ask i)) = some {
      plane := (s.plane.perform e.left).2
      errands := s.errands.set i
        { e with history := e.history ++ e.left.history ControlPlane.answer s.plane, left := .done (s.plane.perform e.left).1 } } := by
  obtain ⟨select, limits, app, new, interactive, before, left, submitted⟩ := e
  cases hsub
  have hi : i < s.errands.length := (List.getElem?_eq_some_iff.mp he).1
  induction left generalizing s before with
  | done outcome =>
    refine ⟨0, congrArg some ?_⟩
    rw [List.getElem?_eq_getElem hi, Option.some.injEq] at he
    simp [ControlPlane.perform, Plan.run, Plan.history, ← he]
  | ask q next ih =>
    rcases hanswer : ControlPlane.answer q s.plane with ⟨r, plane⟩
    let e : Errand := { select, limits, app, new, interactive, history := before ++ [⟨q, r⟩], left := next r }
    have hasked : s.step (.ask i) = some { plane, errands := s.errands.set i e } := by simp [step, he, hanswer, Errand.answered, e]
    obtain ⟨n, hn⟩ := ih r (s := { plane, errands := s.errands.set i e }) (before ++ [⟨q, r⟩]) (by simp [hi, e]) (by simpa using hi)
    refine ⟨n + 1, follow_cons_eq_some.mpr ⟨_, hasked, hn.trans ?_⟩⟩
    simp [ControlPlane.perform, Plan.run, Plan.history, hanswer]

end Scheduling

end JobPlane
