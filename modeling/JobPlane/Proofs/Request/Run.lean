import JobPlane.ControlPlane.Basic
import JobPlane.Proofs.Plan
import JobPlane.Request.Run

/-!
# What running a job asks of the cluster

Every history of running a job is one of a few (`Run.Course`): the lookups come first, then the host is chosen, and an interactive job is
attached to before it is submitted. `runJob_history` says in what order the cluster is asked, whatever it answers.
-/

namespace JobPlane

open Plan (Exchange)

/-! ## Kinds of asks -/

namespace Ask

/-- Whether an ask is one to the cluster. -/
def reachesCluster : Ask → Bool
  | .app _ | .release _ | .artifact _ | .freshId => false
  | _ => true

/-- Whether an ask submits jobs. -/
def submits : Ask → Bool
  | .addJobs _ => true
  | _ => false

/-- Whether an ask connects to a host. -/
def dials : Ask → Bool
  | .dial _ => true
  | _ => false

/-- Whether an ask attaches to a job. -/
def attaches : Ask → Bool
  | .attach _ _ _ => true
  | _ => false

/-- Whether an ask closes a connection. -/
def closes : Ask → Bool
  | .close _ => true
  | _ => false

/-- An ask that is not one to the cluster is of none of these kinds. -/
theorem eq_false_of_reachesCluster {q : Ask} (hq : q.reachesCluster = false) :
    q.submits = false ∧ q.dials = false ∧ q.attaches = false ∧ q.closes = false := by
  cases q with
  | app | release | artifact | freshId => exact ⟨rfl, rfl, rfl, rfl⟩
  | listHosts | dial | addJobs | attach | detach | stop | close | awaitReady | drain | drop => cases hq

end Ask

namespace Run

variable {select : Selector} {limits : RunLimits} {id : JobId} {job : JobSpec} {new : NewJob} {c : Connection} {interactive : Bool}
  {h : List Exchange} {r : Except Refusal Dispatched}

/-! ## Histories -/

/-- What an interactive run asks for when it attaches to its job. -/
def request (job : JobSpec) (new : NewJob) : AttachRequest :=
  { job := job.id, flags := attachFlags, height := new.lines, width := new.columns }

/-- The histories of attaching to a job and submitting it, over a connection to its host. -/
inductive Over (limits : RunLimits) (id : JobId) (job : JobSpec) (new : NewJob) (c : Connection) :
    List Exchange → Except Refusal Dispatched → Prop
  | notAttached (e : ClusterError) : Over limits id job new c [⟨.attach c (request job new) true, .error e⟩] (.error (.ofCluster .attach e))
  | notSubmitted (s : Session) (e : ClusterError) (detached : Except ClusterError Unit) (drained : Nat) :
      Over limits id job new c
        [⟨.attach c (request job new) true, .ok s⟩, ⟨.addJobs [(id.host, [job])], .error e⟩, ⟨.detach c job.id, detached⟩,
          ⟨.drain s limits.drain, drained⟩]
        (.error (.ofCluster .schedule e))
  | notConfirmed (s : Session) (w : Awaited) (e : Refusal) (hw : waitRefusal w = some e) :
      Over limits id job new c
        [⟨.attach c (request job new) true, .ok s⟩, ⟨.addJobs [(id.host, [job])], .ok ()⟩, ⟨.awaitReady s limits.attachWait, w⟩,
          ⟨.drop s, ()⟩]
        (.error e)
  | attached (s : Session) (waiting : List Exchange)
      (hwaiting : waiting = if s.pending then [⟨.awaitReady s limits.attachWait, .ready⟩] else []) :
      Over limits id job new c
        (⟨.attach c (request job new) true, .ok s⟩ :: ⟨.addJobs [(id.host, [job])], .ok ()⟩ :: waiting)
        (.ok (.attached { id, session := s, connection := c }))

/-- Only an attach that is confirmed is not refused. -/
theorem waitRefusal_eq_none {w : Awaited} : waitRefusal w = none ↔ w = .ready := by
  cases w <;> simp [waitRefusal]

/-- An attach that is not confirmed is refused in the step of waiting for it. -/
theorem waitRefusal_eq_some {w : Awaited} {e : Refusal} (hw : waitRefusal w = some e) : ∃ m, e = .transport .attachWait m := by
  cases w with
  | ready => cases hw
  | refused reason | closed | timedOut =>
    cases hw
    exact ⟨_, rfl⟩

/-- Attaching to a job and submitting it has one of these histories. -/
theorem over_of_yields (hy : (attachAndSubmit limits id job new c).Yields h r) : Over limits id job new c h r := by
  obtain ⟨attached, h₁, rfl, hattached⟩ := Plan.yields_call.mp hy
  cases attached with
  | error e =>
    obtain ⟨rfl, rfl⟩ := Plan.yields_done.mp hattached
    exact .notAttached e
  | ok s =>
    obtain ⟨submitted, h₂, rfl, hsubmitted⟩ := Plan.yields_call.mp hattached
    cases submitted with
    | error e =>
      obtain ⟨detached, h₃, rfl, hdetached⟩ := Plan.yields_call.mp hsubmitted
      obtain ⟨drained, h₄, rfl, hdrained⟩ := Plan.yields_call.mp hdetached
      obtain ⟨rfl, rfl⟩ := Plan.yields_done.mp hdrained
      exact .notSubmitted s e detached drained
    | ok u =>
      change (confirm limits id c s).Yields h₂ r at hsubmitted
      unfold confirm at hsubmitted
      split at hsubmitted
      · rename_i hpending
        obtain ⟨w, h₃, rfl, hawaited⟩ := Plan.yields_call.mp hsubmitted
        split at hawaited
        · rename_i hw
          obtain ⟨rfl, rfl⟩ := Plan.yields_done.mp hawaited
          exact .attached s _ (by rw [if_pos hpending, waitRefusal_eq_none.mp hw])
        · rename_i e hw
          obtain ⟨u, h₄, rfl, hdropped⟩ := Plan.yields_call.mp hawaited
          obtain ⟨rfl, rfl⟩ := Plan.yields_done.mp hdropped
          exact .notConfirmed s w e hw
      · rename_i hpending
        obtain ⟨rfl, rfl⟩ := Plan.yields_done.mp hsubmitted
        exact .attached s [] (by rw [if_neg hpending])

/-- What is asked last over a connection: to close it, unless the job that was run keeps it. -/
def closing (c : Connection) : Except Refusal Dispatched → List Exchange
  | .ok _ => []
  | .error _ => [⟨.close c, ()⟩]

/-- The histories of running a job whose description is complete. -/
inductive Placed (select : Selector) (limits : RunLimits) (job : JobSpec) (new : NewJob) :
    Bool → List Exchange → Except Refusal Dispatched → Prop
  | notListed (interactive : Bool) (e : ClusterError) :
      Placed select limits job new interactive [⟨.listHosts, .error e⟩] (.error (.ofCluster .listHosts e))
  | noHost (interactive : Bool) (hosts : Snapshot) (e : Refusal) (hselect : select hosts = .error e) :
      Placed select limits job new interactive [⟨.listHosts, .ok hosts⟩] (.error e)
  | notSubmitted (hosts : Snapshot) (host : String) (e : ClusterError) (hselect : select hosts = .ok host) :
      Placed select limits job new false [⟨.listHosts, .ok hosts⟩, ⟨.addJobs [(host, [job])], .error e⟩] (.error (.ofCluster .schedule e))
  | submitted (hosts : Snapshot) (host : String) (hselect : select hosts = .ok host) :
      Placed select limits job new false [⟨.listHosts, .ok hosts⟩, ⟨.addJobs [(host, [job])], .ok ()⟩]
        (.ok (.scheduled (summary ⟨host, job.id⟩ new)))
  | notDialled (hosts : Snapshot) (host : String) (e : ClusterError) (hselect : select hosts = .ok host) :
      Placed select limits job new true [⟨.listHosts, .ok hosts⟩, ⟨.dial host, .error e⟩] (.error (.ofCluster .connect e))
  | dialled (hosts : Snapshot) (host : String) (c : Connection) (calls : List Exchange) (r : Except Refusal Dispatched)
      (hselect : select hosts = .ok host) (hover : Over limits ⟨host, job.id⟩ job new c calls r) :
      Placed select limits job new true (⟨.listHosts, .ok hosts⟩ :: ⟨.dial host, .ok c⟩ :: (calls ++ closing c r)) r

/-- Running a job whose description is complete has one of these histories. -/
theorem placed_of_yields (hy : (place select limits job new interactive).Yields h r) : Placed select limits job new interactive h r := by
  obtain ⟨listed, h₁, rfl, hlisted⟩ := Plan.yields_call.mp hy
  cases listed with
  | error e =>
    obtain ⟨rfl, rfl⟩ := Plan.yields_done.mp hlisted
    exact .notListed _ e
  | ok hosts =>
    cases hselect : select hosts with
    | error e =>
      simp only [hselect] at hlisted
      obtain ⟨rfl, rfl⟩ := Plan.yields_done.mp hlisted
      exact .noHost _ hosts e hselect
    | ok host =>
      simp only [hselect] at hlisted
      cases interactive with
      | false =>
        obtain ⟨submitted, h₂, rfl, hsubmitted⟩ := Plan.yields_call.mp hlisted
        cases submitted with
        | error e =>
          obtain ⟨rfl, rfl⟩ := Plan.yields_done.mp hsubmitted
          exact .notSubmitted hosts host e hselect
        | ok u =>
          obtain ⟨rfl, rfl⟩ := Plan.yields_done.mp hsubmitted
          exact .submitted hosts host hselect
      | true =>
        obtain ⟨dialled, h₂, rfl, hdialled⟩ := Plan.yields_call.mp hlisted
        cases dialled with
        | error e =>
          obtain ⟨rfl, rfl⟩ := Plan.yields_done.mp hdialled
          exact .notDialled hosts host e hselect
        | ok c =>
          rcases Plan.yields_closingOnRefusal.mp hdialled with ⟨d, rfl, hover⟩ | ⟨e, calls, rfl, rfl, hover⟩
          · have hplaced := Placed.dialled hosts host c h₂ (.ok d) hselect (over_of_yields hover)
            rwa [closing, List.append_nil] at hplaced
          · exact .dialled hosts host c calls (.error e) hselect (over_of_yields hover)

/-- What is asked and answered to look a new job's release up, and to find an ID for the job. -/
def lookups (new : NewJob) (release : Release) (artifact : Artifact) (fresh : String) : List Exchange :=
  [⟨.release new.releaseId, .ok release⟩, ⟨.artifact release.artifactId, .ok artifact⟩, ⟨.freshId, fresh⟩]

/-- A new job names a release, and a history finds the release, its artifact and the image. -/
def Found (new : NewJob) (h : List Exchange) : Prop :=
  new.releaseId ≠ "" ∧ ∃ release artifact image, ⟨.release new.releaseId, .ok release⟩ ∈ h ∧
    ⟨.artifact release.artifactId, .ok artifact⟩ ∈ h ∧ ImageRef.ofUri artifact.uri = .ok image

/-- The histories of running a new job: it is looked up in vain, and the cluster is asked nothing, or it is looked up and placed. -/
inductive Course (select : Selector) (limits : RunLimits) (app : App) (new : NewJob) (interactive : Bool) :
    List Exchange → Except Refusal Dispatched → Prop
  | notFound (h : List Exchange) (e : Refusal) (hmissing : ¬Found new h) (hquiet : ∀ x ∈ h, x.asked.reachesCluster = false) :
      Course select limits app new interactive h (.error e)
  | placed (release : Release) (artifact : Artifact) (image : ImageRef) (fresh : String) (h : List Exchange)
      (r : Except Refusal Dispatched) (hrelease : new.releaseId ≠ "") (himage : ImageRef.ofUri artifact.uri = .ok image)
      (hplaced : Placed select limits (.build fresh app new image release.env interactive) new interactive h r) :
      Course select limits app new interactive (lookups new release artifact fresh ++ h) r

/-- Running a new job has one of these histories. -/
theorem course_of_yields {app : App} (hy : (runJob select limits app new interactive).Yields h r) :
    Course select limits app new interactive h r := by
  unfold runJob at hy
  split at hy
  · obtain ⟨rfl, rfl⟩ := Plan.yields_done.mp hy
    exact .notFound [] _ (by simp [Found]) (by simp)
  · rename_i hrelease
    have hrelease : new.releaseId ≠ "" := by simpa using hrelease
    obtain ⟨found, h₁, rfl, hfound⟩ := Plan.yields_call.mp hy
    cases found with
    | error e =>
      obtain ⟨rfl, rfl⟩ := Plan.yields_done.mp hfound
      exact .notFound _ _ (by simp [Found]) (by simp [Ask.reachesCluster])
    | ok release =>
      obtain ⟨built, h₂, rfl, hbuilt⟩ := Plan.yields_call.mp hfound
      cases built with
      | error e =>
        obtain ⟨rfl, rfl⟩ := Plan.yields_done.mp hbuilt
        exact .notFound _ _ (by simp [Found]) (by simp [Ask.reachesCluster])
      | ok artifact =>
        cases himage : ImageRef.ofUri artifact.uri with
        | error e =>
          simp only [himage] at hbuilt
          obtain ⟨rfl, rfl⟩ := Plan.yields_done.mp hbuilt
          exact .notFound _ _ (by simp [Found, himage]) (by simp [Ask.reachesCluster])
        | ok image =>
          simp only [himage] at hbuilt
          obtain ⟨fresh, h₃, rfl, hplaced⟩ := Plan.yields_call.mp hbuilt
          exact .placed release artifact image fresh h₃ r hrelease himage (placed_of_yields hplaced)

/-! ## Order -/

/-- What comes between listing the hosts and submitting a job: an interactive job is attached to on its host. -/
def Prepares (interactive : Bool) (host : String) (job : JobSpec) (new : NewJob) (between : List Exchange) : Prop :=
  if interactive then ∃ c s, between = [⟨.dial host, .ok c⟩, ⟨.attach c (request job new) true, .ok s⟩] else between = []

/-- Over a connection to its host, a job is attached to in vain, or it is attached to and then submitted once. -/
theorem Over.shape (ho : Over limits id job new c h r) :
    (∃ e, h = [⟨.attach c (request job new) true, .error e⟩]) ∨
      ∃ s submitted after, h = ⟨.attach c (request job new) true, .ok s⟩ :: ⟨.addJobs [(id.host, [job])], submitted⟩ :: after ∧
        ∀ x ∈ after, x.asked.submits = false := by
  cases ho with
  | notAttached e => exact Or.inl ⟨e, rfl⟩
  | notSubmitted s e detached drained => exact Or.inr ⟨s, .error e, _, rfl, by simp [Ask.submits]⟩
  | notConfirmed s w e hw => exact Or.inr ⟨s, .ok (), _, rfl, by simp [Ask.submits]⟩
  | attached s waiting hwaiting =>
    refine Or.inr ⟨s, .ok (), waiting, rfl, ?_⟩
    rw [hwaiting]
    split <;> simp [Ask.submits]

/-- Over a connection to its host, what submits a job comes right after the attach to it, and nothing after that submits one. -/
theorem Over.submission (ho : Over limits id job new c h r) {x : Exchange} (hx : x ∈ h) (hsubmits : x.asked.submits = true) :
    ∃ s after, h = ⟨.attach c (request job new) true, .ok s⟩ :: x :: after ∧ x.asked = .addJobs [(id.host, [job])] ∧
      ∀ y ∈ after, y.asked.submits = false := by
  rcases ho.shape with ⟨e, rfl⟩ | ⟨s, submitted, after, rfl, hafter⟩
  · simp only [List.mem_singleton] at hx
    subst hx
    cases hsubmits
  · simp only [List.mem_cons] at hx
    rcases hx with rfl | rfl | hx
    · cases hsubmits
    · exact ⟨s, after, rfl, rfl, hafter⟩
    · rw [hafter x hx] at hsubmits
      cases hsubmits

/-- Over a connection to its host, nothing is connected to or closed. -/
theorem Over.keepsConnection (ho : Over limits id job new c h r) : ∀ x ∈ h, x.asked.dials = false ∧ x.asked.closes = false := by
  cases ho with
  | notAttached | notSubmitted | notConfirmed => simp [Ask.dials, Ask.closes]
  | attached s waiting hwaiting =>
    rw [hwaiting]
    split <;> simp [Ask.dials, Ask.closes]

/-- What an interactive run comes to that succeeds is its job with the session and the connection. -/
theorem Over.eq_attached {d : Dispatched} (ho : Over limits id job new c h (.ok d)) :
    ∃ s, d = .attached { id, session := s, connection := c } := by
  cases ho with
  | attached s waiting => exact ⟨s, rfl⟩

/-- Where a job is not attached to over a connection to its host, it is not submitted. -/
theorem Over.unattached (ho : Over limits id job new c h r) {n : Connection} {q : AttachRequest} {wait : Bool} {e : ClusterError}
    (hx : ⟨.attach n q wait, .error e⟩ ∈ h) : ∀ x ∈ h, x.asked.submits = false := by
  cases ho with
  | notAttached e => simp [Ask.submits]
  | notSubmitted | notConfirmed => simp at hx
  | attached s waiting hwaiting =>
    rw [hwaiting] at hx
    split at hx <;> simp at hx

/-- An interactive job is submitted if its run succeeds, and not if the run is refused other than for waiting until the attach is
confirmed. -/
theorem Over.outcome (ho : Over limits id job new c h r) :
    ((∃ d, r = .ok d) → ⟨.addJobs [(id.host, [job])], .ok ()⟩ ∈ h) ∧
      ∀ e, r = .error e → (∀ m, e ≠ .transport .attachWait m) → ∀ batches, ⟨.addJobs batches, .ok ()⟩ ∉ h := by
  cases ho with
  | notAttached e => simp
  | notSubmitted s e detached drained => simp
  | notConfirmed s w e hw =>
    obtain ⟨m, rfl⟩ := waitRefusal_eq_some hw
    simp
  | attached s waiting hwaiting => simp

/-- What is asked first is which hosts there are. -/
theorem Placed.lists (hp : Placed select limits job new interactive h r) : ∃ listed rest, h = ⟨.listHosts, listed⟩ :: rest := by
  cases hp <;> exact ⟨_, _, rfl⟩

/-- A job is submitted once, to the host that was chosen, and after it was attached to if it is interactive. -/
theorem Placed.submission (hp : Placed select limits job new interactive h r) {x : Exchange} (hx : x ∈ h)
    (hsubmits : x.asked.submits = true) :
    ∃ hosts host between after, select hosts = .ok host ∧ Prepares interactive host job new between ∧
      h = ⟨.listHosts, .ok hosts⟩ :: (between ++ x :: after) ∧ x.asked = .addJobs [(host, [job])] ∧
      ∀ y ∈ after, y.asked.submits = false := by
  cases hp with
  | notListed | noHost | notDialled =>
    simp only [List.mem_cons, List.not_mem_nil, or_false] at hx
    rcases hx with rfl | rfl <;> cases hsubmits
  | notSubmitted hosts host e hselect =>
    simp only [List.mem_cons, List.not_mem_nil, or_false] at hx
    rcases hx with rfl | rfl
    · cases hsubmits
    · exact ⟨hosts, host, [], [], hselect, by simp [Prepares], rfl, rfl, by simp⟩
  | submitted hosts host hselect =>
    simp only [List.mem_cons, List.not_mem_nil, or_false] at hx
    rcases hx with rfl | rfl
    · cases hsubmits
    · exact ⟨hosts, host, [], [], hselect, by simp [Prepares], rfl, rfl, by simp⟩
  | dialled hosts host c calls r hselect ho =>
    have hclosing : ∀ y ∈ closing c r, y.asked.submits = false := by cases r <;> simp [closing, Ask.submits]
    simp only [List.mem_cons, List.mem_append] at hx
    rcases hx with rfl | rfl | hx | hx
    · cases hsubmits
    · cases hsubmits
    · obtain ⟨s, after, rfl, hasked, hafter⟩ := ho.submission hx hsubmits
      refine ⟨hosts, host, [⟨.dial host, .ok c⟩, ⟨.attach c (request job new) true, .ok s⟩], after ++ closing c r, hselect, ?_, by simp,
        hasked, List.forall_mem_append.mpr ⟨hafter, hclosing⟩⟩
      exact ⟨c, s, rfl⟩
    · rw [hclosing x hx] at hsubmits
      cases hsubmits

/-- Where connecting to a host or attaching to a job fails, no job is submitted. -/
theorem Placed.unattached (hp : Placed select limits job new interactive h r)
    (hfails : (∃ host e, ⟨.dial host, .error e⟩ ∈ h) ∨ ∃ n q wait e, ⟨.attach n q wait, .error e⟩ ∈ h) :
    ∀ x ∈ h, x.asked.submits = false := by
  cases hp with
  | notListed | noHost | notDialled => simp [Ask.submits]
  | notSubmitted | submitted => simp at hfails
  | dialled hosts host c calls r hselect ho =>
    have hclosing : ∀ x ∈ closing c r, x.asked.submits = false ∧ x.asked.dials = false ∧ x.asked.attaches = false := by
      cases r <;> simp [closing, Ask.submits, Ask.dials, Ask.attaches]
    have hfailed : ∃ n q wait e, ⟨.attach n q wait, .error e⟩ ∈ calls := by
      rcases hfails with ⟨host', e, hx⟩ | ⟨n, q, wait, e, hx⟩
      · -- the one host that is connected to answers
        simp only [List.mem_cons, List.mem_append] at hx
        rcases hx with hx | hx | hx | hx
        · cases hx
        · cases hx
        · cases (ho.keepsConnection _ hx).1
        · cases (hclosing _ hx).2.1
      · simp only [List.mem_cons, List.mem_append] at hx
        rcases hx with hx | hx | hx | hx
        · cases hx
        · cases hx
        · exact ⟨n, q, wait, e, hx⟩
        · cases (hclosing _ hx).2.2
    obtain ⟨n, q, wait, e, hfailed⟩ := hfailed
    have hquiet := ho.unattached hfailed
    simp only [List.forall_mem_cons, List.forall_mem_append]
    exact ⟨rfl, rfl, hquiet, fun x hx => (hclosing x hx).1⟩

/-- Without an attach to the job, nothing is connected to or attached to. -/
theorem Placed.plain (hp : Placed select limits job new false h r) :
    ∀ x ∈ h, x.asked.dials = false ∧ x.asked.attaches = false := by
  cases hp <;> simp [Ask.dials, Ask.attaches]

/-- A connection that is made is closed last if the run is refused, and is kept with the job otherwise. -/
theorem Placed.connection (hp : Placed select limits job new interactive h r) :
    h.countP (·.asked.dials) ≤ 1 ∧ ∀ host c, ⟨.dial host, .ok c⟩ ∈ h →
      (∀ e, r = .error e → ∃ before, h = before ++ [⟨.close c, ()⟩] ∧ ∀ x ∈ before, x.asked.closes = false) ∧
      ∀ d, r = .ok d → (∀ x ∈ h, x.asked.closes = false) ∧ ∃ j, d = .attached j ∧ j.connection = c := by
  cases hp with
  | notListed | noHost | notSubmitted | submitted => simp [Ask.dials]
  | notDialled hosts host e hselect =>
    refine ⟨by simp [Ask.dials], fun host c hx => ?_⟩
    simp at hx
  | dialled hosts host c calls r hselect ho =>
    have hover : ∀ x ∈ calls, x.asked.dials = false ∧ x.asked.closes = false := ho.keepsConnection
    have hclosing : ∀ x ∈ closing c r, x.asked.dials = false := by cases r <;> simp [closing, Ask.dials]
    refine ⟨?_, fun host' c' hx => ?_⟩
    · have hnone : (calls ++ closing c r).countP (·.asked.dials) = 0 := by
        simp only [List.countP_eq_zero, List.forall_mem_append, Bool.not_eq_true]
        exact ⟨fun x hx => (hover x hx).1, hclosing⟩
      rw [List.countP_cons, List.countP_cons, hnone]
      exact Nat.le_refl 1
    · obtain rfl : c' = c := by
        simp only [List.mem_cons, List.mem_append] at hx
        rcases hx with hx | hx | hx | hx
        · cases hx
        · cases hx
          rfl
        · cases (hover _ hx).1
        · cases hclosing _ hx
      have hbefore : ∀ x ∈ (⟨.listHosts, .ok hosts⟩ :: ⟨.dial host, .ok c'⟩ :: calls : List Exchange), x.asked.closes = false := by
        simp only [List.forall_mem_cons]
        exact ⟨rfl, rfl, fun x hx => (hover x hx).2⟩
      refine ⟨?_, ?_⟩
      · rintro e rfl
        exact ⟨_, rfl, hbefore⟩
      · rintro d rfl
        obtain ⟨s, rfl⟩ := ho.eq_attached
        rw [closing, List.append_nil]
        exact ⟨hbefore, _, rfl, rfl⟩

/-- A job is submitted if its run succeeds, and not if the run is refused before the attach is waited for. -/
theorem Placed.outcome (hp : Placed select limits job new interactive h r) :
    ((∃ d, r = .ok d) → ∃ batches, ⟨.addJobs batches, .ok ()⟩ ∈ h) ∧
      ∀ e, r = .error e → (∀ m, e ≠ .transport .attachWait m) → ∀ batches, ⟨.addJobs batches, .ok ()⟩ ∉ h := by
  cases hp with
  | notListed | noHost | notSubmitted | submitted | notDialled => simp
  | dialled hosts host c calls r hselect ho =>
    obtain ⟨hok, herror⟩ := ho.outcome
    refine ⟨fun hr => ⟨_, List.mem_cons_of_mem _ (List.mem_cons_of_mem _ (List.mem_append_left _ (hok hr)))⟩, ?_⟩
    rintro e rfl he batches hx
    simp only [List.mem_cons, List.mem_append, closing, List.not_mem_nil, or_false] at hx
    rcases hx with hx | hx | hx | hx
    · cases hx
    · cases hx
    · exact herror e rfl he batches hx
    · cases hx

/-- What is looked up is of none of the kinds of asks to the cluster. -/
theorem quiet_lookups {release : Release} {artifact : Artifact} {fresh : String} : ∀ x ∈ lookups new release artifact fresh,
    x.asked.submits = false ∧ x.asked.dials = false ∧ x.asked.attaches = false ∧ x.asked.closes = false := by
  simp [lookups, Ask.submits, Ask.dials, Ask.attaches, Ask.closes]

variable {app : App}

/-- The cluster is asked something exactly if the release of the job, its artifact and the image are found. -/
theorem Course.found (hc : Course select limits app new interactive h r) :
    (∃ x ∈ h, x.asked.reachesCluster = true) ↔ Found new h := by
  cases hc with
  | notFound h e hmissing hquiet =>
    refine ⟨?_, fun hfound => absurd hfound hmissing⟩
    rintro ⟨x, hx, hreaches⟩
    rw [hquiet x hx] at hreaches
    cases hreaches
  | placed release artifact image fresh h r hrelease himage hplaced =>
    obtain ⟨listed, rest, rfl⟩ := hplaced.lists
    refine ⟨fun _ => ⟨hrelease, release, artifact, image, by simp [lookups], by simp [lookups], himage⟩, fun _ => ?_⟩
    exact ⟨⟨.listHosts, listed⟩, by simp, rfl⟩

/-- A new job is submitted once, to the host that was chosen, and after it was attached to if it is interactive. -/
theorem Course.submission (hc : Course select limits app new interactive h r) {x : Exchange} (hx : x ∈ h)
    (hsubmits : x.asked.submits = true) :
    ∃ release artifact image fresh hosts host between after,
      let job := JobSpec.build fresh app new image release.env interactive
      h = lookups new release artifact fresh ++ ⟨.listHosts, .ok hosts⟩ :: (between ++ x :: after) ∧
        ImageRef.ofUri artifact.uri = .ok image ∧ select hosts = .ok host ∧ x.asked = .addJobs [(host, [job])] ∧
        Prepares interactive host job new between ∧ ∀ y ∈ after, y.asked.submits = false := by
  cases hc with
  | notFound h e hmissing hquiet =>
    rw [(Ask.eq_false_of_reachesCluster (hquiet x hx)).1] at hsubmits
    cases hsubmits
  | placed release artifact image fresh h r hrelease himage hplaced =>
    rcases List.mem_append.mp hx with hx | hx
    · rw [(quiet_lookups x hx).1] at hsubmits
      cases hsubmits
    · obtain ⟨hosts, host, between, after, hselect, hprepares, rfl, hasked, hafter⟩ := hplaced.submission hx hsubmits
      exact ⟨release, artifact, image, fresh, hosts, host, between, after, rfl, himage, hselect, hasked, hprepares, hafter⟩

/-- Where connecting to a host or attaching to a new job fails, no job is submitted. -/
theorem Course.unattached (hc : Course select limits app new interactive h r)
    (hfails : (∃ host e, ⟨.dial host, .error e⟩ ∈ h) ∨ ∃ n q wait e, ⟨.attach n q wait, .error e⟩ ∈ h) :
    ∀ x ∈ h, x.asked.submits = false := by
  cases hc with
  | notFound h e hmissing hquiet => exact fun x hx => (Ask.eq_false_of_reachesCluster (hquiet x hx)).1
  | placed release artifact image fresh h r hrelease himage hplaced =>
    rw [List.forall_mem_append]
    refine ⟨fun x hx => (quiet_lookups x hx).1, hplaced.unattached ?_⟩
    simpa [lookups] using hfails

/-- For a job that is not interactive, nothing is connected to or attached to. -/
theorem Course.plain (hc : Course select limits app new false h r) : ∀ x ∈ h, x.asked.dials = false ∧ x.asked.attaches = false := by
  have hkinds {x : Exchange} (hx : x.asked.submits = false ∧ x.asked.dials = false ∧ x.asked.attaches = false ∧ x.asked.closes = false) :
      x.asked.dials = false ∧ x.asked.attaches = false := ⟨hx.2.1, hx.2.2.1⟩
  cases hc with
  | notFound h e hmissing hquiet => exact fun x hx => hkinds (Ask.eq_false_of_reachesCluster (hquiet x hx))
  | placed release artifact image fresh h r hrelease himage hplaced =>
    rw [List.forall_mem_append]
    exact ⟨fun x hx => hkinds (quiet_lookups x hx), hplaced.plain⟩

/-- One connection is made at most. It is closed last if the run is refused, and is kept with the job otherwise. -/
theorem Course.connection (hc : Course select limits app new interactive h r) :
    h.countP (·.asked.dials) ≤ 1 ∧ ∀ host c, ⟨.dial host, .ok c⟩ ∈ h →
      (∀ e, r = .error e → ∃ before, h = before ++ [⟨.close c, ()⟩] ∧ ∀ x ∈ before, x.asked.closes = false) ∧
      ∀ d, r = .ok d → (∀ x ∈ h, x.asked.closes = false) ∧ ∃ j, d = .attached j ∧ j.connection = c := by
  cases hc with
  | notFound h e hmissing hquiet =>
    have hnone {x : Exchange} (hx : x ∈ h) : x.asked.dials = false := (Ask.eq_false_of_reachesCluster (hquiet x hx)).2.1
    refine ⟨?_, fun host c hx => by cases hnone hx⟩
    rw [List.countP_eq_zero.mpr fun x hx => by simp [hnone hx]]
    exact Nat.zero_le 1
  | placed release artifact image fresh h r hrelease himage hplaced =>
    have hopen : ∀ x ∈ lookups new release artifact fresh, x.asked.closes = false := fun x hx => (quiet_lookups x hx).2.2.2
    obtain ⟨honce, hplaced⟩ := hplaced.connection
    refine ⟨by simpa [lookups, Ask.dials] using honce, fun host c hx => ?_⟩
    obtain ⟨herror, hok⟩ := hplaced host c (by simpa [lookups] using hx)
    refine ⟨fun e he => ?_, fun d hd => ?_⟩
    · obtain ⟨before, rfl, hbefore⟩ := herror e he
      exact ⟨lookups new release artifact fresh ++ before, by rw [List.append_assoc], List.forall_mem_append.mpr ⟨hopen, hbefore⟩⟩
    · obtain ⟨hkept, hj⟩ := hok d hd
      exact ⟨List.forall_mem_append.mpr ⟨hopen, hkept⟩, hj⟩

/-- A new job is submitted if its run succeeds, and not if the run is refused other than for waiting until the attach is confirmed. -/
theorem Course.outcome (hc : Course select limits app new interactive h r) :
    ((∃ d, r = .ok d) → ∃ batches, ⟨.addJobs batches, .ok ()⟩ ∈ h) ∧
      ∀ e, r = .error e → (∀ m, e ≠ .transport .attachWait m) → ∀ batches, ⟨.addJobs batches, .ok ()⟩ ∉ h := by
  cases hc with
  | notFound h e hmissing hquiet =>
    refine ⟨by simp, fun e _ _ batches hx => ?_⟩
    cases (Ask.eq_false_of_reachesCluster (hquiet _ hx)).1
  | placed release artifact image fresh h r hrelease himage hplaced => simpa [lookups] using hplaced.outcome

/-- What a run came to is not used any more: the stream of an interactive job is dropped, and its connection is closed. -/
def letGo : Dispatched → Plan Unit
  | .scheduled _ => .done ()
  | .attached j => do
    Plan.call (.drop j.session)
    Plan.call (.close j.connection)

/-- A control plane that gives up an interactive job does nothing else. -/
theorem perform_letGo {κ : Type} [Cluster κ] (p : ControlPlane κ) (j : AttachedJob) :
    (p.perform (letGo (.attached j))).2 = p.dropAttached j := rfl

end Run

open Run

/-- What running a new job asks and what it comes to, whatever it is answered.
1. The cluster is asked something exactly if the job names a release, the release and its artifact are found, and the artifact's URI is
   that of an image.
2. Jobs are submitted once at most, after all these were found, and then it is one job to the one host that was chosen among those that
   were listed. An interactive job has been attached to by then, by its ID and waiting for it to start, over a connection to that host.
3. No job is submitted if the host could not be connected to, or the job not be attached to.
4. A job that is not interactive is not attached to, and nothing is connected to.
5. One host is connected to at most. If the run is refused, what is asked last is to close the connection, and it is not closed before.
   Otherwise it is not closed, it goes with the job, and to let that go is to drop the job's stream and then to close the connection.
6. A job was submitted if the run succeeds, and none was if it is refused other than for waiting until the attach is confirmed. -/
theorem runJob_history {σ : Type} (answer : (q : Ask) → σ → q.Answer × σ) (select : Selector) (limits : RunLimits) (app : App)
    (new : NewJob) (interactive : Bool) (s : σ) :
    let plan := runJob select limits app new interactive
    let h := plan.history answer s
    let r := (plan.run answer s).1
    ((∃ x ∈ h, x.asked.reachesCluster = true) ↔ Found new h) ∧
    (∀ x ∈ h, x.asked.submits = true → ∃ release artifact image fresh hosts host between after,
      let job := JobSpec.build fresh app new image release.env interactive
      h = lookups new release artifact fresh ++ ⟨.listHosts, .ok hosts⟩ :: (between ++ x :: after) ∧
        ImageRef.ofUri artifact.uri = .ok image ∧ select hosts = .ok host ∧ x.asked = .addJobs [(host, [job])] ∧
        Prepares interactive host job new between ∧ ∀ y ∈ after, y.asked.submits = false) ∧
    ((∃ host e, ⟨.dial host, .error e⟩ ∈ h) ∨ (∃ c q wait e, ⟨.attach c q wait, .error e⟩ ∈ h) → ∀ x ∈ h, x.asked.submits = false) ∧
    (interactive = false → ∀ x ∈ h, x.asked.dials = false ∧ x.asked.attaches = false) ∧
    (h.countP (·.asked.dials) ≤ 1 ∧ ∀ host c, ⟨.dial host, .ok c⟩ ∈ h →
      (∀ e, r = .error e → ∃ before, h = before ++ [⟨.close c, ()⟩] ∧ ∀ x ∈ before, x.asked.closes = false) ∧
      ∀ d, r = .ok d → (∀ x ∈ h, x.asked.closes = false) ∧
        ∃ j, d = .attached j ∧ ∀ t, (letGo d).history answer t = [⟨.drop j.session, ()⟩, ⟨.close c, ()⟩]) ∧
    ((∃ d, r = .ok d) → ∃ batches, ⟨.addJobs batches, .ok ()⟩ ∈ h) ∧
    ∀ e, r = .error e → (∀ m, e ≠ .transport .attachWait m) → ∀ batches, ⟨.addJobs batches, .ok ()⟩ ∉ h := by
  intro plan h r
  have hc : Course select limits app new interactive h r := course_of_yields (Plan.yields_history answer plan s)
  obtain ⟨honce, hconnection⟩ := hc.connection
  refine ⟨hc.found, fun x hx => hc.submission hx, hc.unattached, ?_, ⟨honce, fun host c hx => ?_⟩, hc.outcome⟩
  · intro hplain
    rw [hplain] at hc
    exact hc.plain
  · obtain ⟨herror, hok⟩ := hconnection host c hx
    refine ⟨herror, fun d hd => ?_⟩
    obtain ⟨hkept, j, rfl, rfl⟩ := hok d hd
    exact ⟨hkept, j, rfl, fun t => rfl⟩

/-- An interactive job for a host that takes no jobs: the attach is given up and drained, and then the connection is closed. -/
example :
    let answer : (q : Ask) → Unit → q.Answer × Unit := fun q _ => (match q with
      | .app id => .error (.appNotFound id)
      | .release _ => .ok { artifactId := "a" }
      | .artifact _ => .ok { uri := "docker:///app:1" }
      | .freshId => "j"
      | .listHosts => .ok [("h", { id := "h" })]
      | .dial host => .ok ⟨host, 0⟩
      | .attach _ _ _ => .ok ⟨0, true, false⟩
      | .addJobs _ => .error (.unavailable "full")
      | .detach _ _ | .stop _ _ => .ok ()
      | .awaitReady _ _ => .timedOut
      | .drain _ _ => 0
      | .close _ | .drop _ => (), ())
    let new : NewJob := { releaseId := "r" }
    let job := JobSpec.build "j" {} new { name := "app", tag := some "1" } .empty true
    let c : Connection := ⟨"h", 0⟩
    ((runJob Selector.leastLoaded {} {} new true).history answer ()).map (·.asked) =
      [.release "r", .artifact "a", .freshId, .listHosts, .dial "h", .attach c (request job new) true, .addJobs [("h", [job])],
        .detach c "j", .drain ⟨0, true, false⟩ 1000, .close c] := by
  decide +kernel

end JobPlane
