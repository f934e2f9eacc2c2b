import JobPlane.Proofs.Local.GivingUp
import JobPlane.Proofs.Local.Tables
import JobPlane.Proofs.Request.Log
import JobPlane.Proofs.Request.Run

/-!
# Attaches that are given up

A request that gives up an attach which still waits may leave it waiting on its host, or withdraw it first: it asks the host to give up
what waits for the job, over the connection the attach was made with (`withdrawn_attaches`). A run that could not submit its job does so,
and so does a log that was waited for in vain. A run whose job was submitted but did not start in time does not.
-/

namespace JobPlane

open Plan (Exchange)

/-- Whether an ask gives up what waits for a job. -/
def Ask.withdraws : Ask → Bool
  | .detach _ _ => true
  | _ => false

/-- Whether an ask is one of those that come before a job's host is asked something: to look something up, or to dial the host. -/
def Ask.isPrelude : Ask → Bool
  | .app _ | .release _ | .artifact _ | .freshId | .listHosts | .dial _ => true
  | _ => false

/-- An ask that comes before a job's host is asked something closes no connection, and gives nothing up. -/
theorem Ask.quiet_of_isPrelude {q : Ask} (hq : q.isPrelude = true) : q.closes = false ∧ q.withdraws = false := by
  cases q <;> first | exact ⟨rfl, rfl⟩ | cases hq

namespace Run

variable {select : Selector} {limits : RunLimits} {id : JobId} {job : JobSpec} {new : NewJob} {c n : Connection} {app : App}
  {interactive : Bool} {h : List Exchange} {r : Except Refusal Dispatched} {q : AttachRequest} {s : Session} {e : ClusterError}
  {batches : List (String × List JobSpec)}

/-- Over a connection to its host, an attach whose job is not submitted is withdrawn and drained. -/
theorem Over.withdrawn (ho : Over limits id job new c h r) (hattach : ⟨.attach n q true, .ok s⟩ ∈ h)
    (hadd : ⟨.addJobs batches, .error e⟩ ∈ h) :
    n = c ∧ (∃ refusal, r = .error refusal) ∧ ∃ detached drained,
      h = [⟨.attach n q true, .ok s⟩, ⟨.addJobs batches, .error e⟩, ⟨.detach n q.job, detached⟩, ⟨.drain s limits.drain, drained⟩] := by
  cases ho with
  | notAttached e => simp at hadd
  | notSubmitted s e detached drained =>
    simp only [List.mem_cons, List.not_mem_nil, or_false] at hattach hadd
    rcases hattach with hattach | hattach | hattach | hattach <;> cases hattach
    rcases hadd with hadd | hadd | hadd | hadd <;> cases hadd
    exact ⟨rfl, ⟨_, rfl⟩, detached, drained, rfl⟩
  | notConfirmed s w e hw => simp at hadd
  | attached s waiting hwaiting =>
    rw [hwaiting] at hadd
    split at hadd <;> simp at hadd

/-- Over a connection to its host, an attach that is waited for in vain is not withdrawn. -/
theorem Over.left (ho : Over limits id job new c h r) {ms : Nat} (hwait : ⟨.awaitReady s ms, .timedOut⟩ ∈ h) :
    r = .error (.transport .attachWait "timed out waiting for job to start") ∧ (∀ x ∈ h, x.asked.withdraws = false) ∧
      h = [⟨.attach c (request job new) true, .ok s⟩, ⟨.addJobs [(id.host, [job])], .ok ()⟩, ⟨.awaitReady s ms, .timedOut⟩, ⟨.drop s, ()⟩] := by
  cases ho with
  | notAttached | notSubmitted => simp at hwait
  | notConfirmed s w e hw =>
    simp only [List.mem_cons, List.not_mem_nil, or_false] at hwait
    rcases hwait with hwait | hwait | hwait | hwait <;> cases hwait
    cases hw
    exact ⟨rfl, by simp [Ask.withdraws], rfl⟩
  | attached s waiting hwaiting =>
    rw [hwaiting] at hwait
    split at hwait <;> simp at hwait

/-- Where a run asks its job's host something, it has dialled the host, and all of that is asked over the one connection. -/
theorem Course.over (hc : Course select limits app new interactive h r) {x : Exchange} (hx : x ∈ h)
    (hattach : (∃ n q session, x = ⟨.attach n q true, session⟩) ∨ ∃ s ms w, x = ⟨.awaitReady s ms, w⟩) :
    ∃ before host job c calls, h = before ++ (calls ++ closing c r) ∧ Over limits ⟨host, job.id⟩ job new c calls r ∧
      ∀ y ∈ before, y.asked.isPrelude = true := by
  have hcluster : x.asked.reachesCluster = true := by
    rcases hattach with ⟨n, q, session, rfl⟩ | ⟨s, ms, w, rfl⟩ <;> rfl
  cases hc with
  | notFound h e hmissing hquiet => simp [hquiet x hx] at hcluster
  | placed release artifact image fresh h r hrelease himage hplaced =>
    cases hplaced with
    | dialled hosts host c calls r hselect ho =>
      refine ⟨lookups new release artifact fresh ++ [⟨.listHosts, .ok hosts⟩, ⟨.dial host, .ok c⟩], host, _, c, calls, by simp, ho, ?_⟩
      simp [lookups, Ask.isPrelude]
    | _ => rcases hattach with ⟨n, q, session, rfl⟩ | ⟨s, ms, w, rfl⟩ <;> simp [lookups] at hx

/-- What a run asks its job's host, and what it asks about the session it has with it, is asked over the connection to the host. -/
theorem mem_calls {before calls : List Exchange} {x : Exchange} (hx : x ∈ before ++ (calls ++ closing c r))
    (hbefore : ∀ y ∈ before, y.asked.isPrelude = true) (hlater : x.asked.isPrelude = false ∧ x.asked.closes = false) : x ∈ calls := by
  rcases List.mem_append.mp hx with hx | hx
  · rw [hbefore x hx] at hlater
    cases hlater.1
  · rcases List.mem_append.mp hx with hx | hx
    · exact hx
    · cases r with
      | ok d => cases hx
      | error e =>
        rw [List.mem_singleton.mp hx] at hlater
        cases hlater.2

end Run

namespace OpenLog

variable {ms : Nat} {tail : Bool} {j : JobId} {c : Connection} {h : List Exchange} {r : Except Refusal OpenLog} {s : Session}

/-- Over a connection to its host, an attach that a log waits for in vain is withdrawn. -/
theorem Over.withdrawn (ho : Over ms tail j c h r) (hwait : ⟨.awaitReady s ms, .timedOut⟩ ∈ h) :
    (∃ refusal, r = .error refusal) ∧ ∃ detached,
      h = [⟨.attach c (request j tail) false, .error .attachWouldWait⟩, ⟨.attach c (request j tail) true, .ok s⟩,
        ⟨.awaitReady s ms, .timedOut⟩, ⟨.detach c j.job, detached⟩, ⟨.drop s, ()⟩] := by
  cases ho with
  | attached | notAttached | notRegistered | started => simp at hwait
  | confirmed s hs =>
    simp only [List.mem_cons, List.not_mem_nil, or_false] at hwait
    rcases hwait with hwait | hwait | hwait <;> cases hwait
  | notConfirmed s w e hs hw he =>
    simp only [List.mem_cons, List.not_mem_nil, or_false] at hwait
    rcases hwait with hwait | hwait | hwait | hwait <;> cases hwait
    exact absurd rfl hw
  | timedOut s detached hs =>
    simp only [List.mem_cons, List.not_mem_nil, or_false] at hwait
    rcases hwait with hwait | hwait | hwait | hwait | hwait <;> cases hwait
    exact ⟨⟨_, rfl⟩, detached, rfl⟩

/-- Where a log waits for an attach in vain, the attach is withdrawn before the connection is closed. -/
theorem Course.withdrawn (hc : Course ms tail j h r) (hwait : ⟨.awaitReady s ms, .timedOut⟩ ∈ h) :
    ∃ c detached,
      h = [⟨.dial j.host, .ok c⟩, ⟨.attach c (request j tail) false, .error .attachWouldWait⟩, ⟨.attach c (request j tail) true, .ok s⟩,
        ⟨.awaitReady s ms, .timedOut⟩, ⟨.detach c j.job, detached⟩, ⟨.drop s, ()⟩, ⟨.close c, ()⟩] := by
  cases hc with
  | notDialled e => simp at hwait
  | opened c h log ho =>
    obtain ⟨⟨e, he⟩, -⟩ := ho.withdrawn (by simpa using hwait)
    cases he
  | refused c h e ho =>
    obtain ⟨-, detached, rfl⟩ := ho.withdrawn (by simpa using hwait)
    exact ⟨c, detached, rfl⟩

end OpenLog

/-! ## What is left on the hosts -/

namespace LocalCluster

variable {k k' : LocalCluster} {n : Connection} {job x : String} {h : LocalHost}

/-- Where what waits for a job is given up over a connection, nothing waits for the job on the connection's host. -/
theorem pendingFor_detach (hd : Cluster.detach n job k = (.ok (), k')) : ∃ h', k'.host? n.host = some h' ∧ h'.pendingFor job = [] := by
  obtain ⟨h, hh, rfl⟩ := detach_eq_ok hd
  refine ⟨h.detach job, host?_setHost_self hh rfl, ?_⟩
  rw [List.eq_nil_iff_forall_not_mem]
  intro i hi
  exact (LocalHost.mem_pendingFor_detach.mp hi).2 rfl

/-- Where a session is dropped and a connection is closed, the same attaches wait on each host as before. -/
theorem pendingFor_closed (n : Connection) (s : Session) (job : String) (hh : k.host? x = some h) :
    ∃ h', (Cluster.close n (Cluster.drop s k)).host? x = some h' ∧ ∀ i, i ∈ h'.pendingFor job ↔ i ∈ h.pendingFor job := by
  have hsame := SameTables.of_works (works_setLink k s (Cluster.link s k).drop) x
  rw [hh] at hsame
  change ∃ h', (Cluster.setLink s (Cluster.link s k).drop k).host? x = some h' ∧ _
  generalize (Cluster.setLink s (Cluster.link s k).drop k).host? x = after at hsame
  cases hsame with
  | some hsame => exact ⟨_, rfl, fun i => hsame.pendingFor⟩

end LocalCluster

/-! ## Which attaches are withdrawn -/

open Run

/-- What is asked, whatever the answers, where a run or a log gives up an attach that still waits; the attach was made over a connection.
1. A run whose job could not be submitted asks over the connection to give up what waits for the job, drains the session and closes the
   connection.
2. A log that was waited for in vain asks over the connection to give up what waits for the job, drops the session and closes the
   connection.
3. A run whose job was submitted and that waited in vain for the attach is refused too; but it only drops the session and closes the
   connection, and it never asks anybody to give up what waits for the job.
4. A host of a cluster on one machine that is asked to give up what waits for a job has nothing that waits for it; one whose sessions
   are dropped and connections closed goes on to have all that waited. -/
theorem withdrawn_attaches {σ : Type} (answer : (q : Ask) → σ → q.Answer × σ) (state : σ) (select : Selector) (limits : RunLimits)
    (app : App) (new : NewJob) (interactive : Bool) (ms : Nat) (id : String) (tail : Bool) :
    let running := (runJob select limits app new interactive).history answer state
    let opening := (openLog ms id tail).history answer state
    (∀ n q s batches e, ⟨.attach n q true, .ok s⟩ ∈ running → ⟨.addJobs batches, .error e⟩ ∈ running →
      ∃ before detached drained, (∀ x ∈ before, x.asked.closes = false) ∧
        running = before ++ [⟨.attach n q true, .ok s⟩, ⟨.addJobs batches, .error e⟩, ⟨.detach n q.job, detached⟩,
          ⟨.drain s limits.drain, drained⟩, ⟨.close n, ()⟩]) ∧
    (∀ s, ⟨.awaitReady s ms, .timedOut⟩ ∈ opening →
      ∃ n q before detached, (∀ x ∈ before, x.asked.closes = false) ∧
        opening = before ++ [⟨.attach n q true, .ok s⟩, ⟨.awaitReady s ms, .timedOut⟩, ⟨.detach n q.job, detached⟩, ⟨.drop s, ()⟩,
          ⟨.close n, ()⟩]) ∧
    (∀ s wait, ⟨.awaitReady s wait, .timedOut⟩ ∈ running →
      ((runJob select limits app new interactive).run answer state).1 =
          .error (.transport .attachWait "timed out waiting for job to start") ∧
        (∀ x ∈ running, x.asked.withdraws = false) ∧
        ∃ n q batches before, running = before ++ [⟨.attach n q true, .ok s⟩, ⟨.addJobs batches, .ok ()⟩,
          ⟨.awaitReady s wait, .timedOut⟩, ⟨.drop s, ()⟩, ⟨.close n, ()⟩]) ∧
    ∀ (k : LocalCluster) n s job,
      (∀ k', Cluster.detach n job k = (.ok (), k') → ∃ h, k'.host? n.host = some h ∧ h.pendingFor job = []) ∧
      ∀ x h, k.host? x = some h →
        ∃ h', (Cluster.close n (Cluster.drop s k)).host? x = some h' ∧ ∀ i, i ∈ h'.pendingFor job ↔ i ∈ h.pendingFor job := by
  intro running opening
  have hrunning := course_of_yields (Plan.yields_history answer (runJob select limits app new interactive) state)
  have hopening := Plan.yields_history answer (openLog ms id tail) state
  refine ⟨?_, ?_, ?_, fun k n s job => ⟨fun k' => LocalCluster.pendingFor_detach, fun x h => LocalCluster.pendingFor_closed n s job⟩⟩
  · intro n q s batches e hattach hadd
    obtain ⟨before, host, job, c, calls, heq, hover, hbefore⟩ := hrunning.over hattach (Or.inl ⟨n, q, _, rfl⟩)
    rw [show running = _ from heq] at hattach hadd
    obtain ⟨rfl, ⟨refusal, hrefused⟩, detached, drained, rfl⟩ :=
      hover.withdrawn (mem_calls hattach hbefore ⟨rfl, rfl⟩) (mem_calls hadd hbefore ⟨rfl, rfl⟩)
    refine ⟨before, detached, drained, fun x hx => (Ask.quiet_of_isPrelude (hbefore x hx)).1, ?_⟩
    rw [show running = _ from heq, hrefused]
    rfl
  · intro s hwait
    cases hj : JobId.parse id with
    | none => simp [opening, openLog, hj, Plan.history] at hwait
    | some j =>
      obtain ⟨c, detached, heq⟩ := (OpenLog.course_of_yields hj hopening).withdrawn hwait
      refine ⟨c, OpenLog.request j tail, [⟨.dial j.host, .ok c⟩, ⟨.attach c (OpenLog.request j tail) false, .error .attachWouldWait⟩],
        detached, by simp [Ask.closes], heq⟩
  · intro s wait hwait
    obtain ⟨before, host, job, c, calls, heq, hover, hbefore⟩ := hrunning.over hwait (Or.inr ⟨s, wait, _, rfl⟩)
    rw [show running = _ from heq] at hwait
    obtain ⟨hrefused, hquiet, rfl⟩ := hover.left (mem_calls hwait hbefore ⟨rfl, rfl⟩)
    rw [hrefused] at heq
    refine ⟨hrefused, ?_, c, request job new, [(host, [job])], before, by rw [show running = _ from heq]; rfl⟩
    rw [show running = _ from heq]
    simp only [List.forall_mem_append]
    exact ⟨fun x hx => (Ask.quiet_of_isPrelude (hbefore x hx)).2, hquiet, by simp [closing, Ask.withdraws]⟩

/-- A host takes an interactive job, but does not start it in time: the run is refused, and nobody is asked to give up what waits for the
job. -/
theorem withdrawn_attaches_of_late_start :
    let answer : (q : Ask) → Unit → q.Answer × Unit := fun q _ => (match q with
      | .app id => .error (.appNotFound id)
      | .release _ => .ok { artifactId := "a" }
      | .artifact _ => .ok { uri := "docker:///app:1" }
      | .freshId => "j"
      | .listHosts => .ok [("h", { id := "h" })]
      | .dial host => .ok ⟨host, 0⟩
      | .attach _ _ _ => .ok ⟨0, true, false⟩
      | .addJobs _ | .detach _ _ | .stop _ _ => .ok ()
      | .awaitReady _ _ => .timedOut
      | .drain _ _ => 0
      | .close _ | .drop _ => (), ())
    let new : NewJob := { releaseId := "r" }
    let job := JobSpec.build "j" {} new { name := "app", tag := some "1" } .empty true
    let c : Connection := ⟨"h", 0⟩
    let s : Session := ⟨0, true, false⟩
    let running := (runJob Selector.leastLoaded { attachWait := 100 } {} new true).history answer ()
    running.map (·.asked) = [.release "r", .artifact "a", .freshId, .listHosts, .dial "h", .attach c (request job new) true,
        .addJobs [("h", [job])], .awaitReady s 100, .drop s, .close c] ∧
      ∀ x ∈ running, x.asked.withdraws = false := by
  intro answer new job c s running
  have hasked : running.map (·.asked) = [.release "r", .artifact "a", .freshId, .listHosts, .dial "h", .attach c (request job new) true,
      .addJobs [("h", [job])], .awaitReady s 100, .drop s, .close c] := by decide +kernel
  obtain ⟨⟨q, r⟩, hx, rfl⟩ : ∃ x ∈ running, x.asked = .awaitReady s 100 := List.mem_map.mp (by rw [hasked]; simp)
  obtain ⟨t, rfl⟩ := Plan.answer_of_mem_history hx
  obtain ⟨-, -, hleft, -⟩ := withdrawn_attaches answer () Selector.leastLoaded { attachWait := 100 } {} new true 0 "" false
  exact ⟨hasked, (hleft s 100 hx).2.1⟩

end JobPlane
