import JobPlane.Proofs.Local.Rest
import JobPlane.Proofs.Request.Run

/-!
# Runs that fail

What is left on a cluster on one machine of a submission or a run that fails: nothing that its hosts have in their tables
(`failed_run_leaves_no_trace`). A job whose process does not start is forgotten again, and an attach that was made before its job could be
submitted is given up, by the host when it tells the attach why, or when the run asks for it.
-/

namespace JobPlane

namespace LocalHost

/-- A job's ID is new to a host: it knows no job of that ID, and no attach waits for one. -/
def NewId (h : LocalHost) (id : String) : Prop := h.job? id = none ∧ h.pendingFor id = []

/-- A host is as it was, but for one attach at most that there is more and that was given up. -/
def AsBefore (h h' : LocalHost) : Prop := h' = h ∨ ∃ a, GivenUp a ∧ h' = h.withAttach a

theorem AsBefore.refl (h : LocalHost) : AsBefore h h := Or.inl rfl

end LocalHost

namespace LocalCluster

open LocalHost

variable {c c' k k' : LocalCluster} {h : LocalHost} {n : Connection} {r : AttachRequest} {s : Session} {a : Attachment} {x : String}
  {spec : JobSpec} {e : ClusterError} {job : String} {hinder : Option String}

/-- A cluster bears no trace of what was asked of it: the hosts have the tables they had, and if it was at rest, so that all that happened
was what was asked, the hosts are as before. -/
structure NoTrace (c c' : LocalCluster) : Prop where
  tables : c.SameTables c'
  hosts : c.AtRest → (∀ x h, c.host? x = some h → h.OwnersKnown) → ∀ x, Option.Rel AsBefore (c.host? x) (c'.host? x)

namespace NoTrace

/-- Where the hosts are the same there is no trace. -/
theorem of_host? (hh : ∀ x, c'.host? x = c.host? x) : c.NoTrace c' where
  tables x := by
    rw [hh]
    exact optionRel_refl .refl _
  hosts _ _ x := by
    rw [hh]
    exact optionRel_refl .refl _

/-- Whether there is a trace does not depend on which connections there were, and which of them are closed. -/
theorem congr (hn : k.NoTrace k') (hhosts : k.hosts = c.hosts) (hworkers : k.workers = c.workers) (hhosts' : c'.hosts = k'.hosts) :
    c.NoTrace c' where
  tables := ((SameTables.of_hosts hhosts).trans hn.tables).trans (.of_hosts hhosts')
  hosts hc howners x := by
    have hbefore (y : String) : k.host? y = c.host? y := by rw [host?, hhosts]; rfl
    have hafter : c'.host? x = k'.host? x := by rw [host?, hhosts']; rfl
    have hsame := hn.hosts (hc.of_same hhosts hworkers) (fun y h hh => howners y h (hbefore y ▸ hh)) x
    rwa [hbefore, ← hafter] at hsame

/-- Where an attach was made and given up, and its session was drained, there is no trace. -/
theorem drained (ho : OneMore c x h a s k) (ha : GivenUp a) (ms : Nat) : c.NoTrace (Cluster.drain s ms k).2 where
  tables := (ho.sameTables ha).trans (.of_works (works_drain k s ms))
  hosts hc howners y := by
    obtain ⟨b, hb, hdrained⟩ := ho.drain ha (howners x h ho.known) hc ms
    rw [hdrained.host?]
    split
    · rename_i hy
      rw [hy, ho.known]
      exact .some (Or.inr ⟨b, hb, rfl⟩)
    · exact optionRel_refl .refl _

end NoTrace

/-- Attaching to a job that is not known is refused, or there is one attach more that waits for the job. -/
theorem attach_new (hh : c.host? n.host = some h) (hj : h.job? r.job = none) :
    (∃ e, c.attach n r true = (.error e, c)) ∨ ∃ s c', c.attach n r true = (.ok s, c') ∧ s.pending = true ∧
      OneMore c n.host h { request := r } s c' := by
  by_cases hclosed : n.serial ∈ c.closed
  · exact Or.inl ⟨.unavailable ("connection to host " ++ n.host ++ " is closed"), by simp [attach, onHost, hclosed]⟩
  · have haccepts : h.attach r true = .ok (h.accept { request := r }) := by simp [LocalHost.attach, hj]
    obtain ⟨s, c', hattach, hpending, -, hone⟩ := attach_accepted hh hclosed haccepts
    exact Or.inr ⟨s, c', hattach, hpending, hone⟩

/-- Where one attach more waits for a new job and the job is not added, the attach is told so, and nothing else has changed. -/
theorem OneMore.notAdded (ho : OneMore c x h a s k) (hnew : h.NewId spec.id) (ha : a.isPendingFor spec.id = true)
    (hadd : k.addOne x spec hinder = (.error e, c')) :
    ∃ reason, OneMore c x h (a.giveUp (.refused ("job failed to start: " ++ reason))) s c' := by
  cases notAdded_of_addOne hadd with
  | unknownHost hh =>
    rw [ho.host?_self] at hh
    cases hh
  | known h' j hh hj =>
    rw [ho.host?_self] at hh
    cases hh
    rw [job?_withAttach, hnew.1] at hj
    cases hj
  | notStarted h' reason hh hj =>
    rw [ho.host?_self] at hh
    cases hh
    rw [tellFailed, mapPending_withAttach hnew.2 ha]
    exact ⟨reason, ho.setHost _⟩

/-- Where one attach more was given up and nothing waits for its job, giving up what waits for the job changes nothing. -/
theorem OneMore.detached (ho : OneMore c n.host h a s k) (ha : GivenUp a) (hnone : h.pendingFor job = []) :
    OneMore c n.host h a s (Cluster.detach n job k).2 := by
  have hsame : (h.withAttach a).detach job = h.withAttach a := by
    refine mapPending_of_none (List.eq_nil_iff_forall_not_mem.mpr fun i hi => ?_)
    rw [(sameTables_withAttach ha.ne_pending).pendingFor, hnone] at hi
    cases hi
  simp only [Cluster.detach, onHost, ho.host?_self, hsame]
  split
  · rename_i h' heq
    split at heq <;> cases heq
    exact ho.setHost a
  · exact ho

end LocalCluster

namespace Run

open LocalHost LocalCluster

variable {select : Selector} {limits : RunLimits} {id : JobId} {job : JobSpec} {new : NewJob} {c : Connection} {app : App}
  {interactive : Bool} {p p' : ControlPlane LocalCluster} {refusal : Refusal} {h : LocalHost}

/-- A control plane passes an ask on to its cluster. -/
theorem onCluster_eq {α : Type} {f : LocalCluster → α × LocalCluster} {r : α} {k : LocalCluster} (hf : f p.cluster = (r, k)) :
    p.onCluster f = (r, { p with cluster := k }) := by
  rw [ControlPlane.onCluster, hf]

/-- Attaching to a new job and submitting it leaves no trace where it is refused. -/
theorem noTrace_attachAndSubmit (hid : id.host = c.host) (hh : p.cluster.host? c.host = some h) (hnew : h.NewId job.id)
    (hrun : p.perform (attachAndSubmit limits id job new c) = (.error refusal, p')) : p.cluster.NoTrace p'.cluster := by
  rw [ControlPlane.perform, attachAndSubmit, Plan.run_call] at hrun
  simp only [ControlPlane.answer] at hrun
  rcases attach_new (r := request job new) hh hnew.1 with ⟨e, hrefused⟩ | ⟨s, k, hattach, hpending, hone⟩
  · rw [onCluster_eq (p := p) hrefused] at hrun
    cases hrun
    exact .of_host? fun _ => rfl
  · rw [onCluster_eq (p := p) hattach] at hrun
    change (Plan.call (.addJobs [(id.host, [job])]) >>= _).run ControlPlane.answer { p with cluster := k } = _ at hrun
    rw [Plan.run_call] at hrun
    simp only [ControlPlane.answer] at hrun
    have hwaits : Attachment.isPendingFor { request := request job new } job.id = true := by simp [Attachment.isPendingFor, request]
    rcases hadd : k.addJobs [(id.host, [job])] with ⟨e | ⟨⟨⟩⟩, k₁⟩
    · -- the attach is told that the job does not start, given up and drained
      rw [onCluster_eq (p := { p with cluster := k }) (f := Cluster.addJobs _) hadd] at hrun
      rw [hid, addJobs_single] at hadd
      obtain ⟨reason, hfailed⟩ := hone.notAdded hnew hwaits hadd
      have hgiven : GivenUp (Attachment.giveUp { request := request job new } (.refused ("job failed to start: " ++ reason))) :=
        Or.inr ⟨_, rfl⟩
      simp only [bind, Plan.bind, Plan.call, Plan.run, pure, ControlPlane.answer, ControlPlane.onCluster, Prod.mk.injEq] at hrun
      rw [← hrun.2]
      exact .drained (hfailed.detached hgiven hnew.2) hgiven limits.drain
    · -- the attach is confirmed at once
      rw [onCluster_eq (p := { p with cluster := k }) (f := Cluster.addJobs _) hadd] at hrun
      rw [hid, addJobs_single] at hadd
      have hready : k₁.awaited s = .ready :=
        awaited_of_addOne hone.session hone.host?_self attaches_withAttach_last hwaits hadd
      change (confirm limits id c s).run _ _ = _ at hrun
      rw [confirm, if_pos hpending, Plan.run_call] at hrun
      simp only [ControlPlane.answer, ControlPlane.onCluster, Cluster.awaitReady, hready, waitRefusal] at hrun
      cases hrun

/-- Submitting a new job that nobody is attached to leaves no trace where it is refused. -/
theorem noTrace_submit (hnew : ∀ x h, p.cluster.host? x = some h → h.NewId job.id)
    (hrun : p.perform (submit id job new) = (.error refusal, p')) : p.cluster.NoTrace p'.cluster := by
  rw [ControlPlane.perform, submit, Plan.run_call] at hrun
  simp only [ControlPlane.answer] at hrun
  rcases hadd : p.cluster.addJobs [(id.host, [job])] with ⟨e | ⟨⟨⟩⟩, k⟩
  · rw [onCluster_eq (f := Cluster.addJobs _) hadd] at hrun
    cases hrun
    rw [addJobs_single] at hadd
    cases notAdded_of_addOne hadd with
    | unknownHost | known => exact .of_host? fun _ => rfl
    | notStarted h reason hh hj =>
      rw [tellFailed, mapPending_of_none (hnew _ _ hh).2]
      refine .of_host? fun x => ?_
      rw [host?_setHost hh (by rfl)]
      split
      · rename_i hx
        rw [hx, hh]
      · rfl
  · rw [onCluster_eq (f := Cluster.addJobs _) hadd] at hrun
    cases hrun

/-- Running a new job on a host of the cluster leaves no trace where it is refused. -/
theorem noTrace_place (hnew : ∀ x h, p.cluster.host? x = some h → h.NewId job.id)
    (hrun : p.perform (place select limits job new interactive) = (.error refusal, p')) : p.cluster.NoTrace p'.cluster := by
  rw [ControlPlane.perform, place, Plan.run_call] at hrun
  simp only [ControlPlane.answer, ControlPlane.onCluster, Cluster.hosts] at hrun
  cases hselect : select p.cluster.snapshot with
  | error r =>
    rw [hselect] at hrun
    cases hrun
    exact .of_host? fun _ => rfl
  | ok host =>
    rw [hselect] at hrun
    cases interactive with
    | false => exact noTrace_submit hnew hrun
    | true =>
      simp only [if_true] at hrun
      cases hh : p.cluster.host? host with
      | none =>
        have hdial : Cluster.dial host p.cluster = (.error (.hostNotFound host), p.cluster) := by simp [Cluster.dial, hh]
        rw [Plan.run_call, ControlPlane.answer, onCluster_eq hdial] at hrun
        cases hrun
        exact .of_host? fun _ => rfl
      | some h =>
        let dialled : ControlPlane LocalCluster := { p with cluster := { p.cluster with dialled := p.cluster.dialled + 1 } }
        have hdial : Cluster.dial host p.cluster = (.ok ⟨host, p.cluster.dialled⟩, dialled.cluster) := by
          simp [Cluster.dial, hh, dialled]
        rw [Plan.run_call, ControlPlane.answer, onCluster_eq hdial] at hrun
        obtain ⟨t, hrefused, rfl⟩ := Plan.run_closingOnRefusal hrun
        have hplaced : dialled.cluster.NoTrace t.cluster :=
          noTrace_attachAndSubmit (p := dialled) (c := ⟨host, p.cluster.dialled⟩) rfl hh (hnew host h hh) hrefused
        exact hplaced.congr rfl rfl rfl

/-- Running a job that is new to all hosts leaves no trace where it is refused. -/
theorem noTrace_runJob (hnew : ∀ x h, p.cluster.host? x = some h → h.NewId (p.ids p.issued))
    (hrun : p.perform (runJob select limits app new interactive) = (.error refusal, p')) : p.cluster.NoTrace p'.cluster := by
  rw [ControlPlane.perform, runJob] at hrun
  split at hrun
  · cases hrun
    exact .of_host? fun _ => rfl
  · rw [Plan.run_call] at hrun
    simp only [ControlPlane.answer] at hrun
    split at hrun
    · cases hrun
      exact .of_host? fun _ => rfl
    · rw [Plan.run_call] at hrun
      simp only [ControlPlane.answer] at hrun
      split at hrun
      · cases hrun
        exact .of_host? fun _ => rfl
      · split at hrun
        · cases hrun
          exact .of_host? fun _ => rfl
        · exact noTrace_place (p := { p with issued := p.issued + 1 }) hnew hrun

end Run

/-- What is left of a submission or a run that fails, on a cluster on one machine.
1. A submission that names an unknown host fails, and the cluster is as before.
2. Where a job is submitted alone to a host and fails, at once or when its process was held up and then hindered from outside, either the
   host knew a job of that ID, and the cluster is as before. Or the job's process did not start; then the host knows the jobs from before,
   the attaches that waited for the job are told why, and nothing else has changed.
3. A run that is refused, whatever it runs, however its process is started and for whatever reason it is not, and however long the run may
   wait, leaves on every host the jobs that were known, as they were described, and the attaches that waited, if the job's ID is new. Where
   the cluster was at rest, so that nothing happened but what the run asked, every host is as it was, but for one attach at most that was
   made and given up. -/
theorem failed_run_leaves_no_trace (p : ControlPlane LocalCluster) :
    (∀ batches host specs, (host, specs) ∈ batches → p.cluster.host? host = none →
      ∃ x ∈ batches.map (·.1), p.cluster.host? x = none ∧ p.cluster.addJobs batches = (.error (.hostNotFound x), p.cluster)) ∧
    (∀ host h spec e c', p.cluster.host? host = some h →
      (p.cluster.addJobs [(host, [spec])] = (.error e, c') ∨
        (∀ held ∈ p.cluster.held, held.spec.id ≠ spec.id) ∧ ∃ c₁ hinder,
          p.cluster.addJobsHeld [(host, [spec])] = (none, c₁) ∧ c₁.release spec.id hinder = some (.error e, c')) →
      (∀ j, h.job? spec.id = some j →
        e = .unavailable ("job " ++ spec.id ++ " already exists on host " ++ h.id) ∧ c' = p.cluster) ∧
      (h.job? spec.id = none → ∃ reason h', e = .unavailable ("failed to start job " ++ spec.id ++ ": " ++ reason) ∧
        c' = p.cluster.setHost h' ∧ h'.id = h.id ∧ h'.jobs = h.jobs ∧ ∀ i : Nat, h'.attaches[i]? = (h.attaches[i]?).map fun a =>
          if a.isPendingFor spec.id then a.giveUp (.refused ("job failed to start: " ++ reason)) else a)) ∧
    ∀ select limits app new interactive refusal p',
      (∀ x h, p.cluster.host? x = some h → h.NewId (p.ids p.issued)) →
      p.perform (runJob select limits app new interactive) = (.error refusal, p') →
      p.cluster.SameTables p'.cluster ∧
      (p.cluster.AtRest → (∀ x h, p.cluster.host? x = some h → h.OwnersKnown) →
        ∀ x, Option.Rel LocalHost.AsBefore (p.cluster.host? x) (p'.cluster.host? x)) := by
  refine ⟨fun batches host specs => LocalCluster.addJobs_unknownHost, fun host h spec e c' hh hadd => ?_, ?_⟩
  · obtain ⟨hinder, hone⟩ : ∃ hinder, p.cluster.addOne host spec hinder = (.error e, c') := by
      rcases hadd with hadd | ⟨hnew, c₁, hinder, hheld, hreleased⟩
      · exact ⟨none, (LocalCluster.addJobs_single _ _ _).symm.trans hadd⟩
      · rw [LocalCluster.release_single hheld hnew] at hreleased
        exact ⟨hinder, Option.some.inj hreleased⟩
    cases LocalCluster.notAdded_of_addOne hone with
    | unknownHost hunknown =>
      rw [hunknown] at hh
      cases hh
    | known g j hg hj =>
      rw [hh] at hg
      cases hg
      exact ⟨fun _ _ => ⟨rfl, rfl⟩, fun hnone => by simp [hj] at hnone⟩
    | notStarted g reason hg hj =>
      rw [hh] at hg
      cases hg
      exact ⟨fun j hknown => by simp [hj] at hknown,
        fun _ => ⟨reason, h.tellFailed spec.id reason, rfl, rfl, rfl, rfl, LocalHost.tellFailed_attaches h spec.id reason⟩⟩
  · intro select limits app new interactive refusal p' hnew hrun
    obtain ⟨htables, hhosts⟩ := Run.noTrace_runJob hnew hrun
    exact ⟨htables, hhosts⟩

/-- An interactive run of a job without a command, which does not start: the host keeps the other job that starts there, and the attach that
waits for it. -/
theorem failed_run_leaves_no_trace_of_no_command :
    ∃ (p p' : ControlPlane LocalCluster) (h : LocalHost), p.cluster.hosts = [h] ∧ (h.job? "k").isSome ∧ h.pendingFor "k" = [0] ∧
      p.perform (runJob Selector.leastLoaded {} {} { releaseId := "r" } true) =
        (.error (.transport .schedule "host unavailable: failed to start job j: job has no command to run"), p') ∧
      p.cluster.SameTables p'.cluster ∧ Option.Rel LocalHost.AsBefore (p.cluster.host? "h") (p'.cluster.host? "h") := by
  obtain ⟨p, h, hhosts, hworkers, hjob, hwaits, hnew, howners, hrest, hrefused⟩ : ∃ (p : ControlPlane LocalCluster) (h : LocalHost),
      p.cluster.hosts = [h] ∧ p.cluster.workers = [] ∧ (h.job? "k").isSome ∧ h.pendingFor "k" = [0] ∧ h.NewId (p.ids p.issued) ∧
        h.OwnersKnown ∧ (∀ m ∈ h.ownMoves, h.step m = none) ∧
        (match (p.perform (runJob Selector.leastLoaded {} {} { releaseId := "r" } true)).1 with
          | .error refusal => refusal
          | .ok _ => .noHosts) = .transport .schedule "host unavailable: failed to start job j: job has no command to run" := by
    refine ⟨{
      cluster := { hosts := [{ id := "h", jobs := [{ spec := { id := "k" } }], attaches := #[{ request := { job := "k", flags := {} } }] }] }
      catalog := { releases := [{ id := "r", artifactId := "a" }], artifacts := [{ id := "a", uri := "docker:///app:1" }] }
      api := { select := Selector.leastLoaded }
      ids := fun _ => "j" }, _, rfl, rfl, by decide, by decide, ⟨by decide, by decide⟩, ?_, by decide, by decide +kernel⟩
    simp [LocalHost.OwnersKnown]
  have honly {g : LocalHost} (hg : g ∈ p.cluster.hosts) : g = h := by
    rw [hhosts] at hg
    exact List.mem_singleton.mp hg
  have hfound {x : String} {g : LocalHost} (hg : p.cluster.host? x = some g) : g = h := honly (List.mem_of_find?_eq_some hg)
  have hatRest : p.cluster.AtRest :=
    ⟨fun g hg => by rwa [honly hg], fun q hq => by simp [hworkers] at hq⟩
  rcases hrun : p.perform (runJob Selector.leastLoaded {} {} { releaseId := "r" } true) with ⟨refusal | d, p'⟩
  · obtain ⟨htables, hbefore⟩ := (failed_run_leaves_no_trace p).2.2 Selector.leastLoaded {} {} { releaseId := "r" } true refusal p'
      (fun x g hg => hfound hg ▸ hnew) hrun
    rw [hrun] at hrefused
    exact ⟨p, p', h, hhosts, hjob, hwaits, by rw [hrun, ← hrefused], htables, hbefore hatRest (fun x g hg => hfound hg ▸ howners) "h"⟩
  · rw [hrun] at hrefused
    cases hrefused

end JobPlane
