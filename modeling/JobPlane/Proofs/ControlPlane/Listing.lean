import JobPlane.Proofs.ControlPlane.Addressing
import JobPlane.Proofs.ControlPlane.Scheduling
import Mathlib.Data.List.Perm.Basic

/-!
# The jobs that are listed

Whatever runs are carried out side by side on a cluster on one machine, the list of the jobs of an app is that of all jobs on the hosts that
have not exited, each once, and under their IDs the jobs are reached. A run that nobody is attached to comes to what the list then tells of
its job (`listed_jobs_are_addressed`).
-/

namespace JobPlane

open LocalCluster Scheduling

/-- What there is to tell of the jobs of an app that have not exited, host by host. -/
def LocalCluster.summaries (c : LocalCluster) (app : String) : List JobSummary :=
  c.hosts.flatMap fun h => (h.jobs.filter fun j => !j.state.isExited && j.spec.appId == app).map fun j => j.spec.summary h.id

section

variable {p : ControlPlane LocalCluster} {app : String}

/-- What is told is what there is to tell of some job that has not exited. -/
theorem mem_summaries {c : LocalCluster} {summary : JobSummary} :
    summary ∈ c.summaries app ↔
      ∃ h ∈ c.hosts, ∃ j ∈ h.jobs, j.state.isExited = false ∧ j.spec.appId = app ∧ j.spec.summary h.id = summary := by
  simp [summaries, and_assoc]

/-- The jobs of an app are listed without anything else being done: those that have not exited, each once. -/
theorem perform_listJobs (p : ControlPlane LocalCluster) (app : String) :
    ∃ list, p.perform (listJobs app) = (.ok list, p) ∧ list.Perm (p.cluster.summaries app) := by
  refine ⟨p.cluster.snapshot.jobsOf app, rfl, ?_⟩
  simp only [snapshot, Snapshot.jobsOf, List.flatMap_map, summaries]
  refine List.Perm.flatMap_left _ fun h _ => ?_
  have hsorted := List.mergeSort_perm ((h.jobs.filter fun j => !j.state.isExited).map (·.spec)) fun a b => decide (a.id ≤ b.id)
  refine ((hsorted.filter (·.appId == app)).map (·.summary h.id)).trans (.of_eq ?_)
  simp [List.filter_map, List.filter_filter, Function.comp_def, Bool.and_comm]

/-- On a named cluster, no two jobs are listed under one ID. -/
theorem nodup_summaries (hn : p.cluster.Named) (app : String) : ((p.cluster.summaries app).map (·.id)).Nodup := by
  rw [summaries, List.map_flatMap, List.nodup_flatMap]
  constructor
  · intro h hmem
    have hdistinct : (h.jobs.map fun j => (JobId.mk h.id j.spec.id).display).Nodup :=
      List.Nodup.map_on (fun j hj k hk hsame => (eq_of_display_eq hn hmem hk hmem hj hsame).2) (List.Nodup.of_map _ (hn.jobs h hmem))
    rw [List.map_map]
    exact hdistinct.sublist (List.filter_sublist.map _)
  · refine (List.Nodup.of_map _ hn.hosts).imp_of_mem fun {g h} hg hh hne id hgid hhid => hne ?_
    simp only [List.mem_map, List.mem_filter] at hgid hhid
    obtain ⟨_, ⟨j, ⟨hj, -⟩, rfl⟩, rfl⟩ := hgid
    obtain ⟨_, ⟨k, ⟨hk, -⟩, rfl⟩, hsame⟩ := hhid
    exact (eq_of_display_eq hn hg hj hh hk hsame).1.symm

end

/-- A run that is not interactive and succeeds comes to what there is to tell of its job, which is on the host it was submitted to. -/
theorem Errand.Sound.scheduled {e : Errand} {c : LocalCluster} (hs : e.Sound c) (hplain : e.interactive = false) {d : Dispatched}
    (hsucceeded : e.outcome? = some d) :
    ∃ h ∈ c.hosts, ∃ j ∈ h.jobs, d = .scheduled (j.spec.summary h.id) ∧ j.spec.appId = e.app.id ∧
      ∃ job, ⟨.addJobs [(h.id, [job])], .ok ()⟩ ∈ e.history ∧ j.spec.RunsAs job := by
  have hcourse := hs.course [] (.ok d) (Errand.outcome?_eq_some.mp hsucceeded ▸ .done _)
  rw [hplain, List.append_nil] at hcourse
  obtain ⟨x, fresh, image, env, hsubmitted, rfl⟩ := hcourse.scheduled
  obtain ⟨spec, hruns, hentry⟩ := hs.started x _ hsubmitted
  obtain ⟨h, hh, hnoted⟩ := Option.bind_eq_some_iff.mp hentry
  obtain ⟨j, hj, hsame⟩ := Option.map_eq_some_iff.mp hnoted
  obtain rfl : j.spec = spec := congrArg Prod.fst hsame
  obtain rfl : h.id = x := host?_id hh
  refine ⟨h, List.mem_of_find?_eq_some hh, j, List.mem_of_find?_eq_some hj, ?_, ?_, _, hsubmitted, hruns⟩
  · obtain ⟨env', hspec⟩ := hruns
    rw [hspec]
    rfl
  · obtain ⟨env', hspec⟩ := hruns
    rw [hspec]
    rfl

/-- What the IDs of jobs are and what they are good for, in every state that a control plane over hosts of its own comes to when it carries
out runs side by side and jobs are accepted, start, write and exit at any time.
1. A text spells the ID of a job exactly where it is the ID of a host, not empty and without a hyphen, a hyphen and an ID that is not empty,
   and it is read back as it is written.
2. The list of an app's jobs has one summary for each job of the app on any host that has not exited, and no other. All IDs on it differ.
3. The ID in the summary of a job spells the ID of the host that has the job and the job's own on that host, no other job has it, and to
   stop a job or to open a log under it reaches that job.
4. A run that is not interactive and succeeds comes to a summary. A host has its job, as the run described it, and while that job has not
   exited the list of the app's jobs has this summary, and nothing else under its ID. -/
theorem listed_jobs_are_addressed {runtime : Runtime} {sandbox : Sandbox} {hosts : List String} {plane : ControlPlane LocalCluster}
    {events : List Event} {s : Scheduling}
    (hhosts : ({ runtime, sandbox } : LocalCluster).addHosts hosts = (plane.cluster, .ok ())) (hids : ∀ n, plane.ids n ≠ "")
    (hrun : follow Scheduling.step { plane } events = some s) :
    (∀ text id, JobId.parse text = some id ↔ text = id.display ∧ id.host ≠ "" ∧ '-' ∉ id.host.toList ∧ id.job ≠ "") ∧
    (∀ app, ∃ list, s.plane.perform (listJobs app) = (.ok list, s.plane) ∧ list.Perm (s.plane.cluster.summaries app) ∧
      (list.map (·.id)).Nodup) ∧
    (∀ h ∈ s.plane.cluster.hosts, ∀ j ∈ h.jobs, Addresses s.plane (j.spec.summary h.id).id h j) ∧
    ∀ e ∈ s.errands, e.interactive = false → ∀ d, e.outcome? = some d →
      ∃ h ∈ s.plane.cluster.hosts, ∃ j ∈ h.jobs, d = .scheduled (j.spec.summary h.id) ∧
        (∃ job, ⟨.addJobs [(h.id, [job])], .ok ()⟩ ∈ e.history ∧ j.spec.RunsAs job) ∧
        (j.state.isExited = false → ∀ list, s.plane.perform (listJobs e.app.id) = (.ok list, s.plane) →
          j.spec.summary h.id ∈ list ∧ ∀ l ∈ list, l.id = (j.spec.summary h.id).id → l = j.spec.summary h.id) := by
  have hs := (sound_of_addHosts hhosts hids).follow hrun
  have hnew : s.plane.cluster.dialled ∉ s.plane.cluster.closed := fun hclosed => Nat.lt_irrefl _ (hs.connected _ hclosed)
  refine ⟨fun text id => JobId.parse_eq_some_iff, fun app => ?_, fun h hmem j hj => addresses_of_named hs.named hnew hmem hj,
    fun e he hplain d hsucceeded => ?_⟩
  · obtain ⟨list, hlisted, hperm⟩ := perform_listJobs s.plane app
    exact ⟨list, hlisted, hperm, (hperm.map _).nodup_iff.mpr (nodup_summaries hs.named app)⟩
  · obtain ⟨i, hi⟩ := List.getElem?_of_mem he
    obtain ⟨h, hmem, j, hj, hd, happ, hjob⟩ := (hs.errands i e hi).scheduled hplain hsucceeded
    refine ⟨h, hmem, j, hj, hd, hjob, fun hruns list hlisted => ?_⟩
    obtain ⟨list', hlisted', hperm⟩ := perform_listJobs s.plane e.app.id
    rw [hlisted'] at hlisted
    cases hlisted
    refine ⟨hperm.mem_iff.mpr (mem_summaries.mpr ⟨h, hmem, j, hj, hruns, happ, rfl⟩), fun l hl hsame => ?_⟩
    obtain ⟨g, hg, k, hk, -, -, rfl⟩ := mem_summaries.mp (hperm.mem_iff.mp hl)
    obtain ⟨rfl, rfl⟩ := eq_of_display_eq hs.named hmem hj hg hk hsame
    rfl

/-- Two runs on two hosts ask their questions in turn. Both jobs are accepted before either starts, and the first one then exits: the list
has what the second run came to, and nothing else, and under its ID the second job is reached. -/
theorem listed_jobs_are_addressed_of_two_runs :
    let plane : ControlPlane LocalCluster := {
      cluster := { hosts := [{ id := "g" }, { id := "h" }] }
      catalog := { releases := [{ id := "r", artifactId := "a" }], artifacts := [{ id := "a", uri := "docker:///app:1" }] }
      api := { select := Selector.leastLoaded }
      ids := fun n => String.ofList (List.replicate (n + 1) 'j') }
    let run : Event := .run Selector.leastLoaded {} { id := "app" } { releaseId := "r", cmd := ["job"] } false
    let lookups : List Event := [.ask 0, .ask 1, .ask 0, .ask 1, .ask 0, .ask 1]
    let events := [run, run] ++ lookups ++ [.ask 0, .submit 0, .ask 1, .submit 1, .start 1 none, .start 0 none, .exit "g" "j" none]
    let summary : JobSummary := { id := "h-jj", releaseId := "r", cmd := some ["job"] }
    ∃ s, follow Scheduling.step { plane } events = some s ∧ (∃ e, s.errands[1]? = some e ∧ e.outcome? = some (.scheduled summary)) ∧
      s.plane.perform (listJobs "app") = (.ok [summary], s.plane) ∧
      ∃ h ∈ s.plane.cluster.hosts, ∃ j ∈ h.jobs, Addresses s.plane "h-jj" h j ∧ h.id = "h" ∧ j.spec.id = "jj" := by
  intro plane run lookups events summary
  have hhosts : ({} : LocalCluster).addHosts ["g", "h"] = (plane.cluster, .ok ()) := by rfl
  have hids (n : Nat) : plane.ids n ≠ "" := fun hempty => by simpa [plane] using congrArg String.toList hempty
  obtain ⟨s, hrun, hsummaries, houtcome⟩ : ∃ s ∈ follow Scheduling.step { plane } events,
      s.plane.cluster.summaries "app" = [summary] ∧ ∃ e ∈ s.errands[1]?, e.outcome? = some (.scheduled summary) := by
    decide +kernel
  obtain ⟨-, hlists, haddresses, -⟩ := listed_jobs_are_addressed hhosts hids hrun
  refine ⟨s, hrun, houtcome, ?_, ?_⟩
  · obtain ⟨list, hlisted, hperm, -⟩ := hlists "app"
    rw [hsummaries, List.perm_singleton] at hperm
    rwa [hperm] at hlisted
  · have hmem : summary ∈ s.plane.cluster.summaries "app" := by simp [hsummaries]
    obtain ⟨h, hh, j, hj, -, -, hsame⟩ := mem_summaries.mp hmem
    have hreached : Addresses s.plane "h-jj" h j := by simpa [hsame, summary] using haddresses h hh j hj
    have hparsed : JobId.parse "h-jj" = some ⟨"h", "jj"⟩ := by decide
    have hid : (⟨h.id, j.spec.id⟩ : JobId) = ⟨"h", "jj"⟩ := Option.some.inj (hreached.parses.symm.trans hparsed)
    exact ⟨h, hh, j, hj, hreached, congrArg JobId.host hid, congrArg JobId.job hid⟩

end JobPlane
