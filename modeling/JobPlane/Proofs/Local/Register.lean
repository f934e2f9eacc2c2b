import JobPlane.Proofs.Local.Lifecycle
import JobPlane.Proofs.Local.Work

/-!
# What is registered under the IDs of jobs

A host has registered each of its jobs under the job's ID: how the job was described, and whether its process has not started yet
(`LocalHost.registered?`). Only what belongs to a submission changes a register: that a host accepts a job, and that the job's process
starts or does not (`LocalCluster.Registers`). All else that is done with a cluster, and what goes on in it by itself, leaves the registers
of all hosts as they are (`LocalCluster.Undisturbed`).
-/

namespace JobPlane

namespace LocalHost

variable {h h' : LocalHost} {m : Move} {x : String}

/-- What is registered under the ID of a job: how the job was described, and whether its process has not started yet. -/
def registered? (h : LocalHost) (id : String) : Option (JobSpec × Bool) := (h.job? id).map fun j => (j.spec, decide (j.state = .starting))

/-- Whether a move is one of a submission: a host accepts a job, or the job's process starts or does not. -/
def Move.enters : Move → Bool
  | .submit _ | .spawned _ _ | .spawnFailed _ _ => true
  | _ => false

/-- A move that leaves the tables of a host as they are is none of a submission. -/
theorem Move.enters_of_keepsTables (hk : m.keepsTables = true) : m.enters = false := by
  cases m <;> first | rfl | cases hk

/-- Where one job is changed, the register stays if the job goes on as it was described, and starts or does not as before. -/
theorem registered?_mapJob {f : LocalJob → LocalJob} (hid : ∀ j, j.spec.id = x → (f j).spec.id = x)
    (hf : ∀ j, h.job? x = some j → (f j).spec = j.spec ∧ ((f j).state = .starting ↔ j.state = .starting)) (id : String) :
    (h.mapJob x f).registered? id = h.registered? id := by
  rw [registered?, registered?, job?_mapJob_of_id h x id hid, Option.map_map]
  refine Option.map_congr fun j hj => ?_
  by_cases hx : id = x
  · subst hx
    obtain ⟨hspec, hstarting⟩ := hf j hj
    simp [hspec, hstarting]
  · simp [hx]

/-- A move that is none of a submission leaves the register as it is. -/
theorem registered?_step (hm : h.step m = some h') (hquiet : m.enters = false) (id : String) : h'.registered? id = h.registered? id := by
  have hmapped {x : String} {f : LocalJob → LocalJob} (hspec : ∀ j, (f j).spec = j.spec)
      (hstate : ∀ j, h.job? x = some j → ((f j).state = .starting ↔ j.state = .starting)) :
      (h.mapJob x f).registered? id = h.registered? id :=
    registered?_mapJob (fun j hj => by rw [hspec, hj]) (fun j hj => ⟨hspec j, hstate j hj⟩) id
  cases step_moved hm with
  | submitted | spawned | spawnFailed => cases hquiet
  | stopped | emitted | outputClosed => exact hmapped (fun _ => rfl) fun _ _ => Iff.rfl
  | exited x code j hj hrun =>
    refine hmapped (fun _ => rfl) fun k hk => ?_
    rw [hj] at hk
    cases hk
    simp [hrun]
  | carried x _ _ _ _ f _ hf => exact hmapped (x := x) (f := f) (fun j => (hf j).1) fun j _ => by rw [(hf j).2.1]
  | attached | detached | leftAlone | served | parted | client => rfl

/-- What goes on at a host leaves its register as it is, and keeps the IDs of its jobs apart. -/
theorem Works.registered? (hw : h.Works h') : (h.DistinctJobs → h'.DistinctJobs) ∧ ∀ id, h'.registered? id = h.registered? id := by
  induction hw with
  | refl => exact ⟨fun hd => hd, fun _ => rfl⟩
  | @tail g _ _ hstep ih =>
    cases hstep with
    | moved m h' hk hm =>
      exact ⟨fun hd => (ih.1 hd).step hm, fun id => (registered?_step hm (Move.enters_of_keepsTables hk) id).trans (ih.2 id)⟩
    | read id j j' hj hspec hstate =>
      have hj' : j.spec.id = id := by simpa using List.find?_some hj
      have hid : ∀ k : LocalJob, k.spec.id = id → j'.spec.id = id := fun _ _ => by rw [hspec, hj']
      refine ⟨fun hd => ?_, fun x => (registered?_mapJob hid (fun k hk => ?_) x).trans (ih.2 x)⟩
      · rw [DistinctJobs, ids_mapJob id hid]
        exact ih.1 hd
      · rw [hj] at hk
        cases hk
        exact ⟨hspec, by rw [hstate]⟩

/-- A job that a host accepts is registered as one whose process has not started. -/
theorem registered?_accepted {spec : JobSpec} (hnew : h.job? spec.id = none) (id : String) :
    (h.accepted spec).registered? id = if id = spec.id then some (h.sized spec, true) else h.registered? id := by
  rw [registered?, accepted, job?_submitted]
  by_cases hid : id = spec.id
  · subst hid
    simp [hnew]
  · simp [hid, registered?]

/-- A job whose process starts is registered as one whose process has started. -/
theorem registered?_spawned {hasInput : Bool} {spec : JobSpec} (hentry : h.registered? x = some (spec, true)) (id : String) :
    (h.spawned x hasInput).registered? id = if id = x then some (spec, false) else h.registered? id := by
  obtain ⟨j, hj, hsame⟩ := Option.map_eq_some_iff.mp hentry
  simp only [Prod.mk.injEq, decide_eq_true_eq] at hsame
  obtain ⟨rfl, hstarting⟩ := hsame
  have hcan : h.isStarting x = true := by simp [isStarting, hj, hstarting]
  have hmoved := moved_spawned hcan hasInput
  generalize h.spawned x hasInput = h' at hmoved
  cases hmoved with
  | spawned _ _ k f _ _ hf =>
    rw [registered?, job?_mapPending, job?_mapJob h x id fun j => (hf j).1, Option.map_map]
    by_cases hid : id = x
    · subst hid
      simp [hj, hf j]
    · simp [hid, registered?, Function.comp_def]

/-- A job whose process does not start is registered no longer. -/
theorem registered?_spawnFailed (h : LocalHost) (x reason id : String) :
    (h.spawnFailed x reason).registered? id = if id = x then none else h.registered? id := by
  rw [registered?, job?_spawnFailed]
  split
  · rfl
  · rfl

end LocalHost

namespace LocalCluster

open LocalHost

variable {c c' c₁ : LocalCluster} {h h' : LocalHost} {x : String} {spec : JobSpec}

/-- What is registered on a host under the ID of a job. -/
def registered? (c : LocalCluster) (x id : String) : Option (JobSpec × Bool) := (c.host? x).bind (·.registered? id)

/-- The registers where a host was put in its place. -/
theorem registered?_setHost (hh : c.host? x = some h) (hid : h'.id = h.id) (y id : String) :
    (c.setHost h').registered? y id = if y = x then h'.registered? id else c.registered? y id := by
  rw [registered?, host?_setHost hh hid]
  split
  · rfl
  · rfl

/-! ## Named clusters -/

/-- The hosts of a cluster can be told apart, and so can the jobs of each host; the names of hosts are IDs of hosts, and no job has an empty
ID. -/
structure Named (c : LocalCluster) : Prop where
  hosts : (c.hosts.map (·.id)).Nodup
  valid : ∀ x ∈ c.hosts.map (·.id), isHostId x = true
  jobs : ∀ h ∈ c.hosts, h.DistinctJobs
  nonempty : ∀ x, c.registered? x "" = none

/-- Hosts that can be told apart are known by their IDs. -/
theorem host?_of_mem (hd : (c.hosts.map (·.id)).Nodup) (hmem : h ∈ c.hosts) : c.host? h.id = some h := by
  cases hfound : c.host? h.id with
  | none => exact absurd (List.find?_eq_none.mp hfound h hmem) (by simp)
  | some g => rw [List.inj_on_of_nodup_map hd (List.mem_of_find?_eq_some hfound) hmem (host?_id hfound)]

namespace Named

/-- Jobs are known by their IDs on hosts that are known by theirs. -/
theorem job (hn : c.Named) (hmem : h ∈ c.hosts) {j : LocalJob} (hj : j ∈ h.jobs) :
    c.host? h.id = some h ∧ h.job? j.spec.id = some j :=
  ⟨host?_of_mem hn.hosts hmem, (job?_eq_some_iff (hn.jobs h hmem)).mpr ⟨hj, rfl⟩⟩

/-- A host has an ID of a host, and a job an ID that is not empty. -/
theorem ids (hn : c.Named) (hmem : h ∈ c.hosts) {j : LocalJob} (hj : j ∈ h.jobs) : isHostId h.id = true ∧ j.spec.id ≠ "" := by
  refine ⟨hn.valid h.id (List.mem_map_of_mem hmem), fun hempty => ?_⟩
  obtain ⟨hh, hjob⟩ := hn.job hmem hj
  have hnone := hn.nonempty h.id
  rw [registered?, hh, Option.bind_some, LocalHost.registered?, ← hempty, hjob] at hnone
  cases hnone

end Named

/-- A cluster whose hosts can be told apart, and to which nothing was submitted. -/
structure Bare (c : LocalCluster) : Prop where
  hosts : (c.hosts.map (·.id)).Nodup
  valid : ∀ x ∈ c.hosts.map (·.id), isHostId x = true
  jobs : ∀ h ∈ c.hosts, h.jobs = []
  closed : c.closed = []

namespace Bare

/-- A host that is added is told apart from the others. -/
theorem addHost (hb : c.Bare) (ha : c.addHost x = .ok c') : c'.Bare := by
  unfold LocalCluster.addHost at ha
  split at ha
  · cases ha
  · rename_i hvalid
    split at ha
    · cases ha
    · rename_i hnew
      cases ha
      have hfresh : x ∉ c.hosts.map (·.id) := by simpa [host?] using hnew
      refine ⟨?_, ?_, ?_, hb.closed⟩
      · simpa [List.nodup_append] using ⟨hb.hosts, by simpa using hfresh⟩
      · simpa [or_imp, forall_and] using ⟨by simpa using hb.valid, by simpa using hvalid⟩
      · simpa [or_imp, forall_and] using hb.jobs

/-- Hosts that are added are told apart. -/
theorem addHosts (hb : c.Bare) (xs : List String) : (c.addHosts xs).1.Bare := by
  induction xs generalizing c with
  | nil => exact hb
  | cons x xs ih =>
    unfold LocalCluster.addHosts
    split
    · exact ih (hb.addHost ‹_›)
    · exact hb

/-- Where nothing was submitted, no job has an empty ID. -/
theorem named (hb : c.Bare) : c.Named where
  hosts := hb.hosts
  valid := hb.valid
  jobs h hmem := by simp [DistinctJobs, hb.jobs h hmem]
  nonempty x := by
    rw [registered?]
    cases hh : c.host? x with
    | none => rfl
    | some h => simp [LocalHost.registered?, job?, hb.jobs h (List.mem_of_find?_eq_some hh)]

end Bare

/-- A cluster comes after another whose hosts have kept their IDs, and go on to tell their jobs apart. -/
structure KeepsIds (c c' : LocalCluster) : Prop where
  ids : c'.hosts.map (·.id) = c.hosts.map (·.id)
  jobs : ∀ x, Option.Rel (fun h h' => h.DistinctJobs → h'.DistinctJobs) (c.host? x) (c'.host? x)

namespace KeepsIds

/-- A host is put in its place that has kept its ID, and goes on to tell its jobs apart. -/
theorem setHost (hh : c.host? x = some h) (hid : h'.id = h.id) (hd : h.DistinctJobs → h'.DistinctJobs) : c.KeepsIds (c.setHost h') where
  ids := ids_setHost c h'
  jobs y := by
    rw [host?_setHost hh hid]
    split
    · rename_i hy
      rw [hy, hh]
      exact .some hd
    · exact optionRel_refl (fun _ hd => hd) _

/-- Names stay names where no job has got an empty ID. -/
theorem named (hk : c.KeepsIds c') (hn : c.Named) (hempty : ∀ x, c'.registered? x "" = none) : c'.Named where
  hosts := by
    rw [hk.ids]
    exact hn.hosts
  valid := by
    rw [hk.ids]
    exact hn.valid
  jobs h' hmem := by
    have hrel := hk.jobs h'.id
    rw [host?_of_mem (by rw [hk.ids]; exact hn.hosts) hmem] at hrel
    generalize hbefore : c.host? h'.id = before at hrel
    cases hrel with
    | some hd => exact hd (hn.jobs _ (List.mem_of_find?_eq_some hbefore))
  nonempty := hempty

end KeepsIds

/-! ## Registers -/

/-- What is done with a cluster that leaves the registers of its hosts as they are. -/
structure Undisturbed (c c' : LocalCluster) : Prop extends KeepsIds c c' where
  entries : ∀ x id, c'.registered? x id = c.registered? x id

namespace Undisturbed

/-- The hosts are the same. -/
theorem of_hosts (hh : c'.hosts = c.hosts) : c.Undisturbed c' := by
  have hhost (x : String) : c'.host? x = c.host? x := by
    rw [host?, hh]
    rfl
  refine ⟨⟨by rw [hh], fun x => ?_⟩, fun x id => ?_⟩
  · rw [hhost]
    exact optionRel_refl (fun _ hd => hd) _
  · rw [registered?, hhost, registered?]

theorem trans (ha : c.Undisturbed c₁) (hb : c₁.Undisturbed c') : c.Undisturbed c' where
  ids := hb.ids.trans ha.ids
  jobs x := optionRel_trans (fun hab hbc hd => hbc (hab hd)) (ha.jobs x) (hb.jobs x)
  entries x id := (hb.entries x id).trans (ha.entries x id)

/-- A host makes a move that is none of a submission. -/
theorem step {m : Move} (hh : c.host? x = some h) (hm : h.step m = some h') (hquiet : m.enters = false) :
    c.Undisturbed (c.setHost h') := by
  refine ⟨.setHost hh (step_id hm) fun hd => hd.step hm, fun y id => ?_⟩
  rw [registered?_setHost hh (step_id hm)]
  split
  · rename_i hy
    rw [registered?_step hm hquiet, hy, registered?, hh, Option.bind_some]
  · rfl

/-- What goes on in a cluster by itself. -/
theorem of_works (hw : c.Works c') : c.Undisturbed c' := by
  refine ⟨⟨hw.ids, fun x => optionRel_imp (fun hx => hx.registered?.1) (hw.hosts x)⟩, fun x id => ?_⟩
  have hx := hw.hosts x
  unfold registered?
  generalize c.host? x = o at hx
  generalize c'.host? x = o' at hx
  cases hx with
  | none => rfl
  | some hx => exact hx.registered?.2 id

/-- Names stay names. -/
theorem named (hu : c.Undisturbed c') (hn : c.Named) : c'.Named :=
  hu.toKeepsIds.named hn fun x => (hu.entries x "").trans (hn.nonempty x)

end Undisturbed

/-- What is done with a cluster that changes what is registered on a host under the ID of one job, and nothing else that is registered. -/
structure Registers (c : LocalCluster) (x id : String) (entry : Option (JobSpec × Bool)) (c' : LocalCluster) : Prop
    extends KeepsIds c c' where
  entries : ∀ y k, c'.registered? y k = if y = x ∧ k = id then entry else c.registered? y k
  dialled : c'.dialled = c.dialled
  closed : c'.closed = c.closed

/-- Names stay names where a job is registered under an ID that is not empty. -/
theorem Registers.named {id : String} {entry : Option (JobSpec × Bool)} (hr : c.Registers x id entry c') (hn : c.Named) (hid : id ≠ "") :
    c'.Named := by
  refine hr.toKeepsIds.named hn fun y => ?_
  rw [hr.entries, if_neg fun he => hid he.2.symm]
  exact hn.nonempty y

/-- What is registered as started stays so, where it is not what changes. -/
theorem Registers.started {id : String} {entry : Option (JobSpec × Bool)} (hr : c.Registers x id entry c')
    (hbefore : ∀ spec, c.registered? x id ≠ some (spec, false)) (y k : String) (spec : JobSpec)
    (hentry : c.registered? y k = some (spec, false)) : c'.registered? y k = some (spec, false) := by
  rw [hr.entries, if_neg, hentry]
  rintro ⟨rfl, rfl⟩
  exact hbefore spec hentry

/-- A host makes a move that changes what it has registered of one job. -/
theorem Registers.step {m : Move} {id : String} {entry : Option (JobSpec × Bool)} (hh : c.host? x = some h) (hm : h.step m = some h')
    (hentry : ∀ k, h'.registered? k = if k = id then entry else h.registered? k) (hc : c'.hosts = (c.setHost h').hosts)
    (hd : c'.dialled = c.dialled) (hclosed : c'.closed = c.closed) : c.Registers x id entry c' := by
  have hu := Undisturbed.of_hosts hc
  have hk : c.KeepsIds (c.setHost h') := .setHost hh (step_id hm) fun hd => hd.step hm
  have hjobs (y : String) := optionRel_trans (fun hab hbc hd => hbc (hab hd)) (hk.jobs y) (hu.jobs y)
  refine ⟨⟨hu.ids.trans hk.ids, hjobs⟩, fun y k => ?_, hd, hclosed⟩
  rw [hu.entries, registered?_setHost hh (step_id hm)]
  by_cases hy : y = x
  · rw [if_pos hy, hentry, hy, registered?, hh, Option.bind_some]
    simp
  · simp [hy]

end LocalCluster

/-- A job runs as it was described, but for its environment. -/
def JobSpec.RunsAs (spec job : JobSpec) : Prop := ∃ env, spec = { job with config := { job.config with env } }

/-- A job that is told the size of a terminal runs as it was described. -/
theorem LocalHost.sized_runsAs (h : LocalHost) (spec : JobSpec) : (h.sized spec).RunsAs spec := by
  unfold sized
  split
  · split
    · exact ⟨_, rfl⟩
    · exact ⟨spec.config.env, rfl⟩
  · exact ⟨spec.config.env, rfl⟩

namespace LocalCluster

open LocalHost

variable {c c' : LocalCluster} {x : String} {spec spec' : JobSpec}

/-- To submit a job is to register it under an ID that was free, as one whose process has not started. -/
theorem registers_submit (hs : c.submit x spec = .ok c') :
    c.registered? x spec.id = none ∧ ∃ spec', spec'.RunsAs spec ∧ c.Registers x spec.id (some (spec', true)) c' := by
  unfold submit at hs
  split at hs
  · cases hs
  · rename_i h hh
    cases hj : h.job? spec.id with
    | some j =>
      rw [submit_known hj] at hs
      cases hs
    | none =>
      rw [submit_new hj] at hs
      cases hs
      have hm : h.step (.submit spec) = some (h.accepted spec) := by simp [LocalHost.step, submit_new hj, Except.toOption]
      refine ⟨by simp [registered?, LocalHost.registered?, hh, hj], h.sized spec, h.sized_runsAs spec, ?_⟩
      exact .step hh hm (registered?_accepted hj) rfl rfl rfl

/-- To start the process of a job that was submitted is to register it as one whose process has started, or to forget it. -/
theorem registers_start (hentry : c.registered? x spec.id = some (spec', true)) (hinder : Option String) :
    ((c.start x spec hinder).1 = .ok () ∧ c.Registers x spec.id (some (spec', false)) (c.start x spec hinder).2) ∨
      (∃ e, (c.start x spec hinder).1 = .error e) ∧ c.Registers x spec.id none (c.start x spec hinder).2 := by
  obtain ⟨h, hh, hnoted⟩ := Option.bind_eq_some_iff.mp hentry
  obtain ⟨j, hj, hsame⟩ := Option.map_eq_some_iff.mp hnoted
  simp only [Prod.mk.injEq, decide_eq_true_eq] at hsame
  obtain ⟨rfl, hstarting⟩ := hsame
  have hid : j.spec.id = spec.id := by simpa using List.find?_some hj
  have hcan : h.isStarting spec.id = true := by simp [isStarting, hj, hstarting]
  simp only [start, hh, hj, Option.map_some, Option.getD_some, hid]
  split
  · rename_i e _
    refine Or.inr ⟨⟨_, rfl⟩, .step (m := .spawnFailed spec.id e.message) hh ?_ (h.registered?_spawnFailed spec.id e.message) rfl rfl rfl⟩
    simp [LocalHost.step, hcan]
  · refine Or.inl ⟨rfl, .step (m := .spawned spec.id j.spec.config.attachStdin) hh ?_ (registered?_spawned hnoted) rfl rfl rfl⟩
    simp [LocalHost.step, hcan]

end LocalCluster

end JobPlane
