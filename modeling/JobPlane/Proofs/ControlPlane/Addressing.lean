import JobPlane.Proofs.ControlPlane.Opening
import JobPlane.Proofs.Job.Id
import JobPlane.Proofs.Local.Register
import JobPlane.Proofs.Local.Rest
import JobPlane.Proofs.Plan

/-!
# What is asked of a job under its ID

Under the ID of a job on a cluster on one machine, a control plane stops that job and no other, and opens the log of that job (`Addresses`).
For a job that has not started, the log waits for that job's process, and is refused if it waits in vain. `addresses_of_named` finds this
wherever hosts and jobs can be told apart by their IDs, and a connection that is made is not closed already.
-/

namespace JobPlane

open LocalHost LocalCluster

/-- The attach of a log that is joined to its job's output. -/
def OpenLog.joined (j : JobId) (tail tty : Bool) : Attachment :=
  { request := request j tail, standing := .joined { flags := attachFlags tail, tty } }

/-- A text is the ID of a job on a host, and what is asked of a control plane under this ID reaches that job. -/
structure Addresses (p : ControlPlane LocalCluster) (text : String) (h : LocalHost) (j : LocalJob) : Prop where
  parses : JobId.parse text = some ⟨h.id, j.spec.id⟩
  /-- No other job has this ID. -/
  only : ∀ g ∈ p.cluster.hosts, ∀ k ∈ g.jobs, (JobId.mk g.id k.spec.id).display = text → g = h ∧ k = j
  /-- To stop a job marks this one, unless it has exited, and changes nothing else on the hosts. -/
  stops : j.state.isExited = false → ∃ cluster, p.perform (killJob text) = (.ok (), { p with cluster }) ∧
    cluster.hosts = (p.cluster.setHost (h.mapJob j.spec.id fun j => { j with stopping := true })).hosts
  /-- To open a log adds an attach that is joined to this job's output, if its process has started, and changes nothing else. -/
  opens : j.state ≠ .starting → ∀ ms tail, ∃ s n cluster,
    p.perform (openLog ms text tail) = (.ok ⟨⟨h.id, j.spec.id⟩, s, n⟩, { p with cluster }) ∧
      OneMore p.cluster h.id h (OpenLog.joined ⟨h.id, j.spec.id⟩ tail j.spec.config.tty) s cluster
  /-- If it has not, the attach that is added waits for this job, and the log is there once that is confirmed. Where it is not in time, all
  that waits for this job on its host is given up, and nothing else changes. -/
  waits : j.state = .starting → ∀ ms tail, ∃ s n cluster next,
    Plan.Reaches ControlPlane.answer (openLog ms text tail) p (.ask (.awaitReady s ms) next) { p with cluster } ∧
      OneMore p.cluster h.id h { request := OpenLog.request ⟨h.id, j.spec.id⟩ tail } s cluster ∧
      next .ready = .done (.ok ⟨⟨h.id, j.spec.id⟩, s, n⟩) ∧
      ∃ a cluster, p.perform (openLog ms text tail) = (.error .attachWouldWait, { p with cluster }) ∧ a.standing = .withdrawn ∧
        OneMore (p.cluster.setHost (h.detach j.spec.id)) h.id (h.detach j.spec.id) a s cluster

/-! ## Stopping and opening -/

section

variable {p : ControlPlane LocalCluster} {text : String} {id : JobId} {h : LocalHost} {j : LocalJob} (hid : JobId.parse text = some id)
  (hh : p.cluster.host? id.host = some h) (hj : h.job? id.job = some j) (hnew : p.cluster.dialled ∉ p.cluster.closed)

/-- A control plane whose cluster has made one connection more. -/
def ControlPlane.dialled (p : ControlPlane LocalCluster) : ControlPlane LocalCluster :=
  { p with cluster := { p.cluster with dialled := p.cluster.dialled + 1 } }

/-- The connection that a control plane makes next to a host. -/
def ControlPlane.connection (p : ControlPlane LocalCluster) (host : String) : Connection := { host, serial := p.cluster.dialled }

include hh in
/-- A host that is known is connected to. -/
theorem answer_dial : ControlPlane.answer (.dial id.host) p = (.ok (p.connection id.host), p.dialled) := by
  simp [ControlPlane.answer, ControlPlane.onCluster, Cluster.dial, hh, ControlPlane.dialled, ControlPlane.connection]

include hh hnew in
/-- What is asked of a host over a new connection reaches the host. -/
theorem onHost_dialled {α : Type} (f : LocalHost → Except ClusterError α) : p.dialled.cluster.onHost (p.connection id.host) f = f h := by
  have hhost : p.dialled.cluster.host? id.host = some h := hh
  have hopen : p.cluster.dialled ∉ p.dialled.cluster.closed := hnew
  simp [onHost, ControlPlane.connection, hhost, hopen]

include hid hh hj hnew in
/-- Under the ID of a job that runs, the job is told to stop. -/
theorem reaches_killJob (hruns : j.state.isExited = false) :
    ∃ cluster, Plan.Reaches ControlPlane.answer (killJob text) p (.done (.ok ())) { p with cluster } ∧
      cluster.hosts = (p.cluster.setHost (h.mapJob id.job fun j => { j with stopping := true })).hosts := by
  have hstop : ControlPlane.answer (.stop (p.connection id.host) id.job) p.dialled =
      (.ok (), { p with cluster := p.dialled.cluster.setHost (h.mapJob id.job fun j => { j with stopping := true }) }) := by
    simp only [ControlPlane.answer, ControlPlane.onCluster, Cluster.stop, onHost_dialled hh hnew]
    simp [stop, hj, hruns, ControlPlane.dialled]
  rw [killJob, hid]
  exact ⟨_, .ask (answer_dial hh) (.ask hstop (.ask rfl (.refl _ _))), rfl⟩

include hh hnew in
/-- Where the job's host accepts an attach, there is one attach more. -/
theorem answer_attach {r : AttachRequest} {wait : Bool} {a : Attachment} (ha : h.attach r wait = .ok (h.accept a)) :
    ∃ s k, ControlPlane.answer (.attach (p.connection id.host) r wait) p.dialled = (.ok s, { p with cluster := k }) ∧
      s.pending = decide (a.standing = .pending) ∧ k.closed = p.cluster.closed ∧ OneMore p.cluster id.host h a s k := by
  have hhost : p.dialled.cluster.host? (p.connection id.host).host = some h := hh
  obtain ⟨s, k, hattach, hpending, hclosed, hone⟩ := attach_accepted hhost hnew ha
  refine ⟨s, k, ?_, hpending, hclosed, hh, hone.hosts, hone.workers, hone.session⟩
  simp only [ControlPlane.answer, ControlPlane.onCluster, Cluster.attach, hattach]
  rfl

include hid hh hj hnew in
/-- Under the ID of a job whose process has started, the log opens with an attach that is joined to the job's output. -/
theorem reaches_openLog (hstarted : j.state ≠ .starting) (ms : Nat) (tail : Bool) :
    ∃ s n cluster, Plan.Reaches ControlPlane.answer (openLog ms text tail) p (.done (.ok ⟨id, s, n⟩)) { p with cluster } ∧
      OneMore p.cluster id.host h (OpenLog.joined id tail j.spec.config.tty) s cluster := by
  have haccepts : h.attach (OpenLog.request id tail) false = .ok (h.accept (OpenLog.joined id tail j.spec.config.tty)) := by
    simp [LocalHost.attach, OpenLog.request, OpenLog.joined, hj, hstarted]
  obtain ⟨s, k, hattach, -, -, hone⟩ := answer_attach hh hnew haccepts
  rw [openLog, hid]
  exact ⟨s, _, k, .ask (answer_dial hh) (.ask hattach (.refl _ _)), hone⟩

include hid hh hj hnew in
/-- Under the ID of a job whose process has not started, the log waits with an attach that waits for the job, which is given up if it waits
in vain. -/
theorem reaches_waiting (hstarting : j.state = .starting) (ms : Nat) (tail : Bool) :
    ∃ s n cluster next, Plan.Reaches ControlPlane.answer (openLog ms text tail) p (.ask (.awaitReady s ms) next) { p with cluster } ∧
      OneMore p.cluster id.host h { request := OpenLog.request id tail } s cluster ∧ next .ready = .done (.ok ⟨id, s, n⟩) ∧
      ∃ a cluster, Plan.Reaches ControlPlane.answer (openLog ms text tail) p (.done (.error .attachWouldWait)) { p with cluster } ∧
        a.standing = .withdrawn ∧ OneMore (p.cluster.setHost (h.detach id.job)) id.host (h.detach id.job) a s cluster := by
  let n := p.connection id.host
  let r := OpenLog.request id tail
  have hrefused : ControlPlane.answer (.attach n r false) p.dialled = (.error .attachWouldWait, p.dialled) := by
    simp only [ControlPlane.answer, ControlPlane.onCluster, Cluster.attach, LocalCluster.attach, n, onHost_dialled hh hnew]
    simp [LocalHost.attach, r, OpenLog.request, hj, hstarting, Except.map]
  have haccepts : h.attach r true = .ok (h.accept { request := r }) := by simp [LocalHost.attach, r, OpenLog.request, hj, hstarting]
  obtain ⟨⟨serial, pending, tty⟩, k, hattach, hpending, hclosed, hone⟩ := answer_attach hh hnew haccepts
  obtain rfl : pending = true := hpending
  have hopen : p.cluster.dialled ∉ k.closed := by
    rw [hclosed]
    exact hnew
  -- nothing happens while it waits
  have htimed : ControlPlane.answer (.awaitReady ⟨serial, true, tty⟩ ms) { p with cluster := k } =
      (.timedOut, { p with cluster := k }) := by
    simp [ControlPlane.answer, ControlPlane.onCluster, Cluster.awaitReady, hone.awaited, Standing.awaited]
  have hwaits : Attachment.isPendingFor { request := r } id.job = true := by simp [Attachment.isPendingFor, r, OpenLog.request]
  have hdetach : ControlPlane.answer (.detach n id.job) { p with cluster := k } =
      (.ok (), { p with cluster := k.setHost ((h.detach id.job).withAttach (Attachment.giveUp { request := r } .withdrawn)) }) := by
    simp [ControlPlane.answer, ControlPlane.onCluster, Cluster.detach, onHost, hopen, hone.host?_self, detach_withAttach hwaits, n,
      ControlPlane.connection]
  have hsame : (h.detach id.job).id = h.id := rfl
  have hsize : (h.detach id.job).attaches.size = h.attaches.size := by simp [detach, mapPending]
  have hgiven := hone.replace hsame hsize (Attachment.giveUp { request := r } .withdrawn)
  obtain ⟨gone, hgone, hdropped⟩ := hgiven.drop
  rw [openLog, hid]
  exact ⟨_, n, _, _, .ask (answer_dial hh) (.ask hrefused (.ask hattach (.refl _ _))), hone, rfl, gone, _,
    .ask (answer_dial hh) (.ask hrefused (.ask hattach (.ask htimed (.ask hdetach (.ask rfl (.ask rfl (.refl _ _))))))), hgone,
    hdropped.known, hdropped.hosts, hdropped.workers, hdropped.session⟩

end

/-! ## Jobs under their IDs -/

variable {p : ControlPlane LocalCluster} {h : LocalHost} {j : LocalJob}

/-- The ID of a job on a named cluster is read back as it is written. -/
theorem parse_of_named (hn : p.cluster.Named) (hmem : h ∈ p.cluster.hosts) (hj : j ∈ h.jobs) :
    JobId.parse (JobId.mk h.id j.spec.id).display = some ⟨h.id, j.spec.id⟩ := by
  obtain ⟨hhost, hjob⟩ := hn.ids hmem hj
  simp only [isHostId, Bool.and_eq_true, Bool.not_eq_true', String.isEmpty_eq_false_iff, List.contains_eq_mem, decide_eq_false_iff_not]
    at hhost
  exact JobId.parse_eq_some_iff.mpr ⟨rfl, hhost.1, hhost.2, hjob⟩

/-- On a named cluster, two jobs of one ID are one job. -/
theorem eq_of_display_eq (hn : p.cluster.Named) (hmem : h ∈ p.cluster.hosts) (hj : j ∈ h.jobs) {g : LocalHost} {k : LocalJob}
    (hg : g ∈ p.cluster.hosts) (hk : k ∈ g.jobs) (hsame : (JobId.mk g.id k.spec.id).display = (JobId.mk h.id j.spec.id).display) :
    g = h ∧ k = j := by
  have hparsed := parse_of_named hn hg hk
  rw [hsame, parse_of_named hn hmem hj] at hparsed
  simp only [Option.some.injEq, JobId.mk.injEq] at hparsed
  obtain ⟨hhost, hjob⟩ := hn.job hmem hj
  obtain ⟨hhost', hjob'⟩ := hn.job hg hk
  rw [← hparsed.1, hhost] at hhost'
  cases hhost'
  rw [← hparsed.2, hjob] at hjob'
  cases hjob'
  exact ⟨rfl, rfl⟩

/-- On a named cluster, whose next connection is not closed, what is asked under the ID of a job reaches the job. -/
theorem addresses_of_named (hn : p.cluster.Named) (hnew : p.cluster.dialled ∉ p.cluster.closed) (hmem : h ∈ p.cluster.hosts)
    (hj : j ∈ h.jobs) : Addresses p (JobId.mk h.id j.spec.id).display h j := by
  have hid := parse_of_named hn hmem hj
  obtain ⟨hhost, hjob⟩ := hn.job hmem hj
  exact {
    parses := hid
    only := fun g hg k hk => eq_of_display_eq hn hmem hj hg hk
    stops := fun hruns => by
      obtain ⟨cluster, hreached, hhosts⟩ := reaches_killJob hid hhost hjob hnew hruns
      exact ⟨cluster, hreached.run, hhosts⟩
    opens := fun hstarted ms tail => by
      obtain ⟨s, n, cluster, hreached, hone⟩ := reaches_openLog hid hhost hjob hnew hstarted ms tail
      exact ⟨s, n, cluster, hreached.run, hone⟩
    waits := fun hstarting ms tail => by
      obtain ⟨s, n, cluster, next, hreached, hone, hready, a, after, htimed, hgone, hafter⟩ :=
        reaches_waiting hid hhost hjob hnew hstarting ms tail
      exact ⟨s, n, cluster, next, hreached, hone, hready, a, after, htimed.run, hgone, hafter⟩ }

end JobPlane
