import JobPlane.Proofs.Local.Cluster
import JobPlane.Proofs.Local.Waiting

/-!
# Giving up what waits for a job

Somebody who does not want to wait any longer for an attach names the job, and the host gives up every attach that waits for that job,
whoever asked for it. For all of them waiting is over, also if the job starts afterwards; those that wait for other jobs are not
disturbed (`detach_closes_every_waiting_attach`). `awaited_detach` says the same of sessions.
-/

namespace JobPlane

namespace LocalHost

variable {h h₀ h₁ : LocalHost} {i : Nat} {job : String}

/-- The attaches that wait for a job are given up where they stand, and nothing else changes. -/
theorem detach_attaches (h : LocalHost) (job : String) (i : Nat) :
    (h.detach job).attaches[i]? =
      (h.attaches[i]?).map fun a : Attachment => if a.isPendingFor job then a.giveUp .withdrawn else a := by
  simp [detach, mapPending]

/-- Only the attaches that wait for a job change their standing where they are given up. -/
theorem awaited_giveUp (a : Attachment) (job : String) :
    (if a.isPendingFor job then a.giveUp .withdrawn else a).standing.awaited =
      if a.isPendingFor job then .closed else a.standing.awaited := by
  split <;> rfl

/-- Where the attaches waiting for a job are given up, those that wait for other jobs go on to wait, and no others do. -/
theorem mem_pendingFor_detach {id : String} : i ∈ (h.detach job).pendingFor id ↔ i ∈ h.pendingFor id ∧ id ≠ job := by
  rw [mem_pendingFor, mem_pendingFor, detach_attaches]
  cases h.attaches[i]? with
  | none => simp
  | some a =>
    by_cases hp : a.standing = .pending ∧ a.request.job = job
    · have hgiven : a.isPendingFor job = true := by simpa [Attachment.isPendingFor] using hp
      simp only [Option.map_some, hgiven, if_true, Option.some.injEq, exists_eq_left', Attachment.giveUp, reduceCtorEq, false_and,
        false_iff]
      rintro ⟨⟨-, hid⟩, hother⟩
      exact hother (hid.symm.trans hp.2)
    · have hkept : a.isPendingFor job = false := by simpa [Attachment.isPendingFor] using hp
      simp only [Option.map_some, hkept, Bool.false_eq_true, if_false, Option.some.injEq, exists_eq_left']
      constructor
      · intro hwaits
        refine ⟨hwaits, ?_⟩
        rintro rfl
        exact hp hwaits
      · intro hwaits
        exact hwaits.1

/-- What becomes of the attaches on a host when somebody gives up waiting for a job, in every schedule `post` that follows.
1. No job changes, and no attach that does not wait.
2. Of the attaches that wait, those that wait for this job do not any more, and those that wait for another one still do.
3. Who waits for one of the former finds it given up for good, though the job may start in `post`. Who waits for one of the latter finds
   what the moves of `post` tell those that wait for its job. -/
theorem detach_closes_every_waiting_attach {post : List Move} (hdetach : h₀.step (.detach job) = some h₁)
    (hpost : follow step h₁ post = some h) :
    (h₁.jobs = h₀.jobs ∧ ∀ (i : Nat) (a : Attachment), h₀.attaches[i]? = some a → a.standing ≠ .pending →
      h₁.attaches[i]? = some a) ∧
    (∀ i id, i ∈ h₁.pendingFor id ↔ i ∈ h₀.pendingFor id ∧ id ≠ job) ∧
    ∀ i id, i ∈ h₀.pendingFor id → ∃ a : Attachment, h.attaches[i]? = some a ∧
      a.standing.awaited = if id = job then .closed else (post.findSome? (answer id)).getD .timedOut := by
  obtain rfl : h₀.detach job = h₁ := Option.some.inj hdetach
  refine ⟨⟨rfl, fun i a ha hst => ?_⟩, fun i id => mem_pendingFor_detach, fun i id hi => ?_⟩
  · rw [detach_attaches, ha, Option.map_some, if_neg fun hp => hst (standing_of_isPendingFor hp).1]
  · by_cases hid : id = job
    · -- it is given up, and what it was told stays
      obtain ⟨a, ha, hst, hjob⟩ := mem_pendingFor.mp hi
      have hgiven : (h₀.detach job).attaches[i]? = some (a.giveUp .withdrawn) := by
        rw [detach_attaches, ha, Option.map_some, if_pos (by simp [Attachment.isPendingFor, hst, hjob, hid])]
      obtain ⟨a', ha', -, hawaited⟩ := run_answered hpost hgiven (by simp [Attachment.giveUp])
      exact ⟨a', ha', by rw [if_pos hid, hawaited]; rfl⟩
    · -- it goes on to wait
      obtain ⟨a, ha, hst, hjob⟩ := mem_pendingFor.mp (mem_pendingFor_detach.mpr ⟨hi, hid⟩)
      obtain ⟨a', ha', -, hawaited⟩ := run_pending hpost ha hst
      exact ⟨a', ha', by rw [if_neg hid, hawaited, hjob]⟩

/-- Three attaches wait, two of them for one job, when somebody gives up waiting for that job: the other one of the two is told that it is
given up, though the job then starts, and the third is joined to its own job. -/
theorem detach_closes_every_waiting_attach_of_another :
    let attach (job : String) : Move := .attach { job, flags := { stdout := true, stream := true } } true
    let pre : List Move := [attach "j", .submit { id := "j" }, attach "j", attach "k", .submit { id := "k" }]
    let post : List Move := [.spawned "j" false, .spawned "k" false]
    ∃ h₀ h₁ h, follow step { id := "h" } pre = some h₀ ∧ h₀.step (.detach "j") = some h₁ ∧ follow step h₁ post = some h ∧
      h₀.pendingFor "j" = [0, 1] ∧ h₀.pendingFor "k" = [2] ∧
      ∀ p ∈ [(0, Awaited.closed), (1, .closed), (2, .ready)], ∃ a, h.attaches[p.1]? = some a ∧ a.standing.awaited = p.2 := by
  intro attach pre post
  have hrun : ∃ h₀ ∈ follow step { id := "h" } pre, ∃ h₁ ∈ h₀.step (.detach "j"), ∃ h ∈ follow step h₁ post,
      h₀.pendingFor "j" = [0, 1] ∧ h₀.pendingFor "k" = [2] := by
    decide +kernel
  obtain ⟨h₀, hpre, h₁, hdetach, h, hpost, hj, hk⟩ := hrun
  obtain ⟨-, -, htold⟩ := detach_closes_every_waiting_attach hdetach hpost
  refine ⟨h₀, h₁, h, hpre, hdetach, hpost, hj, hk, ?_⟩
  simp only [List.forall_mem_cons, List.not_mem_nil, false_implies, implies_true, and_true]
  exact ⟨htold 0 "j" (by simp [hj]), htold 1 "j" (by simp [hj]), htold 2 "k" (by simp [hk])⟩

end LocalHost

namespace LocalCluster

variable {c c' : LocalCluster} {n : Connection} {job : String}

/-- To give up waiting for a job over a connection is a move of the connection's host, and touches no session. -/
theorem detach_eq_ok (hd : Cluster.detach n job c = (.ok (), c')) :
    ∃ h, c.host? n.host = some h ∧ c' = c.setHost (h.detach job) := by
  simp only [Cluster.detach] at hd
  split at hd
  · rename_i g hg
    cases hd
    obtain ⟨h, hh, hgiven⟩ := onHost_eq_ok hg
    cases hgiven
    exact ⟨h, hh, rfl⟩
  · cases hd

/-- What those find who wait for sessions, after somebody has given up waiting for a job over a connection: those whose attach waits for
that job on the connection's host find that it was given up, and the others what they would have found before. -/
theorem awaited_detach (hd : Cluster.detach n job c = (.ok (), c')) (s : Session) :
    c'.awaited s =
      if (c.sessions[s.serial]?).any (·.1 = n.host) && (c.attachment? s).any (·.isPendingFor job) then .closed else c.awaited s := by
  obtain ⟨h, hh, rfl⟩ := detach_eq_ok hd
  rw [awaited_eq, awaited_eq]
  cases hs : c.sessions[s.serial]? with
  | none => simp [attachment?, setHost, hs]
  | some p =>
    obtain ⟨x, i⟩ := p
    have hafter : (c.setHost (h.detach job)).host? x = if x = n.host then some (h.detach job) else c.host? x :=
      host?_setHost hh (by rfl) x
    have hattachment : (c.setHost (h.detach job)).attachment? s = ((c.setHost (h.detach job)).host? x).bind (·.attaches[i]?) := by
      simp [attachment?, setHost, hs]
    rw [hattachment, hafter]
    by_cases hx : x = n.host
    · subst hx
      have hbefore : c.attachment? s = h.attaches[i]? := by simp [attachment?, hs, hh]
      rw [if_pos rfl, hbefore, Option.bind_some, LocalHost.detach_attaches]
      cases h.attaches[i]? with
      | none => simp
      | some a => simp [LocalHost.awaited_giveUp]
    · have hbefore : c.attachment? s = (c.host? x).bind (·.attaches[i]?) := by simp [attachment?, hs]
      simp [hx, hbefore]

end LocalCluster

end JobPlane
