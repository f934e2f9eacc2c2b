import JobPlane.Proofs.Local.Submission
import JobPlane.Proofs.Local.Tables

/-!
# Clusters at rest

A cluster is at rest when no host can make a move by itself and no process does anything. An attach that was given up starts nothing on
such a cluster: with one more of them it is still at rest (`OneMore.atRest`), and reading what still comes over the session of that attach
changes nothing but the near end of its stream (`OneMore.drain`).
-/

namespace JobPlane

namespace LocalHost

variable {h h' : LocalHost} {m : Move} {a : Attachment} {id : String}

/-! ## Owners -/

/-- The input of each job comes from one of the host's attaches, if it comes from any. -/
def OwnersKnown (h : LocalHost) : Prop := ∀ j ∈ h.jobs, ∀ i, j.owner = some i → i < h.attaches.size

/-- Owners stay known where no attach is lost and no job gets another owner. -/
theorem OwnersKnown.of_same (ho : h.OwnersKnown) (hsize : h.attaches.size ≤ h'.attaches.size)
    (hjobs : ∀ j' ∈ h'.jobs, j'.owner = none ∨ ∃ j ∈ h.jobs, j'.owner = j.owner) : h'.OwnersKnown := by
  intro j' hmem i hi
  rcases hjobs j' hmem with hnone | ⟨j, hj, howner⟩
  · rw [hnone] at hi
    cases hi
  · exact Nat.lt_of_lt_of_le (ho j hj i (howner ▸ hi)) hsize

/-- A job after a change of one job is one from before, or that one as it was changed. -/
theorem mem_mapJob {f : LocalJob → LocalJob} {j' : LocalJob} (hmem : j' ∈ (h.mapJob id f).jobs) :
    ∃ j ∈ h.jobs, j' = j ∨ j' = f j := by
  obtain ⟨j, hj, rfl⟩ := List.mem_map.mp hmem
  refine ⟨j, hj, ?_⟩
  split
  · exact Or.inr rfl
  · exact Or.inl rfl

/-- Owners stay known where one job is changed that keeps its owner. -/
theorem OwnersKnown.mapJob (ho : h.OwnersKnown) {f : LocalJob → LocalJob} (hf : ∀ j, (f j).owner = j.owner) :
    (h.mapJob id f).OwnersKnown := by
  refine ho.of_same (Nat.le_refl _) fun j' hmem => Or.inr ?_
  obtain ⟨j, hj, rfl | rfl⟩ := mem_mapJob hmem
  · exact ⟨_, hj, rfl⟩
  · exact ⟨j, hj, hf j⟩

/-- The earliest attach that asks for the input of a job is one of the host's. -/
theorem earliestInput_lt {i : Nat} (hi : h.earliestInput id = some i) : i < h.attaches.size := by
  have hmem := List.mem_of_find?_eq_some hi
  exact List.mem_range.mp (List.mem_filter.mp hmem).1

/-- Every move keeps the owners of jobs known. -/
theorem OwnersKnown.step (ho : h.OwnersKnown) (hm : h.step m = some h') : h'.OwnersKnown := by
  cases m with
  | spawned x hasInput =>
    simp only [LocalHost.step] at hm
    split at hm <;> cases hm
    unfold LocalHost.spawned
    split
    · exact ho
    · -- the one job that gets an owner gets the earliest attach that asks for its input
      intro j' hmem i hi
      have hsize : i < h.attaches.size := by
        obtain ⟨j, hj, rfl | rfl⟩ := mem_mapJob (h := h) hmem
        · exact ho _ hj i hi
        · simp only at hi
          split at hi
          · exact earliestInput_lt hi
          · cases hi
      exact Nat.lt_of_lt_of_eq hsize (Array.size_map ..).symm
  | carry x m =>
    simp only [LocalHost.step, carry, Option.bind_eq_bind, Option.bind_eq_some_iff] at hm
    obtain ⟨j, -, i, -, a, -, pipe, -, ⟨feed, outgoing, pipe'⟩, -, hm⟩ := hm
    cases hm
    have hmapped : (h.mapJob x fun j =>
        { j with feed, input := some (if feed.result.isSome then pipe'.close else pipe') }).OwnersKnown := ho.mapJob fun _ => rfl
    exact hmapped.of_same (Nat.le_of_eq (Array.size_setIfInBounds ..).symm) fun j' hmem => Or.inr ⟨j', hmem, rfl⟩
  | submit spec =>
    cases step_moved hm
    refine ho.of_same (Nat.le_refl _) fun j' hmem => ?_
    rcases List.mem_append.mp hmem with hmem | hmem
    · exact Or.inr ⟨j', hmem, rfl⟩
    · rw [List.mem_singleton.mp hmem]
      exact Or.inl rfl
  | spawnFailed x reason =>
    cases step_moved hm
    exact ho.of_same (Nat.le_of_eq (Array.size_map ..).symm) fun j' hmem => Or.inr ⟨j', (List.mem_filter.mp hmem).1, rfl⟩
  | attach r wait =>
    cases step_moved hm
    exact ho.of_same (by simp) fun j' hmem => Or.inr ⟨j', hmem, rfl⟩
  | detach job =>
    cases step_moved hm
    exact ho.of_same (Nat.le_of_eq (Array.size_map ..).symm) fun j' hmem => Or.inr ⟨j', hmem, rfl⟩
  | stop id =>
    cases step_moved hm with
    | leftAlone => exact ho
    | stopped => exact ho.mapJob fun _ => rfl
  | emit | closeOutput | exit =>
    cases step_moved hm
    exact ho.mapJob fun _ => rfl
  | serve | part | client =>
    cases step_moved hm
    exact ho.of_same (Nat.le_of_eq (Array.size_setIfInBounds ..).symm) fun j' hmem => Or.inr ⟨j', hmem, rfl⟩

/-- The owners of jobs are known on every host that a schedule leads to. -/
theorem ownersKnown_run {host : String} {ms : List Move} (hrun : follow LocalHost.step { id := host } ms = some h) : h.OwnersKnown :=
  follow_keeps hrun (fun _ _ _ _ hm ho => ho.step hm) fun j hj => by cases hj

/-! ## One attach more -/

/-- An attach that was given up does not wait. -/
theorem GivenUp.ne_pending (ha : GivenUp a) : a.standing ≠ .pending := by
  rcases ha with hst | ⟨reason, hst⟩ <;> simp [hst]

/-- A host with one attach more. -/
def withAttach (h : LocalHost) (a : Attachment) : LocalHost := { h with attaches := h.attaches.push a }

@[simp] theorem withAttach_id : (h.withAttach a).id = h.id := rfl

@[simp] theorem job?_withAttach (id : String) : (h.withAttach a).job? id = h.job? id := rfl

/-- The attaches from before are in their places. -/
theorem attaches_withAttach {i : Nat} (hi : i < h.attaches.size) : (h.withAttach a).attaches[i]? = h.attaches[i]? := by
  rw [withAttach, Array.getElem?_push, if_neg (by omega)]

/-- The attach that there is more is in the last place. -/
@[simp] theorem attaches_withAttach_last : (h.withAttach a).attaches[h.attaches.size]? = some a := by simp [withAttach]

/-- The attach that there is more is changed in its place. -/
theorem setIfInBounds_withAttach (b : Attachment) :
    { h.withAttach a with attaches := (h.withAttach a).attaches.setIfInBounds h.attaches.size b } = h.withAttach b := by
  simp [withAttach, Array.setIfInBounds, Array.set_push]

/-- Where nothing waits for a job, no attach is changed. -/
theorem mapPending_of_none {f : Attachment → Attachment} (hnone : h.pendingFor id = []) : h.mapPending id f = h := by
  have hsame : h.attaches.map (fun a => if a.isPendingFor id then f a else a) = h.attaches.map fun a => a := by
    refine Array.map_congr_left fun a ha => if_neg fun hp => ?_
    obtain ⟨i, hi, rfl⟩ := Array.mem_iff_getElem.mp ha
    have hmem : i ∈ h.pendingFor id := by simp [pendingFor, hi, hp]
    simp [hnone] at hmem
  rw [mapPending, hsame, Array.map_id']

/-- Where one attach more is the only one that waits for a job, it is the only one that is changed. -/
theorem mapPending_withAttach {f : Attachment → Attachment} (hnone : h.pendingFor id = []) (ha : a.isPendingFor id = true) :
    (h.withAttach a).mapPending id f = h.withAttach (f a) := by
  have hothers := congrArg LocalHost.attaches (mapPending_of_none (f := f) hnone)
  simp only [mapPending] at hothers
  simp [mapPending, withAttach, ha, hothers]

/-- What waits for a job is given up, and with it one attach more that waits for the job. -/
theorem detach_withAttach (ha : a.isPendingFor id = true) :
    (h.withAttach a).detach id = (h.detach id).withAttach (a.giveUp .withdrawn) := by
  simp [detach, mapPending, withAttach, ha]

/-- With one attach more that does not wait the tables are the same. -/
theorem sameTables_withAttach (ha : a.standing ≠ .pending) : SameTables h (h.withAttach a) := by
  refine ⟨fun _ => rfl, fun i => ?_⟩
  unfold waiting
  rcases Nat.lt_trichotomy i h.attaches.size with hi | rfl | hi
  · rw [attaches_withAttach hi]
  · simp [ha]
  · rw [Array.getElem?_eq_none (by simp [withAttach]; omega), Array.getElem?_eq_none (Nat.le_of_lt hi)]

/-- An attach that cannot be served further cannot be with one attach more. -/
theorem serve_withAttach {i : Nat} (hi : i < h.attaches.size) (hs : h.serve i = none) : (h.withAttach a).serve i = none := by
  simp only [serve, attaches_withAttach hi, job?_withAttach, Option.bind_eq_bind, Option.bind_eq_none_iff] at hs ⊢
  intro b hb j hj
  have hs := hs b hb j hj
  split at hs <;> simp_all

/-- An attach whose host's end cannot go away keeps it with one attach more. -/
theorem part_withAttach {i : Nat} (hi : i < h.attaches.size) (hs : h.part i = none) : (h.withAttach a).part i = none := by
  simp only [LocalHost.part, attaches_withAttach hi, job?_withAttach, Option.bind_eq_bind, Option.bind_eq_none_iff] at hs ⊢
  intro b hb
  have hs := hs b hb
  split at hs <;> simp_all

/-- Input that cannot be carried further cannot be with one attach more. -/
theorem carry_withAttach (ho : h.OwnersKnown) {m : Copy.Move} (hs : h.carry id m = none) : (h.withAttach a).carry id m = none := by
  simp only [carry, job?_withAttach, Option.bind_eq_bind, Option.bind_eq_none_iff] at hs ⊢
  intro j hj i hi b hb pipe hpipe r hr
  have hlt := ho j (List.mem_of_find?_eq_some hj) i hi
  rw [attaches_withAttach hlt] at hb
  exact absurd (hs j hj i hi b hb pipe hpipe r hr) (by simp)

/-- An attach that was given up has no part in any move that a host makes by itself. -/
theorem atRest_withAttach (ho : h.OwnersKnown) (hrest : AtRest step h.ownMoves h) (ha : GivenUp a) :
    AtRest step (h.withAttach a).ownMoves (h.withAttach a) := by
  intro m hm
  simp only [ownMoves, List.mem_append, List.mem_flatMap, List.mem_range] at hm
  rcases hm with ⟨i, hi, hm⟩ | ⟨j, hj, hm⟩
  · have hplace : i < h.attaches.size ∨ i = h.attaches.size := by
      simp only [withAttach, Array.size_push] at hi
      omega
    rcases hplace with hi | rfl
    · have hown : .serve i ∈ h.ownMoves ∧ .part i ∈ h.ownMoves := by simp [ownMoves, hi]
      simp only [List.mem_cons, List.not_mem_nil, or_false] at hm
      rcases hm with rfl | rfl
      · exact serve_withAttach hi (hrest _ hown.1)
      · exact part_withAttach hi (hrest _ hown.2)
    · -- the attach itself is not joined
      simp only [List.mem_cons, List.not_mem_nil, or_false] at hm
      rcases ha with hst | ⟨reason, hst⟩ <;> rcases hm with rfl | rfl <;> simp [step, serve, LocalHost.part, hst]
  · have hown : ∀ m ∈ [Move.carry j.spec.id .write, .carry j.spec.id .read, .carry j.spec.id .conclude], m ∈ h.ownMoves := by
      intro m hm
      exact List.mem_append_right _ (List.mem_flatMap.mpr ⟨j, hj, hm⟩)
    have hcarry {k : Copy.Move} (hk : Move.carry j.spec.id k ∈ h.ownMoves) : (h.withAttach a).step (.carry j.spec.id k) = none :=
      carry_withAttach ho (hrest _ hk)
    have hmem := hown m hm
    simp only [List.mem_cons, List.not_mem_nil, or_false] at hm
    rcases hm with rfl | rfl | rfl <;> exact hcarry hmem

end LocalHost

namespace LocalCluster

open LocalHost

variable {c k : LocalCluster} {h : LocalHost} {a : Attachment} {s : Session} {x : String}

/-! ## Clusters -/

/-- No host can move by itself, and no process does anything. -/
def AtRest (c : LocalCluster) : Prop :=
  (∀ h ∈ c.hosts, JobPlane.AtRest LocalHost.step h.ownMoves h) ∧ ∀ p ∈ c.workers, c.work p = none

/-- A cluster at rest stays as it is when it is left to itself. -/
theorem settle_of_atRest (hc : c.AtRest) : c.settle = c := by
  have hhosts : c.settleHosts = c := by
    have hsame : c.hosts.map LocalHost.settle = c.hosts.map fun h => h :=
      List.map_congr_left fun h hh => JobPlane.settle_of_atRest (hc.1 h hh) h.ownBound
    rw [settleHosts, hsame, List.map_id']
  have hidle : c.workers.findSome? c.work = none := List.findSome?_eq_none_iff.mpr hc.2
  rw [settle, settleOn]
  simp only [hhosts, hidle]

/-- What a process finds of its job: nothing that makes it do something. -/
def Idle (p : JobWorker) (j : LocalJob) : Prop :=
  j.state ≠ .running ∨ j.stopping = false ∧ p.worker.next (readInput Worker.chunkSize j).1 = none

/-- Whether a process does something lies with its job. -/
theorem work_eq_none_iff {p : JobWorker} :
    c.work p = none ↔ ∀ j ∈ (c.host? p.host).bind (·.job? p.job), Idle p j := by
  simp only [work, Option.bind_eq_bind, Option.bind_eq_none_iff, Option.mem_def, Option.bind_eq_some_iff]
  constructor
  · rintro hnone j ⟨h, hh, hj⟩
    have hnone := hnone h hh j hj
    split at hnone
    · rename_i hstate
      exact Or.inl (by simpa using hstate)
    · split at hnone
      · cases hnone
      · rename_i hstop
        refine Or.inr ⟨by simpa using hstop, ?_⟩
        cases hdeed : p.worker.next (readInput Worker.chunkSize j).1 with
        | none => rfl
        | some deed =>
          simp only [hdeed] at hnone
          cases deed <;> simp at hnone
  · intro hidle h hh j hj
    rcases hidle j ⟨h, hh, hj⟩ with hstate | ⟨hstop, hdeed⟩
    · simp [hstate]
    · simp [hstop, hdeed]

/-- A cluster is at rest where one of the same hosts and processes is. -/
theorem AtRest.of_same (hc : c.AtRest) (hhosts : k.hosts = c.hosts) (hworkers : k.workers = c.workers) : k.AtRest := by
  refine ⟨hhosts ▸ hc.1, fun p hp => ?_⟩
  have hidle := hc.2 p (hworkers ▸ hp)
  rw [work_eq_none_iff] at hidle ⊢
  rwa [host?, hhosts]

/-- A cluster with one attach more, on a host it knows. A session is that attach's. -/
structure OneMore (c : LocalCluster) (x : String) (h : LocalHost) (a : Attachment) (s : Session) (k : LocalCluster) : Prop where
  known : c.host? x = some h
  hosts : k.hosts = (c.setHost (h.withAttach a)).hosts
  workers : k.workers = c.workers
  session : k.sessions[s.serial]? = some (x, h.attaches.size)

/-- Where a host accepts an attach over a connection that is open, there is one attach more. -/
theorem attach_accepted {n : Connection} {r : AttachRequest} {wait : Bool} (hh : c.host? n.host = some h) (hopen : n.serial ∉ c.closed)
    (ha : h.attach r wait = .ok (h.accept a)) :
    ∃ s k, c.attach n r wait = (.ok s, k) ∧ s.pending = decide (a.standing = .pending) ∧ k.closed = c.closed ∧
      OneMore c n.host h a s k := by
  refine ⟨⟨c.sessions.size, decide (a.standing = .pending), h.hasTerminal r.job⟩,
    { c.setHost (h.withAttach a) with sessions := c.sessions.push (n.host, h.attaches.size) }, ?_, rfl, rfl, hh, rfl, rfl, by simp⟩
  simp [attach, onHost, hopen, hh, ha, accept, Except.map, withAttach]

namespace OneMore

/-- The hosts of a cluster with one attach more. -/
theorem host? (ho : OneMore c x h a s k) (y : String) : k.host? y = if y = x then some (h.withAttach a) else c.host? y := by
  have hsame : k.host? y = (c.setHost (h.withAttach a)).host? y := by rw [LocalCluster.host?, ho.hosts]; rfl
  rw [hsame, host?_setHost ho.known (by rfl)]

/-- The host that has one attach more. -/
theorem host?_self (ho : OneMore c x h a s k) : k.host? x = some (h.withAttach a) := by rw [ho.host?, if_pos rfl]

/-- The attach that there is more is changed in its place. -/
theorem setHost (ho : OneMore c x h a s k) (b : Attachment) : OneMore c x h b s (k.setHost (h.withAttach b)) := by
  have htwice : (c.setHost (h.withAttach a)).setHost (h.withAttach b) = c.setHost (h.withAttach b) := setHost_setHost c rfl
  refine ⟨ho.known, ?_, ho.workers, ho.session⟩
  rw [← htwice]
  simp only [LocalCluster.setHost, ho.hosts]

/-- A host with one attach more is put in its place that has changed otherwise too. -/
theorem replace {h' : LocalHost} (ho : OneMore c x h a s k) (hid : h'.id = h.id) (hsize : h'.attaches.size = h.attaches.size)
    (b : Attachment) : OneMore (c.setHost h') x h' b s (k.setHost (h'.withAttach b)) := by
  refine ⟨host?_setHost_self ho.known hid, ?_, ho.workers, hsize ▸ ho.session⟩
  have htwice : (c.setHost (h.withAttach a)).setHost (h'.withAttach b) = c.setHost (h'.withAttach b) := setHost_setHost c hid
  rw [setHost_setHost c (by rfl), ← htwice]
  simp only [LocalCluster.setHost, ho.hosts]

/-- Who waits for the session finds how the attach that there is more stands. -/
theorem awaited (ho : OneMore c x h a s k) : k.awaited s = a.standing.awaited := by
  simp [awaited_eq, attachment?, ho.session, ho.host?_self]

/-- With one attach more that was given up the tables are the same. -/
theorem sameTables (ho : OneMore c x h a s k) (ha : GivenUp a) : c.SameTables k := by
  intro y
  rw [ho.host?]
  split
  · rename_i hy
    rw [hy, ho.known]
    exact .some (sameTables_withAttach ha.ne_pending)
  · exact optionRel_refl .refl _

/-- A cluster at rest is still at rest with one attach more that was given up. -/
theorem atRest (ho : OneMore c x h a s k) (ha : GivenUp a) (howners : h.OwnersKnown) (hc : c.AtRest) : k.AtRest := by
  refine ⟨fun g hg => ?_, fun p hp => ?_⟩
  · rw [ho.hosts] at hg
    obtain ⟨g', hg', rfl⟩ := List.mem_map.mp hg
    split
    · exact atRest_withAttach howners (hc.1 h (List.mem_of_find?_eq_some ho.known)) ha
    · exact hc.1 g' hg'
  · rw [ho.workers] at hp
    have hidle := hc.2 p hp
    rw [work_eq_none_iff] at hidle ⊢
    have hjob : (k.host? p.host).bind (·.job? p.job) = (c.host? p.host).bind (·.job? p.job) := by
      rw [ho.host?]
      split
      · rename_i hx
        rw [hx, ho.known]
        rfl
      · rfl
    rwa [hjob]

/-- What is done at the near end of the session's stream changes the attach that there is more. -/
theorem setLink (ho : OneMore c x h a s k) (l : Link) : OneMore c x h { a with link := l } s (Cluster.setLink s l k) := by
  have hmoved : (h.withAttach a).step (.client h.attaches.size fun _ => l) = some (h.withAttach { a with link := l }) := by
    rw [LocalHost.step, attaches_withAttach_last]
    exact congrArg some (setIfInBounds_withAttach _)
  have hset : Cluster.setLink s l k = k.setHost (h.withAttach { a with link := l }) := by
    simp [Cluster.setLink, ho.session, change, ho.host?_self, hmoved]
  rw [hset]
  exact ho.setHost _

/-- Where the session is dropped, the attach that there is more stands as before. -/
theorem drop (ho : OneMore c x h a s k) : ∃ b : Attachment, b.standing = a.standing ∧ OneMore c x h b s (Cluster.drop s k) :=
  ⟨{ a with link := (Cluster.link s k).drop }, rfl, ho.setLink _⟩

variable (ha : GivenUp a) (howners : h.OwnersKnown) (hc : c.AtRest)

include ha howners hc in
/-- On a cluster at rest, nothing happens by itself either where there is one attach more that was given up. -/
theorem settle (ho : OneMore c x h a s k) : OneMore c x h a s (Cluster.settle k) := by
  have hsame : Cluster.settle k = k := settle_of_atRest (ho.atRest ha howners hc)
  rwa [hsame]

include ha howners hc in
/-- Reading what still comes over the session changes nothing on a cluster at rest, but at the near end of the session's stream. -/
theorem drainOn (ho : OneMore c x h a s k) (fuel : Nat) (d : Drain) :
    ∃ l, OneMore c x h { a with link := l } s (Cluster.drainOn s fuel d k).2 := by
  induction fuel generalizing a k d with
  | zero => exact ⟨a.link, ho⟩
  | succ fuel ih =>
    unfold Cluster.drainOn
    split
    · rename_i l _
      have hlinked : GivenUp { a with link := l } := ha
      exact ih hlinked ((ho.setLink l).settle hlinked howners hc) _
    · exact ⟨a.link, ho⟩

include ha howners hc in
/-- Giving the session up changes nothing on a cluster at rest, but at the near end of the session's stream. -/
theorem drain (ho : OneMore c x h a s k) (ms : Nat) : ∃ b, GivenUp b ∧ OneMore c x h b s (Cluster.drain s ms k).2 := by
  simp only [Cluster.drain]
  have hgiven (l : Link) : GivenUp { a with link := l } := ha
  have hdropped {l : Link} {k' : LocalCluster} (ho' : OneMore c x h { a with link := l } s k') :
      ∃ b, GivenUp b ∧ OneMore c x h b s (Cluster.settle (Cluster.drop s k')) :=
    ⟨_, hgiven _, (ho'.setLink _).settle (hgiven _) howners hc⟩
  have hstart := (ho.setLink (Drain.start (Cluster.link s k)).2).settle (hgiven _) howners hc
  obtain ⟨l, hread⟩ := hstart.drainOn (hgiven _) howners hc
    (Cluster.bound (Cluster.settle (Cluster.setLink s (Drain.start (Cluster.link s k)).2 k)) +
      (Drain.start (Cluster.link s k)).2.incoming.buffer.length + 1) (Drain.start (Cluster.link s k)).1
  split
  · exact hdropped hread
  · obtain ⟨l', hlast⟩ := (hread.settle (hgiven _) howners hc).drainOn (hgiven _) howners hc _ _
    exact hdropped hlast

end OneMore

end LocalCluster

end JobPlane
