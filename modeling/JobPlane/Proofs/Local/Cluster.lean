import JobPlane.Local.Cluster
import JobPlane.Proofs.Local.Follower

/-!
# One session among a cluster's

What happens to a cluster on one machine is made of moves of its hosts, one at a time (`HostMoves`), and what is said of a session's
attach with its host goes on holding where the host's moves keep it (`Lies.moves`).
-/

namespace JobPlane.LocalCluster

open LocalHost

variable {c c' : LocalCluster} {h h' : LocalHost} {m : LocalHost.Move} {s : Session} {x y : String}

/-! ## Hosts -/

/-- A host that is found has the ID it was looked for by. -/
theorem host?_id (hh : c.host? x = some h) : h.id = x := by simpa using List.find?_some hh

/-- A host that is put in the place of one of its ID is found there, and the others are found as before. -/
theorem host?_setHost (hh : c.host? x = some h) (hid : h'.id = h.id) (y : String) :
    (c.setHost h').host? y = if y = x then some h' else c.host? y := by
  have hx : h'.id = x := hid.trans (host?_id hh)
  have hsame : ((·.id == y) ∘ fun g : LocalHost => if g.id == h'.id then h' else g) = (·.id == y) := by
    funext g
    simp only [Function.comp]
    split <;> simp_all
  have hfound : (c.setHost h').host? y = (c.host? y).map fun g => if g.id == h'.id then h' else g := by
    rw [host?, setHost, List.find?_map, hsame]
    rfl
  rw [hfound]
  split
  · rename_i hy
    rw [hy, hh, Option.map_some, hid, beq_self_eq_true, if_pos rfl]
  · rename_i hy
    cases hg : c.host? y with
    | none => rfl
    | some g =>
      have hne : g.id ≠ h'.id := by rwa [host?_id hg, hx]
      simp [hne]

/-- A host that is put in its place is found there. -/
theorem host?_setHost_self (hh : c.host? x = some h) (hid : h'.id = h.id) : (c.setHost h').host? x = some h' := by
  rw [host?_setHost hh hid, if_pos rfl]

/-- Of two hosts of one ID that are put in a place one after the other, the second stays. -/
theorem setHost_setHost (c : LocalCluster) (hid : h'.id = h.id) : (c.setHost h).setHost h' = c.setHost h' := by
  simp only [setHost, List.map_map]
  congr 1
  refine List.map_congr_left fun g _ => ?_
  by_cases hg : g.id = h.id <;> simp [hg, hid]

/-- A host makes a move, and the others stay as they are. -/
structure HostMoves (c : LocalCluster) (x : String) (m : LocalHost.Move) (c' : LocalCluster) : Prop where
  host : ∃ h h', c.host? x = some h ∧ h.step m = some h' ∧ c'.host? x = some h'
  others : ∀ y, y ≠ x → c'.host? y = c.host? y

/-- A host that has moved is put in its place. -/
theorem hostMoves_setHost (hh : c.host? x = some h) (hm : h.step m = some h') : HostMoves c x m (c.setHost h') where
  host := ⟨h, h', hh, hm, host?_setHost_self hh (step_id hm)⟩
  others y hy := by rw [host?_setHost hh (step_id hm), if_neg hy]

/-- The jobs of all hosts have written nothing before they start, and only chunks that fit into frames since. -/
def Orderly (c : LocalCluster) : Prop := ∀ x h, c.host? x = some h → h.StartsEmpty ∧ h.LogsFit

/-- Every move of a host keeps the cluster orderly, if what is written fits into frames. -/
theorem Orderly.moves (ho : c.Orderly) (hm : HostMoves c x m c') (hfit : ∀ id f, m = .emit id f → f.Fits) : c'.Orderly := by
  intro y g hg
  by_cases hy : y = x
  · obtain ⟨h, h', hh, hstep, hh'⟩ := hm.host
    rw [hy, hh'] at hg
    cases hg
    exact ⟨(ho x h hh).1.step hstep, (ho x h hh).2.step hstep hfit⟩
  · rw [hm.others y hy] at hg
    exact ho y g hg

/-- A cluster whose hosts have not moved is as orderly as before. -/
theorem Orderly.stays (ho : c.Orderly) (hhosts : ∀ y, c'.host? y = c.host? y) : c'.Orderly := by
  intro y g hg
  rw [hhosts] at hg
  exact ho y g hg

/-- A cluster on which no job was submitted is orderly. -/
theorem orderly_of_no_jobs (hnone : ∀ h ∈ c.hosts, h.jobs = []) : c.Orderly := by
  intro x h hh
  have hjobs := hnone h (List.mem_of_find?_eq_some hh)
  have hjob (id : String) : h.job? id = none := by simp [job?, hjobs]
  exact ⟨fun id j hj => by simp [hjob] at hj, fun id j hj => by simp [hjob] at hj⟩

/-! ## Sessions -/

/-- Something holds of the place of a session's attach and the host it is on. -/
def Lies (c : LocalCluster) (s : Session) (x : String) (P : Nat → LocalHost → Prop) : Prop :=
  ∃ i h, c.sessions[s.serial]? = some (x, i) ∧ c.host? x = some h ∧ P i h

/-- Whether a move is one of the client of a session. -/
def touches (c : LocalCluster) (s : Session) (x : String) : LocalHost.Move → Bool
  | .client i _ => c.sessions[s.serial]? = some (x, i)
  | _ => false

/-- A move of a host that is not one of a session's client is none at the place of its attach. -/
theorem ne_client_of_untouched {i : Nat} (ht : c.touches s x m = false) (hi : c.sessions[s.serial]? = some (x, i))
    (f : Link → Link) : m ≠ .client i f := by
  rintro rfl
  simp [touches, hi] at ht

/-- Whether a move lets the server of a session's attach pass over chunks that are not kept for it. -/
def passesOver (c : LocalCluster) (s : Session) (x : String) (m : LocalHost.Move) : Bool :=
  match c.sessions[s.serial]? with
  | some (y, i) => y = x && (c.host? x).any (·.passesOver i m)
  | none => false

/-- What holds of a session's attach goes on to hold if the moves of its host keep it. -/
theorem Lies.moves {P : Bool → Nat → LocalHost → Prop} {lagged : Bool} (hl : c.Lies s x (P lagged)) (hm : HostMoves c y m c')
    (hs : c'.sessions[s.serial]? = c.sessions[s.serial]?)
    (hstep : ∀ i h h', c.sessions[s.serial]? = some (x, i) → y = x → c.host? x = some h → h.step m = some h' → P lagged i h →
      P (lagged || h.passesOver i m) i h') :
    c'.Lies s x (P (lagged || c.passesOver s y m)) := by
  obtain ⟨i, h, hi, hh, hP⟩ := hl
  by_cases hy : y = x
  · subst hy
    obtain ⟨g, h', hg, hmove, hh'⟩ := hm.host
    rw [hh] at hg
    cases hg
    have hpasses : c.passesOver s y m = h.passesOver i m := by simp [passesOver, hi, hh]
    rw [hpasses]
    exact ⟨i, h', hs.trans hi, hh', hstep i h h' hi rfl hh hmove hP⟩
  · have hpasses : c.passesOver s y m = false := by simp [passesOver, hi, Ne.symm hy]
    rw [hpasses, Bool.or_false]
    exact ⟨i, h, hs.trans hi, (hm.others x (Ne.symm hy)).trans hh, hP⟩

/-- What holds of a session's attach goes on to hold where no host moves. -/
theorem Lies.stays {P : Nat → LocalHost → Prop} (hl : c.Lies s x P) (hhosts : ∀ y, c'.host? y = c.host? y)
    (hs : c'.sessions[s.serial]? = c.sessions[s.serial]?) : c'.Lies s x P := by
  obtain ⟨i, h, hi, hh, hP⟩ := hl
  exact ⟨i, h, hs.trans hi, (hhosts x).trans hh, hP⟩

/-- The near end of a session's stream is that of its attach. -/
theorem link_eq {i : Nat} {a : Attachment} (hi : c.sessions[s.serial]? = some (x, i)) (hh : c.host? x = some h)
    (ha : h.attaches[i]? = some a) : Cluster.link s c = a.link := by
  simp [Cluster.link, attachment?, hi, hh, ha]

/-- To replace the near end of a session's stream is a move of its client. -/
theorem hostMoves_setLink {i : Nat} {a : Attachment} (hi : c.sessions[s.serial]? = some (x, i)) (hh : c.host? x = some h)
    (ha : h.attaches[i]? = some a) (l : Link) : HostMoves c x (.client i fun _ => l) (Cluster.setLink s l c) := by
  obtain ⟨h', hm⟩ : ∃ h', h.step (.client i fun _ => l) = some h' := by simp [LocalHost.step, ha]
  have hset : Cluster.setLink s l c = c.setHost h' := by simp [Cluster.setLink, hi, change, hh, hm]
  rw [hset]
  exact hostMoves_setHost hh hm

/-- To replace the near end of a session's stream leaves the sessions alone. -/
@[simp] theorem sessions_setLink (c : LocalCluster) (s : Session) (l : Link) : (Cluster.setLink s l c).sessions = c.sessions := by
  simp only [Cluster.setLink]
  split
  · unfold change
    split <;> rfl
  · rfl

/-- What holds of a session's attach after its client has done something with its end. -/
theorem Lies.setLink {P Q : Nat → LocalHost → Prop} (hl : c.Lies s x P) (hpresent : ∀ i h, P i h → ∃ a, h.attaches[i]? = some a)
    (l : Link) (hstep : ∀ i h h' a, Cluster.link s c = a.link → h.attaches[i]? = some a → h.step (.client i fun _ => l) = some h' →
      P i h → Q i h') : (Cluster.setLink s l c).Lies s x Q := by
  obtain ⟨i, h, hi, hh, hP⟩ := hl
  obtain ⟨a, ha⟩ := hpresent i h hP
  obtain ⟨g, h', hg, hm, hh'⟩ := (hostMoves_setLink hi hh ha l).host
  rw [hh] at hg
  cases hg
  exact ⟨i, h', by rwa [sessions_setLink], hh', hstep i h h' a (link_eq hi hh ha) ha hm hP⟩

/-- What is asked of a host over a connection that is open. -/
theorem onHost_eq_ok {α : Type} {n : Connection} {f : LocalHost → Except ClusterError α} {a : α} (ha : c.onHost n f = .ok a) :
    ∃ h, c.host? n.host = some h ∧ f h = .ok a := by
  unfold onHost at ha
  split at ha
  · cases ha
  · split at ha
    · exact ⟨_, ‹_›, ha⟩
    · cases ha

/-- A host that is asked over a connection to attach, and accepts it. -/
theorem onHost_attach {n : Connection} {r : AttachRequest} {wait : Bool} {h h' : LocalHost} {i : Nat}
    (ha : (c.onHost n fun h => (h.attach r wait).map fun (i, h') => (h, i, h')) = .ok (h, i, h')) :
    c.host? n.host = some h ∧ h.attach r wait = .ok (i, h') := by
  obtain ⟨g, hg, hmoved⟩ := onHost_eq_ok ha
  cases hattach : g.attach r wait with
  | error e =>
    rw [hattach] at hmoved
    cases hmoved
  | ok p =>
    rw [hattach] at hmoved
    cases hmoved
    exact ⟨hg, hattach⟩

/-- An attach over a connection is one to the connection's host, and gives a session that lies there. -/
theorem attach_eq_ok {n : Connection} {r : AttachRequest} {wait : Bool} (ha : c.attach n r wait = (.ok s, c')) :
    ∃ h i h', c.host? n.host = some h ∧ h.attach r wait = .ok (i, h') ∧ HostMoves c n.host (.attach r wait) c' ∧
      c'.sessions[s.serial]? = some (n.host, i) ∧ s.pending = (h'.attaches[i]?).any (·.standing = .pending) ∧
      s.tty = h.hasTerminal r.job := by
  unfold attach at ha
  split at ha
  · cases ha
  · rename_i h i h' heq
    cases ha
    obtain ⟨hh, hattach⟩ := onHost_attach heq
    obtain ⟨hhost, hothers⟩ := hostMoves_setHost hh (LocalHost.step_of_attach hattach)
    exact ⟨h, i, h', hh, hattach, ⟨hhost, hothers⟩, by simp, rfl, rfl⟩

/-- An attach that is not accepted changes nothing. -/
theorem attach_eq_error {n : Connection} {r : AttachRequest} {wait : Bool} {e : ClusterError}
    (ha : c.attach n r wait = (.error e, c')) : c' = c := by
  unfold attach at ha
  split at ha <;> cases ha
  rfl

/-- A host knows the jobs to which it can attach, now or once they start. -/
theorem known_of_attach {n : Connection} {r : AttachRequest} {e : Except ClusterError Session} (ha : c.attach n r false = (e, c'))
    (he : e.isOk ∨ e = .error .attachWouldWait) : ∃ h job, c.host? n.host = some h ∧ h.job? r.job = some job := by
  unfold attach onHost at ha
  by_cases hclosed : c.closed.contains n.serial = true
  · simp only [hclosed, if_true] at ha
    cases ha
    simp [Except.isOk, Except.toBool] at he
  · simp only [hclosed, Bool.false_eq_true, if_false] at ha
    cases hh : c.host? n.host with
    | none =>
      simp only [hh] at ha
      cases ha
      simp [Except.isOk, Except.toBool] at he
    | some h =>
      cases hj : h.job? r.job with
      | some job => exact ⟨h, job, rfl, hj⟩
      | none =>
        simp only [hh, LocalHost.attach, hj, Bool.false_eq_true, if_false] at ha
        cases ha
        simp [Except.isOk, Except.toBool] at he

/-- A connection is one to the host that was asked for, and no host moves for it. -/
theorem dial_eq {r : Except ClusterError Connection} (hd : Cluster.dial x c = (r, c')) :
    (∀ y, c'.host? y = c.host? y) ∧ ∀ n, r = .ok n → n.host = x := by
  simp only [Cluster.dial] at hd
  split at hd <;> cases hd
  · refine ⟨fun _ => rfl, fun n hn => ?_⟩
    cases hn
    rfl
  · exact ⟨fun _ => rfl, fun n hn => by cases hn⟩

/-- A session for which waiting comes out well is joined. -/
theorem joined_of_awaited (ha : c.awaited s = .ready) :
    ∃ a server, c.attachment? s = some a ∧ a.standing = .joined server := by
  unfold awaited at ha
  split at ha
  · cases ha
  · rename_i a hfound
    split at ha <;> try cases ha
    rename_i server hst
    exact ⟨a, server, hfound, hst⟩

end JobPlane.LocalCluster
