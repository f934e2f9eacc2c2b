import JobPlane.Proofs.Local.Cluster
import Mathlib.Logic.Relation

/-!
# What goes on by itself

What a host does by itself, what its processes do and what the clients of its attaches do brings no job and loses none, and it neither
attaches to a job nor gives an attach up. It is made of small steps (`LocalHost.WorkStep`), and so is all that goes on in a cluster that is
left to itself, and all that is done with the near end of a session (`LocalCluster.Works`). What each small step keeps, all of that keeps.
-/

namespace JobPlane

namespace LocalHost

variable {h h' h₁ : LocalHost} {m : Move}

/-- Whether a move leaves the tables as they are: it is not one that brings or loses a job, or that attaches to one, joins what waits for it
or gives that up. -/
def Move.keepsTables : Move → Bool
  | .submit _ | .spawned _ _ | .spawnFailed _ _ | .attach _ _ | .detach _ => false
  | _ => true

/-- The moves of a host by itself leave its tables as they are. -/
theorem keepsTables_of_ownMoves (hm : m ∈ h.ownMoves) : m.keepsTables = true := by
  simp only [ownMoves, List.mem_append, List.mem_flatMap, List.mem_range, List.mem_cons, List.not_mem_nil, or_false] at hm
  rcases hm with ⟨i, -, rfl | rfl⟩ | ⟨j, -, rfl | rfl | rfl⟩ <;> rfl

/-- A step of what goes on at a host: a move that leaves the tables as they are, or a process reads its job's input. -/
inductive WorkStep (h : LocalHost) : LocalHost → Prop
  | moved (m : Move) (h' : LocalHost) (hk : m.keepsTables = true) (hm : h.step m = some h') : WorkStep h h'
  | read (id : String) (j j' : LocalJob) (hj : h.job? id = some j) (hspec : j'.spec = j.spec) (hstate : j'.state = j.state) :
      WorkStep h (h.mapJob id fun _ => j')

/-- Some of what goes on at a host leads from one state to another. -/
def Works (h h' : LocalHost) : Prop := Relation.ReflTransGen WorkStep h h'

/-- A host at which something goes on keeps its ID. -/
theorem Works.id (hw : h.Works h') : h'.id = h.id := by
  induction hw with
  | refl => rfl
  | tail _ hstep ih =>
    cases hstep with
    | moved m h' hk hm => exact (step_id hm).trans ih
    | read => exact ih

/-- A host that is left to itself works. -/
theorem works_settle (h : LocalHost) : h.Works h.settle := by
  obtain ⟨ms, hown, hrun⟩ := exists_follow_settle LocalHost.step h.ownMoves h.ownBound h
  refine follow_keeps (P := h.Works) hrun ?_ .refl
  intro g m g' hm hstep hg
  exact hg.tail (.moved m g' (keepsTables_of_ownMoves (hown m hm)) hstep)

end LocalHost

namespace LocalCluster

variable {c c' c₁ : LocalCluster} {h h' : LocalHost} {x host job : String} {s : Session}

/-- Some of what goes on at the hosts of a cluster leads from one state to another. Nothing is dialled or closed for it. -/
structure Works (c c' : LocalCluster) : Prop where
  ids : c'.hosts.map (·.id) = c.hosts.map (·.id)
  hosts : ∀ x, Option.Rel LocalHost.Works (c.host? x) (c'.host? x)
  dialled : c'.dialled = c.dialled
  closed : c'.closed = c.closed

namespace Works

/-- Where nothing changes but processes and sessions. -/
theorem of_hosts (hh : c'.hosts = c.hosts) (hd : c'.dialled = c.dialled) (hc : c'.closed = c.closed) : c.Works c' where
  ids := by rw [hh]
  hosts x := by
    rw [host?, host?, hh]
    exact optionRel_refl (fun _ => .refl) _
  dialled := hd
  closed := hc

theorem refl (c : LocalCluster) : c.Works c := of_hosts rfl rfl rfl

theorem trans (ha : c.Works c₁) (hb : c₁.Works c') : c.Works c' where
  ids := hb.ids.trans ha.ids
  hosts x := optionRel_trans Relation.ReflTransGen.trans (ha.hosts x) (hb.hosts x)
  dialled := hb.dialled.trans ha.dialled
  closed := hb.closed.trans ha.closed

end Works

/-- Where a host is put in the place of another, the IDs of the hosts stay. -/
theorem ids_setHost (c : LocalCluster) (h : LocalHost) : (c.setHost h).hosts.map (·.id) = c.hosts.map (·.id) := by
  rw [setHost, List.map_map]
  refine List.map_congr_left fun g _ => ?_
  by_cases hg : g.id = h.id <;> simp [hg]

namespace Works

/-- A step of what goes on at one host. -/
theorem setHost (hh : c.host? x = some h) (hw : h.WorkStep h') : c.Works (c.setHost h') where
  ids := ids_setHost c h'
  hosts y := by
    rw [host?_setHost hh (LocalHost.Works.id (.single hw))]
    split
    · rename_i hy
      rw [hy, hh]
      exact .some (.single hw)
    · exact optionRel_refl (fun _ => .refl) _
  dialled := rfl
  closed := rfl

/-- A host makes a move which leaves its tables as they are, if it can. -/
theorem changeStep {m : LocalHost.Move} {f : LocalHost → Option LocalHost} (hf : ∀ h, f h = h.step m) (hk : m.keepsTables = true) :
    c.Works (c.change host f) := by
  unfold LocalCluster.change
  split
  · rename_i h' hfound
    obtain ⟨h, hh, hmoved⟩ := Option.bind_eq_some_iff.mp hfound
    rw [hf] at hmoved
    exact setHost hh (.moved m h' hk hmoved)
  · exact refl c

end Works

/-- A job writes. -/
theorem works_emit (c : LocalCluster) (host job : String) (frames : List Frame) : c.Works (c.emit host job frames) := by
  unfold emit
  induction frames generalizing c with
  | nil => exact .refl c
  | cons f frames ih => exact (Works.changeStep (m := .emit job f) (fun _ => rfl) rfl).trans (ih _)

/-- A job exits. -/
theorem works_finish (c : LocalCluster) (host job : String) (code : Option Nat) : c.Works (c.finish host job code) :=
  ((Works.changeStep (m := .closeOutput job) (fun _ => rfl) rfl).trans
    (Works.changeStep (m := .exit job code) (fun _ => rfl) rfl)).trans (.of_hosts rfl rfl rfl)

/-- A process reads its input. -/
theorem works_readInput (c : LocalCluster) {j : LocalJob} (n : Nat) (hh : c.host? host = some h) (hj : h.job? job = some j) :
    c.Works (c.setHost (h.mapJob job fun _ => (readInput n j).2)) := by
  have hsame : (readInput n j).2.spec = j.spec ∧ (readInput n j).2.state = j.state := by
    unfold readInput
    split <;> exact ⟨rfl, rfl⟩
  exact .setHost hh (.read job j _ hj hsame.1 hsame.2)

/-- What a process does. -/
theorem works_work {p : JobWorker} (hw : c.work p = some c') : c.Works c' := by
  simp only [work, Option.bind_eq_bind, Option.bind_eq_some_iff] at hw
  obtain ⟨h, hh, j, hj, hw⟩ := hw
  split at hw
  · cases hw
  · split at hw
    · cases hw
      exact works_finish c p.host p.job none
    · obtain ⟨deed, -, hw⟩ := Option.bind_eq_some_iff.mp hw
      have hread := works_readInput c Worker.chunkSize hh hj
      cases deed with
      | write frames worker =>
        cases hw
        have hgoes (k : LocalCluster) : k.Works (k.setWorker p worker) := .of_hosts rfl rfl rfl
        exact (hread.trans (hgoes _)).trans (works_emit _ p.host p.job frames)
      | exit frames code =>
        cases hw
        exact (hread.trans (works_emit _ _ _ _)).trans (works_finish _ _ _ _)

/-- Hosts are left to themselves. -/
theorem works_settleHosts (c : LocalCluster) : c.Works c.settleHosts where
  ids := by
    rw [settleHosts, List.map_map]
    exact List.map_congr_left fun h _ => (LocalHost.works_settle h).id
  hosts x := by
    have hsame : ((·.id == x) ∘ LocalHost.settle) = (·.id == x) := by
      funext h
      simp only [Function.comp, (LocalHost.works_settle h).id]
    have hfound : c.settleHosts.host? x = (c.host? x).map (·.settle) := by
      rw [host?, settleHosts, List.find?_map, hsame]
      rfl
    rw [hfound]
    cases c.host? x with
    | none => exact .none
    | some h => exact .some (LocalHost.works_settle h)
  dialled := rfl
  closed := rfl

/-- A cluster is left to itself. -/
theorem works_settle (c : LocalCluster) : c.Works c.settle := by
  unfold settle
  generalize c.inputBytes + 2 * c.workers.length + 1 = fuel
  induction fuel generalizing c with
  | zero => exact works_settleHosts c
  | succ fuel ih =>
    unfold settleOn
    simp only
    split
    · rename_i c₁ hfound
      obtain ⟨p, -, hw⟩ := List.exists_of_findSome?_eq_some hfound
      exact (works_settleHosts c).trans ((works_work hw).trans (ih c₁))
    · exact works_settleHosts c

/-- A client does something with its end of a session. -/
theorem works_setLink (c : LocalCluster) (s : Session) (l : Link) : c.Works (Cluster.setLink s l c) := by
  simp only [Cluster.setLink]
  split
  · rename_i i _
    exact Works.changeStep (m := .client i fun _ => l) (fun _ => rfl) rfl
  · exact .refl c

/-- What still comes over a session is read. -/
theorem works_drainOn (c : LocalCluster) (s : Session) (fuel : Nat) (d : Drain) : c.Works (Cluster.drainOn s fuel d c).2 := by
  induction fuel generalizing c d with
  | zero => exact .refl c
  | succ fuel ih =>
    unfold Cluster.drainOn
    split
    · exact ((works_setLink c s _).trans (works_settle _)).trans (ih _ _)
    · exact .refl c

/-- A session is given up. -/
theorem works_drain (c : LocalCluster) (s : Session) (ms : Nat) : c.Works (Cluster.drain s ms c).2 := by
  simp only [Cluster.drain]
  have hstart := (works_setLink c s (Drain.start (Cluster.link s c)).2).trans (works_settle _)
  refine Works.trans ?_ ((works_setLink _ s _).trans (works_settle _))
  split
  · exact hstart.trans (works_drainOn _ s _ _)
  · exact ((hstart.trans (works_drainOn _ s _ _)).trans (works_settle _)).trans (works_drainOn _ s _ _)

end LocalCluster

end JobPlane
