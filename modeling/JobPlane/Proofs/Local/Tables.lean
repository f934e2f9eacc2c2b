import JobPlane.Proofs.Local.Waiting
import JobPlane.Proofs.Local.Work

/-!
# What a host has in its tables

The tables of a host are the jobs it knows, each as it was described, and the attaches that wait, each with what it asked for. What a host
does by itself, what its processes do and what the clients of its attaches do leaves them as they are (`LocalHost.sameTables_step`), and
so the tables of all hosts of a cluster stay the same through all that goes on in it (`LocalCluster.SameTables.of_works`).
-/

namespace JobPlane

namespace LocalHost

variable {h h' h₁ : LocalHost} {m : Move} {i : Nat} {a : Attachment} {job : String}

/-- What an attach asked for that waits in a place. -/
def waiting (h : LocalHost) (i : Nat) : Option AttachRequest :=
  (h.attaches[i]?).bind fun a => if a.standing = .pending then some a.request else none

/-- An attach waits for a job if it waits and asked for that job. -/
theorem mem_pendingFor_iff_waiting : i ∈ h.pendingFor job ↔ ∃ r, h.waiting i = some r ∧ r.job = job := by
  rw [mem_pendingFor, waiting]
  cases h.attaches[i]? with
  | none => simp
  | some a => by_cases hp : a.standing = .pending <;> simp [hp]

/-- Two states of a host have the same tables: the same jobs are known, and the same attaches wait. -/
structure SameTables (h h' : LocalHost) : Prop where
  jobs : ∀ id, (h'.job? id).map (·.spec) = (h.job? id).map (·.spec)
  waiting : ∀ i, h'.waiting i = h.waiting i

namespace SameTables

theorem refl (h : LocalHost) : SameTables h h := ⟨fun _ => rfl, fun _ => rfl⟩

theorem trans (ha : SameTables h h₁) (hb : SameTables h₁ h') : SameTables h h' :=
  ⟨fun id => (hb.jobs id).trans (ha.jobs id), fun i => (hb.waiting i).trans (ha.waiting i)⟩

/-- Where the tables are the same, the same attaches wait for each job. -/
theorem pendingFor (hs : SameTables h h') : i ∈ h'.pendingFor job ↔ i ∈ h.pendingFor job := by
  rw [mem_pendingFor_iff_waiting, mem_pendingFor_iff_waiting, hs.waiting]

/-- Changing one job leaves the tables as they are, if the job goes on as it was described. -/
theorem mapJob (h : LocalHost) (id : String) {f : LocalJob → LocalJob} (hid : ∀ j, j.spec.id = id → (f j).spec.id = id)
    (hf : ∀ j, h.job? id = some j → (f j).spec = j.spec) : SameTables h (h.mapJob id f) := by
  refine ⟨fun x => ?_, fun i => rfl⟩
  rw [job?_mapJob_of_id h id x hid]
  cases hj : h.job? x with
  | none => rfl
  | some j =>
    by_cases hx : x = id
    · subst hx
      simp [hf j hj]
    · simp [hx]

end SameTables

/-- Only an attach brings one. -/
theorem step_size (hm : h.step m = some h') (hk : m.keepsTables = true) : h'.attaches.size = h.attaches.size := by
  cases step_moved hm with
  | submitted | spawned | spawnFailed | attached | detached => cases hk
  | leftAlone | stopped | emitted | outputClosed | exited => rfl
  | served | parted | carried | client => exact Array.size_setIfInBounds ..

/-- A move that leaves the tables as they are leaves an attach waiting, or not. -/
theorem AttachStep.waiting {a' : Attachment} (hstep : AttachStep h i a m a') (hk : m.keepsTables = true) :
    a'.standing = .pending ↔ a.standing = .pending := by
  cases hstep with
  | joined | refused | withdrawn => cases hk
  | served j s s' incoming hj hs => simp [hs]
  | client | parted | carried | kept => exact Iff.rfl

/-- What a host does by itself, what its processes do and what clients do leaves its tables as they are. -/
theorem sameTables_step (hm : h.step m = some h') (hk : m.keepsTables = true) : SameTables h h' where
  jobs id := by
    have hmapped {x : String} {f : LocalJob → LocalJob} (hf : ∀ j, (f j).spec = j.spec) :
        ((h.mapJob x f).job? id).map (·.spec) = (h.job? id).map (·.spec) :=
      (SameTables.mapJob h x (fun j hj => by rw [hf, hj]) fun j _ => hf j).jobs id
    cases step_moved hm with
    | submitted | spawned | spawnFailed | attached | detached => cases hk
    | stopped | emitted | outputClosed | exited => exact hmapped fun _ => rfl
    | carried _ _ _ _ _ f _ hf => exact hmapped fun j => (hf j).1
    | leftAlone | served | parted | client => rfl
  waiting i := by
    unfold LocalHost.waiting
    cases ha : h.attaches[i]? with
    | none =>
      rw [Array.getElem?_eq_none_iff, ← step_size hm hk, ← Array.getElem?_eq_none_iff] at ha
      rw [ha]
    | some a =>
      obtain ⟨a', ha', hstep⟩ := step_attach hm ha
      rw [ha', Option.bind_some, Option.bind_some, hstep.request]
      simp only [hstep.waiting hk]

/-- What goes on at a host leaves its tables as they are. -/
theorem SameTables.of_works (hw : h.Works h') : SameTables h h' := by
  induction hw with
  | refl => exact .refl h
  | tail _ hstep ih =>
    cases hstep with
    | moved m h' hk hm => exact ih.trans (sameTables_step hm hk)
    | read id j j' hj hspec hstate =>
      have hid : j.spec.id = id := by simpa using List.find?_some hj
      refine ih.trans (.mapJob _ id (fun _ _ => by rw [hspec, hid]) fun k hk => ?_)
      rw [hj] at hk
      cases hk
      exact hspec

end LocalHost

namespace LocalCluster

open LocalHost (SameTables)

variable {c c' c₁ : LocalCluster}

/-- Two states of a cluster have the same hosts, and their tables are the same. -/
def SameTables (c c' : LocalCluster) : Prop := ∀ x, Option.Rel LocalHost.SameTables (c.host? x) (c'.host? x)

namespace SameTables

/-- Where the hosts are the same, so are their tables. -/
theorem of_hosts (hh : c'.hosts = c.hosts) : c.SameTables c' := by
  intro x
  rw [host?, host?, hh]
  exact optionRel_refl .refl _

theorem trans (ha : c.SameTables c₁) (hb : c₁.SameTables c') : c.SameTables c' :=
  fun x => optionRel_trans LocalHost.SameTables.trans (ha x) (hb x)

/-- What goes on in a cluster leaves the tables of its hosts as they are. -/
theorem of_works (hw : c.Works c') : c.SameTables c' := fun x => optionRel_imp LocalHost.SameTables.of_works (hw.hosts x)

end SameTables

end LocalCluster

end JobPlane
