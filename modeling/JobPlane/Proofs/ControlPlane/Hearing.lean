import JobPlane.Proofs.Frame.Routes
import JobPlane.Proofs.Local.Cluster
import JobPlane.Request.Log

/-!
# What a log hears of its job

A log's copy reads what its attach is sent. `Heard` ties what it has read to the job's log: while it reads, the attach follows the job,
and where it has found the end it has read what the attach's server did not pass over. It is kept by every move of the attach's host that
is none of the log's own (`Heard.step`), and by the log's own reads (`Heard.read`).
-/

namespace JobPlane

open LocalHost

variable {job : String} {i : Nat} {steady : Prop} {told released lagged : Bool} {intake : Splitter.Intake} {h h' : LocalHost} {a : Attachment}

/-- A host knows a job, and whether it has a terminal is as told. -/
def Tells (job : String) (told : Bool) (h : LocalHost) : Prop := ∃ j, h.job? job = some j ∧ j.spec.config.tty = told

/-- A job is as told until it fails to start. -/
theorem Tells.step (ht : Tells job told h) {m : LocalHost.Move} (hm : h.step m = some h')
    (hno : ∀ reason, m ≠ .spawnFailed job reason) : Tells job told h' := by
  obtain ⟨j, hj, htty⟩ := ht
  obtain ⟨j', hj', -, hspec, -⟩ := step_job hm hj (Or.inr hno)
  exact ⟨j', hj', by rw [hspec, htty]⟩

/-- What a log's copy has read of its attach, and whether it has let go of it. A job that is `steady`, which is to say that it does not
fail to start, is as the log was told. -/
structure Heard (job : String) (steady : Prop) (told : Bool) (intake : Splitter.Intake) (released lagged : Bool) (i : Nat)
    (h : LocalHost) : Prop where
  present : ∃ a, h.attaches[i]? = some a
  tells : steady → Tells job told h
  going : intake.stop = none → released = false →
    ∃ s tty, Follower job i (OpenLog.attachFlags true) tty lagged h s ∧ s.received = intake.got
  found : intake.stop = some (.ok ()) → ∃ tty, Followed job i tty lagged intake.got h

namespace Heard

/-- What was heard of an attach stays so while its client does nothing. -/
theorem step (hh : Heard job steady told intake released lagged i h) {m : LocalHost.Move} (hm : h.step m = some h')
    (hclient : ∀ f, m ≠ .client i f) (hno : steady → ∀ reason, m ≠ .spawnFailed job reason) (hfit : ∀ c, m = .emit job c → c.Fits) :
    Heard job steady told intake released (lagged || h.passesOver i m) i h' where
  present := by
    obtain ⟨a, ha⟩ := hh.present
    obtain ⟨a', ha', -⟩ := step_attach hm ha
    exact ⟨a', ha'⟩
  tells hsteady := (hh.tells hsteady).step hm (hno hsteady)
  going hstop hreleased := by
    obtain ⟨s, tty, hf, hgot⟩ := hh.going hstop hreleased
    obtain ⟨s', hf', hreceived⟩ := hf.step hm (fun f a hf' => absurd hf' (hclient f)) hfit
    exact ⟨s', tty, hf', by rw [hreceived, heardIn_of_ne hclient, List.append_nil, hgot]⟩
  found hstop := by
    obtain ⟨tty, hf⟩ := hh.found hstop
    rw [hf.passesOver, Bool.or_false]
    exact ⟨tty, hf.step hm⟩

/-- Where a job is steady, its log was told rightly whether it has a terminal. -/
theorem told_eq (hh : Heard job steady told intake released lagged i h) (hsteady : steady) {j : LocalJob} (hj : h.job? job = some j) :
    j.spec.config.tty = told := by
  obtain ⟨j', hj', htty⟩ := hh.tells hsteady
  rw [hj] at hj'
  cases hj'
  exact htty

/-- The near end of an attach's stream as its client leaves it. -/
theorem attach_client (hm : h.step (.client i f) = some h') (ha : h.attaches[i]? = some a) :
    h'.attaches[i]? = some { a with link := f a.link } := by
  obtain ⟨a', ha', hstep⟩ := step_attach hm ha
  cases hstep with
  | client => exact ha'
  | kept _ _ hclient => exact absurd rfl (hclient f)

/-- What was heard of an attach is what was heard before and what its client reads now. -/
theorem client (hh : Heard job steady told intake released lagged i h) (n : Nat) (bs : Bytes) {p : Pipe} {f : Link → Link}
    (hm : h.step (.client i f) = some h') (ha : h.attaches[i]? = some a) (hin : (f a.link).incoming = p)
    (hbuf : a.link.incoming.buffer = bs ++ p.buffer) (hp : p = { a.link.incoming with buffer := a.link.incoming.buffer.drop n })
    (hstop : intake.stop = none) (hreleased : released = false) :
    ∃ s tty, Follower job i (OpenLog.attachFlags true) tty lagged h' s ∧ s.received = intake.got ++ bs ∧ s.out = p := by
  obtain ⟨s, tty, hf, hgot⟩ := hh.going hstop hreleased
  obtain ⟨s', hf', hreceived⟩ := hf.step hm (fun g b hg hb => by
    cases hg
    rw [ha] at hb
    cases hb
    exact ⟨n, hin.trans hp⟩) (by simp)
  have hnow : h.heardIn i (.client i f) = bs := by
    simp [heardIn, ha, hin, hbuf]
  obtain ⟨a', ha', -, -, hout⟩ := hf'.shows.attach
  rw [attach_client hm ha] at ha'
  cases ha'
  simp only [passesOver_of_ne (m := .client i f) (i := i) (h := h) (by simp), Bool.or_false] at hf'
  exact ⟨s', tty, hf', by rw [hreceived, hnow, hgot], hout.symm.trans hin⟩

/-- What was heard of an attach stays so where its client leaves what comes to it as it is. -/
theorem keep (hh : Heard job steady told intake released lagged i h) {f : Link → Link} (hm : h.step (.client i f) = some h')
    (ha : h.attaches[i]? = some a) (hin : (f a.link).incoming = a.link.incoming) : Heard job steady told intake released lagged i h' where
  present := ⟨_, attach_client hm ha⟩
  tells hsteady := (hh.tells hsteady).step hm (by simp)
  going hstop hreleased := by
    obtain ⟨s, tty, hf, hgot, -⟩ := hh.client 0 [] hm ha hin rfl rfl hstop hreleased
    exact ⟨s, tty, hf, by rw [hgot, List.append_nil]⟩
  found hstop := by
    obtain ⟨tty, hf⟩ := hh.found hstop
    exact ⟨tty, hf.step hm⟩

/-- A read of a log's copy is heard. -/
theorem read (hh : Heard job steady told intake released lagged i h) (hstop : intake.stop = none) (hreleased : released = false)
    {n : Nat} {r : Reading} {p : Pipe} {f : Link → Link} (hread : a.link.incoming.read n = (r, p))
    (hm : h.step (.client i f) = some h') (ha : h.attaches[i]? = some a) (hin : (f a.link).incoming = p) :
    Heard job steady told (intake.note r) released lagged i h' := by
  cases r with
  | data bs =>
    obtain ⟨hbuf, hp, -, -⟩ := Pipe.read_data hread
    obtain ⟨s, tty, hf, hgot, -⟩ := hh.client n bs hm ha hin hbuf hp hstop hreleased
    refine ⟨⟨_, attach_client hm ha⟩, fun hsteady => (hh.tells hsteady).step hm (by simp), fun _ _ => ⟨s, tty, hf, hgot⟩, fun hover => ?_⟩
    simp [Splitter.Intake.note, hstop] at hover
  | eof =>
    obtain ⟨hclosed, hbuf, rfl⟩ := Pipe.read_eof hread
    obtain ⟨s, tty, hf, hgot, hout⟩ := hh.client 0 [] hm ha hin rfl rfl hstop hreleased
    refine ⟨⟨_, attach_client hm ha⟩, fun hsteady => (hh.tells hsteady).step hm (by simp), fun hgoing => (by cases hgoing), fun _ => ⟨tty, ?_⟩⟩
    rw [List.append_nil] at hgot
    show Followed job i tty lagged intake.got h'
    rw [← hgot]
    exact hf.followed ⟨rfl, rfl⟩ rfl rfl (by rw [hout, hclosed]) (by rw [hout, hbuf])
  | failed e => exact absurd hread Pipe.read_ne_failed
  | waiting =>
    have hsame : p = a.link.incoming := by
      obtain ⟨-, hbuf⟩ := Pipe.read_waiting hread
      unfold Pipe.read at hread
      rw [hbuf] at hread
      exact (Prod.mk.inj hread).2.symm
    exact hh.keep hm ha (hin.trans hsame)

/-- What was heard of an attach whose client lets go of it. -/
theorem letGo (hh : Heard job steady told intake released lagged i h) {f : Link → Link} (hm : h.step (.client i f) = some h')
    (ha : h.attaches[i]? = some a) : Heard job steady told intake true lagged i h' where
  present := ⟨_, attach_client hm ha⟩
  tells hsteady := (hh.tells hsteady).step hm (by simp)
  going _ hreleased := by cases hreleased
  found hstop := by
    obtain ⟨tty, hf⟩ := hh.found hstop
    exact ⟨tty, hf.step hm⟩

end Heard

end JobPlane
