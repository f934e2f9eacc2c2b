import Mathlib.Data.List.Basic
import JobPlane.Proofs.Local.Waiting

/-!
# Who asked first for a job's input

An attach wants a job's input while it waits for the job and has asked for its input. None ever begins to want it that was accepted
before, and one goes on to want it until those who wait for the job are told something. So the attach that is the earliest one to want it
is the earliest one for as long as nothing is told (`earliestInput_run`), whoever else attaches in the meantime.
-/

namespace JobPlane.LocalHost

/-! ## What happens at a host -/

/-- What happens at a host: it makes a move, or the process of a job reads its standard input, at most `n` bytes. -/
inductive Event
  | move (m : Move)
  | read (id : String) (n : Nat)

/-- A host after something has happened at it, where that is possible. -/
def after (h : LocalHost) : Event → Option LocalHost
  | .move m => h.step m
  | .read id n => (h.job? id).map fun j => h.mapJob id fun _ => (LocalCluster.readInput n j).2

/-- What those who wait for a job are told by something that happens, if it tells them something. -/
def told (job : String) : Event → Option Awaited
  | .move m => answer job m
  | .read _ _ => none

variable {h h' : LocalHost} {job : String} {i k : Nat} {e : Event} {es : List Event}

/-- A process that reads changes no attach. -/
theorem attaches_of_read {id : String} {n : Nat} (he : h.after (.read id n) = some h') : h'.attaches = h.attaches := by
  obtain ⟨j, -, rfl⟩ := Option.map_eq_some_iff.mp he
  rfl

/-- No attach is lost. -/
theorem size_le (he : h.after e = some h') : h.attaches.size ≤ h'.attaches.size := by
  cases e with
  | move m =>
    by_contra hless
    have ha : h.attaches[h'.attaches.size]? = some h.attaches[h'.attaches.size] := Array.getElem?_eq_getElem (by omega)
    obtain ⟨a', ha', -⟩ := step_attach he ha
    simp at ha'
  | read id n => exact Nat.le_of_eq (by rw [attaches_of_read he])

/-! ## Wanting input -/

/-- An attach waits for a job and has asked for its input. -/
def Wants (h : LocalHost) (job : String) (i : Nat) : Prop :=
  ∃ a, h.attaches[i]? = some a ∧ a.standing = .pending ∧ a.request.job = job ∧ a.request.flags.stdin = true

/-- Only an attach that was accepted wants anything. -/
theorem Wants.lt (hw : h.Wants job i) : i < h.attaches.size := by
  obtain ⟨a, ha, -⟩ := hw
  exact (Array.getElem?_eq_some_iff.mp ha).1

/-- The earliest attach that waits for a job's input is the first one that wants it. -/
theorem earliestInput_eq_some_iff : h.earliestInput job = some i ↔ h.Wants job i ∧ ∀ k < i, ¬h.Wants job k := by
  have hwants (k : Nat) : ((h.attaches[k]?).any (·.isPendingFor job) = true ∧ (h.attaches[k]?).any (·.request.flags.stdin) = true) ↔
      h.Wants job k := by
    unfold Wants
    cases h.attaches[k]? with
    | none => simp
    | some a => simp [Attachment.isPendingFor, and_assoc]
  rw [earliestInput, pendingFor, List.find?_filter, List.find?_range_eq_some]
  simp only [hwants, decide_eq_true_eq, List.mem_range, Bool.not_eq_true', decide_eq_false_iff_not]
  constructor
  · rintro ⟨hw, -, hfirst⟩
    exact ⟨hw, hfirst⟩
  · rintro ⟨hw, hfirst⟩
    exact ⟨hw, hw.lt, hfirst⟩

/-- An attach that wants a job's input after something has happened wanted it before, if it was there. -/
theorem wants_before (he : h.after e = some h') (hi : i < h.attaches.size) (hw : h'.Wants job i) : h.Wants job i := by
  obtain ⟨a', ha', hp, hjob, hstdin⟩ := hw
  cases e with
  | move m =>
    have ha : h.attaches[i]? = some h.attaches[i] := Array.getElem?_eq_getElem hi
    obtain ⟨a'', ha'', hstep⟩ := step_attach he ha
    obtain rfl : a' = a'' := Option.some.inj (ha'.symm.trans ha'')
    rw [hstep.request] at hjob hstdin
    refine ⟨_, ha, ?_, hjob, hstdin⟩
    by_contra hanswered
    have hsame := hstep.awaited hanswered
    rw [hp] at hsame
    exact hanswered (Standing.awaited_eq_timedOut.mp hsame.symm)
  | read id n => exact ⟨a', attaches_of_read he ▸ ha', hp, hjob, hstdin⟩

/-- An attach goes on to want a job's input exactly if those who wait for the job are told nothing. -/
theorem wants_after_iff (he : h.after e = some h') (hw : h.Wants job i) : h'.Wants job i ↔ told job e = none := by
  obtain ⟨a, ha, hp, hjob, hstdin⟩ := hw
  cases e with
  | move m =>
    obtain ⟨a', ha', hrequest, hawaited⟩ := step_pending he ha hp
    rw [hjob] at hawaited
    have hwaits : a'.standing = .pending ↔ answer job m = none := by
      rw [← Standing.awaited_eq_timedOut, hawaited]
      cases hanswer : answer job m with
      | none => simp
      | some w =>
        simp only [Option.getD_some, reduceCtorEq, iff_false]
        rintro rfl
        exact answer_ne_timedOut hanswer
    rw [told, ← hwaits]
    constructor
    · rintro ⟨b, hb, hbp, -⟩
      rw [ha'] at hb
      cases hb
      exact hbp
    · intro hp'
      exact ⟨a', ha', hp', hrequest ▸ hjob, hrequest ▸ hstdin⟩
  | read id n => exact iff_of_true ⟨a, attaches_of_read he ▸ ha, hp, hjob, hstdin⟩ rfl

/-- An attach that wants a job's input at the end of a run wanted it at its beginning, if it was there. -/
theorem wants_before_run (hrun : follow after h es = some h') (hi : i < h.attaches.size) (hw : h'.Wants job i) : h.Wants job i := by
  induction es generalizing h with
  | nil =>
    cases hrun
    exact hw
  | cons e es ih =>
    obtain ⟨h₁, he, hrun⟩ := follow_cons_eq_some.mp hrun
    exact wants_before he hi (ih hrun (Nat.lt_of_lt_of_le hi (size_le he)))

/-- An attach goes on to want a job's input through a run exactly if nothing in it tells something to those who wait for the job. -/
theorem wants_run_iff (hrun : follow after h es = some h') (hw : h.Wants job i) :
    h'.Wants job i ↔ ∀ e ∈ es, told job e = none := by
  induction es generalizing h with
  | nil =>
    cases hrun
    simpa using hw
  | cons e es ih =>
    obtain ⟨h₁, he, hrun⟩ := follow_cons_eq_some.mp hrun
    rw [List.forall_mem_cons]
    by_cases hquiet : told job e = none
    · rw [ih hrun ((wants_after_iff he hw).mpr hquiet), and_iff_right hquiet]
    · -- it does not want it any more, and never again
      refine iff_of_false (fun hw' => ?_) fun hall => hquiet hall.1
      have hi := Nat.lt_of_lt_of_le hw.lt (size_le he)
      exact hquiet ((wants_after_iff he hw).mp (wants_before_run hrun hi hw'))

/-- The earliest attach that waits for a job's input stays the earliest one exactly as long as nothing is told to those who wait for the
job. -/
theorem earliestInput_run (hrun : follow after h es = some h') (hfirst : h.earliestInput job = some i) :
    h'.earliestInput job = some i ↔ ∀ e ∈ es, told job e = none := by
  obtain ⟨hw, hnone⟩ := earliestInput_eq_some_iff.mp hfirst
  rw [earliestInput_eq_some_iff, ← wants_run_iff hrun hw, and_iff_left_iff_imp]
  intro _ k hk hw'
  exact hnone k hk (wants_before_run hrun (Nat.lt_trans hk hw.lt) hw')

end JobPlane.LocalHost
