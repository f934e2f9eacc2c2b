import JobPlane.ControlPlane.Basic
import JobPlane.Proofs.ControlPlane.Hearing

/-!
# The plan that opens a log

What is asked to open a log, in order, and what each answer leads to (`OpenLog.dials_openLog`): a connection, an attach, the attach once
more where the job has not started, and then that it is confirmed. A log comes only of an attach that is joined or confirmed; with every
other answer the plan can only be refused (`Plan.Refused`).
-/

namespace JobPlane

/-- A plan that can only be refused, whatever it is answered. -/
inductive Plan.Refused {α : Type} : Plan (Except Refusal α) → Prop
  | done (e : Refusal) : Refused (.done (.error e))
  | ask {q : Ask} {next : q.Answer → Plan (Except Refusal α)} (h : ∀ r, Refused (next r)) : Refused (.ask q next)

/-- A plan that is refused closes its connection, and is refused. -/
theorem Plan.Refused.closing {α : Type} {p : Plan (Except Refusal α)} (hp : p.Refused) (c : Connection) :
    (Plan.closingOnRefusal c p).Refused := by
  induction hp with
  | done e => exact .ask fun _ => .done e
  | ask _ ih => exact .ask ih

namespace OpenLog

variable {ms : Nat} {tail : Bool} {id : String} {j : JobId} {n : Connection} {s : Session} {p : Plan (Except Refusal OpenLog)}

/-- What a log asks of its job's host. -/
def request (j : JobId) (tail : Bool) : AttachRequest := { job := j.job, flags := attachFlags tail }

/-- A plan that waits for a log's session to be confirmed: it gives the log once it is. -/
def Confirms (ms : Nat) (log : OpenLog) (p : Plan (Except Refusal OpenLog)) : Prop :=
  ∃ next, p = .ask (.awaitReady log.session ms) next ∧ next .ready = .done (.ok log) ∧ ∀ r, r ≠ .ready → (next r).Refused

/-- A plan that attaches to a job, now waiting for it if it has not started. -/
def Waits (ms : Nat) (tail : Bool) (j : JobId) (n : Connection) (p : Plan (Except Refusal OpenLog)) : Prop :=
  ∃ next, p = .ask (.attach n (request j tail) true) next ∧ (∀ e, (next (.error e)).Refused) ∧
    (∀ s : Session, s.pending = true → Confirms ms ⟨j, s, n⟩ (next (.ok s))) ∧
    ∀ s : Session, s.pending = false → next (.ok s) = .done (.ok ⟨j, s, n⟩)

/-- A plan that attaches to a job, and once more if the job has not started. -/
def Attaches (ms : Nat) (tail : Bool) (j : JobId) (n : Connection) (p : Plan (Except Refusal OpenLog)) : Prop :=
  ∃ next, p = .ask (.attach n (request j tail) false) next ∧ (∀ s, next (.ok s) = .done (.ok ⟨j, s, n⟩)) ∧
    ∀ e, e = .attachWouldWait ∧ Waits ms tail j n (next (.error e)) ∨ (next (.error e)).Refused

/-- A plan that connects to a job's host, and then attaches to the job. -/
def Dials (ms : Nat) (tail : Bool) (j : JobId) (p : Plan (Except Refusal OpenLog)) : Prop :=
  ∃ next, p = .ask (.dial j.host) next ∧ (∀ e, (next (.error e)).Refused) ∧ ∀ n, Attaches ms tail j n (next (.ok n))

/-- The plan that attaches to a job that has not started. -/
theorem waits_attachWaiting (ms : Nat) (tail : Bool) (j : JobId) (n : Connection) :
    Waits ms tail j n (Plan.closingOnRefusal n do
      match ← attachWaiting ms n (request j tail) with
      | .ok s => return .ok ⟨j, s, n⟩
      | .error r => return .error r) := by
  refine ⟨_, rfl, fun e => (Plan.Refused.done _).closing n, fun s hs => ?_, fun s hs => ?_⟩
  · obtain ⟨serial, pending, tty⟩ := s
    cases hs
    refine ⟨_, rfl, rfl, fun r hr => ?_⟩
    cases r with
    | ready => exact absurd rfl hr
    | refused reason => exact .ask fun _ => .ask fun _ => .done _
    | closed => exact .ask fun _ => .ask fun _ => .done _
    | timedOut => exact .ask fun _ => .ask fun _ => .ask fun _ => .done _
  · obtain ⟨serial, pending, tty⟩ := s
    cases hs
    rfl

/-- The plan that attaches to a job. -/
theorem attaches_attach (ms : Nat) (tail : Bool) (j : JobId) (n : Connection) :
    Attaches ms tail j n (Plan.closingOnRefusal n (OpenLog.attach ms tail j n)) := by
  refine ⟨_, rfl, fun s => rfl, fun e => ?_⟩
  by_cases he : e = .attachWouldWait
  · subst he
    exact Or.inl ⟨rfl, waits_attachWaiting ms tail j n⟩
  · right
    cases e <;> first | exact absurd rfl he | exact (Plan.Refused.done _).closing n

/-- The plan that opens a log asks for a connection, an attach, and the attach once more if the job has not started. -/
theorem dials_openLog (ms : Nat) (tail : Bool) (hj : JobId.parse id = some j) : Dials ms tail j (openLog ms id tail) := by
  unfold openLog
  rw [hj]
  exact ⟨_, rfl, fun e => .done _, fun n => attaches_attach ms tail j n⟩

/-- The plan that opens a log of an ID that names no job is refused. -/
theorem refused_openLog (ms : Nat) (tail : Bool) (hj : JobId.parse id = none) : (openLog ms id tail).Refused := by
  unfold openLog
  rw [hj]
  exact .done _

end OpenLog

/-! ## What is reached -/

namespace Tailing

open LocalHost LocalCluster

/-- The session that an answer brings. -/
def brought : (q : Ask) → q.Answer → Option Session
  | .attach _ _ _, .ok s => some s
  | _, _ => none

/-- A host knows a job. -/
def Knows (c : LocalCluster) (j : JobId) : Prop := ∃ h told, c.host? j.host = some h ∧ Tells j.job told h

/-- What is left of the plan that opens a log, and what has been reached with it: at last an attach that is being served. -/
inductive Opening (ms : Nat) (id : String) (steady : Prop) (c : LocalCluster) (lagged : Bool) :
    Plan (Except Refusal OpenLog) → Option Session → Prop
  | dials {j : JobId} {p : Plan (Except Refusal OpenLog)} (hj : JobId.parse id = some j) (hp : OpenLog.Dials ms true j p)
      (hlagged : lagged = false) : Opening ms id steady c lagged p none
  | attaches {j : JobId} {n : Connection} {p : Plan (Except Refusal OpenLog)} (hj : JobId.parse id = some j)
      (hn : n.host = j.host) (hp : OpenLog.Attaches ms true j n p) (hlagged : lagged = false) : Opening ms id steady c lagged p none
  | waits {j : JobId} {n : Connection} {p : Plan (Except Refusal OpenLog)} (hj : JobId.parse id = some j)
      (hn : n.host = j.host) (hp : OpenLog.Waits ms true j n p) (hlagged : lagged = false) (hknown : steady → Knows c j) :
      Opening ms id steady c lagged p none
  | confirms {j : JobId} {n : Connection} {s : Session} {p : Plan (Except Refusal OpenLog)} (hj : JobId.parse id = some j)
      (hp : OpenLog.Confirms ms ⟨j, s, n⟩ p)
      (hl : c.Lies s j.host fun i h =>
        Registered j.job i (OpenLog.attachFlags true) lagged h ∧ (steady → Tells j.job s.tty h)) :
      Opening ms id steady c lagged p (some s)
  | opened {j : JobId} {n : Connection} {s : Session} (hj : JobId.parse id = some j)
      (hl : c.Lies s j.host (Heard j.job steady s.tty {} false lagged)) :
      Opening ms id steady c lagged (.done (.ok ⟨j, s, n⟩)) (some s)

/-- An attach that is registered and joined is heard from the start. -/
theorem heard_of_registered {job : String} {steady : Prop} {told lagged : Bool} {i : Nat} {h : LocalHost} {a : Attachment}
    {server : Server} (hr : Registered job i (OpenLog.attachFlags true) lagged h) (htold : steady → Tells job told h)
    (ha : h.attaches[i]? = some a) (hst : a.standing = .joined server) : Heard job steady told {} false lagged i h := by
  obtain ⟨s', tty, hf, hnone⟩ := hr.follower ha hst
  exact ⟨⟨a, ha⟩, htold, fun _ _ => ⟨s', tty, hf, hnone⟩, fun hover => by cases hover⟩

/-- A host goes on to know a job that does not fail to start. -/
theorem Knows.moves {c c' : LocalCluster} {j : JobId} {x : String} {m : LocalHost.Move} (hk : Knows c j) (hm : HostMoves c x m c')
    (hno : x = j.host → ∀ reason, m ≠ .spawnFailed j.job reason) : Knows c' j := by
  obtain ⟨h, told, hh, ht⟩ := hk
  by_cases hx : j.host = x
  · subst hx
    obtain ⟨g, h', hg, hmove, hh'⟩ := hm.host
    rw [hh] at hg
    cases hg
    exact ⟨h', told, hh', ht.step hmove (hno rfl)⟩
  · exact ⟨h, told, (hm.others _ hx).trans hh, ht⟩

/-- A host's move goes on with what was reached. -/
theorem Opening.moves {ms : Nat} {id : String} {steady : Prop} {c c' : LocalCluster} {lagged : Bool}
    {p : Plan (Except Refusal OpenLog)} {session : Option Session} {x : String} {m : LocalHost.Move}
    (ho : Opening ms id steady c lagged p session) (horderly : c.Orderly) (hm : HostMoves c x m c') (hs : c'.sessions = c.sessions)
    (hclient : session.any (c.touches · x m) = false)
    (hsteady : steady → ∀ j, JobId.parse id = some j → x = j.host → ∀ reason, m ≠ .spawnFailed j.job reason)
    (hfit : ∀ job f, m = .emit job f → f.Fits) :
    Opening ms id steady c' (lagged || session.any (c.passesOver · x m)) p session := by
  cases ho with
  | dials hj hp hlagged => exact .dials hj hp (by simp [hlagged])
  | attaches hj hn hp hlagged => exact .attaches hj hn hp (by simp [hlagged])
  | waits hj hn hp hlagged hknown =>
    exact .waits hj hn hp (by simp [hlagged]) fun h => (hknown h).moves hm (hsteady h _ hj)
  | @confirms j n s _ hj hp hl =>
    refine .confirms hj hp (hl.moves
      (P := fun b i h => Registered j.job i (OpenLog.attachFlags true) b h ∧ (steady → Tells j.job s.tty h)) hm (by rw [hs]) ?_)
    intro i h h' hi hx hh hmove ⟨hr, htold⟩
    exact ⟨hr.step (horderly _ h hh).1 hmove (ne_client_of_untouched hclient (hx ▸ hi)) fun f hf => hfit _ f hf,
      fun h => (htold h).step hmove (hsteady h j hj hx)⟩
  | @opened j n s hj hl =>
    refine .opened hj (hl.moves (P := Heard j.job steady s.tty {} false) hm (by rw [hs]) ?_)
    intro i h h' hi hx hh hmove hheard
    exact hheard.step hmove (ne_client_of_untouched hclient (hx ▸ hi)) (fun h => hsteady h j hj hx) fun f hf => hfit _ f hf

/-- An attach that is accepted lies with its host, registered there, and it is heard from the start if it does not have to wait. -/
theorem lies_of_attach {c c' : LocalCluster} {j : JobId} {n : Connection} {s : Session} {steady : Prop} {wait : Bool}
    (horderly : c.Orderly) (hn : n.host = j.host) (hknown : steady → Knows c j)
    (ha : c.attach n (OpenLog.request j true) wait = (.ok s, c')) :
    c'.Orderly ∧
      c'.Lies s j.host (fun i h =>
        Registered j.job i (OpenLog.attachFlags true) false h ∧ (steady → Tells j.job s.tty h)) ∧
      (s.pending = false ∨ wait = false → c'.Lies s j.host (Heard j.job steady s.tty {} false false)) := by
  obtain ⟨h, i, h', hh, hattach, hm, hi, hpending, htty⟩ := attach_eq_ok ha
  rw [hn] at hi hh hm
  obtain ⟨g, g', hg, hmove, hg'⟩ := hm.host
  rw [hh] at hg
  cases hg
  have htold (hsteady : steady) : Tells j.job s.tty g' := by
    obtain ⟨g, told, hg, job, hjob, -⟩ := hknown hsteady
    rw [hh] at hg
    cases hg
    refine Tells.step ⟨job, hjob, ?_⟩ hmove (by simp)
    rw [htty]
    simp [hasTerminal, OpenLog.request, hjob]
  simp only [LocalHost.step, hattach, Except.toOption, Option.map_some, Option.some.injEq] at hmove
  subst hmove
  have hr := registered_of_attach (horderly _ h hh).2 hattach
  refine ⟨horderly.moves hm (by simp), ⟨i, h', hi, hg', hr, htold⟩, fun hnow => ⟨i, h', hi, hg', ?_⟩⟩
  obtain ⟨a, ha', ⟨hst, hwait⟩ | ⟨server, hst⟩⟩ := standing_of_attach hattach
  · rcases hnow with hno | hno
    · simp [hpending, ha', hst] at hno
    · simp [hwait] at hno
  · exact heard_of_registered hr htold ha' hst

section Answers

variable {ms : Nat} {id : String} {steady : Prop} {lagged : Bool} {plane : ControlPlane LocalCluster} {j : JobId} {n : Connection}
  {s : Session} {session : Option Session} {q : Ask} {next : q.Answer → Plan (Except Refusal OpenLog)}

/-- What an answer of the control plane comes to: it goes on with what was reached, or the plan can only be refused. -/
def GoesOn (ms : Nat) (id : String) (steady : Prop) (plane : ControlPlane LocalCluster) (lagged : Bool) (session : Option Session)
    (q : Ask) (next : q.Answer → Plan (Except Refusal OpenLog)) : Prop :=
  (next (ControlPlane.answer q plane).1).Refused ∨
    (ControlPlane.answer q plane).2.cluster.Orderly ∧
      Opening ms id steady (ControlPlane.answer q plane).2.cluster lagged (next (ControlPlane.answer q plane).1)
        ((brought q (ControlPlane.answer q plane).1).or session)

/-- The host is dialled. -/
theorem goesOn_dial (horderly : plane.cluster.Orderly) (hj : JobId.parse id = some j) (hp : OpenLog.Dials ms true j (.ask q next)) :
    GoesOn ms id steady plane false none q next := by
  obtain ⟨next', heq, herr, hok⟩ := hp
  cases heq
  simp only [GoesOn, ControlPlane.answer, ControlPlane.onCluster]
  cases hd : Cluster.dial _ plane.cluster with
  | mk r c' =>
    obtain ⟨hhosts, hhost⟩ := dial_eq hd
    cases r with
    | error e => exact Or.inl (herr e)
    | ok n => exact Or.inr ⟨horderly.stays hhosts, .attaches hj (hhost n rfl) (hok n) rfl⟩

/-- The log is attached to, without waiting. -/
theorem goesOn_attach (horderly : plane.cluster.Orderly) (hj : JobId.parse id = some j) (hn : n.host = j.host)
    (hp : OpenLog.Attaches ms true j n (.ask q next)) : GoesOn ms id steady plane false none q next := by
  obtain ⟨next', heq, hok, herr⟩ := hp
  cases heq
  simp only [GoesOn, ControlPlane.answer, ControlPlane.onCluster]
  cases ha : Cluster.attach n (OpenLog.request j true) false plane.cluster with
  | mk r c' =>
    -- a job that can be attached to, or will be once it has started, is known
    have hknown (hr : r.isOk ∨ r = .error .attachWouldWait) : Knows plane.cluster j := by
      obtain ⟨h, job, hh, hjob⟩ := known_of_attach ha hr
      exact ⟨h, _, hn ▸ hh, job, hjob, rfl⟩
    cases r with
    | ok s =>
      obtain ⟨horderly', -, hheard⟩ := lies_of_attach horderly hn (fun _ : steady => hknown (Or.inl rfl)) ha
      refine Or.inr ⟨horderly', ?_⟩
      simp only [hok, brought, Option.some_or]
      exact .opened hj (hheard (Or.inr rfl))
    | error e =>
      have hsame : c' = plane.cluster := attach_eq_error ha
      subst hsame
      rcases herr e with ⟨rfl, hw⟩ | hrefused
      · exact Or.inr ⟨horderly, .waits hj hn hw rfl fun _ => hknown (Or.inr rfl)⟩
      · exact Or.inl hrefused

/-- The log is attached to once more, now waiting. -/
theorem goesOn_wait (horderly : plane.cluster.Orderly) (hj : JobId.parse id = some j) (hn : n.host = j.host)
    (hknown : steady → Knows plane.cluster j) (hp : OpenLog.Waits ms true j n (.ask q next)) :
    GoesOn ms id steady plane false none q next := by
  obtain ⟨next', heq, herr, hpending, hjoined⟩ := hp
  cases heq
  simp only [GoesOn, ControlPlane.answer, ControlPlane.onCluster]
  cases ha : Cluster.attach n (OpenLog.request j true) true plane.cluster with
  | mk r c' =>
    cases r with
    | ok s =>
      obtain ⟨horderly', hregistered, hheard⟩ := lies_of_attach horderly hn hknown ha
      refine Or.inr ⟨horderly', ?_⟩
      simp only [brought, Option.some_or]
      cases hs : s.pending with
      | true => exact .confirms hj (hpending s hs) hregistered
      | false =>
        rw [hjoined s hs]
        exact .opened hj (hheard (Or.inl hs))
    | error e => exact Or.inl (herr e)

/-- The attach is confirmed. -/
theorem goesOn_confirm (horderly : plane.cluster.Orderly) (hj : JobId.parse id = some j)
    (hl : plane.cluster.Lies s j.host fun i h =>
      Registered j.job i (OpenLog.attachFlags true) lagged h ∧ (steady → Tells j.job s.tty h))
    (hp : OpenLog.Confirms ms ⟨j, s, n⟩ (.ask q next)) : GoesOn ms id steady plane lagged (some s) q next := by
  obtain ⟨next', heq, hready, hother⟩ := hp
  cases heq
  simp only [GoesOn, ControlPlane.answer, ControlPlane.onCluster, Cluster.awaitReady]
  cases hr : plane.cluster.awaited s with
  | ready =>
    refine Or.inr ⟨horderly, ?_⟩
    rw [hready]
    obtain ⟨i, h, hi, hh, hreg, htold⟩ := hl
    obtain ⟨a, server, ha, hst⟩ := joined_of_awaited hr
    simp only [attachment?, hi, hh, Option.bind_eq_bind, Option.bind_some] at ha
    exact .opened hj ⟨i, h, hi, hh, heard_of_registered hreg htold ha hst⟩
  | _ => exact Or.inl (hother _ (by simp))

/-- An answer goes on with what was reached, or the plan can only be refused. -/
theorem Opening.asked (ho : Opening ms id steady plane.cluster lagged (.ask q next) session) (horderly : plane.cluster.Orderly) :
    GoesOn ms id steady plane lagged session q next := by
  cases ho with
  | dials hj hp hlagged => exact hlagged ▸ goesOn_dial horderly hj hp
  | attaches hj hn hp hlagged => exact hlagged ▸ goesOn_attach horderly hj hn hp
  | waits hj hn hp hlagged hknown => exact hlagged ▸ goesOn_wait horderly hj hn hknown hp
  | confirms hj hp hl => exact goesOn_confirm horderly hj hl hp

/-- A plan that has come to a log has it from an attach that is being served. -/
theorem Opening.of_done {c : LocalCluster} {log : OpenLog} (ho : Opening ms id steady c lagged (.done (.ok log)) session) :
    JobId.parse id = some log.id ∧ session = some log.session ∧
      c.Lies log.session log.id.host (Heard log.id.job steady log.session.tty {} false lagged) := by
  cases ho with
  | opened hj hl => exact ⟨hj, rfl, hl⟩
  | dials _ hp =>
    obtain ⟨_, heq, -⟩ := hp
    cases heq
  | attaches _ _ hp =>
    obtain ⟨_, heq, -⟩ := hp
    cases heq
  | waits _ _ hp =>
    obtain ⟨_, heq, -⟩ := hp
    cases heq
  | confirms _ hp =>
    obtain ⟨_, heq, -⟩ := hp
    cases heq

end Answers

end Tailing

end JobPlane
