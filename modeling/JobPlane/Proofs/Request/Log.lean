import JobPlane.Proofs.ControlPlane.Opening
import JobPlane.Proofs.Plan

/-!
# What opening a log and stopping a job ask

The histories of opening a job's log, whatever is answered (`OpenLog.Over`, `OpenLog.Course`). From them can be read off which calls go
over the connection and in what order (`OpenLog.Course.calls`), and when it comes to it that the attach would have to wait
(`OpenLog.Course.wouldWait`). `killJob_asks` says what is asked to stop a job.
-/

namespace JobPlane

open Plan (Exchange)

/-- Whether an ask is a call to the cluster or over a connection to one of its hosts. To wait for a session, to read from it or to drop it
is none. -/
def Ask.isCall : Ask → Bool
  | .listHosts | .dial _ | .addJobs _ | .attach _ _ _ | .detach _ _ | .stop _ _ | .close _ => true
  | _ => false

namespace Plan

/-- The calls in a history. -/
def calls (h : List Exchange) : List Ask := (h.map (·.asked)).filter Ask.isCall

/-- The calls of two histories, one after the other. -/
theorem calls_append (h₁ h₂ : List Exchange) : calls (h₁ ++ h₂) = calls h₁ ++ calls h₂ := by simp [calls]

/-- A call that is asked is among the calls. -/
theorem mem_calls {h : List Exchange} {x : Exchange} (hx : x ∈ h) (hcall : x.asked.isCall = true) : x.asked ∈ calls h :=
  List.mem_filter.mpr ⟨List.mem_map_of_mem hx, hcall⟩

/-- Whether an attach was answered that it would have to wait; with `wait`, one that may. -/
def Exchange.wouldWait (wait : Bool) : Exchange → Bool
  | ⟨.attach _ _ w, .error .attachWouldWait⟩ => w = wait
  | _ => false

/-- Whether a session was waited for until the time allowed had passed. -/
def Exchange.timesOut : Exchange → Bool
  | ⟨.awaitReady _ _, .timedOut⟩ => true
  | _ => false

end Plan

namespace OpenLog

variable {ms : Nat} {tail : Bool} {j : JobId} {c : Connection} {h : List Exchange}

/-- The histories of attaching to a job's log, over a connection to its host. -/
inductive Over (ms : Nat) (tail : Bool) (j : JobId) (c : Connection) : List Exchange → Except Refusal OpenLog → Prop
  | attached (s : Session) : Over ms tail j c [⟨.attach c (request j tail) false, .ok s⟩] (.ok ⟨j, s, c⟩)
  | notAttached (e : ClusterError) (he : e ≠ .attachWouldWait) :
      Over ms tail j c [⟨.attach c (request j tail) false, .error e⟩] (.error (.ofCluster .attach e))
  | notRegistered (e : ClusterError) :
      Over ms tail j c [⟨.attach c (request j tail) false, .error .attachWouldWait⟩, ⟨.attach c (request j tail) true, .error e⟩]
        (.error (.ofCluster .attach e))
  | started (s : Session) (hs : s.pending = false) :
      Over ms tail j c [⟨.attach c (request j tail) false, .error .attachWouldWait⟩, ⟨.attach c (request j tail) true, .ok s⟩]
        (.ok ⟨j, s, c⟩)
  | confirmed (s : Session) (hs : s.pending = true) :
      Over ms tail j c
        [⟨.attach c (request j tail) false, .error .attachWouldWait⟩, ⟨.attach c (request j tail) true, .ok s⟩,
          ⟨.awaitReady s ms, .ready⟩]
        (.ok ⟨j, s, c⟩)
  | notConfirmed (s : Session) (w : Awaited) (e : Refusal) (hs : s.pending = true) (hw : w ≠ .timedOut) (he : waitRefusal w = some e) :
      Over ms tail j c
        [⟨.attach c (request j tail) false, .error .attachWouldWait⟩, ⟨.attach c (request j tail) true, .ok s⟩,
          ⟨.awaitReady s ms, w⟩, ⟨.drop s, ()⟩]
        (.error e)
  | timedOut (s : Session) (detached : Except ClusterError Unit) (hs : s.pending = true) :
      Over ms tail j c
        [⟨.attach c (request j tail) false, .error .attachWouldWait⟩, ⟨.attach c (request j tail) true, .ok s⟩,
          ⟨.awaitReady s ms, .timedOut⟩, ⟨.detach c j.job, detached⟩, ⟨.drop s, ()⟩]
        (.error .attachWouldWait)

/-- Only an attach that is confirmed is not refused. -/
theorem waitRefusal_eq_none {w : Awaited} : waitRefusal w = none ↔ w = .ready := by
  cases w <;> simp [waitRefusal]

/-- Attaching once more, now waiting, has one of these histories after the first attach was answered. -/
theorem over_of_waiting {r : Except Refusal Session} (hy : (attachWaiting ms c (request j tail)).Yields h r) :
    Over ms tail j c (⟨.attach c (request j tail) false, .error .attachWouldWait⟩ :: h) (r.map fun s => ⟨j, s, c⟩) := by
  obtain ⟨attached, h₁, rfl, hattached⟩ := Plan.yields_call.mp hy
  cases attached with
  | error e =>
    obtain ⟨rfl, rfl⟩ := Plan.yields_done.mp hattached
    exact .notRegistered e
  | ok s =>
    simp only at hattached
    split at hattached
    · rename_i hs
      obtain ⟨w, h₂, rfl, hw⟩ := Plan.yields_call.mp hattached
      by_cases htimed : w = .timedOut
      · subst htimed
        obtain ⟨detached, h₃, rfl, hdetached⟩ := Plan.yields_call.mp hw
        obtain ⟨_, h₄, rfl, hdropped⟩ := Plan.yields_call.mp hdetached
        obtain ⟨rfl, rfl⟩ := Plan.yields_done.mp hdropped
        exact .timedOut s detached hs
      · simp only [htimed, if_false] at hw
        cases he : waitRefusal w with
        | none =>
          obtain rfl := waitRefusal_eq_none.mp he
          obtain ⟨rfl, rfl⟩ := Plan.yields_done.mp hw
          exact .confirmed s hs
        | some e =>
          simp only [he] at hw
          obtain ⟨_, h₄, rfl, hdropped⟩ := Plan.yields_call.mp hw
          obtain ⟨rfl, rfl⟩ := Plan.yields_done.mp hdropped
          exact .notConfirmed s w e hs htimed he
    · rename_i hs
      obtain ⟨rfl, rfl⟩ := Plan.yields_done.mp hattached
      exact .started s (by simpa using hs)

/-- Attaching to a job's log has one of these histories. -/
theorem over_of_yields {r : Except Refusal OpenLog} (hy : (OpenLog.attach ms tail j c).Yields h r) : Over ms tail j c h r := by
  obtain ⟨attached, h₁, rfl, hattached⟩ := Plan.yields_call.mp hy
  cases attached with
  | ok s =>
    obtain ⟨rfl, rfl⟩ := Plan.yields_done.mp hattached
    exact .attached s
  | error e =>
    by_cases he : e = .attachWouldWait
    · subst he
      obtain ⟨h₂, waited, h₃, rfl, hwaited, hrest⟩ := Plan.yields_bind.mp hattached
      have hover := over_of_waiting hwaited
      cases waited <;>
        · obtain ⟨rfl, rfl⟩ := Plan.yields_done.mp hrest
          rwa [List.append_nil]
    · have hrefused : h₁ = [] ∧ r = .error (.ofCluster .attach e) := by
        cases e <;> first | exact absurd rfl he | exact Plan.yields_done.mp hattached
      obtain ⟨rfl, rfl⟩ := hrefused
      exact .notAttached e he

/-- The histories of opening the log of a job. -/
inductive Course (ms : Nat) (tail : Bool) (j : JobId) : List Exchange → Except Refusal OpenLog → Prop
  | notDialled (e : ClusterError) : Course ms tail j [⟨.dial j.host, .error e⟩] (.error (.ofCluster .connect e))
  | opened (c : Connection) (h : List Exchange) (log : OpenLog) (ho : Over ms tail j c h (.ok log)) :
      Course ms tail j (⟨.dial j.host, .ok c⟩ :: h) (.ok log)
  | refused (c : Connection) (h : List Exchange) (e : Refusal) (ho : Over ms tail j c h (.error e)) :
      Course ms tail j (⟨.dial j.host, .ok c⟩ :: (h ++ [⟨.close c, ()⟩])) (.error e)

/-- Opening the log of a job has one of these histories. -/
theorem course_of_yields {id : String} {r : Except Refusal OpenLog} (hj : JobId.parse id = some j)
    (hy : (openLog ms id tail).Yields h r) : Course ms tail j h r := by
  unfold openLog at hy
  rw [hj] at hy
  obtain ⟨dialled, h₁, rfl, hdialled⟩ := Plan.yields_call.mp hy
  cases dialled with
  | error e =>
    obtain ⟨rfl, rfl⟩ := Plan.yields_done.mp hdialled
    exact .notDialled e
  | ok c =>
    rcases Plan.yields_closingOnRefusal.mp hdialled with ⟨log, rfl, hover⟩ | ⟨e, before, rfl, rfl, hover⟩
    · exact .opened c h₁ log (over_of_yields hover)
    · exact .refused c before e (over_of_yields hover)

/-- The calls over the connection by which a job's log is attached to: once, once more if that attach would have to wait, and then it is
given up if it was waited for in vain. It comes to it that the attach would wait if the second one is answered so, or is given up. -/
theorem Over.calls {r : Except Refusal OpenLog} (ho : Over ms tail j c h r) :
    Plan.calls h = .attach c (request j tail) false ::
      ((if h.any (·.wouldWait false) then [.attach c (request j tail) true] else []) ++
        if h.any (·.timesOut) then [.detach c j.job] else []) ∧
    (r = .error .attachWouldWait ↔ h.any (·.wouldWait true) ∨ h.any (·.timesOut)) := by
  cases ho with
  | attached s => exact ⟨rfl, by simp [Exchange.wouldWait, Exchange.timesOut]⟩
  | notAttached e he =>
    refine ⟨by cases e <;> first | rfl | exact absurd rfl he, ?_⟩
    cases e <;> first | exact absurd rfl he | simp [Refusal.ofCluster, Exchange.wouldWait, Exchange.timesOut]
  | notRegistered e =>
    refine ⟨by cases e <;> rfl, ?_⟩
    cases e <;> simp [Refusal.ofCluster, Exchange.wouldWait, Exchange.timesOut]
  | started s hs => exact ⟨rfl, by simp [Exchange.wouldWait, Exchange.timesOut]⟩
  | confirmed s hs => exact ⟨rfl, by simp [Exchange.wouldWait, Exchange.timesOut]⟩
  | notConfirmed s w e hs hw he =>
    cases w with
    | ready => cases he
    | timedOut => exact absurd rfl hw
    | refused reason =>
      cases he
      exact ⟨rfl, by simp [Refusal.ofCluster, Exchange.wouldWait, Exchange.timesOut]⟩
    | closed =>
      cases he
      exact ⟨rfl, by simp [Refusal.ofCluster, Exchange.wouldWait, Exchange.timesOut]⟩
  | timedOut s detached hs => exact ⟨rfl, by simp [Exchange.wouldWait, Exchange.timesOut]⟩

/-- Attaching dials no host. -/
theorem Over.not_dial {r : Except Refusal OpenLog} (ho : Over ms tail j c h r) {host : String}
    (dialled : Except ClusterError Connection) : ⟨.dial host, dialled⟩ ∉ h := by
  intro hx
  have hcall := Plan.mem_calls hx rfl
  rw [ho.calls.1] at hcall
  simp at hcall

/-- A log that comes of attaching is one of the job, and keeps the connection. -/
theorem Over.opened {log : OpenLog} (ho : Over ms tail j c h (.ok log)) : log.id = j ∧ log.connection = c := by
  cases ho <;> exact ⟨rfl, rfl⟩

/-- A job's host is dialled first. If that fails, nothing else is asked. Otherwise the calls that follow are those by which the log is
attached to and, if that is refused, the close of the connection; a log that comes of it keeps the connection. -/
theorem Course.calls {r : Except Refusal OpenLog} (hc : Course ms tail j h r) :
    ∃ dialled rest, h = ⟨.dial j.host, dialled⟩ :: rest ∧
      (∀ e, dialled = .error e → rest = [] ∧ r = .error (.ofCluster .connect e)) ∧
      ∀ c, dialled = .ok c →
        Plan.calls rest = .attach c (request j tail) false ::
          ((if rest.any (·.wouldWait false) then [.attach c (request j tail) true] else []) ++
            (if rest.any (·.timesOut) then [.detach c j.job] else []) ++ if r.isOk then [] else [.close c]) ∧
        ∀ log, r = .ok log → log.id = j ∧ log.connection = c := by
  cases hc with
  | notDialled e => exact ⟨.error e, [], rfl, by rintro _ ⟨⟩; exact ⟨rfl, rfl⟩, by rintro _ ⟨⟩⟩
  | opened c h log ho =>
    refine ⟨.ok c, h, rfl, by rintro _ ⟨⟩, ?_⟩
    rintro _ ⟨⟩
    refine ⟨?_, by rintro _ ⟨⟩; exact ho.opened⟩
    rw [ho.calls.1]
    simp [Except.isOk, Except.toBool]
  | refused c h e ho =>
    refine ⟨.ok c, _, rfl, by rintro _ ⟨⟩, ?_⟩
    rintro _ ⟨⟩
    refine ⟨?_, by rintro _ ⟨⟩⟩
    rw [Plan.calls_append, ho.calls.1]
    simp [Except.isOk, Except.toBool, Exchange.wouldWait, Exchange.timesOut, Plan.calls, Ask.isCall]

/-- Opening a log comes to it that the attach would wait if dialling or the attach that may wait is answered so, or if the attach was waited
for in vain. -/
theorem Course.wouldWait {r : Except Refusal OpenLog} (hc : Course ms tail j h r) :
    r = .error .attachWouldWait ↔
      ⟨.dial j.host, .error .attachWouldWait⟩ ∈ h ∨ h.any (·.wouldWait true) ∨ h.any (·.timesOut) := by
  cases hc with
  | notDialled e => cases e <;> simp [Refusal.ofCluster, Exchange.wouldWait, Exchange.timesOut]
  | opened c h log ho => simpa [Exchange.wouldWait, Exchange.timesOut, ho.not_dial] using ho.calls.2
  | refused c h e ho => simpa [Exchange.wouldWait, Exchange.timesOut, ho.not_dial] using ho.calls.2

end OpenLog

/-- To stop a job its host is dialled first. If that fails, nothing else is asked. Otherwise the job is stopped over the connection, and the
connection is closed. -/
theorem killJob_asks {id : String} {j : JobId} {h : List Exchange} {r : Except Refusal Unit} (hj : JobId.parse id = some j)
    (hy : (killJob id).Yields h r) :
    ∃ dialled rest, h = ⟨.dial j.host, dialled⟩ :: rest ∧
      (∀ e, dialled = .error e → rest = [] ∧ r = .error (.ofCluster .connect e)) ∧
      ∀ c, dialled = .ok c → ∃ stopped, rest = [⟨.stop c j.job, stopped⟩, ⟨.close c, ()⟩] ∧
        r = stopped.mapError (.ofCluster .stop) := by
  unfold killJob at hy
  rw [hj] at hy
  obtain ⟨dialled, rest, rfl, hdialled⟩ := Plan.yields_call.mp hy
  refine ⟨dialled, rest, rfl, ?_, ?_⟩
  · rintro e rfl
    exact Plan.yields_done.mp hdialled
  · rintro c rfl
    obtain ⟨stopped, h₂, rfl, hstopped⟩ := Plan.yields_call.mp hdialled
    obtain ⟨_, h₃, rfl, hclosed⟩ := Plan.yields_call.mp hstopped
    cases stopped <;>
      · obtain ⟨rfl, rfl⟩ := Plan.yields_done.mp hclosed
        exact ⟨_, rfl, rfl⟩

end JobPlane
