import JobPlane.Local.Cluster
import JobPlane.Proofs.Moves
import JobPlane.Proofs.Request.Log

/-!
# When connections are closed

A cluster that takes note of the calls it gets (`Overheard`) otherwise behaves as the cluster it is made of. What it notes while a log is
opened or a job is stopped are the calls in the history of that. A log that was opened keeps its connection (`LogLease`): it is copied out,
given up while it is copied, or dropped uncopied, while anything happens to the cluster; and in every schedule of that the one call which
is noted is the close of the connection, once the log is over (`log_and_kill_calls`).
-/

namespace JobPlane

/-! ## Clusters that take note -/

/-- A cluster, and the calls it got. -/
structure Overheard (κ : Type) where
  cluster : κ
  asked : List Ask := []

namespace Overheard

variable {κ α : Type}

/-- Takes note of a call. -/
def note (q : Ask) (f : κ → α × κ) (k : Overheard κ) : α × Overheard κ :=
  let (a, cluster) := f k.cluster
  (a, { cluster, asked := k.asked ++ [q] })

/-- Passes on what is no call. -/
def pass (f : κ → α × κ) (k : Overheard κ) : α × Overheard κ :=
  let (a, cluster) := f k.cluster
  (a, { k with cluster })

/-- Changes the cluster, which is no call. -/
def map (f : κ → κ) (k : Overheard κ) : Overheard κ := { k with cluster := f k.cluster }

instance [Cluster κ] : Cluster (Overheard κ) where
  hosts := note .listHosts Cluster.hosts
  dial host := note (.dial host) (Cluster.dial host)
  addJobs batches := note (.addJobs batches) (Cluster.addJobs batches)
  attach n r wait := note (.attach n r wait) (Cluster.attach n r wait)
  detach n job := note (.detach n job) (Cluster.detach n job)
  stop n job := note (.stop n job) (Cluster.stop n job)
  close n k := { cluster := Cluster.close n k.cluster, asked := k.asked ++ [.close n] }
  awaitReady s ms := pass (Cluster.awaitReady s ms)
  elapse ms := map (Cluster.elapse ms)
  link s k := Cluster.link s k.cluster
  setLink s l := map (Cluster.setLink s l)
  settle := map Cluster.settle
  bound k := Cluster.bound k.cluster

variable [Cluster κ] {k : Overheard κ}

/-- To close a connection is a call. -/
@[simp] theorem asked_close (n : Connection) : (Cluster.close n k).asked = k.asked ++ [.close n] := rfl

/-- To change the near end of a session's stream is no call. -/
@[simp] theorem asked_setLink (s : Session) (l : Link) : (Cluster.setLink s l k).asked = k.asked := rfl

/-- To drop a session's stream is no call. -/
@[simp] theorem asked_drop (s : Session) : (Cluster.drop s k).asked = k.asked := rfl

/-- To read what still comes over a session is no call. -/
theorem asked_drainOn (s : Session) (fuel : Nat) (d : Drain) : (Cluster.drainOn s fuel d k).2.asked = k.asked := by
  induction fuel generalizing d k with
  | zero => rfl
  | succ fuel ih =>
    unfold Cluster.drainOn
    split
    · exact ih _
    · rfl

/-- To give a session up is no call. -/
theorem asked_drain (s : Session) (ms : Nat) : (Cluster.drain s ms k).2.asked = k.asked := by
  simp only [Cluster.drain]
  split
  · exact asked_drainOn s _ _
  · exact (asked_drainOn s _ _).trans (asked_drainOn s _ _)

/-- What a cluster notes while an ask is answered is that ask, if it is a call. -/
theorem asked_answer (q : Ask) (p : ControlPlane (Overheard κ)) :
    (ControlPlane.answer q p).2.cluster.asked = p.cluster.asked ++ if q.isCall then [q] else [] := by
  cases q with
  | drain s ms => simpa [ControlPlane.answer, ControlPlane.onCluster, Ask.isCall] using asked_drain s ms
  | app | release | artifact | freshId | awaitReady | drop => exact (List.append_nil _).symm
  | listHosts | dial | addJobs | attach | detach | stop | close => rfl

/-- What a cluster notes while a plan is carried out are the calls in its history. -/
theorem asked_perform {α : Type} (plan : Plan α) (p : ControlPlane (Overheard κ)) :
    (p.perform plan).2.cluster.asked = p.cluster.asked ++ Plan.calls (plan.history ControlPlane.answer p) := by
  induction plan generalizing p with
  | done a => exact (List.append_nil _).symm
  | ask q next ih =>
    have hnext := ih (ControlPlane.answer q p).1 (ControlPlane.answer q p).2
    rw [asked_answer, List.append_assoc] at hnext
    refine hnext.trans (congrArg _ ?_)
    cases hq : q.isCall <;> simp [Plan.history, Plan.calls, hq]

/-- The one call that copying a log makes is to close its connection, when the copy has come to a result, and that is made once. -/
theorem asked_logCopy {l l' : LogCopy} {m : LogCopy.Move} {k' : Overheard κ} (hm : l.step k m = some (l', k')) :
    l'.log = l.log ∧
      (m = .close ∧ l.copying.result.isSome ∧ l.closed = false ∧ l'.closed = true ∧ k'.asked = k.asked ++ [.close l.log.connection] ∨
        m ≠ .close ∧ l'.closed = l.closed ∧ k'.asked = k.asked) := by
  cases m with
  | copy m =>
    obtain ⟨⟨copying, incoming, outlet⟩, -, heq⟩ := Option.map_eq_some_iff.mp hm
    cases heq
    refine ⟨rfl, Or.inr ⟨by simp, rfl, ?_⟩⟩
    split <;> rfl
  | release =>
    simp only [LogCopy.step] at hm
    split at hm <;> cases hm
    exact ⟨rfl, Or.inr ⟨by simp, rfl, rfl⟩⟩
  | close =>
    simp only [LogCopy.step] at hm
    split at hm <;> cases hm
    rename_i hover
    simp only [Bool.and_eq_true, Bool.not_eq_true'] at hover
    exact ⟨rfl, Or.inl ⟨rfl, hover.1, hover.2, rfl, rfl⟩⟩

/-- Giving up a log that is copied closes its connection, unless that was closed before. -/
theorem asked_abandon (l : LogCopy) :
    (l.abandon k).1.log = l.log ∧ (l.abandon k).1.closed = true ∧
      (l.abandon k).2.asked = k.asked ++ if l.closed then [] else [.close l.log.connection] := by
  refine ⟨rfl, rfl, ?_⟩
  cases hclosed : l.closed <;> cases hreleased : l.released <;> simp [LogCopy.abandon, hclosed, hreleased]

/-- A log is copied over a cluster that takes note as it is over the cluster itself. -/
theorem step_logCopy (l : LogCopy) (m : LogCopy.Move) :
    (l.step k m).map (fun (l, k) => (l, k.cluster)) = l.step k.cluster m := by
  cases m with
  | copy m =>
    simp only [LogCopy.step, Option.map_map]
    refine Option.map_congr fun r _ => ?_
    simp only [Function.comp_apply]
    split <;> rfl
  | release =>
    simp only [LogCopy.step]
    split <;> rfl
  | close =>
    simp only [LogCopy.step]
    split <;> rfl

end Overheard

/-! ## Logs that were opened -/

/-- Where a log is on its way that was opened. -/
inductive LogLease.Stage
  | uncopied
  | copying (l : LogCopy)
  | dropped

/-- A log that was opened, and the cluster it came from. -/
structure LogLease (κ : Type) where
  log : OpenLog
  stage : LogLease.Stage := .uncopied
  cluster : Overheard κ

namespace LogLease

variable {κ : Type} [Cluster κ] {t t' : LogLease κ}

/-- What happens to a log that was opened, or to the cluster meanwhile. -/
inductive Move (κ : Type)
  /-- Its copy begins. -/
  | begin (encoding : Log.Encoding) (outlet : Outlet)
  /-- It is dropped uncopied. -/
  | drop
  | copy (m : LogCopy.Move)
  | read (n : Nat)
  /-- Its reader goes away. -/
  | abandon
  /-- Something happens that the log has no part in. -/
  | others (f : κ → κ)

/-- Makes a move, where it is possible. -/
def step (t : LogLease κ) : Move κ → Option (LogLease κ)
  | .begin encoding outlet =>
    match t.stage with
    | .uncopied => some { t with stage := .copying (.start t.log encoding outlet) }
    | _ => none
  | .drop =>
    match t.stage with
    | .uncopied =>
      some { t with stage := .dropped, cluster := Cluster.close t.log.connection (Cluster.drop t.log.session t.cluster) }
    | _ => none
  | .copy m =>
    match t.stage with
    | .copying l => (l.step t.cluster m).map fun (l, cluster) => { t with stage := .copying l, cluster }
    | _ => none
  | .read n =>
    match t.stage with
    | .copying l => some { t with stage := .copying (l.read n).2 }
    | _ => none
  | .abandon =>
    match t.stage with
    | .copying l =>
      let (l, cluster) := l.abandon t.cluster
      some { t with stage := .copying l, cluster }
    | _ => none
  | .others f => some { t with cluster := t.cluster.map f }

/-- What each move comes to, where it is possible. -/
inductive Turn (t : LogLease κ) : Move κ → LogLease κ → Prop
  | begin (encoding : Log.Encoding) (outlet : Outlet) (hstage : t.stage = .uncopied) :
      Turn t (.begin encoding outlet) { t with stage := .copying (.start t.log encoding outlet) }
  | drop (hstage : t.stage = .uncopied) :
      Turn t .drop { t with stage := .dropped, cluster := Cluster.close t.log.connection (Cluster.drop t.log.session t.cluster) }
  | copy {l l' : LogCopy} {m : LogCopy.Move} {cluster : Overheard κ} (hstage : t.stage = .copying l)
      (hstep : l.step t.cluster m = some (l', cluster)) : Turn t (.copy m) { t with stage := .copying l', cluster }
  | read {l : LogCopy} (n : Nat) (hstage : t.stage = .copying l) : Turn t (.read n) { t with stage := .copying (l.read n).2 }
  | abandon {l : LogCopy} (hstage : t.stage = .copying l) :
      Turn t .abandon { t with stage := .copying (l.abandon t.cluster).1, cluster := (l.abandon t.cluster).2 }
  | others (f : κ → κ) : Turn t (.others f) { t with cluster := t.cluster.map f }

/-- Every move is a turn. -/
theorem turn_of_step {m : Move κ} (hm : t.step m = some t') : t.Turn m t' := by
  cases m with
  | begin encoding outlet =>
    simp only [step] at hm
    split at hm <;> cases hm
    exact .begin encoding outlet ‹_›
  | drop =>
    simp only [step] at hm
    split at hm <;> cases hm
    exact .drop ‹_›
  | copy m =>
    simp only [step] at hm
    split at hm
    · obtain ⟨⟨l', cluster⟩, hstep, heq⟩ := Option.map_eq_some_iff.mp hm
      cases heq
      exact .copy ‹_› hstep
    · cases hm
  | read n =>
    simp only [step] at hm
    split at hm <;> cases hm
    exact .read n ‹_›
  | abandon =>
    simp only [step] at hm
    split at hm <;> cases hm
    exact .abandon ‹_›
  | others f =>
    cases hm
    exact .others f

/-- A log that was opened for a reply without a body is dropped uncopied. -/
theorem step_drop_of_withoutBody {p : ControlPlane (Overheard κ)} {reply : Http.Reply} {log : OpenLog} {encoding : Log.Encoding}
    (hreply : reply.content = .log log encoding) :
    step { log, cluster := p.cluster } .drop =
      some { log, stage := .dropped, cluster := (p.perform (Http.Api.withoutBody reply)).2.cluster } := by
  rw [Http.Api.withoutBody, hreply]
  rfl

/-- Whether a log is over: its copy has returned or was given up, or it was dropped. -/
def isOver (t : LogLease κ) : Bool :=
  match t.stage with
  | .uncopied => false
  | .copying l => l.closed
  | .dropped => true

/-- What holds of a log at every moment: the one call since it was opened closes its connection, once it is over. -/
structure Closing (log : OpenLog) (before : List Ask) (t : LogLease κ) : Prop where
  same : t.log = log
  copy : ∀ l, t.stage = .copying l → l.log = log
  asked : t.cluster.asked = before ++ if t.isOver then [.close log.connection] else []

/-- A read leaves a copy's log and its connection alone. -/
theorem read_same (l : LogCopy) (n : Nat) : (l.read n).2.log = l.log ∧ (l.read n).2.closed = l.closed := by
  unfold LogCopy.read
  split <;> exact ⟨rfl, rfl⟩

/-- Every move keeps it so. -/
theorem Closing.step {log : OpenLog} {before : List Ask} (hc : Closing log before t) {m : Move κ} (hm : t.step m = some t') :
    Closing log before t' := by
  obtain ⟨hlog, hcopy, hasked⟩ := hc
  subst hlog
  cases turn_of_step hm with
  | begin encoding outlet hstage =>
    refine ⟨rfl, ?_, ?_⟩
    · rintro l ⟨⟩
      rfl
    · simpa [isOver, hstage, LogCopy.start] using hasked
  | drop hstage =>
    refine ⟨rfl, by rintro l ⟨⟩, ?_⟩
    simpa [isOver, hstage] using hasked
  | @copy l l' m cluster hstage hstep =>
    obtain ⟨hsame, hcall⟩ := Overheard.asked_logCopy hstep
    have hl := hcopy l hstage
    refine ⟨rfl, ?_, ?_⟩
    · rintro _ ⟨⟩
      rw [hsame, hl]
    · simp only [isOver, hstage] at hasked
      rcases hcall with ⟨-, -, hopen, hclosed, hcall⟩ | ⟨-, hclosed, hcall⟩
      · simp [isOver, hclosed, hcall, hasked, hopen, hl]
      · simp [isOver, hclosed, hcall, hasked]
  | @read l n hstage =>
    obtain ⟨hsame, hclosed⟩ := read_same l n
    refine ⟨rfl, ?_, ?_⟩
    · rintro _ ⟨⟩
      rw [hsame, hcopy l hstage]
    · simpa [isOver, hstage, hclosed] using hasked
  | @abandon l hstage =>
    obtain ⟨hsame, hover, hcall⟩ := Overheard.asked_abandon l (k := t.cluster)
    refine ⟨rfl, ?_, ?_⟩
    · rintro _ ⟨⟩
      rw [hsame, hcopy l hstage]
    · simp only [isOver, hstage] at hasked
      cases hclosed : l.closed <;> simp [isOver, hover, hcall, hclosed, hasked, hcopy l hstage]
  | others f => exact ⟨rfl, hcopy, hasked⟩

/-- A log is over once it is dropped uncopied or its reader goes away, and once its copy has come to a result it can be; nothing else
makes it so. -/
theorem isOver_step (hopen : t.isOver = false) :
    (t.stage = .uncopied → (t.step .drop).any (·.isOver)) ∧
    (∀ l, t.stage = .copying l → (t.step .abandon).any (·.isOver) ∧
      ((t.step (.copy .close)).any (·.isOver) ↔ l.copying.result.isSome)) ∧
    ∀ m t', t.step m = some t' → t'.isOver = true → m = .drop ∨ m = .abandon ∨ m = .copy .close := by
  refine ⟨fun hstage => by simp [LogLease.step, hstage, isOver], fun l hstage => ⟨?_, ?_⟩, fun m t' hm hover => ?_⟩
  · simp [LogLease.step, hstage, isOver, LogCopy.abandon]
  · have hclosed : l.closed = false := by simpa [isOver, hstage] using hopen
    cases hr : l.copying.result <;> simp [LogLease.step, LogCopy.step, hstage, isOver, hclosed, hr]
  · cases turn_of_step hm with
    | drop => exact Or.inl rfl
    | abandon => exact Or.inr (Or.inl rfl)
    | begin => cases hover
    | copy hstage hstep =>
      simp only [isOver, hstage] at hopen hover
      obtain ⟨-, ⟨rfl, -⟩ | ⟨-, hclosed, -⟩⟩ := Overheard.asked_logCopy hstep
      · exact Or.inr (Or.inr rfl)
      · rw [hclosed, hopen] at hover
        cases hover
    | @read l n hstage =>
      simp only [isOver, hstage, (read_same l n).2] at hopen hover
      rw [hopen] at hover
      cases hover
    | others f =>
      rw [show isOver { t with cluster := t.cluster.map f } = t.isOver from rfl, hopen] at hover
      cases hover

end LogLease

/-! ## From the first call to the last -/

open Plan (calls)

/-- The calls that a cluster gets, whatever it answers, where a job's log is opened or a job is stopped.
1. What it notes are the calls in the history of that.
2. There are none for a text that spells no job's ID.
3. To stop a job its host is dialled. If that succeeds, the job is stopped over the connection, once, and the connection is closed.
4. To open a log the job's host is dialled. If that succeeds, the log is attached to over the connection, without waiting; once more, with
   the same request and waiting, if the first attach would have to wait; and then the attach is given up if it was waited for in vain. If
   no log comes of it the connection is closed, and that is the last call; and else the log keeps the connection.
5. It comes to it that the attach would wait exactly if dialling or the second attach is answered so, or if that was waited for in vain.
6. A log that was opened closes its connection once, when it is over, and there are no other calls, whatever happens to it and to the
   cluster. It is over when it is dropped uncopied, when its reader goes away at any moment of the copy, or when the copy returns, and that
   it can once it has come to a result. -/
theorem log_and_kill_calls {κ : Type} [Cluster κ] (p : ControlPlane (Overheard κ)) (ms : Nat) (id : String) (tail : Bool) :
    let opening := (openLog ms id tail).history ControlPlane.answer p
    let killing := (killJob id).history ControlPlane.answer p
    let opened := p.perform (openLog ms id tail)
    let killed := p.perform (killJob id)
    (opened.2.cluster.asked = p.cluster.asked ++ calls opening ∧ killed.2.cluster.asked = p.cluster.asked ++ calls killing) ∧
    (JobId.parse id = none → opening = [] ∧ opened.1 = .error (noSuchJob id) ∧ killing = [] ∧ killed.1 = .error (noSuchJob id)) ∧
    (∀ j, JobId.parse id = some j → ∃ dialled rest, killing = ⟨.dial j.host, dialled⟩ :: rest ∧
      (∀ e, dialled = .error e → rest = [] ∧ killed.1 = .error (.ofCluster .connect e)) ∧
      ∀ c, dialled = .ok c → ∃ stopped, rest = [⟨.stop c j.job, stopped⟩, ⟨.close c, ()⟩] ∧
        killed.1 = stopped.mapError (.ofCluster .stop)) ∧
    (∀ j, JobId.parse id = some j → ∃ dialled rest, opening = ⟨.dial j.host, dialled⟩ :: rest ∧
      (∀ e, dialled = .error e → rest = [] ∧ opened.1 = .error (.ofCluster .connect e)) ∧
      ∀ c, dialled = .ok c →
        let request : AttachRequest := { job := j.job, flags := { stdout := true, stderr := true, logs := true, stream := tail } }
        calls rest = .attach c request false ::
          ((if rest.any (·.wouldWait false) then [.attach c request true] else []) ++
            (if rest.any (·.timesOut) then [.detach c j.job] else []) ++ if opened.1.isOk then [] else [.close c]) ∧
        ∀ log, opened.1 = .ok log → log.id = j ∧ log.connection = c) ∧
    (∀ j, JobId.parse id = some j → (opened.1 = .error .attachWouldWait ↔
      ⟨.dial j.host, .error .attachWouldWait⟩ ∈ opening ∨ opening.any (·.wouldWait true) ∨ opening.any (·.timesOut))) ∧
    ∀ log, opened.1 = .ok log → ∀ (moves : List (LogLease.Move κ)) t,
      follow LogLease.step { log, cluster := opened.2.cluster } moves = some t →
        t.cluster.asked = p.cluster.asked ++ calls opening ++ (if t.isOver then [.close log.connection] else []) ∧
        (t.isOver = false →
          (t.stage = .uncopied → (t.step .drop).any (·.isOver)) ∧
          (∀ l, t.stage = .copying l → (t.step .abandon).any (·.isOver) ∧
            ((t.step (.copy .close)).any (·.isOver) ↔ l.copying.result.isSome)) ∧
          ∀ m t', t.step m = some t' → t'.isOver = true → m = .drop ∨ m = .abandon ∨ m = .copy .close) := by
  intro opening killing opened killed
  have hopening := Plan.yields_history ControlPlane.answer (openLog ms id tail) p
  have hkilling := Plan.yields_history ControlPlane.answer (killJob id) p
  have hasked : opened.2.cluster.asked = p.cluster.asked ++ calls opening := Overheard.asked_perform _ p
  refine ⟨⟨hasked, Overheard.asked_perform _ p⟩, fun hj => ?_, fun j hj => killJob_asks hj hkilling,
    fun j hj => (OpenLog.course_of_yields hj hopening).calls, fun j hj => (OpenLog.course_of_yields hj hopening).wouldWait, ?_⟩
  · simp [opening, opened, killing, killed, openLog, killJob, hj, Plan.history, ControlPlane.perform, Plan.run]
  · intro log _ moves t hrun
    have hclosing : LogLease.Closing log opened.2.cluster.asked t :=
      follow_keeps hrun (fun _ _ _ _ hm hc => hc.step hm) ⟨rfl, by rintro _ ⟨⟩, by simp [LogLease.isOver]⟩
    exact ⟨by rw [hclosing.asked, hasked], LogLease.isOver_step⟩

/-- The log of a job that has not started by the time allowed: the second attach is given up and the connection is closed. -/
theorem log_and_kill_calls_of_starting :
    let host : LocalHost := { id := "h", jobs := [{ spec := { id := "j" } }] }
    let p : ControlPlane (Overheard LocalCluster) :=
      { cluster := { cluster := { hosts := [host] } }, api := { select := Selector.leastLoaded }, ids := fun _ => "" }
    let c : Connection := ⟨"h", 0⟩
    let request : AttachRequest := { job := "j", flags := { stdout := true, stderr := true, logs := true, stream := true } }
    let opened := p.perform (openLog 0 "h-j" true)
    opened.2.cluster.asked =
        [.dial "h", .attach c request false, .attach c request true, .detach c "j", .close c] ∧
      opened.1 = .error .attachWouldWait := by
  intro host p c request opened
  obtain ⟨⟨hasked, -⟩, -, -, -, hwait, -⟩ := log_and_kill_calls p 0 "h-j" true
  have hparse : JobId.parse "h-j" = some ⟨"h", "j"⟩ := by decide +kernel
  refine ⟨hasked.trans ?_, (hwait _ hparse).mpr (Or.inr (Or.inr ?_))⟩
  · decide +kernel
  · decide +kernel

end JobPlane
