import JobPlane.Proofs.ControlPlane.Opening
import JobPlane.Proofs.Log.Body

/-!
# Logs that are tailed

A log that is opened to be tailed, copied as events, and read, over a cluster on one machine whose hosts do what they like between any
two of its steps (`Tailing`). A body that declares the log complete carries what the server of the log's attach did not pass over
(`tailed_log`): everything the job has written exactly if the log has never lagged.
-/

namespace JobPlane

open LocalHost LocalCluster

/-- After a write a sink holds what it held and what was taken. -/
theorem Sink.bytes_write (bs : Bytes) (s : Sink) : (s.write bs).2.bytes = s.bytes ++ (s.write bs).1.taken bs := by
  unfold Sink.write
  split
  · simp [Writing.taken]
  · simp only
    split
    · simp [Writing.taken]
    · simp [Writing.taken, Sink.bytes]

namespace Outlet

/-- The bytes in an outlet: those that its reader has not read yet, or all that its sink has taken. -/
def held : Outlet → Bytes
  | reader p => p.buffer
  | sink s => s.bytes

/-- After a write an outlet holds what it held and what was taken. -/
theorem held_write (bs : Bytes) (o : Outlet) : (Writable.write bs o).2.held = o.held ++ (Writable.write bs o).1.taken bs := by
  cases o with
  | reader p => exact p.buffer_write bs
  | sink s => exact s.bytes_write bs

@[simp] theorem held_finish (o : Outlet) : (Writable.finish o).held = o.held := by cases o <;> rfl

@[simp] theorem held_leave (o : Outlet) : o.leave.held = o.held := by cases o <;> rfl

end Outlet

/-! ## What chunks come to -/

namespace Log

open Server

/-- What chunks come to on a stream of a log: what comes from a terminal is all standard output. -/
def output (tty : Bool) (cs : List Frame) (k : OutputKind) : Bytes :=
  if tty then (if k = .stdout then cs.flatMap (·.payload) else []) else Frame.payloads k cs

/-- What is written of chunks that were encoded is what they come to. -/
theorem written_encodings {tty : Bool} {cs : List Frame} (hfit : tty = false → ∀ c ∈ cs, c.Fits) (k : OutputKind) :
    written tty (encodings tty cs) k = output tty cs k := by
  cases tty with
  | true => rfl
  | false =>
    have hencoded : encodings false cs = cs.flatMap Frame.written := rfl
    simp only [written, output, hencoded, Frame.parse_written (hfit rfl), Frame.payloads_filter_isEmpty, Bool.false_eq_true, if_false]

/-- What chunks come to on both streams is as long as all their payloads. -/
theorem length_output (tty : Bool) (cs : List Frame) :
    (output tty cs .stdout).length + (output tty cs .stderr).length = total (·.payload.length) cs := by
  induction cs with
  | nil => cases tty <;> rfl
  | cons c cs ih =>
    cases tty <;> cases hk : c.kind <;> simp [output, Frame.payloads, total, hk] at ih ⊢ <;> omega

/-- A selection of chunks that are not empty comes to the same only if it is all of them. -/
theorem output_eq_iff {tty : Bool} {kept cs : List Frame} (hsub : kept.Sublist cs) (hne : ∀ c ∈ cs, c.payload ≠ []) :
    (∀ k, output tty kept k = output tty cs k) ↔ kept = cs := by
  constructor
  · intro heq
    have htotal : total (·.payload.length) kept = total (·.payload.length) cs := by
      rw [← length_output tty, ← length_output tty, heq, heq]
    exact eq_of_total_eq hsub (fun c hc => List.length_pos_iff.mpr (hne c hc)) htotal
  · rintro rfl k
    rfl

end Log

/-! ## The system -/

/-- Where a log is on its way: its plan is carried out, or it is copied. -/
inductive Tailing.Stage
  | opening (plan : Plan (Except Refusal OpenLog)) (outlet : Outlet)
  | copying (l : LogCopy)

/-- A log that is opened to be tailed and copied as events. -/
structure Tailing where
  plane : ControlPlane LocalCluster
  stage : Tailing.Stage
  /-- The session that was attached last. -/
  session : Option Session := none
  /-- The server of the session's attach has passed over chunks that were not kept for it. -/
  lagged : Bool := false
  /-- What was read of the outlet. -/
  read : Bytes := []

namespace Tailing

/-- A log that is to be opened, and where it is to go. -/
def start (plane : ControlPlane LocalCluster) (ms : Nat) (id : String) (outlet : Outlet) : Tailing :=
  { plane, stage := .opening (openLog ms id true) outlet }

/-- A move of a log, or of a host. -/
inductive Move
  /-- A host moves, and the client of the log's session has no part in it. -/
  | host (x : String) (m : LocalHost.Move)
  /-- What the plan asks next is answered. -/
  | ask
  /-- The log is opened, and its copy begins. -/
  | begin
  | copy (m : LogCopy.Move)
  | read (n : Nat)

/-- Makes a move, where it is possible. -/
def step (t : Tailing) : Move → Option Tailing
  | .host x m =>
    if t.session.any (t.plane.cluster.touches · x m) then none
    else ((t.plane.cluster.host? x).bind (·.step m)).map fun h =>
      { t with
        plane := t.plane.mapCluster (·.setHost h)
        lagged := t.lagged || t.session.any (t.plane.cluster.passesOver · x m) }
  | .ask =>
    match t.stage with
    | .opening (.ask q next) outlet =>
      let (r, plane) := ControlPlane.answer q t.plane
      some { t with plane, stage := .opening (next r) outlet, session := (brought q r).or t.session }
    | _ => none
  | .begin =>
    match t.stage with
    | .opening (.done (.ok log)) outlet => some { t with stage := .copying (.start log .events outlet) }
    | _ => none
  | .copy m =>
    match t.stage with
    | .copying l =>
      (l.step t.plane.cluster m).map fun (l, cluster) => { t with plane := { t.plane with cluster }, stage := .copying l }
    | _ => none
  | .read n =>
    match t.stage with
    | .copying l =>
      match l.read n with
      | (.data bs, l) => some { t with stage := .copying l, read := t.read ++ bs }
      | _ => none
    | _ => none

/-- All that the outlet has taken: the body of the log so far, read or not. -/
def body (t : Tailing) : Bytes :=
  match t.stage with
  | .copying l => t.read ++ l.outlet.held
  | .opening _ _ => []

/-! ## While the log is copied -/

/-- What holds of a log that is copied: the books of the copy are kept, of what it reads of its attach and of what its outlet takes. -/
structure Copies (id : String) (steady : Prop) (t : Tailing) (l : LogCopy) (b : Log.Ledger) : Prop where
  parsed : JobId.parse id = some l.log.id
  session : t.session = some l.log.session
  books : l.copying.Books b
  source : l.copying.source = .of .events l.log.session.tty
  taken : b.taken = t.read ++ l.outlet.held
  idle : l.released = true → l.copying.sourceReleased = true
  heard : b.refused = false → t.plane.cluster.Lies l.log.session l.log.id.host
    (Heard l.log.id.job steady l.log.session.tty b.intake l.released t.lagged)

namespace Copies

variable {id : String} {steady : Prop} {t : Tailing} {l l' : LogCopy} {b : Log.Ledger} {c' : LocalCluster} {e : Log.Copying.Event}

/-- What a copy's turn does to the outlet is in the books. -/
theorem put {o o' : Outlet} {held : Bytes} (ht : b.taken = held ++ o.held) (hput : Log.Copying.Put o e o') :
    (b.note e).taken = held ++ o'.held := by
  cases e with
  | gave bs =>
    obtain ⟨p, n, -, hwrite, rfl⟩ := hput
    have hheld := Outlet.held_write p o
    rw [hwrite] at hheld
    rw [hheld, ← List.append_assoc, ← ht]
    rfl
  | refused =>
    obtain ⟨p, e, hwrite⟩ := hput
    have hheld := Outlet.held_write p o
    rw [hwrite] at hheld
    rw [hheld, ← List.append_assoc, ← ht]
    exact (List.append_nil _).symm
  | _ => rcases hput with rfl | rfl <;> simpa [Log.Ledger.note] using ht

/-- What a copy's turn reads is heard of its attach. -/
theorem drew (h : Copies id steady t l b) {copying : Log.Copying} {incoming : Pipe} (hturn : l.copying.Turn e copying)
    (hdrew : Log.Copying.Drew (Cluster.link l.log.session t.plane.cluster).incoming e incoming)
    (hr : (b.note e).refused = false) :
    (if l.released then t.plane.cluster
      else Cluster.setLink l.log.session { Cluster.link l.log.session t.plane.cluster with incoming } t.plane.cluster).Lies
        l.log.session l.log.id.host
          (Heard l.log.id.job steady l.log.session.tty (b.note e).intake l.released t.lagged) := by
  have hfine := Log.Copying.refused_of_note hr
  have hheard := h.heard hfine
  cases hreleased : l.released with
  | true =>
    rw [hreleased] at hheard
    cases e with
    | read r =>
      have hno := hturn.not_released
      rw [h.idle hreleased] at hno
      cases hno
    | _ => exact hheard
  | false =>
    refine hheard.setLink (fun i g hg => hg.present) _ fun i g g' a hlink ha hm hg => ?_
    rw [hreleased] at hg
    rw [hlink] at hdrew
    cases e with
    | read r =>
      obtain ⟨n, hread⟩ := hdrew
      exact hg.read (h.books.stop_eq_none hfine hturn) rfl hread hm ha rfl
    | _ => exact hg.keep hm ha hdrew

/-- A move of the copy keeps the books. -/
theorem copy (h : Copies id steady t l b) {m : LogCopy.Move} (hm : l.step t.plane.cluster m = some (l', c')) :
    ∃ b', Copies id steady { t with plane := { t.plane with cluster := c' }, stage := .copying l' } l' b' := by
  cases m with
  | copy m =>
    obtain ⟨⟨copying, incoming, outlet⟩, hstep, heq⟩ := Option.map_eq_some_iff.mp hm
    cases heq
    obtain ⟨e, hturn, hdrew, hput⟩ := Log.Copying.turn_of_step hstep
    exact ⟨b.note e, h.parsed, h.session, h.books.turn hturn, hturn.source_eq.trans h.source, put h.taken hput,
      fun hreleased => h.books.control.turn_released hturn (h.idle hreleased), h.drew hturn hdrew⟩
  | release =>
    simp only [LogCopy.step] at hm
    split at hm
    · rename_i hidle
      cases hm
      simp only [Bool.and_eq_true] at hidle
      refine ⟨b, h.parsed, h.session, h.books, h.source, h.taken, fun _ => hidle.1, fun hr => ?_⟩
      exact (h.heard hr).setLink (fun i g hg => hg.present) _ fun i g g' a _ ha hm hg => hg.letGo hm ha
    · cases hm
  | close =>
    simp only [LogCopy.step] at hm
    split at hm
    · cases hm
      exact ⟨b, h.parsed, h.session, h.books, h.source, by simpa using h.taken, h.idle,
        fun hr => (h.heard hr).stays (fun _ => rfl) rfl⟩
    · cases hm

/-- A read of what the outlet has taken changes nothing of it. -/
theorem read (h : Copies id steady t l b) {n : Nat} {bs : Bytes} (hread : l.read n = (.data bs, l')) :
    Copies id steady { t with stage := .copying l', read := t.read ++ bs } l' b := by
  cases ho : l.outlet with
  | sink s =>
    simp only [LogCopy.read, ho] at hread
    cases hread
  | reader p =>
    simp only [LogCopy.read, ho] at hread
    cases hp : p.read n with
    | mk r q =>
      rw [hp] at hread
      cases hread
      obtain ⟨hbuf, -⟩ := Pipe.read_data hp
      refine ⟨h.parsed, h.session, h.books, h.source, ?_, h.idle, h.heard⟩
      rw [h.taken, ho]
      simp [Outlet.held, hbuf]

/-- A move of a host keeps the books. -/
theorem host (h : Copies id steady t l b) {x : String} {m : LocalHost.Move} (hm : HostMoves t.plane.cluster x m c')
    (hs : c'.sessions = t.plane.cluster.sessions) (hclient : t.session.any (t.plane.cluster.touches · x m) = false)
    (hsteady : steady → ∀ j, JobId.parse id = some j → x = j.host → ∀ reason, m ≠ .spawnFailed j.job reason)
    (hfit : ∀ job f, m = .emit job f → f.Fits) :
    Copies id steady { t with
      plane := { t.plane with cluster := c' }
      lagged := t.lagged || t.session.any (t.plane.cluster.passesOver · x m) } l b := by
  refine ⟨h.parsed, h.session, h.books, h.source, h.taken, h.idle, fun hr => ?_⟩
  rw [h.session] at hclient ⊢
  refine (h.heard hr).moves (P := Heard l.log.id.job steady l.log.session.tty b.intake l.released) hm (by rw [hs]) ?_
  intro i g g' hi hx hg hmove hheard
  exact hheard.step hmove (ne_client_of_untouched hclient (hx ▸ hi)) (fun h' => hsteady h' _ h.parsed hx) fun f hf => hfit _ f hf

end Copies

/-! ## At every moment -/

/-- What holds of a log that is tailed at every moment, unless it can only be refused. -/
def Sound (ms : Nat) (id : String) (steady : Prop) (t : Tailing) : Prop :=
  match t.stage with
  | .opening p outlet =>
    p.Refused ∨ outlet.held = [] ∧ t.read = [] ∧ t.plane.cluster.Orderly ∧ Opening ms id steady t.plane.cluster t.lagged p t.session
  | .copying l => ∃ b, Copies id steady t l b

/-- A log that is to be opened. -/
theorem sound_start {plane : ControlPlane LocalCluster} (hjobs : ∀ h ∈ plane.cluster.hosts, h.jobs = []) (ms : Nat) (id : String)
    (steady : Prop) {outlet : Outlet} (hempty : outlet.held = []) : Sound ms id steady (start plane ms id outlet) := by
  cases hj : JobId.parse id with
  | none => exact Or.inl (OpenLog.refused_openLog ms true hj)
  | some j => exact Or.inr ⟨hempty, rfl, orderly_of_no_jobs hjobs, .dials hj (OpenLog.dials_openLog ms true hj) rfl⟩

/-- Every move keeps a log sound. -/
theorem Sound.step {ms : Nat} {id : String} {steady : Prop} {t t' : Tailing} (h : Sound ms id steady t) {m : Move}
    (hm : t.step m = some t') (hsteady : steady → ∀ j, JobId.parse id = some j → ∀ reason, m ≠ .host j.host (.spawnFailed j.job reason))
    (hfit : ∀ x job f, m = .host x (.emit job f) → f.Fits) : Sound ms id steady t' := by
  cases m with
  | host x m =>
    simp only [Tailing.step] at hm
    split at hm
    · cases hm
    · rename_i hclient
      obtain ⟨g', hg', heq⟩ := Option.map_eq_some_iff.mp hm
      obtain ⟨g, hg, hmove⟩ := Option.bind_eq_some_iff.mp hg'
      have hmoves := hostMoves_setHost hg hmove
      have hfit' : ∀ job f, m = .emit job f → f.Fits := fun job f hf => hfit x job f (by rw [hf])
      have hsteady' (hs : steady) (j : JobId) (hj : JobId.parse id = some j) (hx : x = j.host) (reason : String) :
          m ≠ .spawnFailed j.job reason := fun hf => hsteady hs j hj reason (by rw [hf, hx])
      cases heq
      unfold Sound at h ⊢
      simp only at h ⊢
      split at h
      · refine h.imp_right fun ⟨hempty, hread, horderly, ho⟩ => ⟨hempty, hread, horderly.moves hmoves hfit', ?_⟩
        exact ho.moves horderly hmoves rfl (by simpa using hclient) hsteady' hfit'
      · obtain ⟨b, hc⟩ := h
        exact ⟨b, hc.host hmoves rfl (by simpa using hclient) hsteady' hfit'⟩
  | ask =>
    simp only [Tailing.step] at hm
    split at hm
    · rename_i q next outlet hstage
      cases hm
      unfold Sound at h ⊢
      rw [hstage] at h
      simp only
      rcases h with hrefused | ⟨hempty, hread, horderly, ho⟩
      · cases hrefused with
        | ask hnext => exact Or.inl (hnext _)
      · exact Or.imp_right (fun ⟨horderly', ho'⟩ => ⟨hempty, hread, horderly', ho'⟩) (ho.asked horderly)
    · cases hm
  | begin =>
    simp only [Tailing.step] at hm
    split at hm
    · rename_i log outlet hstage
      cases hm
      unfold Sound at h ⊢
      rw [hstage] at h
      rcases h with hrefused | ⟨hempty, hread, horderly, ho⟩
      · cases hrefused
      · obtain ⟨hj, hsession, hl⟩ := ho.of_done
        refine ⟨{}, hj, hsession, .start _, rfl, ?_, fun hreleased => (by cases hreleased), fun _ => hl⟩
        simp [hread, LogCopy.start, hempty]
    · cases hm
  | copy m =>
    simp only [Tailing.step] at hm
    split at hm
    · rename_i l hstage
      obtain ⟨⟨l', c'⟩, hstep, heq⟩ := Option.map_eq_some_iff.mp hm
      cases heq
      unfold Sound at h
      rw [hstage] at h
      obtain ⟨b, hc⟩ := h
      exact hc.copy hstep
    · cases hm
  | read n =>
    simp only [Tailing.step] at hm
    split at hm
    · rename_i l hstage
      split at hm
      · rename_i bs l' hread
        cases hm
        unfold Sound at h
        rw [hstage] at h
        obtain ⟨b, hc⟩ := h
        exact ⟨b, hc.read hread⟩
      · cases hm
    · cases hm

/-- A log that is opened to be tailed and copied as events, in whatever order the hosts, the parts of the copy and the reader of its body
move. Where the record that declares the log complete is in the body:

1. the job's log is closed, nothing follows that record, and the body is made of one sequence of records and no other: pieces that are
   not empty, and that record;
2. the pieces carry what was sent for a selection `kept` of the chunks of the job's log, and these are all of them exactly if the log has
   never lagged;
3. unless the job has ever failed to start, the pieces carry, stream by stream, the payloads of the selection, and so, if the job has
   written no empty chunks, nothing that it has written is missing exactly if the log has never lagged. -/
theorem tailed_log {plane : ControlPlane LocalCluster} {ms : Nat} {id : String} {outlet : Outlet} {moves : List Move} {t : Tailing}
    {a b : Bytes} (hjobs : ∀ h ∈ plane.cluster.hosts, h.jobs = []) (hempty : outlet.held = [])
    (hrun : follow step (start plane ms id outlet) moves = some t) (hfit : ∀ x job f, .host x (.emit job f) ∈ moves → f.Fits)
    (hmarker : t.body = a ++ Log.endMarker ++ b) :
    ∃ (j : JobId) (s : Session) (job : LocalJob) (kept : List Frame) (pieces : List (OutputKind × Bytes)),
      (JobId.parse id = some j ∧ t.session = some s ∧
        (t.plane.cluster.host? j.host).bind (·.job? j.job) = some job) ∧
      (job.log.closed = true ∧ b = [] ∧ (∀ p ∈ pieces, p.2 ≠ []) ∧
        ∀ records : List Log.Record, records.flatMap Log.Record.bytes = t.body ↔
          records = pieces.map (fun p => .piece p.1.name (Utf8.lossy p.2)) ++ [.complete]) ∧
      (kept.Sublist job.log.chunks.toList ∧ (kept = job.log.chunks.toList ↔ t.lagged = false) ∧
        ∀ k, Log.carried k pieces = Log.written s.tty (Server.encodings job.spec.config.tty kept) k) ∧
      ((∀ reason, .host j.host (.spawnFailed j.job reason) ∉ moves) →
        (∀ k, Log.carried k pieces = Log.output job.spec.config.tty kept k) ∧
          ((∀ c ∈ job.log.chunks.toList, c.payload ≠ []) →
            ((∀ k, Log.carried k pieces = Log.output job.spec.config.tty job.log.chunks.toList k) ↔ t.lagged = false))) := by
  have hsound : Sound ms id (∀ j, JobId.parse id = some j → ∀ reason, .host j.host (.spawnFailed j.job reason) ∉ moves) t :=
    follow_keeps hrun (fun _ m _ hm hstep h => h.step hstep (fun hs j hj reason heq => hs j hj reason (heq ▸ hm))
      (fun x job f heq => hfit x job f (heq ▸ hm))) (sound_start hjobs ms id _ hempty)
  unfold Sound at hsound
  unfold body at hmarker ⊢
  split at hsound
  · rename_i p outlet hstage
    have hmarked : Log.endMarker.length = 0 := by
      have hlength := congrArg List.length hmarker
      simp only [hstage, List.length_nil, List.length_append] at hlength
      omega
    cases hmarked
  · rename_i l hstage
    obtain ⟨books, hc⟩ := hsound
    simp only [hstage] at hmarker ⊢
    rw [← hc.taken] at hmarker ⊢
    obtain ⟨hfine, hcopied, htaken, hlast⟩ := hc.books.marker hmarker
    have hconcluded := hc.books.concluded hfine hcopied
    obtain ⟨i, h, -, hh, hheard⟩ := hc.heard hfine
    obtain ⟨tty, hfollowed⟩ := hheard.found hconcluded.stop
    obtain ⟨job, kept, hjob, -, rfl, hclosed, hgot, hsub, hall, hfits⟩ := hfollowed.output
    have hcarried : ∀ k, Log.carried k books.begun =
        Log.written l.log.session.tty (Server.encodings job.spec.config.tty kept) k := by
      have hreads : Feed.Reads books.intake (books.intake.got, .ok ()) ([], .ok ()) := by simp [Feed.Reads, hconcluded.stop]
      rw [← hgot]
      exact (hconcluded.written hc.source hreads).1
    refine ⟨l.log.id, l.log.session, job, kept, books.begun, ⟨hc.parsed, hc.session, by rw [hh]; exact hjob⟩,
      ⟨hclosed, hlast, (hc.books.balanced hfine).chunks, fun records => ?_⟩, ⟨hsub, hall, hcarried⟩, fun hsteady => ?_⟩
    · -- the records of the body
      have hend : Log.endMarker = [Log.Record.complete].flatMap Log.Record.bytes := by simp [Log.Record.bytes]
      rw [htaken, hend, Log.Ledger.records, ← List.flatMap_append]
      exact ⟨Log.records_unique, fun heq => by rw [heq]⟩
    · -- the session was told rightly whether the job has a terminal
      have htold : job.spec.config.tty = l.log.session.tty := by
        refine hheard.told_eq (fun j hj => ?_) hjob
        rw [hc.parsed] at hj
        cases hj
        exact hsteady
      have houtput (k : OutputKind) : Log.carried k books.begun = Log.output job.spec.config.tty kept k := by
        rw [hcarried, ← htold, Log.written_encodings hfits]
      refine ⟨houtput, fun hne => ?_⟩
      simp only [houtput]
      rw [Log.output_eq_iff hsub hne]
      exact hall

/-- A log that is opened before its job has started: the job writes one chunk and exits, and the log is copied to its end. -/
theorem tailed_log_of_one_chunk :
    ∃ (plane : ControlPlane LocalCluster) (moves : List Move) (t : Tailing) (pieces : List (OutputKind × Bytes)),
      follow step (start plane 0 "h-j" (.reader { capacity := 65536 })) moves = some t ∧ t.lagged = false ∧
        Log.carried .stdout pieces = [0x61] ∧ Log.carried .stderr pieces = [] ∧
        ((pieces.map fun p => Log.Record.piece p.1.name (Utf8.lossy p.2)) ++ [Log.Record.complete]).flatMap Log.Record.bytes =
          t.body := by
  obtain ⟨plane, moves, hjobs, hfit, hsteady, hrun⟩ : ∃ (plane : ControlPlane LocalCluster) (moves : List Move),
      (∀ h ∈ plane.cluster.hosts, h.jobs = []) ∧ (∀ x job f, Move.host x (.emit job f) ∈ moves → f.Fits) ∧
        (∀ reason, Move.host "h" (.spawnFailed "j" reason) ∉ moves) ∧
        ((follow step (start plane 0 "h-j" (.reader { capacity := 65536 })) moves).map fun t =>
          (t.lagged, ((t.plane.cluster.host? "h").bind (·.job? "j")).map fun j => (j.spec.config.tty, j.log.chunks.toList),
            decide (Log.endMarker <:+ t.body))) = some (false, some (false, [⟨.stdout, [0x61]⟩]), true) := by
    refine ⟨{ cluster := { hosts := [{ id := "h" }] }, api := { select := fun _ => .error (noSuchJob "") }, ids := fun _ => "" },
      List.flatten
        [[.host "h" (.submit { id := "j" }), .ask, .ask, .ask, .host "h" (.spawned "j" false), .ask, .begin, .host "h" (.serve 0),
            .host "h" (.serve 0), .host "h" (.emit "j" ⟨.stdout, [0x61]⟩), .host "h" (.closeOutput "j")],
          List.replicate 6 (.host "h" (.serve 0)), List.replicate 4 (.copy (.copy .pump)),
          [.copy (.copy (.read .stdout)), .copy (.copy (.read .stderr)), .copy (.copy (.acquire .stdout))],
          List.replicate 7 (.copy (.copy .write)), [.copy (.copy (.read .stdout)), .copy (.copy .close)],
          List.replicate 3 (.copy (.copy .write)), [.copy .release, .copy .close, .read 10000]], ?_, ?_, ?_, ?_⟩
    · simp
    · intro x job f h
      obtain ⟨-, -, rfl⟩ : x = "h" ∧ job = "j" ∧ f = ⟨.stdout, [0x61]⟩ := by simpa using h
      decide
    · simp
    · decide +kernel
  obtain ⟨t, ht, hends⟩ := Option.map_eq_some_iff.mp hrun
  simp only [Prod.mk.injEq, decide_eq_true_eq] at hends
  obtain ⟨hlagged, hjob, a, ha⟩ := hends
  obtain ⟨j, s, job, kept, pieces, ⟨hj, -, hfound⟩, ⟨-, -, -, hrecords⟩, -, hcarried⟩ :=
    tailed_log (b := []) hjobs rfl ht hfit (by rw [List.append_nil, ha])
  have hid : j = ⟨"h", "j"⟩ := by
    have hparse : JobId.parse "h-j" = some ⟨"h", "j"⟩ := by decide +kernel
    rw [hparse] at hj
    exact (Option.some.inj hj).symm
  subst hid
  rw [hfound, Option.map_some, Option.some.injEq, Prod.mk.injEq] at hjob
  obtain ⟨htty, hchunks⟩ := hjob
  have hall := ((hcarried hsteady).2 (by simp [hchunks])).mpr hlagged
  refine ⟨plane, moves, t, pieces, ht, hlagged, ?_, ?_, (hrecords _).mpr rfl⟩
  · rw [hall, htty, hchunks]
    decide
  · rw [hall, htty, hchunks]
    decide

end Tailing

end JobPlane
