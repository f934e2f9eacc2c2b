import JobPlane.Proofs.Local.Earliest
import JobPlane.Proofs.Stream.Copy

/-!
# The way into a job

What happens at a host does one of a few things to a job, and only two of them to what is in its input (`job_step`): bytes are carried on
from the attach that owns it, and the process reads. A watch at the job notes both (`Meter`). What the process has read, what is in the
input and what the copy holds in between are, in this order, what was drawn from the owner (`Conveys`), for as long as neither the process
ends nor the copy fails.
-/

namespace JobPlane.LocalHost

variable {h h' : LocalHost} {id : String} {e : Event} {o o' : Option LocalJob} {j j' : LocalJob} {i k : Nat}

/-! ## What happens to a job -/

/-- Whether something that happens concerns the input of a job, or brings the job or loses it. -/
def Event.concerns (id : String) : Event → Bool
  | .move (.submit spec) => spec.id == id
  | .move (.spawned x _) | .move (.spawnFailed x _) | .move (.carry x _) | .move (.closeOutput x) | .read x _ => x == id
  | .move _ => false

/-- A job goes on as it was described, with the same input, and starts or does not as before. -/
structure SameInput (j j' : LocalJob) : Prop where
  spec : j'.spec = j.spec
  starting : j'.state = .starting ↔ j.state = .starting
  owner : j'.owner = j.owner
  input : j'.input = j.input
  feed : j'.feed = j.feed

/-- What becomes of the job of an ID, where a host goes from `h` to `h'`. -/
inductive JobStep (h h' : LocalHost) (id : String) : Event → Option LocalJob → Option LocalJob → Prop
  /-- It is submitted. -/
  | submitted (spec : JobSpec) (hid : spec.id = id) : JobStep h h' id (.move (.submit spec)) none (some { spec := h.sized spec })
  /-- Its process runs, and its input comes from the earliest attach that waits for it, if it has one. -/
  | spawned (hasInput : Bool) {j : LocalJob} (hstarting : j.state = .starting) :
      JobStep h h' id (.move (.spawned id hasInput)) (some j) (some { j with
        state := .running
        owner := if hasInput then h.earliestInput id else none
        input := if hasInput then
            some { capacity := 65536, closed := (if hasInput then h.earliestInput id else none).isNone }
          else none })
  /-- Its process does not start, and it is forgotten. -/
  | spawnFailed (reason : String) {j : LocalJob} (hstarting : j.state = .starting) :
      JobStep h h' id (.move (.spawnFailed id reason)) (some j) none
  /-- Its owner's input is carried on. -/
  | carried (m : Copy.Move) {j : LocalJob} {i : Nat} {a : Attachment} {pipe outgoing pipe' : Pipe} {feed : Copy}
      (howner : j.owner = some i) (ha : h.attaches[i]? = some a) (hinput : j.input = some pipe)
      (hfeed : j.feed.step a.link.outgoing pipe m = some (feed, outgoing, pipe'))
      (hattaches : h'.attaches = h.attaches.setIfInBounds i { a with link := { a.link with outgoing } }) :
      JobStep h h' id (.move (.carry id m)) (some j)
        (some { j with feed, input := some (if feed.result.isSome then pipe'.close else pipe') })
  /-- Its process has ended. -/
  | ended {j : LocalJob} (hrun : j.state = .running) :
      JobStep h h' id (.move (.closeOutput id)) (some j) (some { j with log := j.log.close, input := j.input.map Pipe.abandon })
  /-- Its process reads. -/
  | read (n : Nat) {j : LocalJob} : JobStep h h' id (.read id n) (some j) (some (LocalCluster.readInput n j).2)
  /-- Nothing happens to its input. -/
  | kept {e : Event} {o o' : Option LocalJob} (he : e.concerns id = false) (hsame : Option.Rel SameInput o o') : JobStep h h' id e o o'

/-- A job that does not change has the same input. -/
theorem SameInput.refl (j : LocalJob) : SameInput j j := ⟨rfl, Iff.rfl, rfl, rfl, rfl⟩

/-- Where one job is changed but for its input, every job has the same input. -/
theorem rel_sameInput_mapJob (h : LocalHost) (id x : String) {f : LocalJob → LocalJob} (hf : ∀ j, SameInput j (f j)) :
    Option.Rel SameInput (h.job? id) ((h.mapJob x f).job? id) := by
  rw [job?_mapJob h x id fun j => (hf j).spec]
  cases h.job? id with
  | none => exact .none
  | some j =>
    refine .some ?_
    split
    · exact hf j
    · exact .refl j

/-- Carrying input on is a move of the copy between the owner's connection and the job's input. -/
theorem carry_eq_some {m : Copy.Move} (hm : h.carry id m = some h') :
    ∃ j i a pipe feed outgoing pipe', h.job? id = some j ∧ j.owner = some i ∧ h.attaches[i]? = some a ∧ j.input = some pipe ∧
      j.feed.step a.link.outgoing pipe m = some (feed, outgoing, pipe') ∧
      h' = { h.mapJob id fun j => { j with feed, input := some (if feed.result.isSome then pipe'.close else pipe') } with
        attaches := h.attaches.setIfInBounds i { a with link := { a.link with outgoing } } } := by
  simp only [carry, Option.bind_eq_bind, Option.bind_eq_some_iff] at hm
  obtain ⟨j, hj, i, hi, a, ha, pipe, hpipe, ⟨feed, outgoing, pipe'⟩, hfeed, hm⟩ := hm
  cases hm
  exact ⟨j, i, a, pipe, feed, outgoing, pipe', hj, hi, ha, hpipe, hfeed, rfl⟩

/-- Reading leaves a job as it is but for what is in its input. -/
theorem readInput_same (n : Nat) (j : LocalJob) :
    (LocalCluster.readInput n j).2.spec = j.spec ∧ (LocalCluster.readInput n j).2.state = j.state ∧
      (LocalCluster.readInput n j).2.owner = j.owner ∧ (LocalCluster.readInput n j).2.input.isSome = j.input.isSome := by
  unfold LocalCluster.readInput
  cases hinput : j.input <;> simp [hinput]

/-- Where one job is changed, that is what becomes of it, and nothing of any other. -/
theorem JobStep.of_mapJob {x : String} {f : LocalJob → LocalJob} (hj : h.job? x = some j)
    (hjobs : h'.job? id = (h.mapJob x f).job? id) (hid : ∀ k, k.spec.id = x → (f k).spec.id = x)
    (hother : x ≠ id → e.concerns id = false) (hself : x = id → JobStep h h' id e (some j) (some (f j))) :
    JobStep h h' id e (h.job? id) (h'.job? id) := by
  rw [hjobs, job?_mapJob_of_id h x id hid]
  by_cases hx : x = id
  · subst hx
    rw [hj, Option.map_some, if_pos rfl]
    exact hself rfl
  · have hsame : ((h.job? id).map fun j => if id = x then f j else j) = h.job? id := by simp [Ne.symm hx]
    rw [hsame]
    exact .kept (hother hx) (optionRel_refl .refl _)

/-- What becomes of a job when a process reads. -/
theorem job_step_read {x : String} {n : Nat} (he : h.after (.read x n) = some h') : JobStep h h' id (.read x n) (h.job? id) (h'.job? id) := by
  obtain ⟨j, hj, rfl⟩ := Option.map_eq_some_iff.mp he
  have hid : j.spec.id = x := by simpa using List.find?_some hj
  refine .of_mapJob hj rfl (fun k _ => by rw [(readInput_same n j).1, hid]) (fun hx => by simp [Event.concerns, hx]) ?_
  rintro rfl
  exact .read n

/-- Everything that happens does one of these to the job of an ID. -/
theorem job_step (he : h.after e = some h') : JobStep h h' id e (h.job? id) (h'.job? id) := by
  rcases e with m | ⟨x, n⟩
  swap
  · exact job_step_read he
  have hm : h.step m = some h' := he
  cases m with
  | submit spec =>
    cases step_moved hm with
    | submitted _ hnew =>
      rw [job?_submitted]
      by_cases hx : spec.id = id
      · subst hx
        rw [hnew]
        simpa using JobStep.submitted spec rfl
      · refine .kept (by simp [Event.concerns, hx]) ?_
        simpa [Ne.symm hx] using optionRel_refl .refl _
  | spawned x hasInput =>
    simp only [step] at hm
    split at hm <;> cases hm
    rename_i hs
    obtain ⟨j, hj, hstarting⟩ := exists_of_isStarting hs
    simp only [LocalHost.spawned, hj]
    refine .of_mapJob hj (job?_mapPending ..) (fun k hk => hk) (fun hx => by simp [Event.concerns, hx]) ?_
    rintro rfl
    exact .spawned hasInput hstarting
  | spawnFailed x reason =>
    cases step_moved hm with
    | spawnFailed _ _ j hj hstarting =>
      rw [job?_spawnFailed]
      by_cases hx : x = id
      · subst hx
        rw [hj, if_pos rfl]
        exact .spawnFailed reason hstarting
      · refine .kept (by simp [Event.concerns, hx]) ?_
        rw [if_neg (Ne.symm hx)]
        exact optionRel_refl .refl _
  | carry x m =>
    obtain ⟨j, i, a, pipe, feed, outgoing, pipe', hj, howner, ha, hinput, hfeed, rfl⟩ := carry_eq_some hm
    refine .of_mapJob hj rfl (fun k hk => hk) (fun hx => by simp [Event.concerns, hx]) ?_
    rintro rfl
    exact .carried m howner ha hinput hfeed rfl
  | closeOutput x =>
    cases step_moved hm with
    | outputClosed _ j hj hrun =>
      refine .of_mapJob hj rfl (fun k hk => hk) (fun hx => by simp [Event.concerns, hx]) ?_
      rintro rfl
      exact .ended hrun
  | exit x code =>
    cases step_moved hm with
    | exited _ _ j hj hrun =>
      refine .of_mapJob hj rfl (fun k hk => hk) (fun _ => rfl) fun _ => .kept rfl (.some ?_)
      exact ⟨rfl, by simp [hrun], rfl, rfl, rfl⟩
  | stop x =>
    cases step_moved hm with
    | leftAlone => exact .kept rfl (optionRel_refl .refl _)
    | stopped => exact .kept rfl (rel_sameInput_mapJob h id x fun k => ⟨rfl, Iff.rfl, rfl, rfl, rfl⟩)
  | emit x c =>
    cases step_moved hm with
    | emitted => exact .kept rfl (rel_sameInput_mapJob h id x fun k => ⟨rfl, Iff.rfl, rfl, rfl, rfl⟩)
  | attach | detach | serve | part | client =>
    cases step_moved hm
    exact .kept rfl (optionRel_refl .refl _)

/-- Whether something that happens starts the process of a job, or fails to. -/
def Event.starts (id : String) : Event → Bool
  | .move (.spawned x _) | .move (.spawnFailed x _) => x == id
  | _ => false

/-- What does not concern a job does not start its process. -/
theorem Event.starts_of_concerns (he : e.concerns id = false) : e.starts id = false := by
  cases e with
  | read => rfl
  | move m => cases m <;> first | rfl | exact he

/-- Once a job has an input it keeps it, with its owner, and a job that starts does so until its process runs or fails to start. -/
theorem JobStep.goes_on (hs : JobStep h h' id e (some j) o') (he : e.starts id = false) :
    ∃ j', o' = some j' ∧ j'.spec = j.spec ∧ (j'.state = .starting ↔ j.state = .starting) ∧ j'.owner = j.owner ∧
      j'.input.isSome = j.input.isSome := by
  cases hs with
  | spawned => simp [Event.starts] at he
  | spawnFailed => simp [Event.starts] at he
  | carried m howner ha hinput => exact ⟨_, rfl, rfl, Iff.rfl, rfl, by simp [hinput]⟩
  | ended hrun => exact ⟨_, rfl, rfl, Iff.rfl, rfl, by simp⟩
  | read n =>
    obtain ⟨hspec, hstate, howner, hinput⟩ := readInput_same n j
    exact ⟨_, rfl, hspec, by rw [hstate], howner, hinput⟩
  | kept he hsame =>
    cases hsame with
    | some hsame => exact ⟨_, rfl, hsame.spec, hsame.starting, hsame.owner, by rw [hsame.input]⟩

/-- A job whose process runs is not started again. -/
theorem JobStep.starts_of_started (hs : JobStep h h' id e (some j) o') (hstarted : j.state ≠ .starting) : e.starts id = false := by
  cases hs with
  | spawned _ hstarting => exact absurd hstarting hstarted
  | spawnFailed _ hstarting => exact absurd hstarting hstarted
  | carried | ended | read => rfl
  | kept he => exact Event.starts_of_concerns he

/-! ## What goes into a job's input -/

/-- What was taken off the connection of an attach, by how the attach was before and is after. -/
def takenOff (before after : Option Attachment) : Bytes :=
  let sent (o : Option Attachment) : Bytes := (o.map (·.link.outgoing.buffer)).getD []
  (sent before).take ((sent before).length - (sent after).length)

/-- Nothing was taken off where there is as much as before. -/
theorem takenOff_self (o : Option Attachment) : takenOff o o = [] := by
  simp [takenOff]

/-- What came with a reading. -/
def got : Reading → Bytes
  | .data bs => bs
  | _ => []

/-- Nothing comes with a reading of an empty pipe, which stays as it is. -/
theorem got_read_of_nil {p : Pipe} (hempty : p.buffer = []) (n : Nat) : got (p.read n).1 = [] ∧ (p.read n).2 = p := by
  unfold Pipe.read
  rw [hempty]
  cases p.closed <;> exact ⟨rfl, rfl⟩

/-- A host, with what goes through the standard input of one of its jobs. -/
structure Meter where
  host : LocalHost
  /-- What was taken off the connection of each attach to be carried to the job. -/
  drawn : Nat → Bytes := fun _ => []
  /-- What the job's process has read. -/
  read : Bytes := []

namespace Meter

/-- What is taken off the connection of an attach for a job. -/
def draws (id : String) (h h' : LocalHost) (e : Event) (k : Nat) : Bytes :=
  match e with
  | .move (.carry x _) => if x = id then takenOff h.attaches[k]? h'.attaches[k]? else []
  | _ => []

/-- What a job's process reads. -/
def reads (id : String) (h : LocalHost) : Event → Bytes
  | .read x n => if x = id then ((h.job? id).map fun j => got (LocalCluster.readInput n j).1).getD [] else []
  | _ => []

/-- A host that is watched at one of its jobs, after something has happened at it. -/
def step (id : String) (m : Meter) (e : Event) : Option Meter :=
  (m.host.after e).map fun host =>
    { host, drawn := fun k => m.drawn k ++ draws id m.host host e k, read := m.read ++ reads id m.host e }

variable {m m' first : Meter} {es : List Event}

/-- A host goes on as it does when nobody watches. -/
theorem host_run (hrun : follow (step id) m es = some m') : follow after m.host es = some m'.host := by
  induction es generalizing m with
  | nil =>
    cases hrun
    rfl
  | cons e es ih =>
    obtain ⟨m₁, he, hrun⟩ := follow_cons_eq_some.mp hrun
    obtain ⟨host, hhost, rfl⟩ := Option.map_eq_some_iff.mp he
    exact follow_cons_eq_some.mpr ⟨host, hhost, ih hrun⟩

/-- Only where input is carried to a job is anything taken off for it. -/
theorem draws_eq_nil (he : ∀ c, e ≠ .move (.carry id c)) (k : Nat) : draws id h h' e k = [] := by
  unfold draws
  split
  · rename_i x c
    rw [if_neg (by rintro rfl; exact he c rfl)]
  · rfl

/-- Only where a job's process reads is anything read. -/
theorem reads_eq_nil (he : ∀ n, e ≠ .read id n) : reads id h e = [] := by
  unfold reads
  split
  · rename_i x n
    rw [if_neg (by rintro rfl; exact he n rfl)]
  · rfl

end Meter

/-! ## On the way from an owner to a job -/

/-- What has become of what was drawn from an owner: what the process has read, what is in its input, and what is held in between, in this
order. What is in the input is lost when the process ends, and what is held when the copy fails. -/
def Conveys (drawn read : Bytes) (feed : Copy) (pipe : Pipe) : Prop :=
  ∃ carried, read <+: carried ∧ carried <+: drawn ∧ (feed.result = none → drawn = carried ++ feed.held) ∧
    (carried = read ++ pipe.buffer ∨ pipe.closed = true ∧ pipe.buffer = [])

namespace Conveys

variable {drawn read : Bytes} {feed feed' : Copy} {pipe pipe' src src' : Pipe}

/-- An input into which nothing has gone yet. -/
theorem start {pipe : Pipe} (hempty : pipe.buffer = []) : Conveys [] [] {} pipe :=
  ⟨[], List.prefix_rfl, List.prefix_rfl, fun _ => rfl, Or.inl (by simp [hempty])⟩

/-- A copy that is over announces the end, and else leaves the input open. -/
theorem close_of_over (hc : Conveys drawn read feed pipe) : Conveys drawn read feed (if feed.result.isSome then pipe.close else pipe) := by
  obtain ⟨carried, hread, hdrawn, hheld, hpipe⟩ := hc
  split
  · exact ⟨carried, hread, hdrawn, hheld, hpipe.imp_right fun ⟨_, hempty⟩ => ⟨rfl, hempty⟩⟩
  · exact ⟨carried, hread, hdrawn, hheld, hpipe⟩

/-- The copy moves. -/
theorem turn (hc : Conveys drawn read feed pipe) (hgoing : feed.result = none) (ht : feed.Turn src pipe feed' src' pipe') :
    Conveys (drawn ++ src.buffer.take (src.buffer.length - src'.buffer.length)) read feed' pipe' := by
  obtain ⟨carried, hread, hdrawn, hheld, hpipe⟩ := hc
  cases ht with
  | @read bs later hend hb hne =>
    have htaken : src.buffer.take (src.buffer.length - later.length) = bs := by simp [hb]
    simp only [htaken]
    refine ⟨carried, hread, hdrawn.trans (List.prefix_append _ _), fun _ => ?_, hpipe⟩
    rw [hheld hgoing, List.append_assoc]
  | drained hclosed hb => exact ⟨carried, hread, by simpa using hdrawn, fun _ => by simpa using hheld hgoing, hpipe⟩
  | @wrote n hopen hn =>
    have hcarried : carried = read ++ pipe.buffer := hpipe.resolve_right fun ⟨hclosed, _⟩ => by simp [hopen] at hclosed
    have hdrawn' : drawn = carried ++ feed.held.take n ++ feed.held.drop n := by
      rw [List.append_assoc, List.take_append_drop, hheld hgoing]
    refine ⟨carried ++ feed.held.take n, hread.trans (List.prefix_append _ _), ?_, fun _ => ?_, Or.inl ?_⟩
    · simpa using ⟨_, hdrawn'.symm⟩
    · simpa using hdrawn'
    · rw [hcarried, List.append_assoc]
  | failed hclosed e => exact ⟨carried, hread, by simpa using hdrawn, (fun hnone => by cases hnone), hpipe⟩
  | conclude hend hheld' => exact ⟨carried, hread, by simpa using hdrawn, (fun hnone => by cases hnone), hpipe⟩

/-- The process ends, and what is in its input is lost. -/
theorem abandon (hc : Conveys drawn read feed pipe) : Conveys drawn read feed pipe.abandon := by
  obtain ⟨carried, hread, hdrawn, hheld, -⟩ := hc
  exact ⟨carried, hread, hdrawn, hheld, Or.inr ⟨rfl, rfl⟩⟩

/-- The process reads. -/
theorem reading (hc : Conveys drawn read feed pipe) (n : Nat) : Conveys drawn (read ++ got (pipe.read n).1) feed (pipe.read n).2 := by
  by_cases hempty : pipe.buffer = []
  · obtain ⟨hgot, hsame⟩ := got_read_of_nil hempty n
    rw [hgot, hsame, List.append_nil]
    exact hc
  · obtain ⟨carried, hread, hdrawn, hheld, hpipe⟩ := hc
    rw [Pipe.read_of_ne_nil hempty]
    have hcarried : carried = read ++ pipe.buffer.take n ++ pipe.buffer.drop n := by
      rw [List.append_assoc, List.take_append_drop]
      exact hpipe.resolve_right fun ⟨_, hnil⟩ => hempty hnil
    exact ⟨carried, ⟨_, hcarried.symm⟩, hdrawn, hheld, Or.inl hcarried⟩

/-- What was read of what was drawn is its beginning. -/
theorem isPrefix (hc : Conveys drawn read feed pipe) : read <+: drawn := by
  obtain ⟨carried, hread, hdrawn, -⟩ := hc
  exact hread.trans hdrawn

end Conveys

end JobPlane.LocalHost
