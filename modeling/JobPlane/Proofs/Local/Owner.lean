import Mathlib.Data.List.Induction
import JobPlane.Proofs.Job.Environment
import JobPlane.Proofs.Local.Input

/-!
# Who owns a job's input

The input of a job is given away once, when its process begins to run, and the environment with the size of the terminal is settled before
that, when the job is submitted. In between attaches come and are given up. `one_input_owner` says of every job at every time whom its input
was given to, that nothing of anyone else goes there, and when the terminal whose size the job was told is the owner's.
-/

namespace JobPlane.LocalHost

variable {h h' h₀ h₁ : LocalHost} {host id : String} {e : Event} {es since during : List Event} {o o' : Option LocalJob}
  {j j' : LocalJob} {spec : JobSpec} {hasInput : Bool} {i k lines columns : Nat} {drawn : Nat → Bytes} {read : Bytes}

/-! ## The size of the terminal -/

/-- The size that a job with a terminal is told when it is submitted: the earliest attach that wants its input gave it, and neither
dimension is zero. -/
def TerminalSize (h : LocalHost) (spec : JobSpec) (lines columns : Nat) : Prop :=
  spec.config.tty = true ∧ ∃ i a, h.Wants spec.id i ∧ (∀ k < i, ¬h.Wants spec.id k) ∧ h.attaches[i]? = some a ∧
    a.request.height.toNat = lines ∧ a.request.width.toNat = columns ∧ 0 < lines ∧ 0 < columns

/-- A job that is told a size has it behind its environment. -/
theorem sized_of_terminalSize (hs : h.TerminalSize spec lines columns) :
    h.sized spec = { spec with config := { spec.config with
      env := spec.config.env ++ ["LINES=" ++ toString lines, "COLUMNS=" ++ toString columns] } } := by
  obtain ⟨htty, i, a, hw, hnone, ha, rfl, rfl, hlines, hcolumns⟩ := hs
  have hfirst := earliestInput_eq_some_iff.mpr ⟨hw, hnone⟩
  simp [sized, htty, hfirst, ha, withSize, hlines, hcolumns]

/-- A job that is told no size keeps its environment. -/
theorem sized_of_no_terminalSize (hs : ∀ lines columns, ¬h.TerminalSize spec lines columns) : h.sized spec = spec := by
  unfold sized
  split
  swap
  · rfl
  rename_i htty
  split
  swap
  · rfl
  rename_i a hfound
  obtain ⟨i, hfirst, ha⟩ := Option.bind_eq_some_iff.mp hfound
  obtain ⟨hw, hnone⟩ := earliestInput_eq_some_iff.mp hfirst
  have hempty : ¬(0 < a.request.height.toNat ∧ 0 < a.request.width.toNat) := fun ⟨hlines, hcolumns⟩ =>
    hs _ _ ⟨htty, i, a, hw, hnone, ha, rfl, rfl, hlines, hcolumns⟩
  rw [withSize, if_neg hempty]

/-- A size behind an environment is the one that a process sees, and no other variable changes. -/
theorem get?_apply_size (env : List String) (lines columns x : String) :
    (Environment.apply (env ++ ["LINES=" ++ lines, "COLUMNS=" ++ columns])).get? x =
      if x = "COLUMNS" then some columns else if x = "LINES" then some lines else (Environment.apply env).get? x := by
  have hsplit : env ++ ["LINES=" ++ lines, "COLUMNS=" ++ columns] =
      env ++ [Environment.renderPair "LINES" lines] ++ [Environment.renderPair "COLUMNS" columns] := by
    simp [Environment.renderPair]
  rw [hsplit, Environment.get?_apply_concat (by decide), Environment.get?_apply_concat (by decide)]

/-! ## How a job came to be -/

/-- In a run, a job was submitted when the host was `h₀`, with what has happened since. -/
def Submitted (host : String) (es : List Event) (spec : JobSpec) (h₀ : LocalHost) (since : List Event) : Prop :=
  ∃ before, es = before ++ .move (.submit spec) :: since ∧ follow after { id := host } before = some h₀

/-- The process of a job began to run when the host was `h₁`, with or without an input. Until then, and since the job was submitted to the
host as it was at `h₀`, it was starting. -/
structure Began (h₀ : LocalHost) (spec : JobSpec) (since during : List Event) (hasInput : Bool) (h₁ : LocalHost) : Prop where
  later : ∃ later, since = during ++ .move (.spawned spec.id hasInput) :: later
  run : follow after h₀ (.move (.submit spec) :: during) = some h₁
  quiet : ∀ e ∈ during, e.starts spec.id = false

/-- What has become of a job that was submitted. -/
inductive Course (h₀ : LocalHost) (spec : JobSpec) (since : List Event) (j : LocalJob) : Prop
  /-- It is still starting, and its input was given to nobody. -/
  | starting (hstarting : j.state = .starting) (hnone : j.owner = none) (hquiet : ∀ e ∈ since, e.starts spec.id = false)
  /-- Its process runs or has run. -/
  | started (hstarted : j.state ≠ .starting) (during : List Event) (hasInput : Bool) (h₁ : LocalHost)
      (hbegan : Began h₀ spec since during hasInput h₁) (howner : j.owner = if hasInput then h₁.earliestInput spec.id else none)
      (hinput : j.input.isSome = hasInput)

/-- A run that goes on has the same submission in it. -/
theorem Submitted.concat (hs : Submitted host es spec h₀ since) (e : Event) : Submitted host (es ++ [e]) spec h₀ (since ++ [e]) := by
  obtain ⟨before, rfl, hrun⟩ := hs
  exact ⟨before, by simp, hrun⟩

/-- A run is one to the submission of a job, and one from there. -/
theorem Submitted.since_run (hs : Submitted host es spec h₀ since) (hrun : follow after { id := host } es = some h) :
    follow after h₀ (.move (.submit spec) :: since) = some h := by
  obtain ⟨before, rfl, hbefore⟩ := hs
  obtain ⟨t, ht, hsince⟩ := follow_append_eq_some.mp hrun
  rw [hbefore, Option.some.injEq] at ht
  exact ht ▸ hsince

/-- A process that began to run has begun to run when more has happened. -/
theorem Began.concat (hb : Began h₀ spec since during hasInput h₁) (e : Event) : Began h₀ spec (since ++ [e]) during hasInput h₁ := by
  obtain ⟨later, rfl⟩ := hb.later
  exact ⟨⟨later ++ [e], by simp⟩, hb.run, hb.quiet⟩

/-- Where nothing starts a job, it goes on with its owner. -/
theorem Course.concat (hc : Course h₀ spec since j) (he : e.starts spec.id = false) (hstate : j'.state = .starting ↔ j.state = .starting)
    (howner : j'.owner = j.owner) (hinput : j'.input.isSome = j.input.isSome) : Course h₀ spec (since ++ [e]) j' := by
  cases hc with
  | starting hstarting hnone hquiet =>
    refine .starting (hstate.mpr hstarting) (howner.trans hnone) fun d hd => ?_
    rcases List.mem_append.mp hd with hd | hd
    · exact hquiet d hd
    · rwa [List.mem_singleton.mp hd]
  | started hstarted during hasInput h₁ hbegan howner' hinput' =>
    exact .started (fun hstarting => hstarted (hstate.mp hstarting)) during hasInput h₁ (hbegan.concat e) (howner.trans howner')
      (hinput.trans hinput')

/-- How a known job came to be: it was submitted, and what has become of it since. -/
theorem exists_course (hrun : follow after { id := host } es = some h) (hj : h.job? id = some j) :
    ∃ spec h₀ since, Submitted host es spec h₀ since ∧ spec.id = id ∧ j.spec = h₀.sized spec ∧ Course h₀ spec since j := by
  -- what happens last to the job decides
  induction es using List.reverseRecOn generalizing h j with
  | nil =>
    cases hrun
    simp [job?] at hj
  | append_singleton es e ih =>
    obtain ⟨t, ht, he⟩ := follow_append_eq_some.mp hrun
    rw [follow_singleton] at he
    have hstep : JobStep t h id e (t.job? id) (some j) := hj ▸ job_step he
    cases hbefore : t.job? id with
    | none =>
      rw [hbefore] at hstep
      cases hstep with
      | submitted spec hid => exact ⟨spec, t, [], ⟨es, rfl, ht⟩, hid, rfl, .starting rfl rfl (by simp)⟩
      | kept _ hsame => cases hsame
    | some j₁ =>
      rw [hbefore] at hstep
      obtain ⟨spec, h₀, since, hsub, rfl, hspec, hcourse⟩ := ih ht hbefore
      refine ⟨spec, h₀, since ++ [e], hsub.concat e, rfl, ?_⟩
      cases hstarts : e.starts spec.id with
      | false =>
        obtain ⟨j', heq, hspec', hstate, howner, hinput⟩ := hstep.goes_on hstarts
        cases heq
        exact ⟨hspec'.trans hspec, hcourse.concat hstarts hstate howner hinput⟩
      | true =>
        cases hstep with
        | spawned hasInput hstarting =>
          refine ⟨hspec, ?_⟩
          cases hcourse with
          | starting _ _ hquiet =>
            exact .started (by simp) since hasInput t ⟨⟨[], rfl⟩, hsub.since_run ht, hquiet⟩ rfl (by cases hasInput <;> rfl)
          | started hstarted => exact absurd hstarting hstarted
        | kept hconcerns => simp [Event.starts_of_concerns hconcerns] at hstarts
        | _ => simp [Event.starts] at hstarts

/-- Once the process of a job runs, the job keeps its owner. -/
theorem owner_run (hrun : follow after h es = some h') (hj : h.job? id = some j) (hstarted : j.state ≠ .starting) :
    ∃ j', h'.job? id = some j' ∧ j'.state ≠ .starting ∧ j'.owner = j.owner := by
  refine follow_keeps hrun (P := fun g => ∃ j', g.job? id = some j' ∧ j'.state ≠ .starting ∧ j'.owner = j.owner)
    (fun t e t' _ he ⟨j₁, hj₁, hstarted₁, howner₁⟩ => ?_) ⟨j, hj, hstarted, rfl⟩
  have hstep : JobStep t t' id e (some j₁) (t'.job? id) := hj₁ ▸ job_step he
  obtain ⟨j₂, hj₂, -, hstate, howner, -⟩ := hstep.goes_on (hstep.starts_of_started hstarted₁)
  exact ⟨j₂, hj₂, fun hstarting => hstarted₁ (hstate.mp hstarting), howner.trans howner₁⟩

/-- Whoever owned a job's input at some time of a run owns it at its end. -/
theorem owner_of_earlier {pre : List Event} (hrun : follow after { id := host } es = some h) (hj : h.job? id = some j) (hpre : pre <+: es)
    (hearlier : follow after { id := host } pre = some h') (hj' : h'.job? id = some j') (howner : j'.owner = some i) :
    j.owner = some i := by
  obtain ⟨rest, rfl⟩ := hpre
  obtain ⟨t, ht, hrest⟩ := follow_append_eq_some.mp hrun
  rw [hearlier, Option.some.injEq] at ht
  subst ht
  obtain ⟨spec, h₀, since, -, rfl, -, hcourse⟩ := exists_course hearlier hj'
  cases hcourse with
  | starting _ hnone => simp [hnone] at howner
  | started hstarted =>
    obtain ⟨j₁, hj₁, -, hsame⟩ := owner_run hrest hj' hstarted
    rw [hj, Option.some.injEq] at hj₁
    exact hj₁ ▸ hsame.trans howner

/-- While a job is starting, those who wait for it are told something only when they are given up. -/
theorem told_eq_none_iff_of_quiet (he : e.starts id = false) : told id e = none ↔ e ≠ .move (.detach id) := by
  cases e with
  | read => simp [told]
  | move m => cases m <;> simp_all [told, answer, Event.starts]

/-- The attach that was the earliest to want a job's input when it was submitted is the earliest when its process begins to run, exactly
if those who wait for the job are not given up in between. -/
theorem Began.earliestInput_iff (hb : Began h₀ spec since during hasInput h₁) (hfirst : h₀.earliestInput spec.id = some i) :
    h₁.earliestInput spec.id = some i ↔ .move (.detach spec.id) ∉ during := by
  have hsubmit : told spec.id (.move (.submit spec)) = none := rfl
  rw [earliestInput_run hb.run hfirst, List.forall_mem_cons, and_iff_right hsubmit]
  constructor
  · intro hall hmem
    exact (told_eq_none_iff_of_quiet (hb.quiet _ hmem)).mp (hall _ hmem) rfl
  · rintro hnot e he
    refine (told_eq_none_iff_of_quiet (hb.quiet e he)).mpr ?_
    rintro rfl
    exact hnot he

/-! ## What goes into a job's input -/

/-- How the input of the job of an ID stands, by what was drawn from each attach for it, and what its process has read. -/
inductive Stands (drawn : Nat → Bytes) (read : Bytes) : Option LocalJob → Prop
  | unknown (hdrawn : ∀ k, drawn k = []) (hread : read = []) : Stands drawn read none
  | starting {j : LocalJob} (hdrawn : ∀ k, drawn k = []) (hread : read = []) (hstate : j.state = .starting) (howner : j.owner = none)
      (hinput : j.input = none) (hfeed : j.feed = {}) : Stands drawn read (some j)
  /-- Its input was given to nobody. -/
  | alone {j : LocalJob} (hdrawn : ∀ k, drawn k = []) (hread : read = []) (hstate : j.state ≠ .starting) (howner : j.owner = none)
      (hinput : ∀ pipe, j.input = some pipe → pipe.closed = true ∧ pipe.buffer = []) : Stands drawn read (some j)
  /-- Its input was given to an attach. -/
  | owned {j : LocalJob} {i : Nat} {pipe : Pipe} (hothers : ∀ k, k ≠ i → drawn k = []) (hstate : j.state ≠ .starting)
      (howner : j.owner = some i) (hinput : j.input = some pipe) (hconveys : Conveys (drawn i) read j.feed pipe) :
      Stands drawn read (some j)

namespace Stands

/-- Nothing has gone to a job that is starting, which has no input yet. -/
theorem of_starting (hs : Stands drawn read (some j)) (hstarting : j.state = .starting) :
    (∀ k, drawn k = []) ∧ read = [] ∧ j.input = none ∧ j.feed = {} := by
  cases hs with
  | starting hdrawn hread _ _ hinput hfeed => exact ⟨hdrawn, hread, hinput, hfeed⟩
  | alone _ _ hstate => exact absurd hstarting hstate
  | owned _ hstate => exact absurd hstarting hstate

/-- Where a process begins to run, its input is given away, or ends at once. -/
theorem spawned {owner : Option Nat} (hs : Stands drawn read (some j)) (hstarting : j.state = .starting)
    (howner : ∀ i, owner = some i → hasInput = true) :
    Stands drawn read (some { j with
      state := .running, owner, input := if hasInput then some { capacity := 65536, closed := owner.isNone } else none }) := by
  obtain ⟨hdrawn, hread, -, hfeed⟩ := hs.of_starting hstarting
  cases owner with
  | none =>
    refine .alone hdrawn hread (by simp) rfl fun pipe hpipe => ?_
    obtain ⟨-, hpipe⟩ := Option.ite_none_right_eq_some.mp hpipe
    cases hpipe
    exact ⟨rfl, rfl⟩
  | some i =>
    refine .owned (fun k _ => hdrawn k) (by simp) rfl (if_pos (howner i rfl)) ?_
    rw [hdrawn, hread, hfeed]
    exact .start rfl

/-- Where a process ends, what is in its input is lost. -/
theorem ended (hs : Stands drawn read (some j)) (hrun : j.state = .running) :
    Stands drawn read (some { j with log := j.log.close, input := j.input.map Pipe.abandon }) := by
  cases hs with
  | starting _ _ hstate => simp [hrun] at hstate
  | alone hdrawn hread hstate howner hinput =>
    refine .alone hdrawn hread hstate howner fun pipe hpipe => ?_
    obtain ⟨pipe, -, rfl⟩ := Option.map_eq_some_iff.mp hpipe
    exact ⟨rfl, rfl⟩
  | owned hothers hstate howner hinput hconveys =>
    exact .owned hothers hstate howner (congrArg (Option.map Pipe.abandon) hinput) hconveys.abandon

/-- Where a job goes on with the same input, that stands as before. -/
theorem same (hs : Stands drawn read (some j)) (hsame : SameInput j j') : Stands drawn read (some j') := by
  cases hs with
  | starting hdrawn hread hstate howner hinput hfeed =>
    exact .starting hdrawn hread (hsame.starting.mpr hstate) (hsame.owner.trans howner) (hsame.input.trans hinput)
      (hsame.feed.trans hfeed)
  | alone hdrawn hread hstate howner hinput =>
    refine .alone hdrawn hread (hsame.starting.not.mpr hstate) (hsame.owner.trans howner) fun pipe hpipe => ?_
    exact hinput pipe (hsame.input.symm.trans hpipe)
  | owned hothers hstate howner hinput hconveys =>
    exact .owned hothers (hsame.starting.not.mpr hstate) (hsame.owner.trans howner) (hsame.input.trans hinput)
      (hsame.feed ▸ hconveys)

/-- What does not carry anything to a job and does not let it read leaves its input standing with what was drawn and read. -/
theorem other (hs : Stands drawn read o) (hstep : JobStep h h' id e o o') (hcarry : ∀ c, e ≠ .move (.carry id c))
    (hread : ∀ n, e ≠ .read id n) : Stands drawn read o' := by
  cases hstep with
  | submitted =>
    cases hs with
    | unknown hdrawn hread => exact .starting hdrawn hread rfl rfl rfl rfl
  | spawned hasInput hstarting => exact hs.spawned hstarting fun i hi => (Option.ite_none_right_eq_some.mp hi).1
  | spawnFailed _ hstarting =>
    obtain ⟨hdrawn, hread, -⟩ := hs.of_starting hstarting
    exact .unknown hdrawn hread
  | carried m => exact absurd rfl (hcarry m)
  | read n => exact absurd rfl (hread n)
  | ended hrun => exact hs.ended hrun
  | kept _ hsame =>
    cases hsame with
    | none => exact hs
    | some hsame => exact hs.same hsame

/-- Where input is carried on, it is drawn from the owner. -/
theorem carry {c : Copy.Move} (hs : Stands drawn read o) (hstep : JobStep h h' id (.move (.carry id c)) o o') :
    Stands (fun k => drawn k ++ Meter.draws id h h' (.move (.carry id c)) k) read o' := by
  cases hstep with
  | kept hconcerns => simp [Event.concerns] at hconcerns
  | @carried _ j i a pipe outgoing pipe' feed howner ha hinput hfeed hattaches =>
    obtain ⟨hi, hget⟩ := Array.getElem?_eq_some_iff.mp ha
    obtain ⟨hgoing, hturn⟩ := Copy.turn_of_step hfeed
    cases hs with
    | starting _ _ _ howner' => simp [howner] at howner'
    | alone _ _ _ howner' => simp [howner] at howner'
    | @owned _ i' pipe₀ hothers hstate howner' hinput' hconveys =>
      obtain rfl : i = i' := Option.some.inj (howner.symm.trans howner')
      obtain rfl : pipe = pipe₀ := Option.some.inj (hinput.symm.trans hinput')
      refine .owned (fun k hk => ?_) hstate howner rfl ?_
      · simp [Meter.draws, hattaches, hothers k hk, Ne.symm hk, takenOff_self]
      · have htaken := (hconveys.turn hgoing hturn).close_of_over
        simpa [Meter.draws, takenOff, hattaches, hi, hget] using htaken

/-- What a process reads was drawn from the owner. -/
theorem reads {n : Nat} (hs : Stands drawn read (h.job? id)) (hstep : JobStep h h' id (.read id n) (h.job? id) o') :
    Stands drawn (read ++ Meter.reads id h (.read id n)) o' := by
  cases hj : h.job? id with
  | none =>
    rw [hj] at hstep
    cases hstep with
    | kept hconcerns => simp [Event.concerns] at hconcerns
  | some j =>
    have hgot : Meter.reads id h (.read id n) = got (LocalCluster.readInput n j).1 := by simp [Meter.reads, hj]
    rw [hgot]
    rw [hj] at hs hstep
    cases hstep with
    | kept hconcerns => simp [Event.concerns] at hconcerns
    | read =>
      unfold LocalCluster.readInput
      cases hs with
      | starting hdrawn hread hstate howner hinput hfeed =>
        rw [hinput]
        exact .starting hdrawn (by simpa [got] using hread) hstate howner hinput hfeed
      | alone hdrawn hread hstate howner hinput =>
        cases hpipe : j.input with
        | none => exact .alone hdrawn (by simpa [got] using hread) hstate howner hinput
        | some pipe =>
          obtain ⟨hclosed, hempty⟩ := hinput pipe hpipe
          obtain ⟨hnothing, hsame⟩ := got_read_of_nil hempty n
          simp only [hnothing, hsame, List.append_nil]
          refine .alone hdrawn hread hstate howner fun pipe' hpipe' => ?_
          cases hpipe'
          exact ⟨hclosed, hempty⟩
      | owned hothers hstate howner hinput hconveys =>
        simp only [hinput]
        exact .owned hothers hstate howner rfl (hconveys.reading n)

/-- What happens at a host leaves the input of a job standing. -/
theorem step {m m' : Meter} (hs : Stands m.drawn m.read (m.host.job? id)) (he : Meter.step id m e = some m') :
    Stands m'.drawn m'.read (m'.host.job? id) := by
  obtain ⟨h', hafter, rfl⟩ := Option.map_eq_some_iff.mp he
  by_cases hcarry : ∃ c, e = .move (.carry id c)
  · obtain ⟨c, rfl⟩ := hcarry
    rw [Meter.reads_eq_nil (by simp), List.append_nil]
    exact hs.carry (job_step hafter)
  have hdrawn : (fun k => m.drawn k ++ Meter.draws id m.host h' e k) = m.drawn := by
    funext k
    rw [Meter.draws_eq_nil fun c hc => hcarry ⟨c, hc⟩, List.append_nil]
  rw [hdrawn]
  by_cases hread : ∃ n, e = .read id n
  · obtain ⟨n, rfl⟩ := hread
    exact hs.reads (job_step hafter)
  · rw [Meter.reads_eq_nil fun n hn => hread ⟨n, hn⟩, List.append_nil]
    exact hs.other (job_step hafter) (fun c hc => hcarry ⟨c, hc⟩) fun n hn => hread ⟨n, hn⟩

/-- Only from the owner of a job's input was anything taken for it. -/
theorem owner_of_drawn (hs : Stands drawn read (some j)) (k : Nat) (hk : drawn k ≠ []) : j.owner = some k := by
  cases hs with
  | starting hdrawn => exact absurd (hdrawn k) hk
  | alone hdrawn => exact absurd (hdrawn k) hk
  | owned hothers _ howner =>
    rw [howner, Option.some.injEq]
    by_contra hne
    exact hk (hothers k (Ne.symm hne))

/-- A process reads what was taken from the owner of its input, from the beginning. -/
theorem read_isPrefix (hs : Stands drawn read (some j)) (hread : read ≠ []) : ∃ i, j.owner = some i ∧ read <+: drawn i := by
  cases hs with
  | starting _ hnothing => exact absurd hnothing hread
  | alone _ hnothing => exact absurd hnothing hread
  | owned _ _ howner _ hconveys => exact ⟨_, howner, hconveys.isPrefix⟩

/-- An input that was given to nobody has come to its end. -/
theorem input_of_none (hs : Stands drawn read (some j)) (hstarted : j.state ≠ .starting) (hnone : j.owner = none) {pipe : Pipe}
    (hpipe : j.input = some pipe) : pipe.closed = true ∧ pipe.buffer = [] := by
  cases hs with
  | starting _ _ hstate => exact absurd hstate hstarted
  | alone _ _ _ _ hinput => exact hinput pipe hpipe
  | owned _ _ howner => simp [hnone] at howner

/-- The input of a job stands through every run of a host that knows no job at first. -/
theorem run {m : Meter} (hrun : follow (Meter.step id) { host := { id := host } } es = some m) :
    Stands m.drawn m.read (m.host.job? id) :=
  follow_keeps hrun (P := fun m => Stands m.drawn m.read (m.host.job? id)) (fun _ _ _ _ he hs => hs.step he) (.unknown (fun _ => rfl) rfl)

end Stands

/-- The owner of a job's input, for every run of a host and every job that is known at its end, watched from the beginning.
1. The job was submitted. If it has a terminal, and of the attaches that then waited for it the first one to ask for its input gave a size
   with both dimensions above zero, `LINES` and `COLUMNS` stand behind its environment with that size. They are what its process sees,
   whatever the environment says before, and every other variable is as it was.
2. Otherwise the job is as it was submitted.
3. Whoever owned its input at any time owns it still, so that it has at most one owner ever.
4. Only from its owner was anything taken to be carried to it, and what its process has read is the beginning of that.
5. While it starts, it has neither an owner nor an input.
6. Once its process runs, its owner is the first to ask for its input of the attaches that waited for it when it began to run. If there was
   none, its input ended there. The attach whose size it was told is its owner exactly if those who waited were not given up before. -/
theorem one_input_owner {m : Meter} (hrun : follow (Meter.step id) { host := { id := host } } es = some m)
    (hj : m.host.job? id = some j) :
    ∃ spec h₀ since, Submitted host es spec h₀ since ∧ spec.id = id ∧
      (∀ lines columns, h₀.TerminalSize spec lines columns →
        j.spec = { spec with config := { spec.config with
          env := spec.config.env ++ ["LINES=" ++ toString lines, "COLUMNS=" ++ toString columns] } } ∧
        ∀ x, (Environment.apply j.spec.config.env).get? x =
          if x = "COLUMNS" then some (toString columns)
          else if x = "LINES" then some (toString lines)
          else (Environment.apply spec.config.env).get? x) ∧
      ((∀ lines columns, ¬h₀.TerminalSize spec lines columns) → j.spec = spec) ∧
      (∀ pre h' j', pre <+: es → follow after { id := host } pre = some h' → h'.job? id = some j' →
        ∀ i, j'.owner = some i → j.owner = some i) ∧
      (∀ k, m.drawn k ≠ [] → j.owner = some k) ∧ (m.read ≠ [] → ∃ i, j.owner = some i ∧ m.read <+: m.drawn i) ∧
      (j.state = .starting → (∀ e ∈ since, e.starts id = false) ∧ j.owner = none ∧ j.input = none) ∧
      (j.state ≠ .starting → ∃ during hasInput h₁, Began h₀ spec since during hasInput h₁ ∧ j.input.isSome = hasInput ∧
        (∀ i, j.owner = some i ↔ hasInput = true ∧ h₁.Wants id i ∧ ∀ k < i, ¬h₁.Wants id k) ∧
        (j.owner = none → ∀ pipe, j.input = some pipe → pipe.closed = true ∧ pipe.buffer = []) ∧
        ∀ i, hasInput = true → h₀.Wants id i → (∀ k < i, ¬h₀.Wants id k) →
          (j.owner = some i ↔ .move (.detach id) ∉ during)) := by
  have hhost := Meter.host_run hrun
  have hstands := Stands.run hrun
  rw [hj] at hstands
  obtain ⟨spec, h₀, since, hsub, rfl, hspec, hcourse⟩ := exists_course hhost hj
  refine ⟨spec, h₀, since, hsub, rfl, fun lines columns hsize => ?_, fun hno => ?_, fun pre h' j' hpre hearlier hj' i howner => ?_,
    hstands.owner_of_drawn, hstands.read_isPrefix, fun hstarting => ?_, fun hstarted => ?_⟩
  · rw [hspec, sized_of_terminalSize hsize]
    exact ⟨rfl, get?_apply_size _ _ _⟩
  · rw [hspec, sized_of_no_terminalSize hno]
  · exact owner_of_earlier hhost hj hpre hearlier hj' howner
  · cases hcourse with
    | starting _ hnone hquiet => exact ⟨hquiet, hnone, (hstands.of_starting hstarting).2.2.1⟩
    | started hstarted => exact absurd hstarting hstarted
  · cases hcourse with
    | starting hstarting => exact absurd hstarting hstarted
    | started _ during hasInput h₁ hbegan howner hinput =>
      have hgiven (i : Nat) : j.owner = some i ↔ hasInput = true ∧ h₁.earliestInput spec.id = some i := by
        rw [howner, Option.ite_none_right_eq_some]
      refine ⟨during, hasInput, h₁, hbegan, hinput, fun i => ?_, fun hnone pipe hpipe => hstands.input_of_none hstarted hnone hpipe,
        fun i hpiped hw hnone => ?_⟩
      · rw [hgiven, earliestInput_eq_some_iff]
      · rw [hgiven, and_iff_right hpiped]
        exact hbegan.earliestInput_iff (earliestInput_eq_some_iff.mpr ⟨hw, hnone⟩)

/-- Two attaches ask for the input of a job with a terminal before it is submitted, behind one that does not, and one asks while it starts.
All write. The job is told the size of the first that asked, instead of the one in its environment, and reads what that one wrote. -/
theorem one_input_owner_of_four_attaches :
    let asks (height width : UInt16) : Event :=
      .move (.attach { job := "j", flags := { stdin := true, stdout := true, stream := true }, height, width } true)
    let writes (i : Nat) (b : UInt8) : Event := .move (.client i fun l => (l.write [b]).2)
    let spec : JobSpec := { id := "j", config := { tty := true, env := ["LINES=1", "TERM=dumb"] } }
    let es : List Event :=
      [.move (.attach { job := "j", flags := { stdout := true, stream := true }, height := 9, width := 9 } true), asks 24 80, asks 50 100,
        .move (.submit spec), asks 30 60, writes 0 97, writes 1 98, writes 2 99, writes 3 100, .move (.spawned "j" true),
        .move (.carry "j" .read), .move (.carry "j" .write), .read "j" 4]
    ∃ m j, follow (Meter.step "j") { host := { id := "h" } } es = some m ∧ m.host.job? "j" = some j ∧ j.owner = some 1 ∧
      m.read = [98] ∧ (∀ k, m.drawn k ≠ [] → k = 1) ∧
      let seen := Environment.apply j.spec.config.env
      seen.get? "LINES" = some "24" ∧ seen.get? "COLUMNS" = some "80" ∧ seen.get? "TERM" = some "dumb" := by
  intro asks writes spec es
  have hrun : ∃ m ∈ follow (Meter.step "j") { host := { id := "h" } } es, ∃ j ∈ m.host.job? "j", j.owner = some 1 ∧ m.read = [98] ∧
      j.spec.config.env = spec.config.env ++ ["LINES=" ++ "24", "COLUMNS=" ++ "80"] := by decide +kernel
  obtain ⟨m, hm, j, hj, howner, hread, henv⟩ := hrun
  obtain ⟨spec', h₀, since, ⟨before, hes, -⟩, -, hsize, hno, -, hdrawn, -⟩ := one_input_owner hm hj
  obtain rfl : spec' = spec := by
    have hmem : .move (.submit spec') ∈ es := hes ▸ List.mem_append_right before List.mem_cons_self
    simpa [es, asks, writes] using hmem
  refine ⟨m, j, hm, hj, howner, hread, fun k hk => (Option.some.inj (howner.symm.trans (hdrawn k hk))).symm, ?_⟩
  by_cases htold : ∃ lines columns, h₀.TerminalSize spec lines columns
  · obtain ⟨lines, columns, htold⟩ := htold
    obtain ⟨hspec, hseen⟩ := hsize lines columns htold
    obtain ⟨hlines, hcolumns⟩ : toString lines = "24" ∧ toString columns = "80" := by
      rw [hspec] at henv
      simp only [List.append_cancel_left_eq, List.cons.injEq, and_true] at henv
      exact henv.imp (String.append_right_inj _).mp (String.append_right_inj _).mp
    rw [hlines, hcolumns] at hseen
    refine ⟨hseen "LINES", hseen "COLUMNS", (hseen "TERM").trans ?_⟩
    decide
  · rw [hno fun lines columns hs => htold ⟨lines, columns, hs⟩] at henv
    simp at henv

end JobPlane.LocalHost
