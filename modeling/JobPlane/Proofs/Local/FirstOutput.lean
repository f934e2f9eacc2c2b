import JobPlane.Proofs.Local.Shows

/-!
# The first output of a job

An attach that is registered before its job starts is joined to the job once its process runs, but it hears of what the job writes only
from the moment its server subscribes, and that is a move of its own. `heard_since_subscribe` says what its client then hears: what the
job writes from that moment on, and so the whole output only if nothing was written before. An attach that was given up before its job
started hears nothing (`AttachStep.untouched`).
-/

namespace JobPlane.LocalHost

open Server Serving

variable {h h' h₀ h₁ : LocalHost} {id : String} {i : Nat}

/-! ## Before the job starts -/

/-- Whatever happened on a host, an attach that is not joined is untouched, if its client only reads. -/
theorem run_untouched {host : String} {ms : List Move} (hrun : follow step { id := host } ms = some h) (hreads : Attentive i ms)
    {a : Attachment} (ha : h.attaches[i]? = some a) : Untouched a := by
  refine follow_keeps (P := fun h => ∀ a, h.attaches[i]? = some a → Untouched a) hrun ?_ (by simp) a ha
  intro h m h' hm hstep hall a' ha'
  cases ha : h.attaches[i]? with
  | some a =>
    obtain ⟨a'', ha'', hattach⟩ := step_attach hstep ha
    rw [ha'] at ha''
    cases ha''
    exact hattach.untouched (hall a ha) (fun f hf => hreads f (hf ▸ hm))
  | none =>
    obtain ⟨hlink, hst | ⟨s, _, hst, -⟩⟩ := step_new hstep ha ha'
    · simp [Untouched, hst, hlink, Link.fresh]
    · simp [Untouched, hst]

/-- The client of an attach that was given up hears nothing, whatever happens. -/
theorem heard_of_givenUp {ms : List Move} {a : Attachment} (ha : h.attaches[i]? = some a) (hgiven : GivenUp a)
    (huntouched : Untouched a) (hreads : Attentive i ms) : heard i h ms = [] := by
  induction ms generalizing h a with
  | nil => rfl
  | cons m ms ih =>
    have hbuf : a.link.incoming.buffer = [] := by
      unfold Untouched at huntouched
      rcases hgiven with hst | ⟨reason, hst⟩ <;> rw [hst] at huntouched <;> rw [huntouched]
    have hnone : h.heardIn i m = [] := by
      unfold heardIn
      split
      · split
        · rename_i heq
          split at heq
          · rw [ha] at heq
            cases heq
            rw [hbuf, List.take_nil]
          · cases heq
        · rfl
      · rfl
    rw [heard, hnone, List.nil_append]
    cases hm : h.step m with
    | none => rfl
    | some h' =>
      obtain ⟨a', ha', hstep⟩ := step_attach hm ha
      exact ih ha' (hstep.givenUp hgiven) (hstep.untouched huntouched fun f hf => hreads f (by simp [hf]))
        (fun f hf => hreads f (List.mem_cons_of_mem m hf))

/-! ## From the start of the job -/

/-- Nothing is on the way to the client of an attach: its server can do nothing, and what was sent is read. -/
def Quiet (i : Nat) (h : LocalHost) : Prop :=
  h.step (.serve i) = none ∧ ∀ a ∈ h.attaches[i]?, a.link.incoming.buffer = []

/-- Where nothing is on the way in a host, the attach by itself is at rest. -/
theorem Shows.resting {s : Serving} (hs : Shows id i h s) (hq : Quiet i h) : s.Resting := by
  obtain ⟨a, ha, -, -, hin⟩ := hs.attach
  exact ⟨hs.serve.mp hq.1, hin ▸ hq.2 a ha⟩

/-- Chunks come to no bytes exactly if all of them are empty. -/
theorem encodings_eq_nil_iff {tty : Bool} {cs : List Frame} : encodings tty cs = [] ↔ ∀ c ∈ cs, c.payload = [] := by
  simp only [encodings, List.flatMap_eq_nil_iff]
  refine forall₂_congr fun c _ => ?_
  unfold encoding Frame.written
  cases tty <;> cases hp : c.payload <;> simp [Frame.encode]

/-- Chunks that begin others come to bytes that begin those of the others. -/
theorem encodings_prefix {tty : Bool} {as bs : List Frame} (h : as <+: bs) : encodings tty as <+: encodings tty bs := by
  obtain ⟨rest, rfl⟩ := h
  rw [encodings_append]
  exact List.prefix_append _ _

/-- What a follower is sent that did not ask for the history begins what was written since it subscribed; at rest it is all of that, and
the end is announced if the log is closed. -/
theorem sent_later {m : Joining} {later taken : List Frame} {s : Serving} (h : Content m false later taken s)
    (hroom : 0 < s.out.capacity) (hflags : m.flags.stdout = true ∧ m.flags.stderr = true) (hstream : m.flags.stream = true)
    (hlogs : m.flags.logs = false) :
    s.received <+: encodings m.tty later ∧
      (s.Resting → s.received = encodings m.tty later ∧ s.out.closed = s.log.closed) := by
  have hhistory : m.history = [] := by simp [Joining.history, hlogs]
  have hsent := h.sent
  rw [Serving.sent, List.append_assoc] at hsent
  refine ⟨?_, fun hrests => ?_⟩
  · obtain ⟨hist, live, rfl, hhist, -, -, -, hlive⟩ := h.split
    rw [hhistory, List.prefix_nil] at hhist
    have hlive := hlive rfl
    rw [wanted_all hflags] at hlive
    rw [hhist, List.nil_append] at hsent
    exact (List.prefix_append _ _).trans (hsent ▸ encodings_prefix hlive)
  · obtain ⟨hsending, hclosed, live, rfl, hno, hpicked⟩ := h.complete hroom (Or.inr hrests)
    have hover (hf : m.follows = false) : s.log.closed = true ∧ later = [] :=
      h.wasClosed (by simpa [Joining.follows, hstream] using hf)
    have hlive : live = later := by
      cases hf : m.follows with
      | false => rw [hno hf, (hover hf).2]
      | true =>
        have hp := hpicked hf
        cases hp
        exact wanted_all hflags _
    rw [hsending, hhistory, hlive, hrests.2, List.flatten_nil, List.append_nil, List.append_nil, List.nil_append] at hsent
    refine ⟨hsent, ?_⟩
    rw [Bool.eq_iff_iff, hclosed]
    exact ⟨fun h => h.elim (fun hf => (hover hf).1) fun hl => hl, Or.inr⟩

/-- A schedule that begins with the subscribe: what is sent is tied to what the job writes from then on. -/
theorem Shows.run_subscribe {s : Serving} {flags : AttachFlags} {tty : Bool} {ms : List Move} (hs : Shows id i h₁ s)
    (hu : Unserved flags tty s) (hrun : follow LocalHost.step h₁ (.serve i :: ms) = some h) (hreads : Attentive i ms)
    (hfit : ∀ c, .emit id c ∈ ms → c.Fits) :
    ∃ s' m fell taken, Shows id i h s' ∧ s'.received = heard i h₁ (.serve i :: ms) ∧ s'.out.capacity = s.out.capacity ∧
      m.flags = flags ∧ m.tty = tty ∧ Content m fell (emitted id (.serve i :: ms)) taken s' ∧
      (Throughout LocalHost.step (KeepsUp i) h₁ (.serve i :: ms) → fell = false) := by
  obtain ⟨h₂, hstep, hrest⟩ := follow_cons_eq_some.mp hrun
  obtain ⟨s₂, hs₂, hfollows, hreceived₂, -⟩ := hs.step hstep (by simp)
  have hcontent : Content s.joining false [] [] s₂ := by
    cases hfollows with
    | serve _ hserve => exact hu.subscribe hserve
    | other _ hne => exact absurd rfl hne
    | stay hne => exact absurd rfl hne
  obtain ⟨s', fell, taken, hs', hc, hreceived, hcapacity, hfell⟩ := hs₂.run hcontent hrest hreads hfit
  have hnone : s.received = [] := (List.append_eq_nil_iff.mp hu.sent).1
  refine ⟨s', s.joining, fell, taken, hs', ?_, hcapacity.trans hfollows.capacity, ?_, ?_, ?_, fun hk => hfell rfl (hk.tail hstep)⟩
  · rw [hreceived, hreceived₂, hnone]
    simp [heard, hstep]
  · simp [joining, hu.server]
  · simp [joining, hu.server]
  · simpa [emitted_cons, emittedIn] using hc

/-- A schedule from before the subscribe, which is the server's first move: nothing is heard until then. -/
theorem Shows.run_late {s : Serving} {flags : AttachFlags} {tty : Bool} {post : List Move} (hs : Shows id i h₁ s)
    (hu : Unserved flags tty s) (hpost : follow LocalHost.step h₁ post = some h) (hreads : Attentive i post)
    (hfit : ∀ c, .emit id c ∈ post → c.Fits) :
    ∃ s', Shows id i h s' ∧ s'.received = heard i h₁ post ∧ s'.out.capacity = s.out.capacity ∧
      (Unserved flags tty s' ∨
        ∃ m fell taken, m.flags = flags ∧ m.tty = tty ∧
          Content m fell (emitted id (post.dropWhile (!serves i ·))) taken s' ∧
          (Throughout LocalHost.step (KeepsUp i) h₁ post → fell = false)) := by
  have hsplit := List.takeWhile_append_dropWhile (p := (!serves i ·)) (l := post)
  have hserves := List.head?_dropWhile_not (!serves i ·) post
  have hlate := hpost
  rw [← hsplit] at hlate
  obtain ⟨h₂, hearly, hlate⟩ := follow_append_eq_some.mp hlate
  obtain ⟨s₂, hs₂, hu₂, hnone, hcapacity₂, -⟩ := hs.run_unserved hu hearly
    (fun f hf => hreads f (List.takeWhile_sublist _ |>.subset hf))
    (fun c hc => hfit c (List.takeWhile_sublist _ |>.subset hc))
    (fun m hm => by simpa using List.all_eq_true.mp List.all_takeWhile m hm)
  have hheard : heard i h₁ post = heard i h₂ (post.dropWhile (!serves i ·)) := by
    rw [← hsplit, heard_append hearly, hnone, hsplit, List.nil_append]
  have hkeeps (hk : Throughout LocalHost.step (KeepsUp i) h₁ post) :
      Throughout LocalHost.step (KeepsUp i) h₂ (post.dropWhile (!serves i ·)) := by
    rw [← hsplit] at hk
    exact hk.drop hearly
  have hmem (m : Move) (hm : m ∈ post.dropWhile (!serves i ·)) : m ∈ post := List.dropWhile_sublist _ |>.subset hm
  rw [hheard]
  cases hrest : post.dropWhile (!serves i ·) with
  | nil =>
    rw [hrest] at hlate
    cases hlate
    exact ⟨s₂, hs₂, (List.append_eq_nil_iff.mp hu₂.sent).1, hcapacity₂, Or.inl hu₂⟩
  | cons m rest =>
    rw [hrest] at hlate hserves hkeeps hmem
    obtain rfl : m = .serve i := by cases m <;> simp_all [serves]
    obtain ⟨s', m, fell, taken, hs', hreceived, hcapacity, hflags, htty, hc, hfell⟩ := hs₂.run_subscribe hu₂ hlate
      (fun f hf => hreads f (hmem _ (List.mem_cons_of_mem _ hf))) (fun c hc => hfit c (hmem _ (List.mem_cons_of_mem _ hc)))
    exact ⟨s', hs', hreceived, hcapacity.trans hcapacity₂,
      Or.inr ⟨m, fell, taken, hflags, htty, hc, fun hk => hfell (hkeeps hk)⟩⟩

/-- An attach that follows without the history, from before it subscribes: what its client hears is what the job writes from the move
on that is the subscribe. -/
theorem Shows.heard_late {s : Serving} {flags : AttachFlags} {tty : Bool} {post : List Move} (hs : Shows id i h₁ s)
    (hu : Unserved flags tty s) (hroom : 0 < s.out.capacity) (hpost : follow LocalHost.step h₁ post = some h)
    (hreads : Attentive i post) (hfit : ∀ c, .emit id c ∈ post → c.Fits)
    (hflags : flags.stdout = true ∧ flags.stderr = true) (hstream : flags.stream = true) (hlogs : flags.logs = false)
    (hkeeps : Throughout LocalHost.step (KeepsUp i) h₁ post) :
    heard i h₁ post <+: encodings tty (emitted id (post.dropWhile (!serves i ·))) ∧
      (Quiet i h → heard i h₁ post = encodings tty (emitted id (post.dropWhile (!serves i ·))) ∧
        (h.attaches[i]?).any (·.link.incoming.closed) = (h.job? id).any (·.log.closed)) := by
  obtain ⟨s', hs', hreceived, hcapacity, hstands⟩ := hs.run_late hu hpost hreads hfit
  rw [← hreceived]
  rcases hstands with hu' | ⟨m, fell, taken, rfl, rfl, hc, hfell⟩
  · -- the server never moved, so it still can
    have hnone : s'.received = [] := (List.append_eq_nil_iff.mp hu'.sent).1
    refine ⟨hnone ▸ List.nil_prefix, fun hq => ?_⟩
    have hmoves := (hs'.resting hq).1
    simp [Serving.step, hu'.server, Server.step, Server.next] at hmoves
  · obtain rfl := hfell hkeeps
    obtain ⟨hbegins, hends⟩ := sent_later hc (hcapacity ▸ hroom) hflags hstream hlogs
    refine ⟨hbegins, fun hq => ?_⟩
    obtain ⟨hall, hclosed⟩ := hends (hs'.resting hq)
    refine ⟨hall, ?_⟩
    obtain ⟨a, ha, -, -, hin⟩ := hs'.attach
    obtain ⟨j, hj, -, hlog⟩ := hs'.job
    rw [ha, hj, Option.any_some, Option.any_some, hin, hlog, hclosed]

/-- What the client of an attach hears that was registered before its job started and asks for all output as it comes, in every
schedule: `post` begins when the job's process runs, and `late` is what the job writes in it from the first move of the attach's server
on, which is when it subscribes.
1. The attach still waits when the process runs, or it was given up.
2. If it was given up, its client hears nothing.
3. If it waits and is never too far behind, its client hears the beginning of `late`, and nothing else. Once nothing is on the way it
   has heard all of it, and the end if the job's log is closed; and then it has heard everything that the job ever wrote exactly if the
   job wrote nothing, or empty chunks only, before the subscribe. -/
theorem heard_since_subscribe {host : String} {hasInput : Bool} {pre post : List Move} {a : Attachment}
    (hpre : follow step { id := host } pre = some h₀) (hspawn : h₀.step (.spawned id hasInput) = some h₁)
    (hpost : follow step h₁ post = some h) (ha : h₀.attaches[i]? = some a) (hjob : a.request.job = id)
    (hflags : a.request.flags.stdout = true ∧ a.request.flags.stderr = true) (hstream : a.request.flags.stream = true)
    (hlogs : a.request.flags.logs = false) (hreads : Attentive i (pre ++ post))
    (hfit : ∀ c, .emit id c ∈ post → c.Fits) :
    let tty := h₀.hasTerminal id
    let early := emitted id (post.takeWhile (!serves i ·))
    let late := emitted id (post.dropWhile (!serves i ·))
    (a.standing = .pending ∨ GivenUp a) ∧
    (GivenUp a → heard i h₁ post = []) ∧
    (a.standing = .pending → Throughout step (KeepsUp i) h₁ post →
      heard i h₁ post <+: encodings tty late ∧
      (Quiet i h → heard i h₁ post = encodings tty late ∧
        (h.attaches[i]?).any (·.link.incoming.closed) = (h.job? id).any (·.log.closed) ∧
        (heard i h₁ post = encodings tty (emitted id post) ↔ ∀ c ∈ early, c.payload = []))) := by
  intro tty early late
  have hreads_pre : Attentive i pre := fun f hf => hreads f (List.mem_append_left _ hf)
  have hreads_post : Attentive i post := fun f hf => hreads f (List.mem_append_right _ hf)
  have huntouched := run_untouched hpre hreads_pre ha
  obtain ⟨j, -, hj, hstarting, -⟩ := spawned_job hspawn
  refine ⟨?_, ?_, ?_⟩
  · -- an attach that is joined is joined to a job that has started, and this one has not
    have hjoins : h₀.JoinsStarted :=
      follow_keeps hpre (fun _ _ _ _ hstep hall => JoinsStarted.step hall hstep) (by intro k b s hb; simp at hb)
    cases hst : a.standing with
    | pending => exact Or.inl rfl
    | withdrawn => exact Or.inr (Or.inl hst)
    | refused reason => exact Or.inr (Or.inr ⟨reason, hst⟩)
    | joined s =>
      obtain ⟨j', hj', hstarted⟩ := hjoins i a s ha hst
      rw [hjob, hj] at hj'
      cases hj'
      exact absurd hstarting hstarted
  · intro hgiven
    obtain ⟨a', ha', hstep⟩ := step_attach hspawn ha
    have hsame : a' = a := by
      cases hstep with
      | joined _ _ j hp => rcases hgiven with hst | ⟨reason, hst⟩ <;> rw [hp] at hst <;> cases hst
      | kept => rfl
    rw [hsame] at ha'
    exact heard_of_givenUp ha' hgiven huntouched hreads_post
  · intro hp hkeeps
    have hempty : h₀.StartsEmpty :=
      follow_keeps hpre (fun _ _ _ _ hstep he => he.step hstep) (by intro id j hj; simp [job?] at hj)
    have hshows := spawned_shows hempty hspawn ha hjob hp huntouched
    have hunserved : Unserved a.request.flags tty (joined a.request.flags tty 65536) := ⟨rfl, rfl, rfl, by simp [joined]⟩
    obtain ⟨hbegins, hquiet⟩ :=
      hshows.heard_late hunserved (by simp [joined]) hpost hreads_post hfit hflags hstream hlogs hkeeps
    refine ⟨hbegins, fun hq => ?_⟩
    obtain ⟨hall, hend⟩ := hquiet hq
    refine ⟨hall, hend, ?_⟩
    have hwhole : emitted id post = early ++ late := by
      rw [← emitted_append, List.takeWhile_append_dropWhile]
    rw [hall, hwhole, encodings_append]
    refine ⟨fun h => encodings_eq_nil_iff.mp (List.self_eq_append_left.mp h), fun h => ?_⟩
    rw [encodings_eq_nil_iff.mpr h, List.nil_append]

/-- A job that writes and exits before the attach's server subscribes: the client, which was there before the job started and reads all
along, hears nothing of it, and then the end. -/
theorem heard_since_subscribe_too_late :
    let request : AttachRequest := { job := "j", flags := { stdout := true, stderr := true, stream := true } }
    let pre : List Move := [.attach request true, .submit { id := "j" }]
    let post : List Move :=
      [.emit "j" ⟨.stdout, [97]⟩, .closeOutput "j", .exit "j" (some 0), .serve 0, .serve 0, .client 0 fun l => (l.read 64).2]
    ∃ h₀ h₁ h a, follow step { id := "h" } pre = some h₀ ∧ h₀.step (.spawned "j" false) = some h₁ ∧
      follow step h₁ post = some h ∧ h₀.attaches[0]? = some a ∧ a.standing = .pending ∧ Quiet 0 h ∧
      emitted "j" post = [⟨.stdout, [97]⟩] ∧ heard 0 h₁ post = [] ∧
      heard 0 h₁ post ≠ encodings (h₀.hasTerminal "j") (emitted "j" post) ∧ (h.attaches[0]?).any (·.link.incoming.closed) := by
  intro request pre post
  have hrun : ∃ h₀ ∈ follow step { id := "h" } pre, ∃ h₁ ∈ h₀.step (.spawned "j" false), ∃ h ∈ follow step h₁ post,
      ∃ a ∈ h₀.attaches[0]?, (a.request = request ∧ a.standing = .pending) ∧
        (h.step (.serve 0) = none ∧ ∀ a ∈ h.attaches[0]?, a.link.incoming.buffer = []) ∧
        (h.job? "j").any (·.log.closed) ∧ Throughout step (KeepsUp 0) h₁ post := by decide +kernel
  obtain ⟨h₀, hpre, h₁, hspawn, h, hpost, a, ha, ⟨hrequest, hp⟩, hquiet, hclosed, hkeeps⟩ := hrun
  have hreads : Attentive 0 (pre ++ post) := by
    intro f hf
    simp [pre, post] at hf
    rw [hf]
    exact reads_read 64
  have hfit (c : Frame) (hc : .emit "j" c ∈ post) : c.Fits := by
    simp [post] at hc
    rw [hc]
    decide
  obtain ⟨-, -, hpending⟩ := heard_since_subscribe hpre hspawn hpost ha (by rw [hrequest]) (by rw [hrequest]; decide)
    (by rw [hrequest]) (by rw [hrequest]) hreads hfit
  obtain ⟨-, hend⟩ := hpending hp hkeeps
  obtain ⟨hheard, hsame, hwhole⟩ := hend hquiet
  refine ⟨h₀, h₁, h, a, hpre, hspawn, hpost, ha, hp, hquiet, rfl, hheard, fun hall => ?_, hsame.trans hclosed⟩
  have hempty := hwhole.mp hall ⟨.stdout, [97]⟩ (by decide)
  cases hempty

end JobPlane.LocalHost
