import JobPlane.Proofs.Local.Content
import JobPlane.Proofs.Local.Host

/-!
# One attach among a host's

A host as one of its attaches sees it. While the attach is joined, every move of the host is a move of the attach being served, or does
not concern it (`Shows.step`); what is said of an attach being served then holds in every schedule of the host (`Shows.run`). Before that
nothing comes to its client (`Attachment.Untouched`).
-/

namespace JobPlane.LocalHost

open Server Serving

variable {h h' : LocalHost} {id : String} {i : Nat}

/-! ## What is seen of a schedule -/

/-- A client that only reads at an end takes bytes off the front of what has come. -/
def ReadsAt (l : Link) (f : Link → Link) : Prop :=
  ∃ n, (f l).incoming = { l.incoming with buffer := l.incoming.buffer.drop n }

/-- What a client does that only reads, whatever its end is. -/
def Reads (f : Link → Link) : Prop := ∀ l : Link, ReadsAt l f

/-- Reading is what a client does that only reads. -/
theorem reads_read (n : Nat) : Reads fun l => (l.read n).2 := by
  intro l
  refine ⟨n, ?_⟩
  by_cases hb : l.incoming.buffer = []
  · simp only [Link.read, Pipe.read, hb, List.drop_nil]
    rw [← hb]
  · simp only [Link.read, Pipe.read_of_ne_nil hb]

/-- The client of an attach only reads. -/
def Attentive (i : Nat) (ms : List Move) : Prop := ∀ f, .client i f ∈ ms → Reads f

/-- The bytes that the client of an attach reads in a move. -/
def heardIn (i : Nat) (h : LocalHost) : Move → Bytes
  | .client k f =>
    match if k = i then h.attaches[i]? else none with
    | some a => a.link.incoming.buffer.take (a.link.incoming.buffer.length - (f a.link).incoming.buffer.length)
    | none => []
  | _ => []

/-- A client that does nothing reads nothing. -/
theorem heardIn_of_ne {m : Move} (hm : ∀ f, m ≠ .client i f) : h.heardIn i m = [] := by
  cases m <;> simp only [heardIn]
  rename_i k f
  rw [if_neg fun hk => hm f (by rw [hk])]

/-- The bytes that the client of an attach reads in a schedule. -/
def heard (i : Nat) : LocalHost → List Move → Bytes
  | _, [] => []
  | h, m :: ms => h.heardIn i m ++ ((h.step m).map fun h => heard i h ms).getD []

/-- What a client reads in a schedule is what it reads in the first part, and then in the second. -/
theorem heard_append {as bs : List Move} (hrun : follow step h as = some h') :
    heard i h (as ++ bs) = heard i h as ++ heard i h' bs := by
  induction as generalizing h with
  | nil =>
    cases hrun
    rfl
  | cons m ms ih =>
    obtain ⟨h₁, hm, hrest⟩ := follow_cons_eq_some.mp hrun
    simp [heard, hm, ih hrest]

/-- The chunk that a job writes in a move. -/
def emittedIn (id : String) : Move → Option Frame
  | .emit x c => if x = id then some c else none
  | _ => none

/-- The chunks that a job writes in a schedule. -/
def emitted (id : String) (ms : List Move) : List Frame := ms.filterMap (emittedIn id)

@[simp] theorem emitted_nil (id : String) : emitted id [] = [] := rfl

/-- What a job writes in a schedule is what it writes in the first move, and then in the rest. -/
theorem emitted_cons (id : String) (m : Move) (ms : List Move) :
    emitted id (m :: ms) = (emittedIn id m).toList ++ emitted id ms := by
  simp only [emitted, List.filterMap_cons]
  cases emittedIn id m <;> rfl

theorem emitted_append (id : String) (as bs : List Move) : emitted id (as ++ bs) = emitted id as ++ emitted id bs :=
  List.filterMap_append

/-- Whether a move serves an attach. -/
def serves (i : Nat) : Move → Bool
  | .serve k => k = i
  | _ => false

/-- The log of a job after a move has one chunk more, or the same. -/
theorem chunks_logAfter (l : OutputLog) (m : Move) :
    (logAfter id l m).chunks.toList = l.chunks.toList ++ (emittedIn id m).toList := by
  cases m <;> simp only [logAfter, emittedIn, Option.toList_none, List.append_nil]
  · split <;> simp [OutputLog.push]
  · split <;> rfl

/-- Every chunk in the logs of a host fits into a frame. -/
def LogsFit (h : LocalHost) : Prop := ∀ id j, h.job? id = some j → ∀ c ∈ j.log.chunks.toList, c.Fits

/-- Every move keeps the logs to chunks that fit into a frame, if what is written does. -/
theorem LogsFit.step {m : Move} (hf : h.LogsFit) (hm : h.step m = some h') (hfit : ∀ id c, m = .emit id c → c.Fits) : h'.LogsFit := by
  intro id j' hj' c hc
  rcases step_origin hm hj' with hlog | ⟨j, hj, hlog, -⟩
  · simp [hlog] at hc
  · rw [hlog, chunks_logAfter, List.mem_append] at hc
    rcases hc with hc | hc
    · exact hf id j hj c hc
    · cases m <;> simp only [emittedIn, Option.toList_none, List.not_mem_nil] at hc
      rename_i x _
      split at hc
      · rw [Option.toList_some, List.mem_singleton] at hc
        exact hfit x c (by rw [hc])
      · cases hc

/-! ## Attaches that are not joined -/

/-- Nothing has come to the client of an attach that is not joined, and the end has come if it was given up. -/
def Untouched (a : Attachment) : Prop :=
  match a.standing with
  | .pending => a.link.incoming = { capacity := 65536 }
  | .joined _ => True
  | _ => a.link.incoming = { capacity := 65536, closed := true }

/-- A client that only reads takes nothing from an empty pipe. -/
theorem Reads.of_empty {f : Link → Link} (hf : Reads f) {l : Link} (hl : l.incoming.buffer = []) :
    (f l).incoming = l.incoming := by
  obtain ⟨n, hn⟩ := hf l
  rw [hn, hl, List.drop_nil, ← hl]

/-- Every move leaves an attach that is not joined untouched. -/
theorem AttachStep.untouched {m : Move} {a a' : Attachment} (hstep : AttachStep h i a m a') (ha : Untouched a)
    (hreads : ∀ f, m = .client i f → Reads f) : Untouched a' := by
  cases hstep with
  | served => exact True.intro
  | client f =>
    have hf := hreads f rfl
    unfold Untouched at *
    split at ha <;> simp only [*]
    · rw [hf.of_empty (by rw [ha])]
      exact ha
    · rw [hf.of_empty (by rw [ha])]
      exact ha
  | parted s hs => simp [Untouched, Attachment.part, hs]
  | carried x m outgoing => exact ha
  | joined => exact True.intro
  | refused x reason hp =>
    simp only [Untouched, hp] at ha
    simp [Untouched, Attachment.giveUp, Attachment.part, Link.flip, Link.drop, Pipe.close, ha]
  | withdrawn x hp =>
    simp only [Untouched, hp] at ha
    simp [Untouched, Attachment.giveUp, Attachment.part, Link.flip, Link.drop, Pipe.close, ha]
  | kept => exact ha

/-- An attach that was given up before its job ran. -/
def GivenUp (a : Attachment) : Prop := a.standing = .withdrawn ∨ ∃ reason, a.standing = .refused reason

/-- An attach that was given up stays so. -/
theorem AttachStep.givenUp {m : Move} {a a' : Attachment} (hstep : AttachStep h i a m a') (ha : GivenUp a) : GivenUp a' := by
  cases hstep <;> simp_all [GivenUp]

/-! ## Joined attaches -/

/-- A host shows an attach being served: the attach in a place is joined to a job that has started, and the pipe to its client and the
job's log are as in the system of the one attach. -/
structure Shows (id : String) (i : Nat) (h : LocalHost) (s : Serving) : Prop where
  attach : ∃ a, h.attaches[i]? = some a ∧ a.request.job = id ∧ a.standing = .joined s.server ∧ a.link.incoming = s.out
  job : ∃ j, h.job? id = some j ∧ j.state ≠ .starting ∧ j.log = s.log
  announces : s.server.Announces s.out

/-- When the process of a job runs, an attach that waits for it is served from an empty log. -/
theorem spawned_shows {hasInput : Bool} {a : Attachment} (hempty : h.StartsEmpty) (hspawn : h.step (.spawned id hasInput) = some h')
    (ha : h.attaches[i]? = some a) (hid : a.request.job = id) (hp : a.standing = .pending) (huntouched : Untouched a) :
    Shows id i h' (joined a.request.flags (h.hasTerminal id) 65536) := by
  obtain ⟨j, j', hj, hstarting, hj', hrun, -, hlog⟩ := spawned_job hspawn
  have hpending : a.isPendingFor id = true := by simp [Attachment.isPendingFor, hp, hid]
  have hin : a.link.incoming = { capacity := 65536 } := by simpa [Untouched, hp] using huntouched
  have hlog : j'.log = {} := hlog.trans (hempty id j hj hstarting)
  refine ⟨?_, ⟨j', hj', by simp [hrun], hlog⟩, fun hended => by cases hended⟩
  cases step_moved hspawn with
  | spawned _ _ j f hj =>
    refine ⟨_, mapPending_attach ha id _, ?_⟩
    rw [if_pos hpending]
    exact ⟨hid, by simp [joined, hasTerminal, hj], hin⟩

/-- Where a host shows an attach being served, it serves it as the attach by itself is served. -/
theorem Shows.serve {s : Serving} (hs : Shows id i h s) : h.step (.serve i) = none ↔ s.step .serve = none := by
  obtain ⟨a, ha, hid, hst, hin⟩ := hs.attach
  obtain ⟨j, hj, -, hlog⟩ := hs.job
  simp only [step, LocalHost.serve, Serving.step, ha, hid, hj, hst, hin, hlog, Option.bind_eq_bind, Option.bind_some,
    Option.map_eq_none_iff]
  cases s.server.step s.log s.out <;> simp

/-- What a move of a host is for an attach being served. -/
inductive Follows (id : String) (i : Nat) (m : Move) (s s' : Serving) : Prop
  | serve (hm : m = .serve i) (hs : s.step .serve = some s')
  | other (a : Serving.Move) (hm : m ≠ .serve i) (ha : a ≠ .serve) (hpush : ∀ c, a = .push c → m = .emit id c)
      (hs : s.step a = some s')
  | stay (hm : m ≠ .serve i) (hs : s' = s)

/-- The room in the pipe to the client stays the same. -/
theorem Follows.capacity {m : Move} {s s' : Serving} (hf : Follows id i m s s') : s'.out.capacity = s.out.capacity := by
  cases hf with
  | serve _ hs => exact step_capacity hs
  | other _ _ _ _ hs => exact step_capacity hs
  | stay _ hs => rw [hs]

/-- Every move of a host is a move of an attach being served, or leaves it as it is. -/
theorem Shows.step {s : Serving} {m : Move} (hs : Shows id i h s) (hm : h.step m = some h')
    (hreads : ∀ f a, m = .client i f → h.attaches[i]? = some a → ReadsAt a.link f) :
    ∃ s', Shows id i h' s' ∧ Follows id i m s s' ∧ s'.received = s.received ++ h.heardIn i m ∧
      s'.log.chunks.toList = s.log.chunks.toList ++ (emittedIn id m).toList := by
  obtain ⟨a, ha, hid, hst, hin⟩ := hs.attach
  obtain ⟨j, hj, hstarted, hlog⟩ := hs.job
  obtain ⟨a', ha', hstep⟩ := step_attach hm ha
  obtain ⟨j', hj', hstarts, -, hlog', hopen⟩ := step_job hm hj (Or.inl hstarted)
  have hstarted' := hstarts hstarted
  have hchunks : j'.log.chunks.toList = s.log.chunks.toList ++ (emittedIn id m).toList := by
    rw [hlog', chunks_logAfter, hlog]
  -- only what the job writes changes its log
  have hsame (hw : ¬Writes id m) : ∃ j', h'.job? id = some j' ∧ j'.state ≠ .starting ∧ j'.log = s.log :=
    ⟨j', hj', hstarted', by rw [hlog', hlog, logAfter_of_not_writes _ hw]⟩
  cases hstep with
  | served j₁ s₁ s' incoming hj₁ hs₁ hserve =>
    rw [hid, hj] at hj₁
    cases hj₁
    rw [hst] at hs₁
    cases hs₁
    rw [hin, hlog] at hserve
    refine ⟨{ s with server := s', out := incoming }, ⟨⟨_, ha', hid, rfl, rfl⟩, hsame (fun hw => hw), hs.announces.step hserve⟩,
      .serve rfl (by simp [Serving.step, hserve]), by simp [heardIn], by simp [emittedIn]⟩
  | client f =>
    obtain ⟨n, hn⟩ := hreads f a rfl ha
    have hheard : h.heardIn i (.client i f) = s.out.buffer.take n := by
      simp only [heardIn, if_true, ha, hn, hin, List.length_drop]
      rw [List.take_eq_take_iff]
      omega
    rw [hin] at hn
    rw [hheard]
    by_cases hbuf : s.out.buffer = []
    · refine ⟨s, ⟨⟨_, ha', hid, hst, ?_⟩, hsame (fun hw => hw), hs.announces⟩, .stay (by simp) rfl, by simp [hbuf],
        by simp [emittedIn]⟩
      rw [hn, hbuf, List.drop_nil, ← hbuf]
    · refine ⟨{ s with out := { s.out with buffer := s.out.buffer.drop n }, received := s.received ++ s.out.buffer.take n },
        ⟨⟨_, ha', hid, hst, hn⟩, hsame (fun hw => hw), hs.announces⟩, .other (.read n) (by simp) (by simp) (by simp) ?_, rfl,
        by simp [emittedIn]⟩
      simp [Serving.step, Pipe.read_of_ne_nil hbuf]
  | parted s₁ hs₁ hover =>
    rw [hst] at hs₁
    cases hs₁
    refine ⟨s, ⟨⟨_, ha', hid, hst, ?_⟩, hsame (fun hw => hw), hs.announces⟩, .stay (by simp) rfl, by simp [heardIn],
      by simp [emittedIn]⟩
    rw [← Pipe.close_of_closed (hs.announces hover), ← hin]
    rfl
  | carried x m outgoing =>
    exact ⟨s, ⟨⟨_, ha', hid, hst, hin⟩, hsame (fun hw => hw), hs.announces⟩, .stay (by simp) rfl, by simp [heardIn],
      by simp [emittedIn]⟩
  | joined x hasInput j₁ hp => simp [hp] at hst
  | refused x reason hp => simp [hp] at hst
  | withdrawn job hp => simp [hp] at hst
  | kept _ hserve hclient =>
    rw [heardIn_of_ne hclient, List.append_nil, ← hchunks]
    by_cases hw : Writes id m
    · have hunclosed : s.log.closed = false := hlog ▸ hopen hw
      refine ⟨{ s with log := j'.log }, ⟨⟨a, ha', hid, hst, hin⟩, ⟨j', hj', hstarted', rfl⟩, hs.announces⟩, ?_, rfl, rfl⟩
      rw [hlog', hlog]
      cases m <;> simp only [Writes] at hw
      · rename_i x c
        subst hw
        refine .other (.push c) hserve (by simp) ?_ (by simp [Serving.step, hunclosed, logAfter])
        rintro _ ⟨⟩
        rfl
      · subst hw
        exact .other .close hserve (by simp) (by simp) (by simp [Serving.step, hunclosed, logAfter])
    · have hlog' : j'.log = s.log := by rw [hlog', hlog, logAfter_of_not_writes _ hw]
      exact ⟨s, ⟨⟨a, ha', hid, hst, hin⟩, hsame hw, hs.announces⟩, .stay hserve rfl, rfl, by rw [hlog']⟩

/-- What serves an attach, if it is joined. -/
def server? (a : Attachment) : Option Server :=
  match a.standing with
  | .joined s => some s
  | _ => none

/-- The follower in a place is not too far behind. -/
def KeepsUp (i : Nat) (h : LocalHost) : Prop :=
  ∀ a ∈ h.attaches[i]?, ∀ s ∈ server? a, ∀ j ∈ h.job? a.request.job, s.behind j.log ≤ backlog

instance (i : Nat) : DecidablePred (KeepsUp i) := fun h =>
  inferInstanceAs (Decidable (∀ a ∈ h.attaches[i]?, ∀ s ∈ server? a, ∀ j ∈ h.job? a.request.job, s.behind j.log ≤ backlog))

/-- A follower that is not too far behind in its host is not by itself. -/
theorem Shows.behind_le {s : Serving} (hs : Shows id i h s) (hk : KeepsUp i h) : s.server.behind s.log ≤ backlog := by
  obtain ⟨a, ha, hid, hst, -⟩ := hs.attach
  obtain ⟨j, hj, -, hlog⟩ := hs.job
  rw [← hlog]
  exact hk a ha _ (by simp [server?, hst]) j (by rw [hid]; exact hj)

/-- What was sent to an attach stays tied to its job's log in every schedule of its host, and its client has read it in the order it
was sent. -/
theorem Shows.run {s : Serving} {m : Joining} {fell : Bool} {later taken : List Frame} {ms : List Move} (hs : Shows id i h s)
    (hc : Content m fell later taken s) (hrun : follow LocalHost.step h ms = some h') (hreads : Attentive i ms)
    (hfit : ∀ c, .emit id c ∈ ms → c.Fits) :
    ∃ s' fell' taken', Shows id i h' s' ∧ Content m fell' (later ++ emitted id ms) taken' s' ∧
      s'.received = s.received ++ heard i h ms ∧ s'.out.capacity = s.out.capacity ∧
      (fell = false → Throughout LocalHost.step (KeepsUp i) h ms → fell' = false) := by
  induction ms generalizing h s fell later taken with
  | nil =>
    cases hrun
    exact ⟨s, fell, taken, hs, by simpa using hc, by simp [heard], rfl, fun hf _ => hf⟩
  | cons a ms ih =>
    obtain ⟨h₁, ha, hrest⟩ := follow_cons_eq_some.mp hrun
    obtain ⟨s₁, hs₁, hfollows, hreceived, hchunks⟩ := hs.step ha (fun f a hf _ => hreads f (by simp [hf]) a.link)
    obtain ⟨fell₁, later₁, taken₁, hc₁, hfell₁⟩ : ∃ fell₁ later₁ taken₁, Content m fell₁ later₁ taken₁ s₁ ∧
        (fell = false → KeepsUp i h → fell₁ = false) := by
      have hmove {b : Serving.Move} (hb : s.step b = some s₁) (hpush : ∀ c, b = .push c → a = .emit id c) :
          ∃ fell₁ later₁ taken₁, Content m fell₁ later₁ taken₁ s₁ ∧ (fell = false → KeepsUp i h → fell₁ = false) := by
        obtain ⟨later₁, taken₁, hc₁⟩ := hc.step hb (fun c hcb => hfit c (by simp [hpush c hcb]))
        refine ⟨_, later₁, taken₁, hc₁, fun hf hk => ?_⟩
        rw [hf, Bool.false_or]
        cases hl : s.lapses b with
        | false => rfl
        | true => exact absurd (hs.behind_le hk) (Nat.not_le_of_lt (behind_of_lapses hl))
      cases hfollows with
      | serve hm hb => exact hmove hb (by simp)
      | other b hm _ hpush hb => exact hmove hb hpush
      | stay hm heq =>
        subst heq
        exact ⟨fell, later, taken, hc, fun hf _ => hf⟩
    have hlater : later₁ = later ++ (emittedIn id a).toList := by
      have h := hc₁.chunks
      rw [hchunks, hc.chunks, List.append_assoc, List.append_cancel_left_eq] at h
      exact h.symm
    obtain ⟨s', fell', taken', hs', hc', hreceived', hcapacity, hfell'⟩ := ih hs₁ hc₁ hrest
      (fun f hf => hreads f (List.mem_cons_of_mem a hf)) (fun c hc => hfit c (List.mem_cons_of_mem a hc))
    refine ⟨s', fell', taken', hs', ?_, ?_, hcapacity.trans hfollows.capacity, fun hf hk => hfell' (hfell₁ hf hk.head) (hk.tail ha)⟩
    · rw [emitted_cons, ← List.append_assoc, ← hlater]
      exact hc'
    · rw [hreceived', hreceived, List.append_assoc]
      simp [heard, ha]

/-- An attach that has not subscribed stays as it is, and its client reads nothing, until its server moves. -/
theorem Shows.run_unserved {s : Serving} {flags : AttachFlags} {tty : Bool} {ms : List Move} (hs : Shows id i h s)
    (hu : Unserved flags tty s) (hrun : follow LocalHost.step h ms = some h') (hreads : Attentive i ms)
    (hfit : ∀ c, .emit id c ∈ ms → c.Fits) (hms : ∀ a ∈ ms, serves i a = false) :
    ∃ s', Shows id i h' s' ∧ Unserved flags tty s' ∧ heard i h ms = [] ∧ s'.out.capacity = s.out.capacity ∧
      s'.log.chunks.toList = s.log.chunks.toList ++ emitted id ms := by
  induction ms generalizing h s with
  | nil =>
    cases hrun
    exact ⟨s, hs, hu, rfl, rfl, by simp⟩
  | cons a ms ih =>
    obtain ⟨h₁, ha, hrest⟩ := follow_cons_eq_some.mp hrun
    obtain ⟨s₁, hs₁, hfollows, hreceived, hchunks⟩ := hs.step ha (fun f a hf _ => hreads f (by simp [hf]) a.link)
    have hu₁ : Unserved flags tty s₁ := by
      cases hfollows with
      | serve hm _ => simpa [hm, serves] using hms a List.mem_cons_self
      | other b hm hb hpush hstep => exact hu.step hstep hb (fun c hcb => hfit c (by simp [hpush c hcb]))
      | stay hm heq =>
        subst heq
        exact hu
    obtain ⟨s', hs', hu', hheard, hcapacity, hchunks'⟩ := ih hs₁ hu₁ hrest
      (fun f hf => hreads f (List.mem_cons_of_mem a hf)) (fun c hc => hfit c (List.mem_cons_of_mem a hc))
      (fun b hb => hms b (List.mem_cons_of_mem a hb))
    refine ⟨s', hs', hu', ?_, hcapacity.trans hfollows.capacity, ?_⟩
    · have hnone : h.heardIn i a = [] := by
        have h₀ := (List.append_eq_nil_iff.mp hu.sent).1
        have h₁ := (List.append_eq_nil_iff.mp hu₁.sent).1
        rw [h₀, h₁] at hreceived
        simpa using hreceived.symm
      simp [heard, ha, hnone, hheard]
    · rw [hchunks', hchunks, List.append_assoc, emitted_cons]

end JobPlane.LocalHost
