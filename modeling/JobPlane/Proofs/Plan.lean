import JobPlane.Plan

/-!
# The histories of plans

What is asked and answered when a plan is carried out (`Plan.history`) is one of the histories after which the plan comes to its result
(`yields_history`). A history is taken apart in the way the plan is put together. A plan can be carried out a part of the way
(`Plan.Reaches`).
-/

namespace JobPlane.Plan

variable {α β σ : Type} {h : List Exchange}

/-- What is asked and answered when a plan is carried out. -/
def history (answer : (q : Ask) → σ → q.Answer × σ) : Plan α → σ → List Exchange
  | .done _, _ => []
  | .ask q next, s => ⟨q, (answer q s).1⟩ :: (next (answer q s).1).history answer (answer q s).2

/-- A plan comes to its result after what is asked and answered when it is carried out, whatever answers. -/
theorem yields_history (answer : (q : Ask) → σ → q.Answer × σ) (p : Plan α) (s : σ) :
    p.Yields (p.history answer s) (p.run answer s).1 := by
  induction p generalizing s with
  | done a => exact .done a
  | ask q next ih => exact .ask _ (ih (answer q s).1 (answer q s).2)

/-- What is answered in a history is what is answered to its ask, in some state. -/
theorem answer_of_mem_history {answer : (q : Ask) → σ → q.Answer × σ} {p : Plan α} {s : σ} {q : Ask} {r : q.Answer}
    (hx : ⟨q, r⟩ ∈ p.history answer s) : ∃ t, r = (answer q t).1 := by
  induction p generalizing s with
  | done a => cases hx
  | ask q' next ih =>
    rcases List.mem_cons.mp hx with hx | hx
    · cases hx
      exact ⟨s, rfl⟩
    · exact ih _ hx

/-- One plan after another is carried out from where the first one leads. -/
theorem run_bind (answer : (q : Ask) → σ → q.Answer × σ) (p : Plan α) (f : α → Plan β) (s : σ) :
    (p >>= f).run answer s = (f (p.run answer s).1).run answer (p.run answer s).2 := by
  induction p generalizing s with
  | done a => rfl
  | ask q next ih => exact ih (answer q s).1 (answer q s).2

/-- One plan after another asks what the first one asks, and then what the other one does from where that leads. -/
theorem history_bind (answer : (q : Ask) → σ → q.Answer × σ) (p : Plan α) (f : α → Plan β) (s : σ) :
    (p >>= f).history answer s = p.history answer s ++ (f (p.run answer s).1).history answer (p.run answer s).2 := by
  induction p generalizing s with
  | done a => rfl
  | ask q next ih => exact congrArg (_ :: ·) (ih (answer q s).1 (answer q s).2)

/-- A plan whose value is only looked at asks the same, and comes to what its value looks like. -/
theorem carried_out_done (answer : (q : Ask) → σ → q.Answer × σ) (p : Plan α) (f : α → β) (s : σ) :
    (p >>= fun a => done (f a)).history answer s = p.history answer s ∧
      ((p >>= fun a => done (f a)).run answer s).1 = f (p.run answer s).1 := by
  rw [history_bind, run_bind]
  exact ⟨List.append_nil _, rfl⟩

/-- A plan that begins with one ask is carried out from where the answer leads. -/
theorem run_call (answer : (q : Ask) → σ → q.Answer × σ) (q : Ask) (next : q.Answer → Plan α) (s : σ) :
    (call q >>= next).run answer s = (next (answer q s).1).run answer (answer q s).2 := rfl

/-- Where a plan whose connection is closed on refusal is refused, the connection is closed after all else. -/
theorem run_closingOnRefusal {answer : (q : Ask) → σ → q.Answer × σ} {c : Connection} {p : Plan (Except Refusal α)} {s s' : σ}
    {e : Refusal} (hr : (closingOnRefusal c p).run answer s = (.error e, s')) :
    ∃ t, p.run answer s = (.error e, t) ∧ s' = (answer (.close c) t).2 := by
  rw [closingOnRefusal, run_bind] at hr
  generalize p.run answer s = outcome at hr
  obtain ⟨_ | _, t⟩ := outcome
  · cases hr
    exact ⟨t, rfl, rfl⟩
  · cases hr

/-- A plan is carried out up to what is left of it after some of what it asks was answered. -/
inductive Reaches (answer : (q : Ask) → σ → q.Answer × σ) : Plan α → σ → Plan α → σ → Prop
  | refl (p : Plan α) (s : σ) : Reaches answer p s p s
  | ask {q : Ask} {next : q.Answer → Plan α} {s s₁ s' : σ} {r : q.Answer} {p : Plan α} (hr : answer q s = (r, s₁))
      (hrest : Reaches answer (next r) s₁ p s') : Reaches answer (.ask q next) s p s'

/-- A plan comes to what is left of it comes to. -/
theorem Reaches.run {answer : (q : Ask) → σ → q.Answer × σ} {p p' : Plan α} {s s' : σ} (h : Reaches answer p s p' s') :
    p.run answer s = p'.run answer s' := by
  induction h with
  | refl => rfl
  | ask hr _ ih => rw [Plan.run, hr, ← ih]

/-- A plan that is done asks nothing. -/
theorem yields_done {a b : α} : (Plan.done a).Yields h b ↔ h = [] ∧ b = a := by
  constructor
  · rintro ⟨⟩
    exact ⟨rfl, rfl⟩
  · rintro ⟨rfl, rfl⟩
    exact .done _

/-- A plan that asks something goes on by the answer. -/
theorem yields_ask {q : Ask} {next : q.Answer → Plan α} {a : α} :
    (Plan.ask q next).Yields h a ↔ ∃ r rest, h = ⟨q, r⟩ :: rest ∧ (next r).Yields rest a := by
  constructor
  · rintro (_ | ⟨r, hrest⟩)
    exact ⟨r, _, rfl, hrest⟩
  · rintro ⟨r, rest, rfl, hrest⟩
    exact .ask r hrest

/-- One plan after another asks what both ask. -/
theorem yields_bind {p : Plan α} {f : α → Plan β} {b : β} :
    (p >>= f).Yields h b ↔ ∃ h₁ a h₂, h = h₁ ++ h₂ ∧ p.Yields h₁ a ∧ (f a).Yields h₂ b := by
  induction p generalizing h with
  | done a =>
    constructor
    · intro hf
      exact ⟨[], a, h, rfl, .done a, hf⟩
    · rintro ⟨h₁, a', h₂, rfl, hdone, hf⟩
      obtain ⟨rfl, rfl⟩ := yields_done.mp hdone
      exact hf
  | ask q next ih =>
    constructor
    · intro hask
      obtain ⟨r, rest, rfl, hrest⟩ := yields_ask.mp hask
      obtain ⟨h₁, a, h₂, rfl, hp, hf⟩ := (ih r).mp hrest
      exact ⟨⟨q, r⟩ :: h₁, a, h₂, rfl, .ask r hp, hf⟩
    · rintro ⟨h₁, a, h₂, rfl, hask, hf⟩
      obtain ⟨r, rest, rfl, hp⟩ := yields_ask.mp hask
      exact .ask r ((ih r).mpr ⟨rest, a, h₂, rfl, hp, hf⟩)

/-- A plan that begins with one ask goes on by the answer. -/
theorem yields_call {q : Ask} {next : q.Answer → Plan α} {a : α} :
    (call q >>= next).Yields h a ↔ ∃ r rest, h = ⟨q, r⟩ :: rest ∧ (next r).Yields rest a := yields_ask

/-- A plan whose connection is closed on refusal closes it last, if it is refused, and not at all otherwise. -/
theorem yields_closingOnRefusal {c : Connection} {p : Plan (Except Refusal α)} {r : Except Refusal α} :
    (closingOnRefusal c p).Yields h r ↔
      (∃ a, r = .ok a ∧ p.Yields h r) ∨ ∃ e before, r = .error e ∧ h = before ++ [⟨.close c, ()⟩] ∧ p.Yields before r := by
  unfold closingOnRefusal
  rw [yields_bind]
  constructor
  · rintro ⟨h₁, r₁, h₂, rfl, hp, hrest⟩
    cases r₁ with
    | ok a =>
      obtain ⟨rfl, rfl⟩ := yields_done.mp hrest
      exact Or.inl ⟨a, rfl, by rwa [List.append_nil]⟩
    | error e =>
      obtain ⟨u, rest, rfl, hclosed⟩ := yields_call.mp hrest
      obtain ⟨rfl, rfl⟩ := yields_done.mp hclosed
      exact Or.inr ⟨e, h₁, rfl, rfl, hp⟩
  · rintro (⟨a, rfl, hp⟩ | ⟨e, before, rfl, rfl, hp⟩)
    · exact ⟨h, .ok a, [], by simp, hp, .done _⟩
    · exact ⟨before, .error e, _, rfl, hp, yields_call.mpr ⟨(), [], rfl, .done _⟩⟩

end JobPlane.Plan
