import JobPlane.Moves

/-!
# Runs of systems that move

What holds in every state that a schedule passes, and how what one move keeps is kept by a whole schedule. What becomes of a part that may
not be there is told by a relation through `Option.Rel`.
-/

namespace JobPlane

variable {σ α : Type} {step : σ → α → Option σ}

/-- A schedule is followed by making its first move and following the rest. -/
theorem follow_cons_eq_some {s s' : σ} {a : α} {as : List α} :
    follow step s (a :: as) = some s' ↔ ∃ t, step s a = some t ∧ follow step t as = some s' := by
  simp [follow, Option.bind_eq_some_iff]

/-- A schedule of one move makes it. -/
theorem follow_singleton (s : σ) (a : α) : follow step s [a] = step s a := by
  cases h : step s a <;> simp [follow, h]

/-- Following two schedules passes a state between them. -/
theorem follow_append_eq_some {s s' : σ} {as bs : List α} :
    follow step s (as ++ bs) = some s' ↔ ∃ t, follow step s as = some t ∧ follow step t bs = some s' := by
  simp [follow_append, Option.bind_eq_some_iff]

/-- What every move of a schedule keeps, the schedule keeps. -/
theorem follow_keeps {P : σ → Prop} {s s' : σ} {as : List α} (h : follow step s as = some s')
    (keeps : ∀ t a t', a ∈ as → step t a = some t' → P t → P t') (hs : P s) : P s' := by
  induction as generalizing s with
  | nil =>
    cases h
    exact hs
  | cons a as ih =>
    obtain ⟨t, ha, ht⟩ := follow_cons_eq_some.mp h
    exact ih ht (fun u b u' hb => keeps u b u' (List.mem_cons_of_mem a hb))
      (keeps s a t List.mem_cons_self ha hs)

/-- Every state that a schedule passes, from the first to the last, has a property. -/
def Throughout (step : σ → α → Option σ) (P : σ → Prop) (s : σ) (as : List α) : Prop :=
  ∀ bs t, bs <+: as → follow step s bs = some t → P t

namespace Throughout

variable {P : σ → Prop} {s s' : σ} {as : List α}

/-- The first state is one of those a schedule passes. -/
theorem head (h : Throughout step P s as) : P s := h [] s List.nil_prefix rfl

/-- What holds throughout a schedule holds throughout what is left of it after its first move. -/
theorem tail {a : α} (h : Throughout step P s (a :: as)) (ha : step s a = some s') : Throughout step P s' as := by
  intro bs t hbs ht
  exact h (a :: bs) t (List.prefix_cons_inj a |>.mpr hbs) (follow_cons_eq_some.mpr ⟨s', ha, ht⟩)

/-- What holds throughout a schedule holds throughout the second part of it, from where the first part leads. -/
theorem drop {t : σ} {bs : List α} (h : Throughout step P s (as ++ bs)) (hs : follow step s as = some t) :
    Throughout step P t bs := by
  intro cs u hcs hu
  exact h (as ++ cs) u ((List.prefix_append_right_inj as).mpr hcs) (follow_append_eq_some.mpr ⟨t, hs, hu⟩)

/-- Only the first state is one that no move leads to. -/
theorem nil_iff : Throughout step P s [] ↔ P s := by
  refine ⟨head, fun hs bs t hbs ht => ?_⟩
  rw [List.prefix_nil.mp hbs] at ht
  cases ht
  exact hs

/-- A property holds throughout a schedule if it holds at first, and throughout what is left after the first move. -/
theorem cons_iff {a : α} :
    Throughout step P s (a :: as) ↔ P s ∧ ∀ t, step s a = some t → Throughout step P t as := by
  refine ⟨fun h => ⟨h.head, fun t ht => h.tail ht⟩, fun ⟨hs, hrest⟩ bs t hbs ht => ?_⟩
  cases bs with
  | nil =>
    cases ht
    exact hs
  | cons b bs =>
    obtain ⟨rfl, hpre⟩ := List.cons_prefix_cons.mp hbs
    obtain ⟨u, hu, hrun⟩ := follow_cons_eq_some.mp ht
    exact hrest u hu bs t hpre hrun

/-- Whether a property holds throughout a schedule is found by following it. -/
instance decide [DecidablePred P] : (s : σ) → (as : List α) → Decidable (Throughout step P s as)
  | s, [] => decidable_of_iff (P s) nil_iff.symm
  | s, a :: as =>
    have (t : σ) := decide t as
    decidable_of_iff (P s ∧ ∀ t, step s a = some t → Throughout step P t as) cons_iff.symm

end Throughout

/-- A system at rest stays as it is when it is left to settle. -/
theorem settle_of_atRest {order : List α} {s : σ} (h : AtRest step order s) (fuel : Nat) : settle step order fuel s = s := by
  cases fuel with
  | zero => rfl
  | succ fuel => rw [settle, List.findSome?_eq_none_iff.mpr h]

/-- Fewer parts come to no more. -/
theorem total_le_of_sublist (measure : α → Nat) {as bs : List α} (h : as.Sublist bs) : total measure as ≤ total measure bs := by
  induction h with
  | slnil => exact Nat.le_refl _
  | cons b _ ih => exact Nat.le_trans ih (Nat.le_add_left _ _)
  | cons_cons b _ ih => exact Nat.add_le_add_left ih _

/-- Parts that each come to something come to as much as some of them only if those are all. -/
theorem eq_of_total_eq {measure : α → Nat} {as bs : List α} (h : as.Sublist bs) (hpos : ∀ b ∈ bs, 0 < measure b)
    (heq : total measure as = total measure bs) : as = bs := by
  induction h with
  | slnil => rfl
  | cons b hsub _ =>
    have hle := total_le_of_sublist measure hsub
    have hb := hpos b List.mem_cons_self
    simp only [total] at heq
    omega
  | cons_cons b _ ih =>
    simp only [total, Nat.add_left_cancel_iff] at heq
    rw [ih (fun c hc => hpos c (List.mem_cons_of_mem b hc)) heq]

/-- A schedule of moves each of which leaves less is no longer than what there is at the beginning. -/
theorem follow_length_le {P : σ → Prop} {measure : σ → Nat} {s : σ} {as : List α} (h : (follow step s as).isSome)
    (keeps : ∀ t a t', a ∈ as → step t a = some t' → P t → P t' ∧ measure t' < measure t) (hs : P s) :
    as.length ≤ measure s := by
  induction as generalizing s with
  | nil => exact Nat.zero_le _
  | cons a as ih =>
    obtain ⟨u, hu⟩ := Option.isSome_iff_exists.mp h
    obtain ⟨t, ha, ht⟩ := follow_cons_eq_some.mp hu
    obtain ⟨hkept, hless⟩ := keeps s a t List.mem_cons_self ha hs
    have := ih (Option.isSome_iff_exists.mpr ⟨u, ht⟩) (fun u b u' hb => keeps u b u' (List.mem_cons_of_mem a hb)) hkept
    rw [List.length_cons]
    omega

/-! ## What may not be there -/

variable {R S : α → α → Prop} {o o₁ o' : Option α}

/-- What is there, or not, is related to itself where everything is. -/
theorem optionRel_refl (hR : ∀ a, R a a) (o : Option α) : Option.Rel R o o := by
  cases o with
  | none => exact .none
  | some a => exact .some (hR a)

/-- What is related to what is there, or not, is related on, as far as everything is. -/
theorem optionRel_trans (hR : ∀ {a b c}, R a b → R b c → R a c) (ha : Option.Rel R o o₁) (hb : Option.Rel R o₁ o') :
    Option.Rel R o o' := by
  cases ha with
  | none =>
    cases hb
    exact .none
  | some ha =>
    cases hb with
    | some hb => exact .some (hR ha hb)

/-- What is related in one way is related in another that follows. -/
theorem optionRel_imp (hRS : ∀ {a b}, R a b → S a b) (h : Option.Rel R o o') : Option.Rel S o o' := by
  cases h with
  | none => exact .none
  | some h => exact .some (hRS h)

end JobPlane
