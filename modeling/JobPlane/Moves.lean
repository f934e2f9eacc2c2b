/-!
# Systems that move

A system of several parts is given by one function: what a move leads to, or nothing where the move is not possible. A schedule
is a list of moves. A system is at rest when no move is possible.
-/

namespace JobPlane

variable {σ α : Type}

/-- Follows a schedule; nothing if one of its moves is not possible. -/
def follow (step : σ → α → Option σ) : σ → List α → Option σ
  | s, [] => some s
  | s, a :: as => (step s a).bind fun s => follow step s as

/-- Makes the first possible move of `order`, over and over, at most `fuel` times. -/
def settle (step : σ → α → Option σ) (order : List α) : Nat → σ → σ
  | 0, s => s
  | fuel + 1, s =>
    match order.findSome? (step s) with
    | some s => settle step order fuel s
    | none => s

/-- What a measure comes to over the parts of a system. -/
def total (measure : α → Nat) : List α → Nat
  | [] => 0
  | a :: as => measure a + total measure as

/-- Settles, and says whether any move was possible. -/
def settled (step : σ → α → Option σ) (order : List α) (fuel : Nat) (s : σ) : Bool × σ :=
  match order.findSome? (step s) with
  | some s => (true, settle step order fuel s)
  | none => (false, s)

/-- No move of `order` is possible. -/
def AtRest (step : σ → α → Option σ) (order : List α) (s : σ) : Prop := ∀ a ∈ order, step s a = none

/-- One schedule after another is followed by following both. -/
theorem follow_append (step : σ → α → Option σ) (s : σ) (as bs : List α) :
    follow step s (as ++ bs) = (follow step s as).bind fun s => follow step s bs := by
  induction as generalizing s with
  | nil => rfl
  | cons a as ih =>
    simp only [List.cons_append, follow]
    cases step s a with
    | none => rfl
    | some t => exact ih t

/-- Settling follows some schedule of the moves it may make. -/
theorem exists_follow_settle (step : σ → α → Option σ) (order : List α) (fuel : Nat) (s : σ) :
    ∃ as, (∀ a ∈ as, a ∈ order) ∧ follow step s as = some (settle step order fuel s) := by
  induction fuel generalizing s with
  | zero => exact ⟨[], by simp, rfl⟩
  | succ fuel ih =>
    unfold settle
    cases h : order.findSome? (step s) with
    | none => exact ⟨[], by simp, rfl⟩
    | some t =>
      obtain ⟨a, ha, hst⟩ := List.exists_of_findSome?_eq_some h
      obtain ⟨as, hmem, has⟩ := ih t
      refine ⟨a :: as, ?_, ?_⟩
      · intro b hb
        rcases List.mem_cons.1 hb with rfl | hb
        · exact ha
        · exact hmem b hb
      · simp [follow, hst, has]

end JobPlane
