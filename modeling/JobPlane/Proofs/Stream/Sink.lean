import JobPlane.Stream.Sink

/-!
# What recording sinks take

A sink that takes at least one byte wherever there is room holds, whatever the portions are, the beginning of what was written to it, as
far as its limit goes (`Fills`).
-/

namespace JobPlane.Sink

variable {n : Nat} {s t u : Sink}

/-- A sink that holds at most `n` bytes, and takes at least one of those it is given wherever there is room. -/
structure Takes (n : Nat) (s : Sink) : Prop where
  limit : s.limit = some n
  portion : ∀ k, s.portion k ≠ some 0

/-- What such a sink takes at once: no more than it is given and has room for, and something if it can. -/
theorem Takes.accepts (h : s.Takes n) (m : Nat) :
    s.accepts m ≤ m ∧ s.accepts m ≤ n - s.bytes.length ∧ (0 < m → s.bytes.length < n → 0 < s.accepts m) := by
  have hsize : s.written.size = s.bytes.length := by simp [bytes]
  have hportion := h.portion s.written.size
  unfold Sink.accepts
  simp only [h.limit]
  rw [hsize] at hportion ⊢
  split
  · rename_i p hp
    have hpos : p ≠ 0 := by
      rintro rfl
      exact hportion hp
    omega
  · omega

/-- A sink after bytes were written to it: it holds of them what there was room for. -/
structure Fills (n : Nat) (s : Sink) (bs : Bytes) (t : Sink) : Prop where
  takes : t.Takes n
  bytes_eq : t.bytes = s.bytes ++ bs.take (n - s.bytes.length)

namespace Fills

/-- Where nothing is written, the sink stays as it is. -/
theorem nil (h : s.Takes n) : Fills n s [] s := ⟨h, by simp⟩

/-- Where there is no room, the sink stays as it is. -/
theorem full (h : s.Takes n) (hfull : n ≤ s.bytes.length) (bs : Bytes) : Fills n s bs s := by
  refine ⟨h, ?_⟩
  rw [Nat.sub_eq_zero_of_le hfull, List.take_zero, List.append_nil]

/-- One write after another. -/
theorem append {as bs : Bytes} (ha : Fills n s as t) (hb : Fills n t bs u) : Fills n s (as ++ bs) u := by
  refine ⟨hb.takes, ?_⟩
  have hlength : t.bytes.length = s.bytes.length + min (n - s.bytes.length) as.length := by
    rw [ha.bytes_eq, List.length_append, List.length_take]
  have hroom : n - t.bytes.length = n - s.bytes.length - as.length := by omega
  rw [hb.bytes_eq, hroom, ha.bytes_eq, List.take_append, List.append_assoc]

/-- Where not all of a write found room, a sink has room for nothing more. -/
theorem more {as : Bytes} (ha : Fills n s as t) (hover : n - s.bytes.length < as.length) (bs : Bytes) :
    Fills n s (as ++ bs) t := by
  refine ⟨ha.takes, ?_⟩
  rw [ha.bytes_eq, List.take_append_of_le_length (Nat.le_of_lt hover)]

end Fills

/-- Writing bytes to the end fills a sink with them, and succeeds exactly if there is room for all of them. -/
theorem writeAll_fills (h : s.Takes n) (bs : Bytes) :
    Fills n s bs (s.writeAll bs).2 ∧ ((s.writeAll bs).1 = .ok () ↔ bs.length ≤ n - s.bytes.length) := by
  -- One portion at a time; what is left after a portion is shorter.
  induction hlength : bs.length using Nat.strongRecOn generalizing bs s with
  | ind length ih =>
    cases bs with
    | nil =>
      rw [writeAll]
      refine ⟨Fills.nil h, ?_⟩
      simp at hlength
      simp [← hlength]
    | cons b rest =>
      rw [List.length_cons] at hlength
      obtain ⟨hle, hroom, hpos⟩ := h.accepts (rest.length + 1)
      rw [writeAll]
      by_cases hnone : s.accepts (rest.length + 1) = 0
      · have hfull : n ≤ s.bytes.length := by
          refine Nat.le_of_not_lt fun hlt => ?_
          have := hpos (Nat.succ_pos _) hlt
          omega
        rw [if_pos hnone]
        refine ⟨Fills.full h hfull _, ?_⟩
        have hlong : ¬length ≤ n - s.bytes.length := by omega
        simp [hlong]
      · rw [if_neg hnone]
        generalize hk : s.accepts (rest.length + 1) = k at *
        have hnow : Fills n s ((b :: rest).take k) { s with written := s.written ++ (b :: rest).take k } := by
          refine ⟨⟨h.limit, h.portion⟩, ?_⟩
          rw [List.take_take, Nat.min_eq_right hroom]
          simp [bytes]
        have hheld := congrArg List.length hnow.bytes_eq
        rw [List.length_append, List.length_take, List.length_take, List.length_cons] at hheld
        have hshort : ((b :: rest).drop k).length < length := by
          rw [List.length_drop, List.length_cons]
          omega
        obtain ⟨hlater, hok⟩ := ih _ hshort hnow.takes _ rfl
        refine ⟨?_, ?_⟩
        · have hall := hnow.append hlater
          rwa [List.take_append_drop] at hall
        · rw [hok, List.length_drop, List.length_cons]
          omega

/-- Writing pieces one after another fills a sink with all of them. -/
theorem writePieces_fills (h : s.Takes n) (ps : List Bytes) : Fills n s ps.flatten (writePieces ps s).2 := by
  induction ps generalizing s with
  | nil => exact Fills.nil h
  | cons p ps ih =>
    obtain ⟨hfills, hok⟩ := writeAll_fills h p
    rw [writePieces, List.flatten_cons]
    split
    · rename_i t heq
      rw [heq] at hfills
      exact hfills.append (ih hfills.takes)
    · rename_i e t heq
      rw [heq] at hfills hok
      refine hfills.more ?_ _
      have hnot : ¬p.length ≤ n - s.bytes.length := by
        intro hle
        cases hok.mpr hle
      omega

/-! ## Single portions -/

/-- What is held of some bytes where there may be a limit. -/
def upTo (limit : Option Nat) (bs : Bytes) : Bytes :=
  match limit with
  | none => bs
  | some n => bs.take n

/-- So many bytes find room behind so many others, none at all being no matter of room. -/
def Fits (limit : Option Nat) (used more : Nat) : Prop := ∀ n, limit = some n → more ≤ n - used

/-- Where more bytes were held than a limit allows of others, those others are held in full. -/
theorem upTo_eq_self {limit : Option Nat} {bs : Bytes} (h : ∀ n, limit = some n → (upTo limit bs).length < n ∨ bs.length ≤ n) :
    upTo limit bs = bs := by
  cases limit with
  | none => rfl
  | some n =>
    refine List.take_of_length_le ?_
    rcases h n rfl with hless | hle
    · rw [upTo, List.length_take] at hless
      omega
    · exact hle

/-- Behind bytes that reach the limit nothing more is held. -/
theorem upTo_append_of_full {n : Nat} {bs : Bytes} (h : n ≤ bs.length) (more : Bytes) : upTo (some n) (bs ++ more) = upTo (some n) bs :=
  List.take_append_of_le_length h

/-- Without a limit something of what is given is taken at once. -/
theorem accepts_of_unlimited (hlimit : s.limit = none) (hportion : ∀ k, s.portion k ≠ some 0) (m : Nat) :
    s.accepts m ≤ m ∧ (0 < m → 0 < s.accepts m) := by
  have hpos := hportion s.written.size
  unfold Sink.accepts
  simp only [hlimit]
  split
  · rename_i p hp
    have hne : p ≠ 0 := by
      rintro rfl
      exact hpos hp
    omega
  · omega

/-- A sink without a limit that takes at least one of the bytes it is given. -/
structure Unlimited (s : Sink) : Prop where
  limit : s.limit = none
  portion : ∀ k, s.portion k ≠ some 0

/-- Writing bytes to the end brings all of them into a sink without a limit. -/
theorem Unlimited.writeAll (h : s.Unlimited) (bs : Bytes) :
    ∃ t, s.writeAll bs = (.ok (), t) ∧ t.Unlimited ∧ t.bytes = s.bytes ++ bs := by
  -- One portion at a time; what is left after a portion is shorter.
  induction hlength : bs.length using Nat.strongRecOn generalizing bs s with
  | ind length ih =>
    cases bs with
    | nil => exact ⟨s, by rw [Sink.writeAll], h, by simp⟩
    | cons b rest =>
      rw [List.length_cons] at hlength
      have hpos := (accepts_of_unlimited h.limit h.portion (rest.length + 1)).2 (Nat.succ_pos _)
      rw [Sink.writeAll, if_neg (Nat.ne_of_gt hpos)]
      generalize s.accepts (rest.length + 1) = k at hpos
      have hshort : ((b :: rest).drop k).length < length := by
        rw [List.length_drop, List.length_cons]
        omega
      have hnow : ({ s with written := s.written ++ (b :: rest).take k } : Sink).Unlimited := ⟨h.limit, h.portion⟩
      obtain ⟨t, hwrite, ht, hbytes⟩ := ih _ hshort hnow _ rfl
      refine ⟨t, hwrite, ht, ?_⟩
      have hheld : ({ s with written := s.written ++ (b :: rest).take k } : Sink).bytes = s.bytes ++ (b :: rest).take k := by
        simp [bytes]
      rw [hbytes, hheld, List.append_assoc, List.take_append_drop]

/-- Writing pieces one after another brings all of them into a sink without a limit. -/
theorem Unlimited.writePieces (h : s.Unlimited) (ps : List Bytes) :
    ∃ t, Sink.writePieces ps s = (.ok (), t) ∧ t.Unlimited ∧ t.bytes = s.bytes ++ ps.flatten := by
  induction ps generalizing s with
  | nil => exact ⟨s, rfl, h, by simp⟩
  | cons p ps ih =>
    obtain ⟨t, hfirst, ht, hbytes⟩ := h.writeAll p
    obtain ⟨u, hrest, hu, hall⟩ := ih ht
    refine ⟨u, ?_, hu, ?_⟩
    · rw [Sink.writePieces, hfirst]
      exact hrest
    · rw [hall, hbytes, List.flatten_cons, List.append_assoc]

/-- A write of something is refused by a sink that holds all it may hold, and else brings in a portion that finds room. -/
theorem write_cases (hportion : ∀ k, s.portion k ≠ some 0) {bs : Bytes} (hne : bs ≠ []) :
    (∃ l, s.limit = some l ∧ l ≤ s.bytes.length ∧ s.write bs = (.failed .sinkFull, s)) ∨
    ∃ k, s.write bs = (.took k, { s with written := s.written ++ bs.take k }) ∧ 0 < k ∧ k ≤ bs.length ∧
      ∀ l, s.limit = some l → s.bytes.length + k ≤ l := by
  obtain ⟨b, rest, rfl⟩ := List.exists_cons_of_ne_nil hne
  have htook (hpos : 0 < s.accepts (rest.length + 1)) :
      s.write (b :: rest) =
        (.took (s.accepts (rest.length + 1)), { s with written := s.written ++ (b :: rest).take (s.accepts (rest.length + 1)) }) := by
    rw [write, if_neg (by omega)]
  rcases Option.eq_none_or_eq_some s.limit with hlimit | ⟨l, hlimit⟩
  · obtain ⟨hle, hpos⟩ := accepts_of_unlimited hlimit hportion (rest.length + 1)
    refine Or.inr ⟨_, htook (hpos (by omega)), hpos (by omega), hle, fun l hl => ?_⟩
    rw [hlimit] at hl
    cases hl
  · obtain ⟨hle, hroom, hpos⟩ := Takes.accepts ⟨hlimit, hportion⟩ (rest.length + 1)
    by_cases hfull : l ≤ s.bytes.length
    · refine Or.inl ⟨l, hlimit, hfull, ?_⟩
      rw [write, if_pos (by omega)]
    · have hsome := hpos (by omega) (by omega)
      refine Or.inr ⟨_, htook hsome, hsome, hle, fun l' hl' => ?_⟩
      rw [hlimit] at hl'
      cases hl'
      omega

end JobPlane.Sink
