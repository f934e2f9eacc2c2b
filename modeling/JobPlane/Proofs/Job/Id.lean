import JobPlane.Job.Id

/-!
# Which texts are IDs of jobs

The ID of a job is written with a hyphen after the ID of the host. A text spells an ID where what stands before its first hyphen and what
stands after it are not empty (`JobId.parse_eq_some_iff`), and an ID is read back as it was written where its host's has no hyphen.
-/

namespace JobPlane.JobId

/-- The text that two lists of characters and a hyphen between them make. -/
theorem eq_display_iff {s host job : String} : s = (JobId.mk host job).display ↔ s.toList = host.toList ++ '-' :: job.toList := by
  rw [← String.toList_inj]
  simp [display]

/-- A text spells the ID of a job exactly where it is the text of that ID, the ID of the host is not empty and has no hyphen, and that of
the job is not empty. -/
theorem parse_eq_some_iff {s : String} {id : JobId} :
    parse s = some id ↔ s = id.display ∧ id.host ≠ "" ∧ '-' ∉ id.host.toList ∧ id.job ≠ "" := by
  obtain ⟨host, job⟩ := id
  rw [eq_display_iff]
  unfold parse
  constructor
  · intro hparse
    split at hparse
    · rename_i a b hcut
      obtain ⟨⟨as, bs⟩, hcut, hparts⟩ := Option.map_eq_some_iff.mp hcut
      obtain ⟨htext, hhyphen⟩ := Text.eq_of_cutFirst hcut
      cases hparts
      split at hparse
      · cases hparse
      · rename_i hfull
        cases hparse
        simp only [Bool.or_eq_true, String.isEmpty_iff, not_or] at hfull
        simp [htext, hhyphen, hfull]
    · cases hparse
  · rintro ⟨htext, hhost, hhyphen, hjob⟩
    simp [Text.splitFirst, htext, Text.cutFirst_append job.toList hhyphen, hhost, hjob]

end JobPlane.JobId
