import JobPlane.Job.Record
import JobPlane.Proofs.Json.Record

/-!
# Job records as JSON and back

Requests, summaries and jobs are read back from their JSON, whatever texts, lists, maps and numbers are in them and whichever of their
optional values are missing. A record that was read from any JSON at all, with its members in another order, with blanks, with other
spellings of its texts, with members nobody knows or with default values left out, is written in one form from then on.
-/

namespace JobPlane

open Json (ReadsBack)

/-- Images are read back. -/
theorem ImageRef.readsBack : ReadsBack ImageRef.read ImageRef.toJson := by
  intro i rest _
  refine Json.readRecord_writeObject (by decide) ?_ rest
  exact .value Json.readsBack_string (.value Json.readsBack_option (.value Json.readsBack_option (.nil i)))

/-- Configurations of containers are read back. -/
theorem ContainerConfig.readsBack : ReadsBack ContainerConfig.read ContainerConfig.toJson := by
  intro c rest _
  refine Json.readRecord_writeObject (by decide) ?_ rest
  exact .value ImageRef.readsBack (.value Json.readsBack_strings (.value Json.readsBack_strings (.value Json.readsBack_bool
    (.value Json.readsBack_bool (.value Json.readsBack_bool (.value Json.readsBack_bool (.value Json.readsBack_bool
    (.value Json.readsBack_bool (.nil c)))))))))

/-- Requests are read back. -/
theorem NewJob.readsBack : ReadsBack NewJob.read NewJob.toJson := by
  intro j rest _
  refine Json.readRecord_writeObject (by decide) ?_ rest
  exact .value Json.readsBack_string (.value Json.readsBack_strings (.value TextMap.readsBack (.value Json.readsBack_bool
    (.value Json.readsBack_uint16 (.value Json.readsBack_uint16 (.nil j))))))

/-- Summaries are read back. -/
theorem JobSummary.readsBack : ReadsBack JobSummary.read JobSummary.toJson := by
  intro s rest _
  have hmembers : s.toJson = Json.writeObject (("id", Json.writeString s.id) ::
      ((s.jobType.map fun t => ("type", Json.writeString t)).toList ++ ("releaseID", Json.writeString s.releaseId) ::
        ((s.cmd.map fun c => ("cmd", Json.writeStrings c)).toList ++ []))) := by
    simp [JobSummary.toJson]
  rw [hmembers]
  refine Json.readRecord_writeObject (by decide) ?_ rest
  refine .value Json.readsBack_string (.option (by decide) rfl (fun t rest _ => Json.readOption_writeString t rest) ?_)
  exact .value Json.readsBack_string (.option (by decide) rfl Json.readOption_writeStrings (.nil s))

/-- Jobs are read back. -/
theorem JobSpec.readsBack : ReadsBack JobSpec.read JobSpec.toJson := by
  intro j rest _
  refine Json.readRecord_writeObject (by decide) ?_ rest
  exact .value Json.readsBack_string (.value Json.readsBack_string (.value Json.readsBack_string (.value Json.readsBack_string
    (.value TextMap.readsBack (.value ContainerConfig.readsBack (.nil j))))))

/-- What becomes of job records that are written as JSON, and of JSON that is read as a job record:

1. a request that is written is read back, and so are
2. a summary and
3. a job;
4. JSON that is read as a request and written again is read as the same request from then on, and written in the same bytes; and so is
5. JSON of a summary and
6. JSON of a job. -/
theorem json_round_trip :
    (∀ j : NewJob, Json.readAll NewJob.read (Bytes.ofText j.toJson) = .ok j) ∧
    (∀ s : JobSummary, Json.readAll JobSummary.read (Bytes.ofText s.toJson) = .ok s) ∧
    (∀ j : JobSpec, Json.readAll JobSpec.read (Bytes.ofText j.toJson) = .ok j) ∧
    (∀ bs bs' : Bytes, Json.rewritten NewJob.read NewJob.toJson bs = .ok bs' →
      Json.readAll NewJob.read bs' = Json.readAll NewJob.read bs ∧ Json.rewritten NewJob.read NewJob.toJson bs' = .ok bs') ∧
    (∀ bs bs' : Bytes, Json.rewritten JobSummary.read JobSummary.toJson bs = .ok bs' →
      Json.readAll JobSummary.read bs' = Json.readAll JobSummary.read bs ∧
        Json.rewritten JobSummary.read JobSummary.toJson bs' = .ok bs') ∧
    ∀ bs bs' : Bytes, Json.rewritten JobSpec.read JobSpec.toJson bs = .ok bs' →
      Json.readAll JobSpec.read bs' = Json.readAll JobSpec.read bs ∧ Json.rewritten JobSpec.read JobSpec.toJson bs' = .ok bs' := by
  refine ⟨NewJob.readsBack.readAll, JobSummary.readsBack.readAll, JobSpec.readsBack.readAll, ?_, ?_, ?_⟩
  · intro bs bs' h
    exact NewJob.readsBack.again h
  · intro bs bs' h
    exact JobSummary.readsBack.again h
  · intro bs bs' h
    exact JobSpec.readsBack.again h

/-- A request without its defaults, a summary with a member nobody knows and the others in another order, and a job as an array. -/
theorem json_round_trip_of_others :
    (Json.rewritten NewJob.read NewJob.toJson (Bytes.ofText "\x7b \"releaseID\" : \"\\u0072\" \x7d") =
        .ok (Bytes.ofText (NewJob.toJson { releaseId := "r" })) ∧
      Json.rewritten NewJob.read NewJob.toJson (Bytes.ofText (NewJob.toJson { releaseId := "r" })) =
        .ok (Bytes.ofText (NewJob.toJson { releaseId := "r" }))) ∧
    (Json.rewritten JobSummary.read JobSummary.toJson
          (Bytes.ofText "\x7b\"cmd\":[],\"size\":[1.5e3,null],\"releaseID\":\"\",\"type\":null,\"id\":\"h-1\"\x7d") =
        .ok (Bytes.ofText "\x7b\"id\":\"h-1\",\"releaseID\":\"\",\"cmd\":[]\x7d") ∧
      Json.rewritten JobSummary.read JobSummary.toJson (Bytes.ofText "\x7b\"id\":\"h-1\",\"releaseID\":\"\",\"cmd\":[]\x7d") =
        .ok (Bytes.ofText "\x7b\"id\":\"h-1\",\"releaseID\":\"\",\"cmd\":[]\x7d")) ∧
    Json.rewritten JobSpec.read JobSpec.toJson
          (Bytes.ofText "[\"1\",\"\",\"\",\"\",\x7b\x7d,[\x7b\"name\":\"\"\x7d,[],[],false,false,false,false,false,false]]") =
        .ok (Bytes.ofText (JobSpec.toJson { id := "1" })) ∧
      Json.rewritten JobSpec.read JobSpec.toJson (Bytes.ofText (JobSpec.toJson { id := "1" })) =
        .ok (Bytes.ofText (JobSpec.toJson { id := "1" })) := by
  obtain ⟨-, -, -, hrequest, hsummary, hjob⟩ := json_round_trip
  -- a job's JSON is long, so it is not computed
  have hread : Json.readAll JobSpec.read
      (Bytes.ofText "[\"1\",\"\",\"\",\"\",\x7b\x7d,[\x7b\"name\":\"\"\x7d,[],[],false,false,false,false,false,false]]") =
        .ok { id := "1" } := by decide +kernel
  refine ⟨(and_iff_left_of_imp ?_).mpr ?request, (and_iff_left_of_imp ?_).mpr ?summary, (and_iff_left_of_imp ?_).mpr ?job⟩
  case request | summary => decide +kernel
  case job => rw [Json.rewritten, hread, Except.map]
  · exact fun hread => (hrequest _ _ hread).2
  · exact fun hread => (hsummary _ _ hread).2
  · exact fun hread => (hjob _ _ hread).2

end JobPlane
