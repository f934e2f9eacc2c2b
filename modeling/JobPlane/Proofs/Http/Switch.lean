import JobPlane.Http.Api
import JobPlane.Proofs.Http.Elements
import JobPlane.Proofs.Plan

/-!
# The switch to a job's stream

An interactive run is refused before anything is asked unless its connection can be taken over (`Request.canSwitch_iff`). Otherwise it is
carried out, and the connection is taken over exactly if the job is attached to (`switch_of_interactive_run`). There have to be lines of
`Upgrade` for that, but they need not list the protocol that the connection goes on in: what they say changes no answer
(`answer_asking`).
-/

namespace JobPlane.Http

namespace Request

/-- A request runs a new job of an app. -/
structure Runs (r : Request) (app : String) (new : NewJob) : Prop where
  method : r.method = "POST"
  resource : ∃ path, Resource.ofPath r.target.path = some (.jobs path) ∧ segmentText? path = some app
  job : Api.readNewJob r = .ok new

/-- The request with each of its lines of `Upgrade` listing other protocols. -/
def asking (r : Request) (protocols : Bytes) : Request :=
  { r with headers := r.headers.map fun (name, value) => (name, if name == "upgrade" then protocols else value) }

variable {r : Request} {protocols : Bytes}

/-- A connection can be taken over if it is live, the request has a line of `Upgrade`, and its `Connection` lists that. -/
theorem canSwitch_iff :
    r.canSwitch = true ↔
      r.live = true ∧ (∃ value, ("upgrade", value) ∈ r.headers) ∧ Lists (r.headers.lines "connection") (IsWord "upgrade") := by
  rw [canSwitch, Bool.and_eq_true, Bool.and_eq_true, and_assoc, listsWord_iff (by simp)]
  simp only [List.any_eq_true, beq_iff_eq, Prod.exists, exists_and_right, exists_eq_right]

/-- The lines of other headers stay as they are. -/
theorem lines_asking {name : String} (h : name ≠ "upgrade") : (r.asking protocols).headers.lines name = r.headers.lines name := by
  rw [asking, Headers.lines, List.filter_map, List.map_map, Headers.lines]
  refine List.map_congr_left fun (n, value) hmem => ?_
  have hn : n = name := by simpa using (List.mem_filter.mp hmem).2
  simp [hn, h]

@[simp] theorem accepts_asking (mediaType : String) : (r.asking protocols).accepts mediaType = r.accepts mediaType := by
  rw [accepts, lines_asking (by decide), accepts]

@[simp] theorem closes_asking : (r.asking protocols).closes = r.closes := by
  rw [closes, lines_asking (by decide), closes]
  rfl

@[simp] theorem canSwitch_asking : (r.asking protocols).canSwitch = r.canSwitch := by
  have hany : (r.asking protocols).headers.any (·.1 == "upgrade") = r.headers.any (·.1 == "upgrade") := List.any_map
  rw [canSwitch, lines_asking (by decide), hany, canSwitch]
  rfl

@[simp] theorem readNewJob_asking : Api.readNewJob (r.asking protocols) = Api.readNewJob r := by
  rw [Api.readNewJob, lines_asking (by decide), Api.readNewJob]
  rfl

end Request

namespace Api

/-- The reply to a run, by what the run came to. -/
def replyTo : Except Refusal Dispatched → Reply
  | .ok (.scheduled s) => .json 200 s.toJson
  | .ok (.attached j) => switched j
  | .error e => .refused e

/-- Running a job interactively, up to the reply. -/
def dispatch (api : Api) (new : NewJob) (app : App) : Plan Reply :=
  runJob api.select api.limits app new true >>= fun came => .done (replyTo came)

/-- A reply as it leaves, with what is said along with every reply to the request. -/
def asSent (r : Request) (reply : Reply) : Reply :=
  let reply := { reply with headers := anyOrigin :: reply.headers }
  if r.closes then reply.closing else reply

variable {api : Api} {r : Request} {app : String} {new : NewJob} {reply : Reply}

/-- The connection is taken over exactly for a job that is attached to. -/
theorem status_replyTo {came : Except Refusal Dispatched} : (replyTo came).status = 101 ↔ ∃ j, came = .ok (.attached j) := by
  constructor
  · intro h
    cases came with
    | error e => cases e <;> cases h
    | ok d =>
      cases d with
      | scheduled s => cases h
      | attached j => exact ⟨j, rfl⟩
  · rintro ⟨j, rfl⟩
    rfl

/-- What is said along with a reply changes neither its status nor its body. -/
theorem asSent_kept : (asSent r reply).status = reply.status ∧ (asSent r reply).content = reply.content := by
  unfold asSent
  dsimp only
  split
  · unfold Reply.closing
    split <;> exact ⟨rfl, rfl⟩
  · exact ⟨rfl, rfl⟩

/-- What is said along with a reply takes no header away, but may say more in that of the connection. -/
theorem mem_headers_asSent {name value : String} (hname : name ≠ "connection") (h : (name, value) ∈ reply.headers) :
    (name, value) ∈ (asSent r reply).headers := by
  have hmore : (name, value) ∈ anyOrigin :: reply.headers := List.mem_cons_of_mem _ h
  unfold asSent
  dsimp only
  split
  · unfold Reply.closing
    split
    · refine List.mem_map.mpr ⟨(name, value), hmore, ?_⟩
      simp [hname]
    · exact List.mem_append_left _ hmore
  · exact hmore

/-- The reply to a request that runs a job is that of the run. -/
theorem answer_of_runs (h : r.Runs app new) : api.answer r = run api r app >>= fun reply => .done (asSent r reply) := by
  obtain ⟨path, hpath, happ⟩ := h.resource
  have hallowed : (methods (.jobs path)).contains "POST" = true := by
    rw [methods]
    decide
  have hserve : serve api r = run api r app := by
    simp only [serve, hpath, h.method, hallowed, if_true, perform, withSegment, happ]
    rfl
  rw [answer, if_neg (by rw [h.method]; decide), hserve]
  rfl

/-- An interactive run is refused at once if the connection cannot be taken over, and else goes on with the app. -/
theorem run_of_interactive (hnew : readNewJob r = .ok new) (hinteractive : r.accepts attachMediaType = true) :
    run api r app =
      if r.canSwitch then withApp app (dispatch api new) else .done (.refused .upgradeRequired) := by
  rw [run, hnew]
  dsimp only
  rw [hinteractive, Bool.true_and]
  cases r.canSwitch with
  | false => rfl
  | true =>
    simp only [Bool.not_true, if_true]
    refine congrArg (withApp app) (funext fun a => congrArg (Plan.bind _) (funext fun came => ?_))
    rcases came with _ | (_ | _) <;> rfl

variable {σ : Type} {answer : (q : Ask) → σ → q.Answer × σ} {s : σ} {id : String}

/-- What needs an app of the catalog goes on with it if it is found. -/
theorem withApp_found (next : App → Plan Reply) {a : App} (h : (answer (.app id) s).1 = .ok a) :
    (withApp id next).history answer s = ⟨.app id, .ok a⟩ :: (next a).history answer (answer (.app id) s).2 ∧
      (withApp id next).run answer s = (next a).run answer (answer (.app id) s).2 := by
  have hrun : (withApp id next).run answer s = _ := Plan.run_call answer (.app id) _ s
  have hhistory : (withApp id next).history answer s = ⟨.app id, (answer (.app id) s).1⟩ :: _ := rfl
  rw [h] at hrun hhistory
  exact ⟨hhistory, hrun⟩

/-- What needs an app of the catalog is refused if it is not found. -/
theorem withApp_missing (next : App → Plan Reply) {e : CatalogError} (h : (answer (.app id) s).1 = .error e) :
    (withApp id next).history answer s = [⟨.app id, .error e⟩] ∧ ((withApp id next).run answer s).1 = .refused (.ofCatalog e) := by
  have hrun : (withApp id next).run answer s = _ := Plan.run_call answer (.app id) _ s
  have hhistory : (withApp id next).history answer s = ⟨.app id, (answer (.app id) s).1⟩ :: _ := rfl
  rw [h] at hrun hhistory
  exact ⟨hhistory, congrArg Prod.fst hrun⟩

variable (api answer s)

/-- A request that runs a job asks what the run asks, and is answered with the reply of the run. -/
theorem carried_out (h : r.Runs app new) :
    (api.answer r).history answer s = (run api r app).history answer s ∧
      ((api.answer r).run answer s).1 = asSent r ((run api r app).run answer s).1 := by
  rw [answer_of_runs h]
  exact Plan.carried_out_done answer _ _ s

/-- An interactive run over a connection that cannot be taken over asks nothing. -/
theorem carried_out_refused (hruns : r.Runs app new) (hinteractive : r.accepts attachMediaType = true) (hno : r.canSwitch = false) :
    (api.answer r).history answer s = [] ∧ ((api.answer r).run answer s).1 = asSent r (.refused .upgradeRequired) := by
  have hrun : run api r app = _ := run_of_interactive hruns.job hinteractive
  rw [hno] at hrun
  obtain ⟨hasked, hreply⟩ := carried_out api answer s hruns
  rw [hasked, hreply, hrun]
  exact ⟨rfl, rfl⟩

/-- An interactive run over a connection that can be taken over asks for the app, and then what running the job asks. -/
theorem carried_out_found {a : App} (hruns : r.Runs app new) (hinteractive : r.accepts attachMediaType = true)
    (hcan : r.canSwitch = true) (ha : (answer (.app app) s).1 = .ok a) :
    let running := runJob api.select api.limits a new true
    (api.answer r).history answer s = ⟨.app app, .ok a⟩ :: running.history answer (answer (.app app) s).2 ∧
      ((api.answer r).run answer s).1 = asSent r (replyTo (running.run answer (answer (.app app) s).2).1) := by
  intro running
  have hrun : run api r app = _ := run_of_interactive hruns.job hinteractive
  rw [if_pos hcan] at hrun
  obtain ⟨hasked, hreply⟩ := carried_out api answer s hruns
  obtain ⟨hhistory, hgoesOn⟩ := withApp_found (dispatch api new) ha
  obtain ⟨hsame, hcame⟩ := Plan.carried_out_done answer running replyTo (answer (.app app) s).2
  rw [hasked, hreply, hrun, hhistory, hgoesOn, dispatch, hsame, hcame]
  exact ⟨rfl, rfl⟩

/-- An interactive run of an app that is not in the catalog asks for the app only. -/
theorem carried_out_missing {e : CatalogError} (hruns : r.Runs app new) (hinteractive : r.accepts attachMediaType = true)
    (hcan : r.canSwitch = true) (he : (answer (.app app) s).1 = .error e) :
    (api.answer r).history answer s = [⟨.app app, .error e⟩] ∧
      ((api.answer r).run answer s).1 = asSent r (.refused (.ofCatalog e)) := by
  have hrun : run api r app = _ := run_of_interactive hruns.job hinteractive
  rw [if_pos hcan] at hrun
  obtain ⟨hasked, hreply⟩ := carried_out api answer s hruns
  obtain ⟨hhistory, hrefused⟩ := withApp_missing (dispatch api new) he
  rw [hasked, hreply, hrun, hhistory, hrefused]
  exact ⟨rfl, rfl⟩

/-- Which protocols a request asks for changes no answer. -/
theorem answer_asking (r : Request) (protocols : Bytes) : api.answer (r.asking protocols) = api.answer r := by
  have hrun (app : String) : run api (r.asking protocols) app = run api r app := by simp [run]
  have hlog (app job : String) : log api (r.asking protocols) app job = log api r app job := by
    unfold log logEncoding
    simp only [Request.accepts_asking]
    rfl
  have hperform (resource : Resource) : perform api (r.asking protocols) resource = perform api r resource := by
    cases resource with
    | jobs path => simp only [perform, hrun]; rfl
    | job path id => rfl
    | log path id => simp only [perform, hlog]
  have hserve : serve api (r.asking protocols) = serve api r := by
    unfold serve
    simp only [hperform]
    rfl
  unfold answer
  simp only [hserve, Request.closes_asking]
  rfl

/-! ## Which runs are switched -/

/-- What is asked for an interactive run, whatever the answers, and the reply to it.
1. The connection can be taken over exactly if it is live, there is a line of `Upgrade`, and a line of `Connection` lists `upgrade`.
2. If it cannot be, nothing is asked, and the run is refused for that with status 426.
3. If it can be, the app is looked up. If it is in the catalog, what is asked further is what running the job asks; the reply has status
   101 exactly if that comes to a job that is attached to, and then it names the protocol of job streams and is followed by the job's.
4. If the app is not in the catalog, nothing more is asked, and the reply has another status.
5. None of this depends on what the lines of `Upgrade` list: the answer is the same for other protocols. -/
theorem switch_of_interactive_run (hruns : r.Runs app new) (hinteractive : r.accepts attachMediaType = true) (api : Api) {σ : Type}
    (answer : (q : Ask) → σ → q.Answer × σ) (s : σ) :
    let asked := (api.answer r).history answer s
    let reply := ((api.answer r).run answer s).1
    let looked := answer (.app app) s
    (r.canSwitch = true ↔
      r.live = true ∧ (∃ value, ("upgrade", value) ∈ r.headers) ∧ Lists (r.headers.lines "connection") (IsWord "upgrade")) ∧
    (r.canSwitch = false → asked = [] ∧ reply.status = 426 ∧ reply.content = (Reply.refused .upgradeRequired).content) ∧
    (r.canSwitch = true → ∀ a, looked.1 = .ok a →
      let running := runJob api.select api.limits a new true
      let came := (running.run answer looked.2).1
      asked = ⟨.app app, .ok a⟩ :: running.history answer looked.2 ∧ (reply.status = 101 ↔ ∃ j, came = .ok (.attached j)) ∧
        ∀ j, came = .ok (.attached j) → ("upgrade", attachProtocol) ∈ reply.headers ∧ reply.content = .stream j) ∧
    (r.canSwitch = true → ∀ e, looked.1 = .error e → asked = [⟨.app app, .error e⟩] ∧ reply.status ≠ 101) ∧
    ∀ protocols, api.answer (r.asking protocols) = api.answer r := by
  refine ⟨Request.canSwitch_iff, fun hno => ?_, fun hcan a ha => ?_, fun hcan e he => ?_, answer_asking api r⟩
  · obtain ⟨hasked, hreply⟩ := carried_out_refused api answer s hruns hinteractive hno
    rw [hreply, asSent_kept.1, asSent_kept.2]
    exact ⟨hasked, rfl, rfl⟩
  · obtain ⟨hasked, hreply⟩ := carried_out_found api answer s hruns hinteractive hcan ha
    dsimp only
    rw [hreply, asSent_kept.1, asSent_kept.2]
    refine ⟨hasked, status_replyTo, fun j hj => ?_⟩
    rw [hj]
    exact ⟨mem_headers_asSent (by decide) (by simp [replyTo, switched]), rfl⟩
  · obtain ⟨hasked, hreply⟩ := carried_out_missing api answer s hruns hinteractive hcan he
    rw [hreply, asSent_kept.1]
    refine ⟨hasked, fun hstatus => ?_⟩
    have hrefused : (replyTo (.error (.ofCatalog e))).status = 101 := hstatus
    obtain ⟨j, hj⟩ := status_replyTo.mp hrefused
    cases hj

/-- A request whose `Upgrade` lists another protocol only, for a job that a host takes and starts: the connection is taken over, and goes on
in the protocol of job streams. -/
theorem switch_of_interactive_run_to_another :
    let answer : (q : Ask) → Unit → q.Answer × Unit := fun q _ => (match q with
      | .app id => .ok { id, name := "web" }
      | .release _ => .ok { artifactId := "a" }
      | .artifact _ => .ok { uri := "docker:///app:1" }
      | .freshId => "j"
      | .listHosts => .ok [("h", { id := "h" })]
      | .dial host => .ok ⟨host, 0⟩
      | .attach _ _ _ => .ok ⟨0, false, false⟩
      | .addJobs _ | .detach _ _ | .stop _ _ => .ok ()
      | .awaitReady _ _ => .ready
      | .drain _ _ => 0
      | .close _ | .drop _ => (), ())
    let r : Request :=
      { method := "POST"
        target := { path := "/apps/app1/jobs".toList }
        headers := [("content-type", Bytes.ofText "application/json"), ("accept", Bytes.ofText attachMediaType),
          ("connection", Bytes.ofText "Upgrade"), ("upgrade", Bytes.ofText "websocket")]
        body := Bytes.ofText "\x7b\"releaseID\":\"rel1\",\"cmd\":[\"sh\"]\x7d"
        live := true }
    let reply := ((Api.answer ⟨Selector.leastLoaded, {}, 30000⟩ r).run answer ()).1
    r.Runs "app1" { releaseId := "rel1", cmd := ["sh"] } ∧ r.accepts attachMediaType = true ∧
      ¬Lists (r.headers.lines "upgrade") (IsWord attachProtocol) ∧ reply.status = 101 ∧ ("upgrade", attachProtocol) ∈ reply.headers := by
  intro answer r reply
  have hread : (readNewJob r).toOption = some { releaseId := "rel1", cmd := ["sh"] } := by decide +kernel
  have hjob : readNewJob r = .ok { releaseId := "rel1", cmd := ["sh"] } := by
    cases h : readNewJob r with
    | error reply => rw [h] at hread; cases hread
    | ok new => rw [h] at hread; exact congrArg _ (Option.some.inj hread)
  have hruns : r.Runs "app1" { releaseId := "rel1", cmd := ["sh"] } :=
    ⟨rfl, ⟨"app1".toList, by decide +kernel, by decide +kernel⟩, hjob⟩
  have hinteractive : r.accepts attachMediaType = true := by decide +kernel
  have hcan : r.canSwitch = true := by decide +kernel
  have hother : ¬Lists (r.headers.lines "upgrade") (IsWord attachProtocol) := by
    rw [← listsWord_iff (by simp [attachProtocol])]
    decide +kernel
  obtain ⟨-, -, hfound, -⟩ := switch_of_interactive_run hruns hinteractive ⟨Selector.leastLoaded, {}, 30000⟩ answer ()
  obtain ⟨-, hstatus, hstream⟩ := hfound hcan { id := "app1", name := "web" } rfl
  have hcame : ((runJob Selector.leastLoaded {} { id := "app1", name := "web" } { releaseId := "rel1", cmd := ["sh"] } true).run answer ()).1 =
      .ok (.attached ⟨⟨"h", "j"⟩, ⟨0, false, false⟩, ⟨"h", 0⟩⟩) := rfl
  exact ⟨hruns, hinteractive, hother, hstatus.mpr ⟨_, hcame⟩, (hstream _ hcame).1⟩

end Api

end JobPlane.Http
