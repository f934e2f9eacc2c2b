import JobPlane.Log.Mux
import JobPlane.Proofs.Log.Records
import JobPlane.Proofs.Moves
import JobPlane.Proofs.Stream.Sink
import JobPlane.Proofs.TextMap

/-!
# Tasks that share a sink

Any number of tasks share one sink through handles that are opened, cloned and dropped. A task asks for one call at a time, gets the sink
when nobody has it, and keeps it until its call is over; the sink takes what is written in portions of any size, up to a limit if it has
one. A call that got the sink ends as one that is carried out at once (`Sharing.exists_run_call`). Which calls there are is a matter of the
schedule alone (`Sharing.requests`). `Sharing.frames_in_turn` says what is in the sink after any schedule: one frame for each call, in the
order in which the calls got the sink.

A sink can refuse bytes that are written, but flushes and closes at once, as every writing end here does.
-/

namespace JobPlane.Log

/-! ## Frames -/

namespace MuxCall

/-- All that is written for a call. -/
def frame (e : Encoding) (c : MuxCall) : Bytes := (c.pieces e).flatten

/-- What a call carries where frames are the bytes as they are. -/
def chunk : MuxCall → Bytes
  | .write _ chunk => chunk
  | .finish | .abort => []

/-- What a call says where frames are records. -/
def records : MuxCall → List Record
  | .write name chunk => [.piece name (Utf8.lossy chunk)]
  | .finish => [.complete]
  | .abort => []

/-- The frame of a call among bytes as they are. -/
theorem frame_raw (c : MuxCall) : c.frame .raw = c.chunk := by
  cases c <;> simp [frame, pieces, chunk]

/-- The frame of a call among records. -/
theorem frame_events (c : MuxCall) : c.frame .events = c.records.flatMap Record.bytes := by
  cases c with
  | write name chunk => simpa [frame, pieces, records] using flatten_recordPieces name chunk
  | finish => simp [frame, pieces, records, Record.bytes]
  | abort => rfl

end MuxCall

/-! ## Handles -/

namespace MuxDesk

/-- A handle that is given up has no stream, and all others have the one they had. -/
theorem streamOf_release (d : MuxDesk) (handle h : String) :
    (d.release handle).streamOf h = if h = handle then none else d.streamOf h := by
  show (d.handles.filter (·.1 != handle)).lookup h = if h = handle then none else d.handles.lookup h
  induction d.handles with
  | nil => simp
  | cons x xs ih =>
    obtain ⟨label, name⟩ := x
    by_cases hlabel : label = handle
    · rw [List.filter_cons_of_neg (by simp [hlabel]), ih, TextMap.lookup_cons_eq_ite, hlabel]
      split_ifs <;> rfl
    · rw [List.filter_cons_of_pos (by simp [hlabel]), TextMap.lookup_cons_eq_ite, TextMap.lookup_cons_eq_ite, ih]
      by_cases hh : h = label
      · simp [hh, hlabel]
      · simp [hh]

/-- A handle that is added has the stream that it is for, and all others have the one they had. -/
theorem streamOf_bind (d : MuxDesk) (handle name h : String) :
    (d.bind handle name).streamOf h = if h = handle then some name else d.streamOf h := by
  have hkept : (d.handles.filter (·.1 != handle)).lookup h = _ := d.streamOf_release handle h
  show ((handle, name) :: d.handles.filter (·.1 != handle)).lookup h = _
  rw [TextMap.lookup_cons_eq_ite, hkept]
  split_ifs <;> rfl

end MuxDesk

/-! ## The system -/

/-- A shared sink with the tasks that use it. -/
structure Sharing (κ : Type) where
  desk : MuxDesk
  mux : Mux κ
  /-- The call that a task waits with, if it does. -/
  waiting : κ → Option MuxCall := fun _ => none
  /-- The calls in the order in which they were asked for. -/
  asked : List (κ × MuxCall) := []
  /-- The calls in the order in which they got the sink. -/
  taken : List (κ × MuxCall) := []
  /-- The calls that are over, with how they ended. -/
  settled : List (κ × MuxCall × Except StreamError Unit) := []

namespace Sharing

variable {κ : Type} [DecidableEq κ]

/-- A sink that nobody has used yet, with its limit and the portions that it takes. A byte goes to a place once only, so that portions by
the place where they begin are portions of any size. -/
def fresh (κ : Type) (encoding : Encoding) (limit : Option Nat) (portion : Nat → Option Nat) : Sharing κ :=
  { desk := { encoding, sink := { limit, portion } }, mux := { encoding } }

/-- What happens around a shared sink. -/
inductive Move (κ : Type)
  /-- A handle is opened for a stream of some name. -/
  | bind (handle name : String)
  | clone (handle new : String)
  | drop (handle : String)
  /-- A task asks for a chunk to be written by a handle. -/
  | write (who : κ) (handle : String) (chunk : Bytes)
  /-- A task asks for the sink to be closed. -/
  | finish (who : κ)
  | abort (who : κ)
  /-- A task that waits gets the sink. -/
  | take (who : κ)
  /-- The call that has the sink goes on by a portion. -/
  | advance

/-- A task asks for a call, unless it still has one. -/
def ask (s : Sharing κ) (who : κ) (call : MuxCall) : Option (Sharing κ) :=
  if s.waiting who = none ∧ ∀ held ∈ s.mux.holder, held.1 ≠ who then
    some { s with waiting := fun k => if k = who then some call else s.waiting k, asked := s.asked ++ [(who, call)] }
  else none

/-- Makes a move, where it is possible. -/
def step (s : Sharing κ) : Move κ → Option (Sharing κ)
  | .bind handle name => some { s with desk := s.desk.bind handle name }
  | .clone handle new => (s.desk.streamOf handle).map fun name => { s with desk := s.desk.bind new name }
  | .drop handle => some { s with desk := s.desk.release handle }
  | .write who handle chunk => (s.desk.streamOf handle).bind fun name => s.ask who (.write name chunk)
  | .finish who => s.ask who .finish
  | .abort who => s.ask who .abort
  | .take who =>
    (s.waiting who).bind fun call => (s.mux.acquire who call).map fun mux =>
      { s with mux, waiting := fun k => if k = who then none else s.waiting k, taken := s.taken ++ [(who, call)] }
  | .advance =>
    (s.mux.advance s.desk.sink).map fun p =>
      { s with mux := p.mux, desk := { s.desk with sink := p.sink }, settled := s.settled ++ p.ended.toList }

/-! ## What a schedule asks for -/

section

omit [DecidableEq κ]

/-- The names that handles have after a move. -/
def rename (names : String → Option String) : Move κ → String → Option String
  | .bind handle name => fun h => if h = handle then some name else names h
  | .clone handle new => fun h => if h = new then names handle else names h
  | .drop handle => fun h => if h = handle then none else names h
  | _ => names

/-- The call that a move asks for, with the task that does. A chunk goes under the name that its handle has at that moment. -/
def request (names : String → Option String) : Move κ → Option (κ × MuxCall)
  | .write who handle chunk => (names handle).map fun name => (who, .write name chunk)
  | .finish who => some (who, .finish)
  | .abort who => some (who, .abort)
  | _ => none

/-- The calls that a schedule asks for, where handles have some names at first. -/
def requests (names : String → Option String) : List (Move κ) → List (κ × MuxCall)
  | [] => []
  | m :: ms => (request names m).toList ++ requests (rename names m) ms

/-- The task that gets the sink by a move. -/
def taker : Move κ → Option κ
  | .take who => some who
  | _ => none

end

/-- What a move changes. -/
inductive Stepped (s : Sharing κ) : Move κ → Sharing κ → Prop
  /-- A handle is opened or given up. -/
  | handles {m : Move κ} {handles : List (String × String)} (hrequest : request s.desk.streamOf m = none) (htaker : taker m = none)
      (hnames : MuxDesk.streamOf { s.desk with handles } = rename s.desk.streamOf m) :
      Stepped s m { s with desk := { s.desk with handles } }
  /-- A task that has no call asks for one. -/
  | asks {m : Move κ} {who : κ} {call : MuxCall} (hrequest : request s.desk.streamOf m = some (who, call)) (htaker : taker m = none)
      (hnames : s.desk.streamOf = rename s.desk.streamOf m) (hidle : s.waiting who = none) :
      Stepped s m { s with waiting := fun k => if k = who then some call else s.waiting k, asked := s.asked ++ [(who, call)] }
  /-- A task that waits gets the sink, which is free. -/
  | takes {who : κ} {call : MuxCall} (hwaiting : s.waiting who = some call) (hfree : s.mux.holder = none) :
      Stepped s (.take who)
        { s with
          mux := { s.mux with holder := some (who, call, call.pieces s.mux.encoding) }
          waiting := fun k => if k = who then none else s.waiting k
          taken := s.taken ++ [(who, call)] }
  /-- The call that has the sink goes on. -/
  | goesOn {t : Mux.Progress κ Sink} (ht : s.mux.advance s.desk.sink = some t) :
      Stepped s .advance { s with mux := t.mux, desk := { s.desk with sink := t.sink }, settled := s.settled ++ t.ended.toList }

variable {s s' : Sharing κ} {m : Move κ}

/-- A move that asks for a call, where that is possible. -/
theorem stepped_of_ask {who : κ} {call : MuxCall} (hrequest : request s.desk.streamOf m = some (who, call)) (htaker : taker m = none)
    (hnames : s.desk.streamOf = rename s.desk.streamOf m) (h : s.ask who call = some s') : Stepped s m s' := by
  unfold ask at h
  split at h
  · rename_i hidle
    cases h
    exact .asks hrequest htaker hnames hidle.1
  · cases h

/-- What every move that is possible changes. -/
theorem stepped_of_step (h : s.step m = some s') : Stepped s m s' := by
  cases m with
  | bind handle name =>
    cases h
    exact .handles rfl rfl (funext fun h => MuxDesk.streamOf_bind s.desk handle name h)
  | clone handle new =>
    obtain ⟨name, hname, rfl⟩ := Option.map_eq_some_iff.mp h
    refine .handles rfl rfl (funext fun h => ?_)
    rw [rename, hname]
    exact MuxDesk.streamOf_bind s.desk new name h
  | drop handle =>
    cases h
    exact .handles rfl rfl (funext fun h => MuxDesk.streamOf_release s.desk handle h)
  | write who handle chunk =>
    obtain ⟨name, hname, hask⟩ := Option.bind_eq_some_iff.mp h
    exact stepped_of_ask (by simp [request, hname]) rfl rfl hask
  | finish who => exact stepped_of_ask rfl rfl rfl h
  | abort who => exact stepped_of_ask rfl rfl rfl h
  | take who =>
    obtain ⟨call, hwaiting, htake⟩ := Option.bind_eq_some_iff.mp h
    obtain ⟨mux, hacquire, rfl⟩ := Option.map_eq_some_iff.mp htake
    obtain ⟨hfree, rfl⟩ := Mux.acquire_eq_some.mp hacquire
    exact .takes hwaiting hfree
  | advance =>
    obtain ⟨t, ht, rfl⟩ := Option.map_eq_some_iff.mp h
    exact .goesOn ht

/-! ## What the holder's move comes to -/

/-- The moves of a call that has a sink, told apart by what they do. -/
inductive Turn (m : Mux κ) (s : Sink) : Mux.Progress κ Sink → Prop
  /-- The call is over. -/
  | done {who : κ} {call : MuxCall} (hm : m.holder = some (who, call, [])) :
      Turn m s { mux := { m with holder := none }, sink := if call.closes then Writable.finish s else s,
                 ended := some (who, call, .ok ()) }
  /-- A piece is written in full. -/
  | pass {who : κ} {call : MuxCall} {ps : List Bytes} (hm : m.holder = some (who, call, [] :: ps)) :
      Turn m s { mux := { m with holder := some (who, call, ps) }, sink := s }
  /-- The sink is full. -/
  | refused {who : κ} {call : MuxCall} {p : Bytes} {ps : List Bytes} {l : Nat} (hm : m.holder = some (who, call, p :: ps)) (hne : p ≠ [])
      (hl : s.limit = some l) (hfull : l ≤ s.bytes.length) :
      Turn m s { mux := { m with holder := none }, sink := s, ended := some (who, call, .error .sinkFull) }
  /-- The sink takes a portion. -/
  | gave {who : κ} {call : MuxCall} {p : Bytes} {ps : List Bytes} {n : Nat} (hm : m.holder = some (who, call, p :: ps)) (hpos : 0 < n)
      (hle : n ≤ p.length) (hroom : ∀ l, s.limit = some l → s.bytes.length + n ≤ l) :
      Turn m s { mux := { m with holder := some (who, call, p.drop n :: ps) }, sink := { s with written := s.written ++ p.take n } }

omit [DecidableEq κ] in
/-- Every move of a call that has a sink is a turn. -/
theorem turn_of_advance {m : Mux κ} {s : Sink} {p : Mux.Progress κ Sink} (hportion : ∀ k, s.portion k ≠ some 0)
    (h : m.advance s = some p) : Turn m s p := by
  unfold Mux.advance at h
  split at h
  · cases h
  · rename_i who call hm
    cases h
    exact .done hm
  · rename_i who call ps hm
    cases h
    exact .pass hm
  · rename_i who call p ps hnil hm
    have hne : p ≠ [] := by
      rintro rfl
      exact hnil rfl
    rcases Sink.write_cases hportion hne with ⟨l, hl, hfull, hwrite⟩ | ⟨n, hwrite, hpos, hle, hroom⟩
    · have hwritable : Writable.write p s = (.failed .sinkFull, s) := hwrite
      rw [hwritable] at h
      cases h
      exact .refused hm hne hl hfull
    · have hwritable : Writable.write p s = (.took n, { s with written := s.written ++ p.take n }) := hwrite
      rw [hwritable] at h
      cases h
      exact .gave hm hpos hle hroom

/-! ## What is in the sink -/

section

omit [DecidableEq κ]

variable {e : Encoding} {limit : Option Nat} {settled : List (κ × MuxCall × Except StreamError Unit)}

/-- The frames of calls, one after another. -/
def frames (e : Encoding) (calls : List (κ × MuxCall)) : Bytes := calls.flatMap (·.2.frame e)

/-- A call that is over, but for how it ended. -/
def called (x : κ × MuxCall × Except StreamError Unit) : κ × MuxCall := (x.1, x.2.1)

/-- The frames of some calls and of one more. -/
theorem frames_concat (x : κ × MuxCall × Except StreamError Unit) :
    frames e ((settled ++ [x]).map called) = frames e (settled.map called) ++ x.2.1.frame e := by
  simp [frames, called]

/-- The call that has the sink, if there is one, got it after all that are over, and a part of its frame is written. -/
inductive Place (e : Encoding) (settled taken : List (κ × MuxCall)) : Option (κ × MuxCall × List Bytes) → Bytes → Prop
  | free (htaken : taken = settled) : Place e settled taken none []
  | held {who : κ} {call : MuxCall} {rest : List Bytes} {part : Bytes} (htaken : taken = settled ++ [(who, call)])
      (hframe : part ++ rest.flatten = call.frame e) : Place e settled taken (some (who, call, rest)) part

/-- A call ends well exactly if its frame finds room behind those of all that were over before. -/
def Judged (e : Encoding) (limit : Option Nat) (settled : List (κ × MuxCall × Except StreamError Unit)) : Prop :=
  ∀ before x after, settled = before ++ x :: after →
    (x.2.2 = .ok () ↔ Sink.Fits limit (frames e (before.map called)).length (x.2.1.frame e).length)

/-- One more call that ended as it had to. -/
theorem Judged.concat {x : κ × MuxCall × Except StreamError Unit} (h : Judged e limit settled)
    (hx : x.2.2 = .ok () ↔ Sink.Fits limit (frames e (settled.map called)).length (x.2.1.frame e).length) :
    Judged e limit (settled ++ [x]) := by
  intro before y after heq
  rcases List.eq_nil_or_concat' after with rfl | ⟨after, z, rfl⟩
  · obtain ⟨rfl, hlast⟩ := List.append_inj' heq rfl
    cases hlast
    exact hx
  · rw [← List.cons_append, ← List.append_assoc] at heq
    exact h before y after (List.append_inj' heq rfl).1

/-- Where all calls ended well, all their frames are held. -/
theorem Judged.upTo_eq (h : Judged e limit settled) (hok : ∀ x ∈ settled, x.2.2 = .ok ()) :
    Sink.upTo limit (frames e (settled.map called)) = frames e (settled.map called) := by
  have hfits : ∀ l, limit = some l → (frames e (settled.map called)).length ≤ l := by
    intro l hl
    induction settled using List.reverseRecOn with
    | nil => exact Nat.zero_le l
    | append_singleton before x ih =>
      have hbefore := ih (fun a y b hab => h a y (b ++ [x]) (by rw [hab]; simp)) fun y hy => hok y (by simp [hy])
      have hx := (h before x [] rfl).mp (hok x (by simp)) l hl
      rw [frames_concat, List.length_append]
      omega
  exact Sink.upTo_eq_self fun l hl => Or.inr (hfits l hl)

/-- What holds of a shared sink at any time: it holds the frames of the calls that are over and the part of a frame that is written, as
far as its limit goes. -/
structure Orderly (e : Encoding) (limit : Option Nat) (s : Sharing κ) : Prop where
  encoding_eq : s.mux.encoding = e
  desk_eq : s.desk.encoding = e
  limit_eq : s.desk.sink.limit = limit
  portion_ne : ∀ k, s.desk.sink.portion k ≠ some 0
  judged : Judged e limit s.settled
  written : ∃ part, Place e (s.settled.map called) s.taken s.mux.holder part ∧
    s.desk.sink.bytes = Sink.upTo limit (frames e (s.settled.map called) ++ part) ∧
    Sink.Fits limit (frames e (s.settled.map called)).length part.length

namespace Orderly

/-- Nothing is in a sink that nobody has used. -/
theorem fresh {portion : Nat → Option Nat} (hportion : ∀ k, portion k ≠ some 0) :
    Orderly e limit (Sharing.fresh κ e limit portion) where
  encoding_eq := rfl
  desk_eq := rfl
  limit_eq := rfl
  portion_ne := hportion
  judged := by
    intro before x after h
    simp [Sharing.fresh] at h
  written := by
    refine ⟨[], .free rfl, ?_, fun _ _ => Nat.zero_le _⟩
    cases limit <;> simp [Sharing.fresh, Sink.bytes, Sink.upTo, frames]

/-- A call that gets the sink has written nothing of its frame. -/
theorem take (h : Orderly e limit s) (hfree : s.mux.holder = none) (who : κ) (call : MuxCall) (waiting : κ → Option MuxCall) :
    Orderly e limit
      { s with
        mux := { s.mux with holder := some (who, call, call.pieces s.mux.encoding) }
        waiting
        taken := s.taken ++ [(who, call)] } := by
  obtain ⟨part, hplace, hbytes, hfits⟩ := h.written
  rw [hfree] at hplace
  cases hplace with
  | free htaken =>
    refine { h with written := ⟨[], .held ?_ ?_, hbytes, hfits⟩ }
    · rw [htaken]
    · rw [List.nil_append, h.encoding_eq]
      rfl

variable {who : κ} {call : MuxCall} {p : Bytes} {ps : List Bytes}

/-- A call moves on to its next piece. -/
theorem pass (h : Orderly e limit s) (hm : s.mux.holder = some (who, call, [] :: ps)) :
    Orderly e limit { s with mux := { s.mux with holder := some (who, call, ps) } } := by
  obtain ⟨part, hplace, hwritten⟩ := h.written
  rw [hm] at hplace
  cases hplace with
  | held htaken hframe => exact { h with written := ⟨part, .held htaken hframe, hwritten⟩ }

/-- A call moves on by a portion. -/
theorem gave {n : Nat} (h : Orderly e limit s) (hm : s.mux.holder = some (who, call, p :: ps)) (hpos : 0 < n) (hle : n ≤ p.length)
    (hroom : ∀ l, s.desk.sink.limit = some l → s.desk.sink.bytes.length + n ≤ l) :
    Orderly e limit
      { s with
        mux := { s.mux with holder := some (who, call, p.drop n :: ps) }
        desk := { s.desk with sink := { s.desk.sink with written := s.desk.sink.written ++ p.take n } } } := by
  obtain ⟨part, hplace, hbytes, hfits⟩ := h.written
  rw [h.limit_eq] at hroom
  rw [hm] at hplace
  cases hplace with
  | held htaken hframe =>
    -- there is room, so that what was written so far is there in full
    have hfull : s.desk.sink.bytes = frames e (s.settled.map called) ++ part := by
      rw [hbytes]
      refine Sink.upTo_eq_self fun l hl => Or.inl ?_
      rw [← hbytes]
      have := hroom l hl
      omega
    have hlength : (p.take n).length = n := by rw [List.length_take, Nat.min_eq_left hle]
    have hless : ∀ l, limit = some l → (frames e (s.settled.map called)).length + part.length + n ≤ l := by
      intro l hl
      have := hroom l hl
      rwa [hfull, List.length_append] at this
    have hmore : Sink.Fits limit (frames e (s.settled.map called)).length (part ++ p.take n).length := by
      intro l hl
      rw [List.length_append, hlength]
      have := hless l hl
      omega
    refine { h with written := ⟨part ++ p.take n, .held htaken ?_, ?_, hmore⟩ }
    · rw [← hframe, List.flatten_cons, List.flatten_cons, List.append_assoc part, ← List.append_assoc (List.take n p),
        List.take_append_drop]
    · have hall : (frames e (s.settled.map called) ++ (part ++ p.take n)).length =
          (frames e (s.settled.map called)).length + part.length + n := by
        rw [List.length_append, List.length_append, hlength, Nat.add_assoc]
      rw [Sink.upTo_eq_self fun l hl => Or.inr (hall ▸ hless l hl), ← List.append_assoc, ← hfull]
      simp [Sink.bytes]

/-- A call is over because its frame is written. -/
theorem done (h : Orderly e limit s) (hm : s.mux.holder = some (who, call, [])) {t : Sink} (ht : t.bytes = s.desk.sink.bytes)
    (hlimit : t.limit = s.desk.sink.limit) (hportion : t.portion = s.desk.sink.portion) :
    Orderly e limit
      { s with
        mux := { s.mux with holder := none }
        desk := { s.desk with sink := t }
        settled := s.settled ++ [(who, call, .ok ())] } := by
  obtain ⟨part, hplace, hbytes, hfits⟩ := h.written
  rw [hm] at hplace
  cases hplace with
  | held htaken hframe =>
    rw [List.flatten_nil, List.append_nil] at hframe
    subst hframe
    refine { h with limit_eq := hlimit.trans h.limit_eq, portion_ne := ?_, judged := ?_,
                    written := ⟨[], .free ?_, ?_, fun _ _ => Nat.zero_le _⟩ }
    · intro k
      rw [hportion]
      exact h.portion_ne k
    · exact h.judged.concat ⟨fun _ => hfits, fun _ => rfl⟩
    · rw [htaken, List.map_append]
      rfl
    · rw [List.append_nil, frames_concat, ← hbytes]
      exact ht

/-- A call is over because the sink has no room for its frame. -/
theorem refused {l : Nat} (h : Orderly e limit s) (hm : s.mux.holder = some (who, call, p :: ps)) (hne : p ≠ [])
    (hl : s.desk.sink.limit = some l) (hfull : l ≤ s.desk.sink.bytes.length) :
    Orderly e limit
      { s with
        mux := { s.mux with holder := none }
        settled := s.settled ++ [(who, call, .error .sinkFull)] } := by
  obtain ⟨part, hplace, hbytes, hfits⟩ := h.written
  rw [hm] at hplace
  obtain rfl : limit = some l := h.limit_eq.symm.trans hl
  cases hplace with
  | held htaken hframe =>
    have hreached : l ≤ (frames e (s.settled.map called) ++ part).length := by
      rw [hbytes, Sink.upTo, List.length_take] at hfull
      omega
    have hlong : ¬Sink.Fits (some l) (frames e (s.settled.map called)).length (call.frame e).length := by
      intro hfit
      have hle := hfit l rfl
      have hpos := List.length_pos_iff.mpr hne
      rw [← hframe, List.flatten_cons, List.length_append, List.length_append] at hle
      rw [List.length_append] at hreached
      omega
    refine { h with judged := ?_, written := ⟨[], .free ?_, ?_, fun _ _ => Nat.zero_le _⟩ }
    · refine h.judged.concat ⟨fun hok => ?_, fun hfit => absurd hfit hlong⟩
      cases hok
    · rw [htaken, List.map_append]
      rfl
    · rw [List.append_nil, frames_concat, ← hframe, ← List.append_assoc, Sink.upTo_append_of_full hreached]
      exact hbytes

/-- A turn of the call that has the sink keeps it in order. -/
theorem turn {t : Mux.Progress κ Sink} (h : Orderly e limit s) (ht : Turn s.mux s.desk.sink t) :
    Orderly e limit { s with mux := t.mux, desk := { s.desk with sink := t.sink }, settled := s.settled ++ t.ended.toList } := by
  cases ht with
  | done hm =>
    refine h.done hm ?_ ?_ ?_
    · split <;> rfl
    · split <;> rfl
    · split <;> rfl
  | pass hm => simpa using h.pass hm
  | refused hm hne hl hfull => exact h.refused hm hne hl hfull
  | gave hm hpos hle hroom => simpa using h.gave hm hpos hle hroom

end Orderly

end

variable {e : Encoding} {limit : Option Nat} {portion : Nat → Option Nat} {moves : List (Move κ)}

/-- Every move keeps a shared sink in order. -/
theorem Orderly.step (h : Orderly e limit s) (hs : s.step m = some s') : Orderly e limit s' := by
  cases stepped_of_step hs with
  | handles => exact { h with }
  | asks => exact { h with }
  | takes hwaiting hfree => exact h.take hfree _ _ _
  | goesOn ht => exact h.turn (turn_of_advance h.portion_ne ht)

/-! ## In which order calls get the sink -/

/-- The calls of each task get the sink in the order in which it asks for them, and it waits with at most one. -/
def InOwnOrder (s : Sharing κ) : Prop :=
  ∀ k, s.asked.filter (·.1 = k) = s.taken.filter (·.1 = k) ++ (s.waiting k).toList.map (k, ·)

/-- Every move keeps the calls of each task in order. -/
theorem InOwnOrder.step (h : InOwnOrder s) (hs : s.step m = some s') : InOwnOrder s' := by
  cases stepped_of_step hs with
  | handles => exact h
  | goesOn => exact h
  | asks hrequest htaker hnames hidle =>
    rename_i who call
    intro k
    have hk := h k
    by_cases hwho : k = who
    · subst hwho
      rw [hidle] at hk
      simp [hk]
    · have hother : ¬who = k := fun heq => hwho heq.symm
      simpa [hwho, hother] using hk
  | takes hwaiting hfree =>
    rename_i who call
    intro k
    have hk := h k
    by_cases hwho : k = who
    · subst hwho
      rw [hwaiting] at hk
      simpa using hk
    · have hother : ¬who = k := fun heq => hwho heq.symm
      simpa [hwho, hother] using hk

/-- A move asks for what the schedule says, changes the names of handles as it says and gives the sink to whom it says. -/
theorem asks_step (hs : s.step m = some s') :
    s'.asked = s.asked ++ (request s.desk.streamOf m).toList ∧ s'.desk.streamOf = rename s.desk.streamOf m ∧
      s'.taken.map (·.1) = s.taken.map (·.1) ++ (taker m).toList := by
  cases stepped_of_step hs with
  | handles hrequest htaker hnames => exact ⟨by simp [hrequest], hnames, by simp [htaker]⟩
  | asks hrequest htaker hnames hidle => exact ⟨by simp [hrequest], hnames, by simp [htaker]⟩
  | takes hwaiting hfree => exact ⟨by simp [request], rfl, by simp [taker]⟩
  | goesOn ht => exact ⟨by simp [request], rfl, by simp [taker]⟩

/-- A schedule asks for the calls that it says, leaves the names of handles that it says and gives the sink to whom it says, in order. -/
theorem asks_follow (hs : follow step s moves = some s') :
    s'.asked = s.asked ++ requests s.desk.streamOf moves ∧ s'.desk.streamOf = moves.foldl rename s.desk.streamOf ∧
      s'.taken.map (·.1) = s.taken.map (·.1) ++ moves.filterMap taker := by
  induction moves generalizing s with
  | nil =>
    cases hs
    simp [requests]
  | cons m ms ih =>
    obtain ⟨t, hm, ht⟩ := follow_cons_eq_some.mp hs
    obtain ⟨hasked, hnames, htaken⟩ := asks_step hm
    obtain ⟨hasked', hnames', htaken'⟩ := ih ht
    rw [hnames] at hasked' hnames'
    refine ⟨?_, hnames', ?_⟩
    · rw [hasked', hasked, requests, List.append_assoc]
    · rw [htaken', htaken, List.append_assoc, List.filterMap_cons]
      cases taker m <;> rfl

/-! ## Calls at once -/

/-- A call that has the sink, with what it still has to write, before what was over before it. -/
def holding (s : Sharing κ) (who : κ) (call : MuxCall) (rest : List Bytes) (sink : Sink) : Sharing κ :=
  { s with mux := { s.mux with holder := some (who, call, rest) }, desk := { s.desk with sink } }

/-- A call that is over. -/
def ended (s : Sharing κ) (who : κ) (call : MuxCall) (r : Except StreamError Unit) (sink : Sink) : Sharing κ :=
  { s with mux := { s.mux with holder := none }, desk := { s.desk with sink }, settled := s.settled ++ [(who, call, r)] }

/-- A call writes a piece by its moves as the sink is written to at once. -/
theorem exists_run_piece (s : Sharing κ) (who : κ) (call : MuxCall) (p : Bytes) (ps : List Bytes) (sink : Sink) :
    ∃ n, follow step (s.holding who call (p :: ps) sink) (List.replicate n .advance) = some
      (match sink.writeAll p with
        | (.ok (), t) => s.holding who call ps t
        | (.error e, t) => s.ended who call (.error e) t) := by
  -- one portion at a time; what is left after a portion is shorter
  induction hlength : p.length using Nat.strongRecOn generalizing p sink with
  | ind length ih =>
    cases p with
    | nil =>
      refine ⟨1, ?_⟩
      rw [Sink.writeAll]
      simp [follow, step, holding, Mux.advance]
    | cons b rest =>
      have hwrite : Writable.write (b :: rest) sink =
          if sink.accepts (rest.length + 1) = 0 then (.failed .sinkFull, sink)
          else (.took (sink.accepts (rest.length + 1)),
            { sink with written := sink.written ++ (b :: rest).take (sink.accepts (rest.length + 1)) }) := rfl
      rw [Sink.writeAll]
      by_cases hnone : sink.accepts (rest.length + 1) = 0
      · rw [if_pos hnone] at hwrite
        refine ⟨1, ?_⟩
        simp [follow, step, holding, Mux.advance, hwrite, hnone, ended]
      · rw [if_neg hnone] at hwrite
        obtain ⟨n, hn⟩ := ih ((b :: rest).drop (sink.accepts (rest.length + 1))).length
          (by rw [← hlength, List.length_drop, List.length_cons]; omega) _
          { sink with written := sink.written ++ (b :: rest).take (sink.accepts (rest.length + 1)) } rfl
        refine ⟨n + 1, ?_⟩
        rw [if_neg hnone, ← hn, List.replicate_succ]
        simp [follow, step, holding, Mux.advance, hwrite]

/-- A call writes its pieces by its moves as they are written at once, and is over then. -/
theorem exists_run_pieces (s : Sharing κ) (who : κ) (call : MuxCall) (ps : List Bytes) (sink : Sink) :
    ∃ n, follow step (s.holding who call ps sink) (List.replicate n .advance) = some
      (match Sink.writePieces ps sink with
        | (.ok (), t) => s.ended who call (.ok ()) (if call.closes then t.finish else t)
        | (.error e, t) => s.ended who call (.error e) t) := by
  induction ps generalizing sink with
  | nil => exact ⟨1, rfl⟩
  | cons p ps ih =>
    obtain ⟨n, hn⟩ := exists_run_piece s who call p ps sink
    rw [Sink.writePieces]
    cases hp : sink.writeAll p with
    | mk r t =>
      rw [hp] at hn
      cases r with
      | error e => exact ⟨n, hn⟩
      | ok u =>
        obtain ⟨m, hm⟩ := ih t
        refine ⟨n + m, ?_⟩
        rw [List.replicate_add]
        exact follow_append_eq_some.mpr ⟨_, hn, hm⟩

/-- A task that gets a free sink ends its call by moves alone as the call is carried out at once. -/
theorem exists_run_call {who : κ} {call : MuxCall} (hfree : s.mux.holder = none) (hwaiting : s.waiting who = some call)
    (hencoding : s.mux.encoding = s.desk.encoding) :
    ∃ n s', follow step s (.take who :: List.replicate n .advance) = some s' ∧ s'.mux.holder = none ∧
      s'.desk = (s.desk.call call).2 ∧ s'.settled = s.settled ++ [(who, call, (s.desk.call call).1)] := by
  let t : Sharing κ := { s with
    waiting := fun k => if k = who then none else s.waiting k
    taken := s.taken ++ [(who, call)] }
  have htake : s.step (.take who) = some (t.holding who call (call.pieces s.desk.encoding) s.desk.sink) := by
    simp [step, hwaiting, Mux.acquire, hfree, hencoding, holding, t]
  obtain ⟨n, hn⟩ := exists_run_pieces t who call (call.pieces s.desk.encoding) s.desk.sink
  refine ⟨n, _, follow_cons_eq_some.mpr ⟨_, htake, hn⟩, ?_⟩
  unfold MuxDesk.call MuxCall.perform
  split <;> simp_all [ended, t]

/-- A call that has the sink comes to its end by moves of its own. -/
theorem exists_run_release (s : Sharing κ) : ∃ n s', follow step s (List.replicate n .advance) = some s' ∧ s'.mux.holder = none := by
  cases hheld : s.mux.holder with
  | none => exact ⟨0, s, rfl, hheld⟩
  | some held =>
    obtain ⟨who, call, rest⟩ := held
    have hself : s.holding who call rest s.desk.sink = s := by
      unfold holding
      rw [← hheld]
    obtain ⟨n, hn⟩ := exists_run_pieces s who call rest s.desk.sink
    rw [hself] at hn
    refine ⟨n, _, hn, ?_⟩
    split <;> rfl

/-! ## Frames in turn -/

/-- What is in a sink that takes something wherever there is room, after any schedule of what the tasks do and what the sink takes.
1. The calls that were asked for are those of the schedule, in order, each chunk under the name that the handle has which it is written by.
2. The sink was given to the tasks that the schedule says, in order. The calls of each task get it in the order in which it asked for them,
   and it waits with at most one.
3. The calls got the sink one after another: all but at most one are over.
4. The sink holds the frames of the calls that are over and then a part of the frame of the call that has it, as far as its limit goes.
5. While nobody has the sink, it holds the frames of all calls, in the order in which they got it, as far as its limit goes.
6. A call that is over ended well exactly if its frame found room behind those of the calls before it.
7. Where frames are the bytes as they are, these are the chunks of all calls.
8. Where frames are records, these are the records of all calls. If no call failed, they are read back from what the sink holds, and are
   the only records that have its bytes.
9. A task that neither waits nor has the sink can write by every handle that is alive. The call that has the sink comes to its end; a task
   that waits can have a free sink, and its call ends then as one that is carried out at once. -/
theorem frames_in_turn (hportion : ∀ k, portion k ≠ some 0) (h : follow step (fresh κ e limit portion) moves = some s) :
    s.asked = requests (fun _ => none) moves ∧
    (s.taken.map (·.1) = moves.filterMap taker ∧
      ∀ k, s.asked.filter (·.1 = k) = s.taken.filter (·.1 = k) ++ (s.waiting k).toList.map (k, ·)) ∧
    (s.taken = s.settled.map called ++ s.mux.holder.toList.map fun (who, call, _) => (who, call)) ∧
    (∃ part, (∀ who call rest, s.mux.holder = some (who, call, rest) → part <+: call.frame e) ∧ (s.mux.holder = none → part = []) ∧
      s.desk.sink.bytes = Sink.upTo limit (frames e (s.settled.map called) ++ part)) ∧
    (s.mux.holder = none → s.desk.sink.bytes = Sink.upTo limit (s.taken.flatMap (·.2.frame e))) ∧
    (∀ before who call r after, s.settled = before ++ (who, call, r) :: after →
      (r = .ok () ↔ Sink.Fits limit (frames e (before.map called)).length (call.frame e).length)) ∧
    (e = .raw → s.mux.holder = none → s.desk.sink.bytes = Sink.upTo limit (s.taken.flatMap (·.2.chunk))) ∧
    (e = .events → s.mux.holder = none →
      s.desk.sink.bytes = Sink.upTo limit ((s.taken.flatMap (·.2.records)).flatMap Record.bytes) ∧
      ((∀ x ∈ s.settled, x.2.2 = .ok ()) →
        s.desk.sink.bytes = (s.taken.flatMap (·.2.records)).flatMap Record.bytes ∧
        Record.readAll s.desk.sink.bytes.length s.desk.sink.bytes = some (s.taken.flatMap (·.2.records)) ∧
        ∀ rs, rs.flatMap Record.bytes = s.desk.sink.bytes → rs = s.taken.flatMap (·.2.records))) ∧
    (∀ who handle name chunk, moves.foldl rename (fun _ => none) handle = some name → s.waiting who = none →
      (∀ held ∈ s.mux.holder, held.1 ≠ who) → (s.step (.write who handle chunk)).isSome) ∧
    (∃ n s', follow step s (List.replicate n .advance) = some s' ∧ s'.mux.holder = none) ∧
    (∀ who call, s.waiting who = some call → s.mux.holder = none →
      ∃ n s', follow step s (.take who :: List.replicate n .advance) = some s' ∧ s'.mux.holder = none ∧
        s'.desk = (s.desk.call call).2 ∧ s'.settled = s.settled ++ [(who, call, (s.desk.call call).1)]) := by
  have horderly : Orderly e limit s := follow_keeps h (fun t m t' _ hm ht => ht.step hm) (Orderly.fresh hportion)
  have horder : InOwnOrder s := follow_keeps h (fun t m t' _ hm ht => ht.step hm) fun k => rfl
  obtain ⟨hasked, hnames, htakers⟩ := asks_follow h
  obtain ⟨part, hplace, hbytes, -⟩ := horderly.written
  have hfree : s.mux.holder = none →
      s.desk.sink.bytes = Sink.upTo limit (frames e (s.settled.map called)) ∧ s.taken = s.settled.map called := by
    intro hnone
    rw [hnone] at hplace
    cases hplace with
    | free htaken => exact ⟨by rw [hbytes, List.append_nil], htaken⟩
  refine ⟨hasked, ⟨htakers, horder⟩, ?_, ⟨part, ?_, ?_, hbytes⟩, ?_, ?_, ?_, ?_, ?_, exists_run_release s, ?_⟩
  · generalize s.mux.holder = holder at hplace
    cases hplace with
    | free htaken => simpa using htaken
    | held htaken hframe => exact htaken
  · intro who call rest hheld
    rw [hheld] at hplace
    cases hplace with
    | held htaken hframe => exact ⟨rest.flatten, hframe⟩
  · intro hnone
    rw [hnone] at hplace
    cases hplace
    rfl
  · intro hnone
    obtain ⟨hall, htaken⟩ := hfree hnone
    rw [hall, ← htaken, frames]
  · intro before who call r after hover
    exact horderly.judged before (who, call, r) after hover
  · rintro rfl hnone
    obtain ⟨hall, htaken⟩ := hfree hnone
    rw [hall, ← htaken, frames]
    simp only [MuxCall.frame_raw]
  · rintro rfl hnone
    obtain ⟨hall, htaken⟩ := hfree hnone
    have hframes : frames .events (s.settled.map called) = (s.taken.flatMap (·.2.records)).flatMap Record.bytes := by
      rw [← htaken, frames, List.flatMap_assoc]
      simp only [MuxCall.frame_events]
    refine ⟨by rw [hall, hframes], fun hok => ?_⟩
    have hrecords : s.desk.sink.bytes = (s.taken.flatMap (·.2.records)).flatMap Record.bytes := by
      rw [hall, horderly.judged.upTo_eq hok, hframes]
    refine ⟨hrecords, ?_, fun rs hrs => records_unique (hrs.trans hrecords)⟩
    rw [hrecords]
    exact Record.readAll_bytes (Nat.le_refl _)
  · intro who handle name chunk hname hidle hother
    have hstream : s.desk.streamOf handle = some name := by
      rw [hnames]
      exact hname
    have hask : (s.ask who (.write name chunk)).isSome := by
      rw [ask, if_pos ⟨hidle, hother⟩]
      rfl
    simpa [step, hstream] using hask
  · intro who call hwaiting hnone
    exact exists_run_call hnone hwaiting (horderly.encoding_eq.trans horderly.desk_eq.symm)

/-- Two tasks that write by a handle and by its clone, to a sink that takes two bytes at once and four at all. -/
def crowded : List (Move Bool) :=
  [.bind "a" "stdout", .clone "a" "b", .write true "a" [1, 2, 3], .write false "b" [4, 5], .take false, .advance, .advance, .advance,
   .take true, .advance, .advance, .drop "a", .write false "b" [6]]

/-- Two tasks that write by handles of different names, one of them a clone, what would look like the end of a record; then the log is
complete. The sink takes three bytes at once. -/
def labelled : List (Move Bool) :=
  [.bind "a" "stdout", .bind "b" "std\nerr", .clone "b" "c", .drop "b", .write true "a" [0x22, 0x0A, 0x0A, 0xFF], .write false "c" [0x78],
   .take false] ++ List.replicate 18 .advance ++ [.take true] ++ List.replicate 20 .advance ++ [.finish true, .take true] ++
    List.replicate 9 .advance

/-- Where the sink is full, the call whose frame finds room in part only fails. Where it is not, the records of all calls are read back. -/
theorem frames_in_turn_of_two_tasks :
    (∃ s, follow step (fresh Bool .raw (some 4) fun _ => some 2) crowded = some s ∧
      s.settled = [(false, .write "stdout" [4, 5], .ok ()), (true, .write "stdout" [1, 2, 3], .error .sinkFull)] ∧
      s.desk.sink.bytes = Sink.upTo (some 4) (s.taken.flatMap (·.2.chunk)) ∧ s.desk.sink.bytes = [4, 5, 1, 2] ∧
      ¬Sink.Fits (some 4) (frames .raw [(false, .write "stdout" [4, 5])]).length
        (MuxCall.frame .raw (.write "stdout" [1, 2, 3])).length) ∧
    (∃ s, follow step (fresh Bool .events none fun _ => some 3) labelled = some s ∧
      s.asked = [(true, .write "stdout" [0x22, 0x0A, 0x0A, 0xFF]), (false, .write "std\nerr" [0x78]), (true, .finish)] ∧
      s.taken.map (·.1) = [false, true, true] ∧
      Record.readAll s.desk.sink.bytes.length s.desk.sink.bytes =
        some [.piece "std\nerr" "x", .piece "stdout" "\"\n\n\uFFFD", .complete]) := by
  constructor
  · obtain ⟨s, hs⟩ : ∃ s, follow step (fresh Bool .raw (some 4) fun _ => some 2) crowded = some s := ⟨_, rfl⟩
    obtain ⟨-, -, -, -, -, hresult, hraw, -⟩ := frames_in_turn (fun _ => by simp) hs
    have hseen : s.settled = [(false, .write "stdout" [4, 5], .ok ()), (true, .write "stdout" [1, 2, 3], .error .sinkFull)] ∧
        s.mux.holder = none ∧ s.desk.sink.bytes = [4, 5, 1, 2] := by
      cases hs
      exact ⟨rfl, rfl, rfl⟩
    obtain ⟨hover, hfree, hbytes⟩ := hseen
    have hfails := hresult [(false, .write "stdout" [4, 5], .ok ())] true (.write "stdout" [1, 2, 3]) (.error .sinkFull) [] hover
    refine ⟨s, hs, hover, hraw rfl hfree, hbytes, fun hfits => ?_⟩
    cases hfails.mpr hfits
  · obtain ⟨s, hs, hfree, hover⟩ : ∃ s ∈ follow step (fresh Bool .events none fun _ => some 3) labelled, s.mux.holder = none ∧
        s.settled = [(false, .write "std\nerr" [0x78], .ok ()), (true, .write "stdout" [0x22, 0x0A, 0x0A, 0xFF], .ok ()),
          (true, .finish, .ok ())] := by
      decide +kernel
    obtain ⟨hasked, ⟨htakers, -⟩, hcalls, -, -, -, -, hrecords, -⟩ := frames_in_turn (fun _ => by simp) hs
    obtain ⟨-, hread⟩ := hrecords rfl hfree
    obtain ⟨-, hall, -⟩ := hread (by simp [hover])
    refine ⟨s, hs, hasked.trans (by decide +kernel), htakers.trans (by decide +kernel), hall.trans ?_⟩
    rw [hcalls, hover, hfree]
    decide +kernel

end Sharing

end JobPlane.Log
