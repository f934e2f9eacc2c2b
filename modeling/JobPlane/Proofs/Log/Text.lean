import JobPlane.Proofs.Log.Body
import JobPlane.Proofs.Text.Chunks

/-!
# Text in a log

A copy loop sends each chunk that it reads as one record, with the chunk's bytes read as text by themselves. So what the records of a
stream say depends on where the chunks were cut. `text_of_records` says when it is the text that the job has written: if no chunk ends
inside a character.
-/

namespace JobPlane.Log

/-- The texts that the records of a stream carry. -/
def Record.texts (name : String) (records : List Record) : List String :=
  records.filterMap fun
    | .piece stream text => if stream = name then some text else none
    | .complete => none

/-- The chunks of one stream. -/
def chunksOf (k : OutputKind) (chunks : List (OutputKind × Bytes)) : List Bytes := (chunks.filter fun p => p.1 = k).map (·.2)

/-- One more chunk. -/
theorem chunksOf_concat (k k' : OutputKind) (chunks : List (OutputKind × Bytes)) (chunk : Bytes) :
    chunksOf k' (chunks ++ [(k, chunk)]) = chunksOf k' chunks ++ if k' = k then [chunk] else [] := by
  by_cases h : k' = k
  · simp [chunksOf, h]
  · have h' : k ≠ k' := fun heq => h heq.symm
    simp [chunksOf, h, h']

/-- The chunks of a stream are all that is carried of it. -/
theorem flatten_chunksOf (k : OutputKind) (chunks : List (OutputKind × Bytes)) : (chunksOf k chunks).flatten = carried k chunks := by
  rw [chunksOf, carried, List.flatMap_def]

/-- Different streams have different names. -/
theorem name_injective {k k' : OutputKind} (h : k.name = k'.name) : k = k' := by
  cases k <;> cases k' <;> first | rfl | exact absurd h (by decide)

/-- The texts that the records of chunks carry. -/
theorem texts_records (k : OutputKind) (l : Ledger) (ending : List Record) (hending : ∀ r ∈ ending, r = .complete) :
    Record.texts k.name (l.records ++ ending) = (chunksOf k l.begun).map Utf8.lossy := by
  have hnone : Record.texts k.name ending = [] := by
    refine List.filterMap_eq_nil_iff.mpr fun r hr => ?_
    rw [hending r hr]
  have hrecords : ∀ chunks : List (OutputKind × Bytes),
      Record.texts k.name (chunks.map fun p => .piece p.1.name (Utf8.lossy p.2)) = (chunksOf k chunks).map Utf8.lossy := by
    intro chunks
    induction chunks with
    | nil => rfl
    | cons p chunks ih =>
      simp only [Record.texts, chunksOf] at ih
      by_cases hp : p.1 = k
      · simp [Record.texts, chunksOf, hp, ih]
      · have hname : p.1.name ≠ k.name := fun heq => hp (name_injective heq)
        simp [Record.texts, chunksOf, hp, hname, ih]
  rw [Record.texts, List.filterMap_append, ← Record.texts, ← Record.texts, hnone, List.append_nil, Ledger.records, hrecords]

/-! ## What a copy loop reads -/

/-- The chunk that a forwarder has and has not begun to write. -/
def Forwarder.chunks : Forwarder → List Bytes
  | queued chunk => [chunk]
  | _ => []

/-- The chunk that a forwarder has read with a move. -/
def Forwarder.gained (before after : Forwarder) : List Bytes :=
  match before, after with
  | .reading, .queued chunk => [chunk]
  | _, _ => []

/-- A forwarder that does not move has read nothing. -/
@[simp] theorem Forwarder.gained_self (f : Forwarder) : f.gained f = [] := by
  cases f <;> rfl

open Copying

/-- A forwarder whose call is over has read nothing, and had no chunk any more that was not begun. -/
theorem chunks_release {c : Copying} (hc : Control c) {who : Party} {call : MuxCall} {ps : List Bytes}
    (hm : c.mux.holder = some (who, call, ps)) (r : Except StreamError Unit) (k : OutputKind) :
    ((note { c with mux := { c.mux with holder := none } } (who, call, r)).forwarder k).chunks = (c.forwarder k).chunks ++
      (c.forwarder k).gained ((note { c with mux := { c.mux with holder := none } } (who, call, r)).forwarder k) := by
  cases who with
  | closer => simp [Copying.note]
  | forwarder k' =>
    have hf := hc.writing_of_holder hm
    by_cases hk : k = k'
    · cases r <;> simp [Copying.note, forwarder_setForwarder, Forwarder.chunks, Forwarder.gained, hk, hf]
    · cases r <;> simp [Copying.note, forwarder_setForwarder, hk]

/-- Every chunk that was read is one for which a record was begun, or the forwarder has it. -/
theorem chunks_turn {c c' : Copying} {l : Ledger} {e : Event} (hc : Control c) (ht : c.Turn e c') (k : OutputKind) :
    chunksOf k (l.note e).begun ++ (c'.forwarder k).chunks =
      chunksOf k l.begun ++ (c.forwarder k).chunks ++ (c.forwarder k).gained (c'.forwarder k) := by
  cases ht with
  | pumpRead hs ht => simp [Ledger.note]
  | pumpWrite hs ht => simp [Ledger.note]
  | @readWhole name r f hs hf hr ht =>
    rw [forwarder_setForwarder]
    by_cases hk : k = .stdout
    · rw [if_pos hk, hk, hf]
      unfold Forwarder.take at ht
      split at ht <;> cases ht <;> simp [Ledger.note, Forwarder.chunks, Forwarder.gained]
    · simp [Ledger.note, hk]
  | @readPipe k' bs later hs hf hb hne =>
    rw [forwarder_setForwarder]
    by_cases hk : k = k'
    · simp [Ledger.note, Forwarder.chunks, Forwarder.gained, hk, hf]
    · simp [Ledger.note, hk]
  | @drained k' hs hf hclosed hb =>
    rw [forwarder_setForwarder]
    by_cases hk : k = k'
    · simp [Ledger.note, Forwarder.chunks, Forwarder.gained, hk, hf]
    · simp [Ledger.note, hk]
  | @acquire k' chunk hf hm =>
    rw [forwarder_setForwarder, Ledger.note, chunksOf_concat]
    by_cases hk : k = k'
    · simp [Forwarder.chunks, Forwarder.gained, hk, hf]
    · simp [hk]
  | pass hm => simp [Ledger.note]
  | give hm => simp [Ledger.note]
  | @refuse who call p ps e hm hne => rw [chunks_release hc hm, Ledger.note, List.append_assoc]
  | @done who call hm => rw [chunks_release hc hm, Ledger.note, List.append_assoc]
  | close hc ho hm => simp [Ledger.note]

namespace Delivery

variable {τ : Type} [Writable τ]

/-- The chunks that the copy loop of a stream reads, in the order of a schedule. -/
def chunksRead (k : OutputKind) : Delivery τ → List Move → List Bytes
  | _, [] => []
  | d, m :: ms =>
    match d.step m with
    | none => []
    | some d' => (d.copying.forwarder k).gained (d'.copying.forwarder k) ++ chunksRead k d' ms

/-- The chunks that were read in a schedule are those for which records were begun, and the one that the forwarder has. -/
theorem chunks_follow {tty : Bool} {arrivals : List Arrival} {d d' : Delivery τ} {l : Ledger} {ms : List Move}
    (h : Kept tty arrivals d l) (hd : follow Delivery.step d ms = some d') :
    ∃ l', Kept tty arrivals d' l' ∧ ∀ k, chunksOf k l'.begun ++ (d'.copying.forwarder k).chunks =
      chunksOf k l.begun ++ (d.copying.forwarder k).chunks ++ chunksRead k d ms := by
  induction ms generalizing d l with
  | nil =>
    cases hd
    exact ⟨l, h, fun k => by simp [chunksRead]⟩
  | cons m ms ih =>
    obtain ⟨t, ht, hrest⟩ := follow_cons_eq_some.mp hd
    obtain ⟨e, hturn, hkept⟩ := h.turn ht
    obtain ⟨l', hkept', hchunks⟩ := ih hkept hrest
    refine ⟨l', hkept', fun k => ?_⟩
    rw [hchunks k, chunks_turn h.books.control hturn, chunksRead, ht]
    simp

end Delivery

/-- A copy of framed output that is over has sent each chunk that its loops have read as one record, and these chunks are all that the
job has written. -/
theorem texts_of_follow {τ : Type} [Writable τ] {arrivals : List Arrival} {sink : τ} {moves : List Move} {d : Delivery τ}
    (h : follow Delivery.step (.start false arrivals sink) moves = some d) (hover : d.copying.result.isSome)
    (hr : d.sink.refused = false) :
    ∃ records : List Record, (∀ others, others.flatMap Record.bytes = d.sink.taken ↔ others = records) ∧
      ∀ k, Record.texts k.name records = ((Delivery.start false arrivals sink).chunksRead k moves).map Utf8.lossy ∧
        ((Delivery.start false arrivals sink).chunksRead k moves).flatten =
          Frame.payloads k (Frame.parse (Feed.input arrivals).1).1 := by
  obtain ⟨l, hkept, hchunks⟩ := Delivery.chunks_follow (.start false arrivals sink) h
  obtain ⟨-, hwritten, hrecords⟩ := hkept.records_of_result hr hover
  have hread : ∀ k, (Delivery.start false arrivals sink).chunksRead k moves = chunksOf k l.begun := by
    intro k
    obtain ⟨r, hcopied⟩ := Option.isSome_iff_exists.mp (hkept.books.control.closed hover)
    obtain ⟨p, o, e, -, hstdout, hstderr, -⟩ := outcome_framed hkept.source (hkept.books.control.copied r hcopied)
    have hlast : (d.copying.forwarder k).chunks = [] := by
      cases k
      · rw [hstdout]
        rfl
      · rw [hstderr]
        rfl
    have hfirst : ((Delivery.start false arrivals sink).copying.forwarder k).chunks = [] := by
      cases k <;> rfl
    have hnone : chunksOf k ({} : Ledger).begun = [] := rfl
    have hall := hchunks k
    rw [hlast, hfirst, hnone, List.append_nil, List.nil_append, List.nil_append] at hall
    exact hall.symm
  refine ⟨_, hrecords, fun k => ⟨?_, ?_⟩⟩
  · rw [hread k]
    refine texts_records k l _ fun r hmem => ?_
    split at hmem
    · exact List.mem_singleton.mp hmem
    · cases hmem
  · rw [hread k, flatten_chunksOf]
    exact hwritten k

/-- Chunks that are read one by one, character by character. -/
theorem join_lossy (chunks : List Bytes) (text : String) :
    String.join (chunks.map Utf8.lossy) = text ↔ chunks.flatMap Utf8.lossyChars = text.toList := by
  rw [← String.toList_inj, String.toList_join, List.flatMap_map]
  have hlossy : ∀ bs, (Utf8.lossy bs).toList = Utf8.lossyChars bs := fun bs => String.toList_ofList
  simp only [hlossy]

/-- What the records of a stream say whose job has written a text, in whatever frames, and in whatever order the parts of the copy move,
once the copy is over and if the sink has refused nothing.
1. The bytes that the copy loop of the stream reads, chunk by chunk, are those of the text.
2. The body is made of one sequence of records and no other, and each record of the stream carries one of these chunks, read as text by
   itself.
3. The records say the text exactly if each chunk is the bytes of a text, which is to say that none ends inside a character.
4. A text of characters of one byte each is said whatever the chunks are. -/
theorem text_of_records {τ : Type} [Writable τ] {arrivals : List Arrival} {sink : τ} {moves : List Move} {d : Delivery τ}
    (h : follow Delivery.step (.start false arrivals sink) moves = some d) (hover : d.copying.result.isSome)
    (hr : d.sink.refused = false) {k : OutputKind} {text : String}
    (htext : Frame.payloads k (Frame.parse (Feed.input arrivals).1).1 = Bytes.ofText text) :
    ((Delivery.start false arrivals sink).chunksRead k moves).flatten = Bytes.ofText text ∧
      ∃ records : List Record, (∀ others, others.flatMap Record.bytes = d.sink.taken ↔ others = records) ∧
        Record.texts k.name records = ((Delivery.start false arrivals sink).chunksRead k moves).map Utf8.lossy ∧
        (String.join (Record.texts k.name records) = text ↔
          ∀ chunk ∈ (Delivery.start false arrivals sink).chunksRead k moves, ∃ part, chunk = Bytes.ofText part) ∧
        ((∀ c ∈ text.toList, c.toNat < 0x80) → String.join (Record.texts k.name records) = text) := by
  obtain ⟨records, hrecords, htexts⟩ := texts_of_follow h hover hr
  obtain ⟨hsaid, hall⟩ := htexts k
  rw [htext] at hall
  have hwhole : String.join (Record.texts k.name records) = text ↔
      ∀ chunk ∈ (Delivery.start false arrivals sink).chunksRead k moves, ∃ part, chunk = Bytes.ofChars part := by
    rw [hsaid, join_lossy]
    exact Utf8.flatMap_lossyChars_iff hall
  refine ⟨hall, records, hrecords, hsaid, hwhole.trans ?_, fun hshort => hwhole.mpr ?_⟩
  · refine forall_congr' fun chunk => imp_congr_right fun _ => ?_
    constructor
    · rintro ⟨part, rfl⟩
      exact ⟨.ofList part, by rw [Bytes.ofText, String.toList_ofList]⟩
    · rintro ⟨part, rfl⟩
      exact ⟨part.toList, rfl⟩
  · -- no byte of such a text goes on with a character
    refine Utf8.exists_ofChars_of_flatten hall fun chunk hchunk x hx hcontinues => ?_
    have hmem : x ∈ Bytes.ofText text := hall ▸ List.mem_flatten.mpr ⟨chunk, hchunk, List.mem_of_mem_head? hx⟩
    obtain ⟨c, hc, hbyte⟩ := List.mem_flatMap.mp hmem
    exact Utf8.not_continues_of_short (hshort c hc) hbyte hcontinues

/-- A character of two bytes, each in a frame of its own. -/
def splitCharacter : List Arrival := [.bytes [1, 0, 0, 0, 0, 0, 0, 1, 0xC3, 1, 0, 0, 0, 0, 0, 0, 1, 0xA9]]

/-- A frame goes to its pipe, and from there to the sink before the next one comes. -/
def oneByOne : List Move :=
  [List.replicate 3 .pump, [.read .stdout, .acquire .stdout], List.replicate 7 .write,
    List.replicate 3 .pump, [.read .stdout, .acquire .stdout], List.replicate 7 .write,
    [.pump, .read .stdout, .read .stderr, .close], List.replicate 3 .write].flatten

/-- Both frames go to their pipe before the sink gets what is in it. -/
def bothAtOnce : List Move :=
  [List.replicate 6 .pump, [.read .stdout, .acquire .stdout], List.replicate 7 .write,
    [.pump, .read .stdout, .read .stderr, .close], List.replicate 3 .write].flatten

/-- The two bytes have gone through one pipe at once. -/
theorem text_of_records_at_once :
    ∃ d, follow Delivery.step (.start false splitCharacter ({} : Sink)) bothAtOnce = some d ∧ d.copying.result.isSome ∧
      d.sink.refused = false ∧ Frame.payloads .stdout (Frame.parse (Feed.input splitCharacter).1).1 = Bytes.ofText "é" ∧
      ∃ records : List Record, records.flatMap Record.bytes = d.sink.taken ∧ String.join (Record.texts "stdout" records) = "é" := by
  have hrun : ((follow Delivery.step (.start false splitCharacter ({} : Sink)) bothAtOnce).map fun d =>
      (d.copying.result.isSome, d.sink.refused)) = some (true, false) := by
    decide +kernel
  obtain ⟨d, hd, hends⟩ := Option.map_eq_some_iff.mp hrun
  obtain ⟨hover, hr⟩ := Prod.mk.inj hends
  have htext : Frame.payloads .stdout (Frame.parse (Feed.input splitCharacter).1).1 = Bytes.ofText "é" := by decide +kernel
  have hread : (Delivery.start false splitCharacter ({} : Sink)).chunksRead .stdout bothAtOnce = [Bytes.ofText "é"] := by
    decide +kernel
  obtain ⟨-, records, hrecords, -, hsaid, -⟩ := text_of_records hd hover hr htext
  refine ⟨d, hd, hover, hr, htext, records, (hrecords records).mpr rfl, hsaid.mpr fun chunk hchunk => ⟨"é", ?_⟩⟩
  rw [hread] at hchunk
  exact List.mem_singleton.mp hchunk

/-- The same frames, with the chunk cut inside the character: the records say something else. -/
theorem text_cut_inside_character :
    ∃ d, follow Delivery.step (.start false splitCharacter ({} : Sink)) oneByOne = some d ∧ d.copying.result.isSome ∧
      d.sink.refused = false ∧ Frame.payloads .stdout (Frame.parse (Feed.input splitCharacter).1).1 = Bytes.ofText "é" ∧
      ∃ records : List Record, (∀ others, others.flatMap Record.bytes = d.sink.taken ↔ others = records) ∧
        Record.texts "stdout" records = ["\uFFFD", "\uFFFD"] ∧ String.join (Record.texts "stdout" records) ≠ "é" := by
  have hrun : ((follow Delivery.step (.start false splitCharacter ({} : Sink)) oneByOne).map fun d =>
      (d.copying.result.isSome, d.sink.refused)) = some (true, false) := by
    decide +kernel
  obtain ⟨d, hd, hends⟩ := Option.map_eq_some_iff.mp hrun
  obtain ⟨hover, hr⟩ := Prod.mk.inj hends
  have hread : (Delivery.start false splitCharacter ({} : Sink)).chunksRead .stdout oneByOne = [[0xC3], [0xA9]] := by decide +kernel
  obtain ⟨records, hrecords, htexts⟩ := texts_of_follow hd hover hr
  have hsaid : Record.texts "stdout" records = ["\uFFFD", "\uFFFD"] := by
    refine (htexts .stdout).1.trans ?_
    rw [hread]
    decide +kernel
  refine ⟨d, hd, hover, hr, by decide +kernel, records, hrecords, hsaid, ?_⟩
  rw [hsaid]
  decide

end JobPlane.Log
