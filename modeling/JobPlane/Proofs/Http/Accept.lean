import Mathlib.Logic.Relation
import JobPlane.Proofs.Http.Elements

/-!
# Media types that are accepted

Whether `Accept` lists a media type is a matter of the elements of its legible lines alone: not of how they are divided into lines, of
their order, of the case of letters, of blanks, or of parameters (`Alike`), and more elements never withdraw it (`accepts_listed`). All
this holds as long as the lines stay legible: an element with a byte that is not hides its whole line (`not_accepts_beside_illegible`).
-/

namespace JobPlane.Http

/-- Parameters of a media type: none, or a semicolon and what follows it. -/
def IsParameters (bs : Bytes) : Prop := bs = [] ∨ ∃ rest, bs = 59 :: rest

/-- An element is of a media type, in whatever case, with whatever blanks around it and its type, and with whatever parameters. -/
def IsOfType (mediaType : String) (e : Bytes) : Prop :=
  ∃ lead t trail params, e = lead ++ t ++ trail ++ params ∧ IsBlanks lead ∧ IsBlanks trail ∧ IsParameters params ∧
    Text.foldCase (letters t) = Text.foldCase mediaType.toList

/-- An element is spelt in another way without being of another type. -/
inductive ElementRespelt : Bytes → Bytes → Prop
  | case {e e' : Bytes} (h : Text.foldCase (letters e) = Text.foldCase (letters e')) : ElementRespelt e e'
  | blanksAround {lead e trail : Bytes} (hl : IsBlanks lead) (hr : IsBlanks trail) : ElementRespelt e (lead ++ e ++ trail)
  | blanksBehindType {t blanks params : Bytes} (ht : 59 ∉ t) (hb : IsBlanks blanks) (hp : IsParameters params) :
      ElementRespelt (t ++ params) (t ++ blanks ++ params)
  | parameters {t params params' : Bytes} (ht : 59 ∉ t) (hp : IsParameters params) (hp' : IsParameters params') :
      ElementRespelt (t ++ params) (t ++ params')

/-- Lines are spelt in another way without listing other types. -/
inductive Respelt : List Bytes → List Bytes → Prop
  | join {before after : List Bytes} {a b : Bytes} (ha : Legible a) (hb : Legible b) :
      Respelt (before ++ a :: b :: after) (before ++ (a ++ 44 :: b) :: after)
  | reorder {before after es es' : List Bytes} (hes : ∀ e ∈ es, IsElement e) (h : es.Perm es') :
      Respelt (before ++ joined es :: after) (before ++ joined es' :: after)
  | reorderLines {lines lines' : List Bytes} (h : lines.Perm lines') : Respelt lines lines'
  | element {before after front back : List Bytes} {e e' : Bytes} (hes : ∀ x ∈ front ++ e :: back, IsElement x) (he' : IsElement e')
      (h : ElementRespelt e e') : Respelt (before ++ joined (front ++ e :: back) :: after) (before ++ joined (front ++ e' :: back) :: after)
  | illegible {before after : List Bytes} {line : Bytes} (h : ¬Legible line) : Respelt (before ++ after) (before ++ line :: after)

/-- Lines can be spelt as others, one change after another, there or back. -/
def Alike : List Bytes → List Bytes → Prop := Relation.EqvGen Respelt

/-- An element is added to lines, and stands in one of them: in a line of its own, or among the parts of another. -/
inductive Adds (e : Bytes) : Bytes → List Bytes → List Bytes → Prop
  | line {before after : List Bytes} : Adds e e (before ++ after) (before ++ e :: after)
  | part {before after front back : List Bytes} (hne : front ++ back ≠ []) :
      Adds e (joined (front ++ e :: back)) (before ++ joined (front ++ back) :: after) (before ++ joined (front ++ e :: back) :: after)

variable {e e' t params line : Bytes} {lines lines' : List Bytes} {mediaType : String}

/-! ## The type of an element -/

/-- The type that the text of an element names, in small letters. -/
def typeOf (cs : List Char) : List Char := Text.foldCase (withoutParameters (Text.trim cs))

/-- What stands before the first semicolon begins with a text that has none. -/
theorem takeWhile_append_of_whole {front : List Char} (h : ';' ∉ front) (rest : List Char) :
    (front ++ rest).takeWhile (· ≠ ';') = front ++ rest.takeWhile (· ≠ ';') := by
  refine List.takeWhile_append_of_pos fun c hc => ?_
  rw [decide_eq_true_eq]
  rintro rfl
  exact h hc

/-- No semicolon is among spaces and tabs. -/
theorem IsBlanks.semicolon_notMem (h : IsBlanks e) : 59 ∉ e := by
  intro hmem
  rcases h 59 hmem with h | h <;> cases h

/-- No semicolon is among blanks. -/
theorem semicolon_notMem {cs : List Char} (h : ∀ c ∈ cs, Text.isBlank c = true) : ';' ∉ cs := by
  intro hmem
  cases h ';' hmem

/-- The type of an element stands before its first semicolon. -/
theorem typeOf_eq (cs : List Char) : typeOf cs = Text.foldCase (Text.trim (cs.takeWhile (· ≠ ';'))) := by
  obtain ⟨lead, trail, hcs, hl, hr⟩ := Text.exists_blanks cs
  refine congrArg Text.foldCase ?_
  unfold withoutParameters
  split
  · rename_i before after hcut
    obtain ⟨htrim, hbefore⟩ := Text.eq_of_cutFirst hcut
    have hnone : (';' :: after ++ trail).takeWhile (· ≠ ';') = [] := List.takeWhile_cons_of_neg (by decide)
    have htaken : cs.takeWhile (· ≠ ';') = lead ++ before ++ [] := by
      rw [hcs, htrim, List.append_assoc, takeWhile_append_of_whole (semicolon_notMem hl), List.append_assoc,
        takeWhile_append_of_whole hbefore, hnone, List.append_assoc]
    rw [htaken, Text.trim_append before hl (by simp)]
  · rename_i hcut
    have hwhole : ';' ∉ cs := by
      rw [hcs]
      simp only [List.mem_append, not_or]
      exact ⟨⟨semicolon_notMem hl, Text.cutFirst_eq_none_iff.mp hcut⟩, semicolon_notMem hr⟩
    have htaken : cs.takeWhile (· ≠ ';') = cs := by simpa using takeWhile_append_of_whole hwhole []
    have htrim := Text.trim_append (Text.trim cs) hl hr
    rw [← hcs] at htrim
    rw [htaken]
    exact htrim.symm

/-- The type of an element is a matter of its small letters. -/
theorem typeOf_foldCase (cs : List Char) : typeOf cs = Text.trim ((Text.foldCase cs).takeWhile (· ≠ ';')) := by
  have hsame : (fun c : Char => decide (c ≠ ';')) ∘ Char.toLower = fun c => decide (c ≠ ';') := by
    funext c
    have hiff := Text.toLower_eq_iff (c := c) (show ';'.toNat < 65 by decide)
    simp only [Function.comp_apply, ne_eq, hiff]
  rw [typeOf_eq, Text.foldCase_trim]
  simp only [Text.foldCase, List.takeWhile_map, hsame]

/-- What stands before the parameters of an element. -/
theorem takeWhile_letters (ht : 59 ∉ t) (hp : IsParameters params) : (letters (t ++ params)).takeWhile (· ≠ ';') = letters t := by
  rw [letters_append, takeWhile_append_of_whole fun hmem => ht (mem_letters_iff.mp hmem)]
  rcases hp with rfl | ⟨rest, rfl⟩
  · simp [letters]
  · have hnone : (letters (59 :: rest)).takeWhile (· ≠ ';') = [] := List.takeWhile_cons_of_neg (by decide)
    rw [hnone, List.append_nil]

/-- The type of an element is what stands before its parameters. -/
theorem typeOf_append (ht : 59 ∉ t) (hp : IsParameters params) :
    typeOf (letters (t ++ params)) = Text.foldCase (Text.trim (letters t)) := by
  rw [typeOf_eq, takeWhile_letters ht hp]

/-- An element that is spelt in another way is of the same type. -/
theorem typeOf_respelt (h : ElementRespelt e e') : typeOf (letters e) = typeOf (letters e') := by
  cases h with
  | case h => rw [typeOf_foldCase, typeOf_foldCase, h]
  | blanksAround hl hr =>
    rw [letters_append, letters_append, typeOf, typeOf,
      Text.trim_append _ ((isBlanks_iff hl.legible).mp hl) ((isBlanks_iff hr.legible).mp hr)]
  | @blanksBehindType t blanks params ht hb hp =>
    have hwhole : 59 ∉ t ++ blanks := by
      rw [List.mem_append, not_or]
      exact ⟨ht, hb.semicolon_notMem⟩
    have hnone : ∀ c ∈ ([] : List Char), Text.isBlank c = true := by simp
    have htrim := Text.trim_append (letters t) hnone ((isBlanks_iff hb.legible).mp hb)
    rw [typeOf_append ht hp, typeOf_append hwhole hp, letters_append, ← htrim, List.nil_append]
  | parameters ht hp hp' => rw [typeOf_append ht hp, typeOf_append ht hp']

/-- A legible element is of a type that has no semicolon, space or tab exactly if that is the one its text names. -/
theorem typeOf_eq_iff (he : Legible e) (hm : ∀ c ∈ mediaType.toList, c ≠ ';' ∧ c ≠ ' ' ∧ c ≠ '\t') :
    typeOf (letters e) = Text.foldCase mediaType.toList ↔ IsOfType mediaType e := by
  constructor
  · intro heq
    obtain ⟨front, params, rfl, hfront, hp⟩ : ∃ front params, e = front ++ params ∧ 59 ∉ front ∧ IsParameters params := by
      refine ⟨e.takeWhile (· ≠ 59), e.dropWhile (· ≠ 59), List.takeWhile_append_dropWhile.symm, fun hmem => ?_, ?_⟩
      · simpa using List.all_eq_true.mp List.all_takeWhile _ hmem
      · cases hd : e.dropWhile (· ≠ 59) with
        | nil => exact Or.inl rfl
        | cons x rest =>
          have hx : x = 59 := by
            have hnot := List.head?_dropWhile_not (p := (· ≠ 59)) (l := e)
            rw [hd] at hnot
            simpa using hnot
          exact Or.inr ⟨rest, by rw [hx]⟩
    rw [typeOf_append hfront hp] at heq
    obtain ⟨lead, t, trail, rfl, hl, hr, ht⟩ := (trim_letters_iff (legible_append.mp he).1 fun c hc => (hm c hc).2).mp heq
    exact ⟨lead, t, trail, params, rfl, hl, hr, hp, ht⟩
  · rintro ⟨lead, t, trail, params, rfl, hl, hr, hp, ht⟩
    have hfront : 59 ∉ lead ++ t ++ trail := by
      simp only [List.mem_append, not_or]
      refine ⟨⟨hl.semicolon_notMem, fun hmem => ?_⟩, hr.semicolon_notMem⟩
      have hlower : (';' : Char).toLower ∈ Text.foldCase mediaType.toList := ht ▸ List.mem_map_of_mem (mem_letters_iff.mpr hmem)
      obtain ⟨c, hc, hsemicolon⟩ := List.mem_map.mp hlower
      exact (hm c hc).1 ((Text.toLower_eq_iff (by decide)).mp hsemicolon)
    rw [typeOf_append hfront hp]
    exact (trim_letters_iff (legible_append.mp he).1 fun c hc => (hm c hc).2).mpr ⟨lead, t, trail, rfl, hl, hr, ht⟩

/-! ## What lines accept -/

/-- A media type is accepted where an element of one of the lines names it. -/
theorem accepts_eq (lines : List Bytes) (mediaType : String) :
    accepts lines mediaType = lines.any (lineHas fun cs => Text.foldCase mediaType.toList == typeOf cs) := any_elements lines _

/-- Lines that are spelt in another way accept the same. -/
theorem accepts_respelt (h : Respelt lines lines') : accepts lines mediaType = accepts lines' mediaType := by
  rw [accepts_eq, accepts_eq]
  cases h with
  | join ha hb => simp only [List.any_append, List.any_cons, lineHas_append ha hb, Bool.or_assoc]
  | @reorder before after es es' hes h =>
    by_cases hne : es = []
    · obtain rfl : es' = [] := List.nil_perm.mp (hne ▸ h)
      rw [hne]
    · have hne' : es' ≠ [] := fun hnone => hne (List.perm_nil.mp (hnone ▸ h))
      have hes' : ∀ e ∈ es', IsElement e := fun e he => hes e (h.mem_iff.mpr he)
      simp only [List.any_append, List.any_cons, lineHas_joined hne hes, lineHas_joined hne' hes', h.any_eq]
  | reorderLines h => exact h.any_eq
  | @element before after front back e e' hes he' h =>
    have hes' : ∀ x ∈ front ++ e' :: back, IsElement x := by
      intro x hx
      rcases List.mem_append.mp hx with hx | hx
      · exact hes x (List.mem_append_left _ hx)
      · rcases List.mem_cons.mp hx with rfl | hx
        · exact he'
        · exact hes x (List.mem_append_right _ (List.mem_cons_of_mem e hx))
    simp only [List.any_append, List.any_cons, lineHas_joined (by simp : front ++ e :: back ≠ []) hes,
      lineHas_joined (by simp : front ++ e' :: back ≠ []) hes', typeOf_respelt h]
  | illegible h => simp only [List.any_append, List.any_cons, lineHas_of_not_legible h, Bool.false_or]

/-- Lines that are alike accept the same. -/
theorem accepts_alike (h : Alike lines lines') : accepts lines mediaType = accepts lines' mediaType := by
  induction h with
  | rel _ _ h => exact accepts_respelt h
  | refl => rfl
  | symm _ _ _ ih => exact ih.symm
  | trans _ _ _ _ _ ih ih' => exact ih.trans ih'

/-- Lines with an element more accept its type, if it stands in a legible line, and what they accepted without it. -/
theorem accepts_adds (he : IsElement e) (h : Adds e line lines lines') :
    accepts lines' mediaType =
      ((decide (Legible line) && (Text.foldCase mediaType.toList == typeOf (letters e))) || accepts lines mediaType) := by
  rw [accepts_eq, accepts_eq]
  cases h with
  | line =>
    simp only [List.any_append, List.any_cons, lineHas_element he, he.legible, decide_true, Bool.true_and]
    exact Bool.or_left_comm _ _ _
  | @part before after front back hne =>
    simp only [List.any_append, List.any_cons]
    by_cases hall : ∀ x ∈ front ++ back, Legible x
    · have hmore : ∀ x ∈ front ++ e :: back, Legible x := by
        simpa only [List.forall_mem_append, List.forall_mem_cons, he.legible, true_and] using hall
      rw [lineHas_parts hne hall, lineHas_parts (by simp) hmore, List.any_append, List.any_append, List.any_cons, lineHas_element he,
        decide_eq_true (legible_joined.mpr hmore), Bool.true_and]
      ac_rfl
    · -- the line was not legible before, and it is not now
      have hless : ¬Legible (joined (front ++ back)) := fun h => hall (legible_joined.mp h)
      have hmore : ¬Legible (joined (front ++ e :: back)) := by
        rw [legible_joined]
        simpa only [List.forall_mem_append, List.forall_mem_cons, he.legible, true_and] using hall
      rw [lineHas_of_not_legible hless, lineHas_of_not_legible hmore, decide_eq_false hmore, Bool.false_and, Bool.false_or,
        Bool.false_or]

/-- What the lines of `Accept` accept, for a media type without commas, semicolons, spaces and tabs.
1. A media type is accepted exactly if an element of a legible line is of that type.
2. Lines that are alike accept the same, in whatever case the media type is written.
3. An element that is added to a legible line, or as a line, brings in its type, and it takes none away wherever it is added. -/
theorem accepts_listed (hm : ∀ c ∈ mediaType.toList, c ≠ ',' ∧ c ≠ ';' ∧ c ≠ ' ' ∧ c ≠ '\t') (lines : List Bytes) :
    (accepts lines mediaType = true ↔ Lists lines (IsOfType mediaType)) ∧
    (∀ lines' mediaType', Alike lines lines' → Text.foldCase mediaType'.toList = Text.foldCase mediaType.toList →
      accepts lines' mediaType' = accepts lines mediaType) ∧
    (∀ e line lines', IsElement e → Adds e line lines lines' →
      (Legible line → IsOfType mediaType e → accepts lines' mediaType = true) ∧
      (accepts lines mediaType = true → accepts lines' mediaType = true)) := by
  refine ⟨?_, ?_, ?_⟩
  · rw [accepts, any_elements_iff]
    refine lists_congr fun e he => ?_
    rw [← typeOf_eq_iff he.legible fun c hc => (hm c hc).2, Text.sameFold, beq_iff_eq, eq_comm, typeOf]
  · intro lines' mediaType' halike hcase
    rw [accepts_alike halike, accepts_eq, accepts_eq, hcase]
  · intro e line lines' he hadds
    rw [accepts_adds he hadds, Bool.or_eq_true, Bool.and_eq_true, decide_eq_true_eq, beq_iff_eq]
    refine ⟨fun hline htype => Or.inl ⟨hline, ?_⟩, fun haccepts => Or.inr haccepts⟩
    exact ((typeOf_eq_iff he.legible fun c hc => (hm c hc).2).mpr htype).symm

/-- A media type in capitals, with a blank behind it and a parameter, in a line behind another one: it is accepted, and so it is when the
lines are joined; and another type is accepted once it is added. -/
theorem accepts_listed_in_capitals :
    let lines : List Bytes := [Bytes.ofText "text/html", Bytes.ofText "TEXT/Event-Stream ;q=1"]
    let line : Bytes := Bytes.ofText "text/html,TEXT/Event-Stream ;q=1"
    (∀ c ∈ "text/event-stream".toList, c ≠ ',' ∧ c ≠ ';' ∧ c ≠ ' ' ∧ c ≠ '\t') ∧ Alike lines [line] ∧
      accepts [line] "text/event-stream" = true ∧ Adds (Bytes.ofText "a/b") (Bytes.ofText "a/b") [line] [line, Bytes.ofText "a/b"] ∧
      accepts [line, Bytes.ofText "a/b"] "text/event-stream" = true := by
  intro lines line
  have hm : ∀ c ∈ "text/event-stream".toList, c ≠ ',' ∧ c ≠ ';' ∧ c ≠ ' ' ∧ c ≠ '\t' := by simp
  have halike : Alike lines [line] := by
    refine .rel _ _ (@Respelt.join [] [] (Bytes.ofText "text/html") (Bytes.ofText "TEXT/Event-Stream ;q=1") ?_ ?_) <;> decide
  have hadds : Adds (Bytes.ofText "a/b") (Bytes.ofText "a/b") [line] [line, Bytes.ofText "a/b"] := @Adds.line _ [line] []
  have hseparate : accepts lines "text/event-stream" = true := by decide
  obtain ⟨-, hsame, -⟩ := accepts_listed hm lines
  have hjoined : accepts [line] "text/event-stream" = true := (hsame [line] "text/event-stream" halike rfl).trans hseparate
  obtain ⟨-, -, hmore⟩ := accepts_listed hm [line]
  have hadded := (hmore (Bytes.ofText "a/b") _ _ ⟨by decide, by decide⟩ hadds).2 hjoined
  exact ⟨hm, halike, hjoined, hadds, hadded⟩

/-- A parameter with a byte that is not legible hides the type it belongs to, and an element with one those beside it. -/
theorem not_accepts_beside_illegible :
    let type : Bytes := Bytes.ofText "application/vnd.jobgate.attach"
    let parameter : Bytes := Bytes.ofText ";title=é"
    let other : Bytes := Bytes.ofText "é"
    44 ∉ parameter ∧ accepts [type] "application/vnd.jobgate.attach" = true ∧
      accepts [type ++ parameter] "application/vnd.jobgate.attach" = false ∧
      accepts [type ++ 44 :: other] "application/vnd.jobgate.attach" = false := by
  decide

end JobPlane.Http
