import Mathlib.Data.List.Basic
import JobPlane.Job.Build
import JobPlane.Proofs.TextMap
import JobPlane.Proofs.Text.Cut

/-!
# The variables that a job sees

A job's environment is rendered as pairs in the order of keys, and the process reads each pair up to its first equals sign. A key
without one is read back as it was. A key with one is not: its pair is read as one of the variable before the sign, and as the pair
comes behind that of the variable itself, it takes the variable's place. `job_variables` says what a process sees in any case, and that it
is the overlay of the two environments exactly if no key has an equals sign.
-/

namespace JobPlane.Environment

/-! ## Pairs -/

/-- The characters of a pair. -/
theorem toList_renderPair (k v : String) : (renderPair k v).toList = k.toList ++ '=' :: v.toList := by
  simp [renderPair]

/-- A pair is read as a variable exactly if it renders it and the variable's name has no equals sign. -/
theorem parsePair_eq_some_iff {p x v : String} : parsePair p = some (x, v) ↔ p = renderPair x v ∧ '=' ∉ x.toList := by
  unfold parsePair Text.splitFirst
  constructor
  · intro h
    obtain ⟨⟨a, b⟩, hcut, heq⟩ := Option.map_eq_some_iff.mp h
    obtain ⟨rfl, rfl⟩ := Prod.mk.inj heq
    obtain ⟨hp, hnot⟩ := Text.eq_of_cutFirst hcut
    refine ⟨String.toList_inj.mp ?_, by simpa using hnot⟩
    simpa [toList_renderPair] using hp
  · rintro ⟨rfl, hnot⟩
    simp [toList_renderPair, Text.cutFirst_append _ hnot]

/-- A key whose pairs begin with a variable's name and an equals sign: the name itself, or one with a sign behind the name. -/
def NamesVariable (x key : String) : Prop := key = x ∨ ∃ r, key = renderPair x r

/-- The pair of a key is also one of a variable exactly if the key names the variable. -/
theorem exists_renderPair_iff {x key : String} (hx : '=' ∉ x.toList) (value : String) :
    (∃ v, renderPair key value = renderPair x v) ↔ NamesVariable x key := by
  constructor
  · rintro ⟨v, heq⟩
    have hchars := congrArg String.toList heq
    rw [toList_renderPair, toList_renderPair] at hchars
    rcases List.append_eq_append_iff.mp hchars with ⟨e, he, heq⟩ | ⟨e, he, heq⟩
    · -- the key is at most as long as the variable's name
      rcases List.cons_eq_append_iff.mp heq with ⟨rfl, -⟩ | ⟨e', rfl, -⟩
      · exact .inl (String.toList_inj.mp (by simpa using he.symm))
      · exact absurd (by simp [he]) hx
    · rcases List.cons_eq_append_iff.mp heq with ⟨rfl, -⟩ | ⟨e', rfl, -⟩
      · exact .inl (String.toList_inj.mp (by simpa using he))
      · exact .inr ⟨String.ofList e', String.toList_inj.mp (by simpa [toList_renderPair] using he)⟩
  · rintro (rfl | ⟨r, rfl⟩)
    · exact ⟨value, rfl⟩
    · exact ⟨renderPair r value, by simp [renderPair, String.append_assoc]⟩

/-! ## What a process sees -/

/-- A variable's value is that of the last pair that is read as one of it. -/
theorem get?_apply_iff {pairs : List String} {x v : String} :
    (apply pairs).get? x = some v ↔ '=' ∉ x.toList ∧
      ∃ before after, pairs = before ++ renderPair x v :: after ∧ ∀ p ∈ after, ∀ w, p ≠ renderPair x w := by
  rw [apply, TextMap.get?_ofList, List.lookup_eq_some_iff]
  constructor
  · rintro ⟨behind, front, hsplit, hbehind⟩
    have hreversed : pairs.filterMap parsePair = front.reverse ++ (x, v) :: behind.reverse := by
      simpa using congrArg List.reverse hsplit
    obtain ⟨l₁, l₂, rfl, -, htail⟩ := List.filterMap_eq_append_iff.mp hreversed
    obtain ⟨l₃, p, after, rfl, -, hp, hafter⟩ := List.filterMap_eq_cons_iff.mp htail
    obtain ⟨rfl, hx⟩ := parsePair_eq_some_iff.mp hp
    refine ⟨hx, l₁ ++ l₃, after, (List.append_assoc ..).symm, ?_⟩
    rintro p hmem w rfl
    have hread : (x, w) ∈ behind := by
      rw [← List.mem_reverse, ← hafter, List.mem_filterMap]
      exact ⟨_, hmem, parsePair_eq_some_iff.mpr ⟨rfl, hx⟩⟩
    simpa using hbehind _ hread
  · rintro ⟨hx, before, after, rfl, hafter⟩
    refine ⟨(after.filterMap parsePair).reverse, (before.filterMap parsePair).reverse, ?_, fun e he => ?_⟩
    · rw [List.filterMap_append, List.filterMap_cons_some (parsePair_eq_some_iff.mpr ⟨rfl, hx⟩)]
      simp
    · obtain ⟨p, hmem, hp⟩ := List.mem_filterMap.mp (List.mem_reverse.mp he)
      obtain ⟨rfl, -⟩ := parsePair_eq_some_iff.mp hp
      have hne : x ≠ e.1 := by
        rintro rfl
        exact hafter _ hmem e.2 rfl
      simpa using hne

/-- A pair behind all others sets its variable and no other. -/
theorem get?_apply_concat {k : String} (hk : '=' ∉ k.toList) (pairs : List String) (v x : String) :
    (apply (pairs ++ [renderPair k v])).get? x = if x = k then some v else (apply pairs).get? x := by
  have hread : [renderPair k v].filterMap parsePair = [(k, v)] := by
    rw [List.filterMap_cons_some (parsePair_eq_some_iff.mpr ⟨rfl, hk⟩), List.filterMap_nil]
  rw [apply, List.filterMap_append, hread, TextMap.get?_ofList, List.reverse_append, List.reverse_singleton, List.singleton_append,
    TextMap.lookup_cons_eq_ite, apply, TextMap.get?_ofList]

/-- What the overlay of two environments says of a key: what the one on top says, and the other where that is silent. -/
def overlaid (base top : TextMap) (key : String) : Option String := (top.get? key).or (base.get? key)

variable {base top : TextMap}

/-- A process that is given the overlay of two environments sees a variable with the value of the last key that names it. -/
theorem get?_apply_render_iff {x v : String} :
    (apply (render base top)).get? x = some v ↔ '=' ∉ x.toList ∧ ∃ key value, overlaid base top key = some value ∧
      renderPair key value = renderPair x v ∧ ∀ later, (overlaid base top later).isSome → key < later → ¬NamesVariable x later := by
  have hget (key : String) : overlaid base top key = (base.overlay top).get? key := (TextMap.get?_overlay base top key).symm
  have hrender : render base top = (base.overlay top).entries.map fun e => renderPair e.1 e.2 := rfl
  rw [get?_apply_iff, hrender]
  refine and_congr_right fun hx => ⟨?_, ?_⟩
  · rintro ⟨before, after, hsplit, hafter⟩
    obtain ⟨l₁, l₂, hentries, -, htail⟩ := List.map_eq_append_iff.mp hsplit
    obtain ⟨⟨key, value⟩, behind, rfl, hpair, rfl⟩ := List.map_eq_cons_iff.mp htail
    refine ⟨key, value, ?_, hpair, fun later hsome hlt hnames => ?_⟩
    · rw [hget, TextMap.get?_eq_some_iff, hentries]
      simp
    · obtain ⟨w, hw⟩ := Option.isSome_iff_exists.mp hsome
      obtain ⟨u, hu⟩ := (exists_renderPair_iff hx w).mpr hnames
      rw [hget] at hw
      exact hafter _ (List.mem_map_of_mem ((TextMap.mem_behind_iff hentries).mpr ⟨hw, hlt⟩)) u hu
  · rintro ⟨key, value, hkey, hpair, hlast⟩
    rw [hget, TextMap.get?_eq_some_iff] at hkey
    obtain ⟨l₁, behind, hentries⟩ := List.append_of_mem hkey
    refine ⟨_, _, by rw [hentries, List.map_append, List.map_cons, hpair], ?_⟩
    intro p hp w hw
    obtain ⟨⟨later, u⟩, hmem, rfl⟩ := List.mem_map.mp hp
    obtain ⟨hget', hlt⟩ := (TextMap.mem_behind_iff hentries).mp hmem
    refine hlast later ?_ hlt ((exists_renderPair_iff hx u).mp ⟨w, hw⟩)
    rw [hget, hget']
    rfl

/-- A variable that no other key names is seen as the overlay has it. -/
theorem get?_apply_render {x : String} (hx : '=' ∉ x.toList)
    (hnone : ∀ key, (overlaid base top key).isSome → NamesVariable x key → key = x) :
    (apply (render base top)).get? x = overlaid base top x := by
  refine Option.ext fun v => ?_
  rw [get?_apply_render_iff]
  constructor
  · rintro ⟨-, key, value, hkey, hpair, -⟩
    obtain rfl := hnone key (by simp [hkey]) ((exists_renderPair_iff hx value).mp ⟨v, hpair⟩)
    have hvalue : value = v := by simpa [renderPair] using hpair
    exact hvalue ▸ hkey
  · intro hv
    refine ⟨hx, x, v, hv, rfl, fun later hsome hlt hnames => ?_⟩
    exact absurd (hnone later hsome hnames ▸ hlt) (String.lt_irrefl x)

/-- The variables that a job sees, for any environments of its release and its request.
1. A variable has a name without an equals sign, and its value is told by the last key, in the order of keys, whose pair begins with the
   variable's name and an equals sign.
2. A variable that is named by no key but its own has the value that the request gives it, and where the request gives none, the
   release's; it is not set if neither has the key.
3. All keys are seen with those values, and no other variables, exactly if no key of the release or the request has an equals sign. -/
theorem job_variables (id : String) (app : App) (new : NewJob) (image : ImageRef) (releaseEnv : TextMap) (interactive : Bool) :
    let seen := apply (JobSpec.build id app new image releaseEnv interactive).config.env
    let wanted := overlaid releaseEnv new.env
    (∀ x v, seen.get? x = some v ↔ '=' ∉ x.toList ∧ ∃ key value, wanted key = some value ∧ renderPair key value = renderPair x v ∧
      ∀ later, (wanted later).isSome → key < later → ¬NamesVariable x later) ∧
    (∀ x, '=' ∉ x.toList → (∀ key, (wanted key).isSome → NamesVariable x key → key = x) → seen.get? x = wanted x) ∧
    ((∀ x, seen.get? x = wanted x) ↔ ∀ key, (wanted key).isSome → '=' ∉ key.toList) := by
  intro seen wanted
  refine ⟨fun x v => get?_apply_render_iff, fun x hx hnone => get?_apply_render hx hnone, fun hall key hkey => ?_, fun hkeys x => ?_⟩
  · obtain ⟨v, hv⟩ := Option.isSome_iff_exists.mp hkey
    exact (get?_apply_render_iff.mp ((hall key).trans hv)).1
  · by_cases hx : '=' ∈ x.toList
    · -- neither a key nor a variable
      have hwanted : wanted x = none := Option.not_isSome_iff_eq_none.mp fun hsome => hkeys x hsome hx
      rw [hwanted, Option.eq_none_iff_forall_ne_some]
      intro v hv
      exact (get?_apply_render_iff.mp hv).1 hx
    · refine get?_apply_render hx fun key hkey hnames => ?_
      rcases hnames with rfl | ⟨r, rfl⟩
      · rfl
      · exact absurd (by simp [toList_renderPair]) (hkeys _ hkey)

/-- A request without a variable of the release changes it by a key with an equals sign. -/
example :
    (apply (render (.ofList [("PORT", "80")]) (.ofList [("PORT=1", "x")]))).get? "PORT" = some "1=x" := by
  decide

end JobPlane.Environment
