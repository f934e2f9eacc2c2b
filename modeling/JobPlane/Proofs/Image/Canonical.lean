import JobPlane.Local.Container
import JobPlane.Proofs.Image

/-!
# Image references in canonical form

Which image references there are URIs for (`ImageRef.exists_parse_iff`): those whose parts keep out of each other's way (`WellFormed`).
Such a reference is read back from the URI that is written for it, and its short form tells it from every other one
(`image_reference_canonical`).
-/

namespace JobPlane.ImageRef

variable {uri : String} {i j : ImageRef}

/-! ## The parts of a reference -/

/-- The path of an image: its name and, behind a colon, its tag. -/
def path (i : ImageRef) : List Char := i.name.toList ++ (i.tag.map fun t => ':' :: t.toList).getD []

/-- The URI that is written for an image. -/
def toUri (i : ImageRef) : String :=
  "docker://" ++ i.name ++ (match i.tag with | some t => ":" ++ t | none => "") ++ (match i.id with | some d => "?id=" ++ d | none => "")

/-- What is written for an image: the scheme, its path and, behind a question mark, its content ID. -/
theorem toList_toUri (i : ImageRef) :
    i.toUri.toList = scheme ++ i.path ++ (i.id.map fun d => '?' :: 'i' :: 'd' :: '=' :: d.toList).getD [] := by
  unfold toUri path scheme
  cases i.tag <;> cases i.id <;> simp

/-- The short form of an image: its path and, behind an at sign, its content ID. -/
theorem toList_display_eq (i : ImageRef) : i.display.toList = i.path ++ (i.id.map fun d => '@' :: d.toList).getD [] := by
  unfold display path
  cases i.tag <;> cases i.id <;> simp

/-- The path of an image begins as its name does. -/
theorem head?_path (h : i.name.toList ≠ []) : i.path.head? = i.name.toList.head? := by
  obtain ⟨c, cs, hname⟩ := List.exists_cons_of_ne_nil h
  rw [path, hname]
  rfl

/-- A path has a tag where something without colons and slashes follows a colon of it. -/
theorem splitTag_eq_some_iff {cs name t : List Char} :
    splitTag cs = (name, some t) ↔ cs = name ++ ':' :: t ∧ ':' ∉ t ∧ '/' ∉ t := by
  unfold splitTag
  constructor
  · intro h
    split at h
    · rename_i a b hcut
      split at h
      · cases h
      · rename_i hslash
        cases h
        obtain ⟨hcs, hcolon⟩ := Text.eq_of_cutLast hcut
        exact ⟨hcs, hcolon, by simpa using hslash⟩
    · cases h
  · rintro ⟨rfl, hcolon, hslash⟩
    rw [Text.cutLast_append name hcolon]
    simp [hslash]

/-- A path has no tag where a slash follows every colon of it. -/
theorem splitTag_eq_none_iff {cs name : List Char} :
    splitTag cs = (name, none) ↔ cs = name ∧ ∀ a b, cs = a ++ ':' :: b → '/' ∈ b := by
  constructor
  · intro h
    obtain rfl : cs = name := by simpa using eq_of_splitTag h
    refine ⟨rfl, fun a b hab => ?_⟩
    by_contra hslash
    -- behind the last colon of all there would be no slash either
    subst hab
    unfold splitTag at h
    split at h
    · rename_i c d hcut
      have hlast : '/' ∉ d := fun hmem => hslash ((Text.suffix_of_cutLast hcut).subset hmem)
      rw [if_neg (by simpa using hlast)] at h
      cases h
    · rename_i hcut
      rw [Text.cutLast, Option.map_eq_none_iff, Text.cutFirst_eq_none_iff] at hcut
      simp at hcut
  · rintro ⟨rfl, hall⟩
    unfold splitTag
    split
    · rename_i a b hcut
      rw [if_pos]
      simpa using hall a b (Text.eq_of_cutLast hcut).1
    · rfl

/-- The content ID that a query names stands in one of its pairs, behind `id=`, and is not empty. -/
theorem of_contentId {before after : Option (List Char)} {ps : List (List Char)} (h : contentId before ps = .ok after) :
    after = before ∨ ∃ d, after = some d ∧ d ≠ [] ∧ 'i' :: 'd' :: '=' :: d ∈ ps := by
  induction ps generalizing before with
  | nil =>
    cases h
    exact Or.inl rfl
  | cons p ps ih =>
    unfold contentId at h
    split at h
    · cases h
    · rename_i v hne hcut
      rcases ih h with heq | ⟨d, hd, hfull, hmem⟩
      · obtain ⟨rfl, -⟩ := Text.eq_of_cutFirst hcut
        exact Or.inr ⟨v, heq, hne, List.mem_cons_self⟩
      · exact Or.inr ⟨d, hd, hfull, List.mem_cons_of_mem _ hmem⟩
    · rcases ih h with rfl | ⟨d, hd, hfull, hmem⟩
      · exact Or.inl rfl
      · exact Or.inr ⟨d, hd, hfull, List.mem_cons_of_mem _ hmem⟩

/-! ## Well-formed references -/

/-- An image whose parts keep out of each other's way: what one of them may contain begins no other one. -/
structure WellFormed (i : ImageRef) : Prop where
  name_ne : i.name.toList ≠ []
  head_ne : i.name.toList.head? ≠ some '/'
  last_ne : i.name.toList.getLast? ≠ some '/'
  tag : ∀ t, i.tag = some t → t.toList ≠ [] ∧ '/' ∉ t.toList ∧ ':' ∉ t.toList
  untagged : i.tag = none → ∀ a b, i.name.toList = a ++ ':' :: b → '/' ∈ b
  chars : ∀ c ∈ i.path, isPathChar c = true
  id : ∀ d, i.id = some d → d.toList ≠ [] ∧ '&' ∉ d.toList

namespace WellFormed

/-- The name and the tag of an image are found again in its path. -/
theorem splitTag_path (h : i.WellFormed) : splitTag i.path = (i.name.toList, i.tag.map String.toList) := by
  unfold path
  cases ht : i.tag with
  | none =>
    refine splitTag_eq_none_iff.mpr ⟨by simp, ?_⟩
    simpa using h.untagged ht
  | some t =>
    obtain ⟨-, hslash, hcolon⟩ := h.tag t ht
    exact splitTag_eq_some_iff.mpr ⟨rfl, hcolon, hslash⟩

/-- The path of an image is not empty. -/
theorem path_ne (h : i.WellFormed) : i.path ≠ [] := by simp [path, h.name_ne]

/-- The path of an image begins with no slash. -/
theorem head_path_ne (h : i.WellFormed) : i.path.head? ≠ some '/' := by
  rw [head?_path h.name_ne]
  exact h.head_ne

/-- An image that a URI names is well-formed. -/
theorem of_parse (h : parse uri = .ok i) : i.WellFormed := by
  obtain ⟨before, after, query, -, -, hafter, hchars, hsplit, hname, hlast, htag, hid⟩ :=
    parseChars_eq_ok_iff.mp (parse_eq_ok_iff.mp h)
  have hhead := head_dropWhile_ne before
  have hpath : before.dropWhile (· = '/') = i.path := by
    rw [eq_of_splitTag hsplit, path]
    cases i.tag <;> rfl
  rw [hpath] at hchars hsplit hhead
  refine ⟨hname, ?_, hlast, fun t ht => ?_, fun ht => ?_, hchars, fun d hd => ?_⟩
  · rwa [head?_path hname] at hhead
  · rw [ht, Option.map_some] at hsplit htag
    obtain ⟨-, hcolon, hslash⟩ := splitTag_eq_some_iff.mp hsplit
    exact ⟨fun hnil => htag (by rw [hnil]), hslash, hcolon⟩
  · rw [ht, Option.map_none] at hsplit
    obtain ⟨hcs, hall⟩ := splitTag_eq_none_iff.mp hsplit
    rwa [hcs] at hall
  · rw [hd, Option.map_some] at hid
    rcases of_contentId hid with hnone | ⟨content, hsome, hne, hmem⟩
    · cases hnone
    · cases hsome
      refine ⟨hne, ?_⟩
      rcases hafter with ⟨-, rfl⟩ | ⟨q, -, rfl⟩
      · cases hmem
      · have hpiece := Text.notMem_of_mem_pieces hmem
        simp only [List.mem_cons, not_or] at hpiece
        exact hpiece.2.2.2

/-- No character that is none of a path is in one. -/
theorem notMem_path (h : i.WellFormed) {c : Char} (hc : isPathChar c = false) : c ∉ i.path := by
  intro hmem
  rw [h.chars c hmem] at hc
  cases hc

/-- The query that is written for a content ID names it. -/
theorem contentId_pieces {d : List Char} (hne : d ≠ []) (hamp : '&' ∉ d) :
    contentId none (Text.pieces '&' ('i' :: 'd' :: '=' :: d)) = .ok (some d) := by
  have hpiece : '&' ∉ 'i' :: 'd' :: '=' :: d := by simp [hamp]
  obtain ⟨c, cs, rfl⟩ := List.exists_cons_of_ne_nil hne
  rw [Text.pieces_of_notMem hpiece]
  rfl

/-- The path of an image gives its name and its tag, with any query that names its content ID. -/
theorem gives (h : i.WellFormed) {query : List (List Char)} (hid : contentId none query = .ok (i.id.map String.toList)) :
    Gives (i.path.dropWhile (· = '/')) query i.name.toList (i.tag.map String.toList) (i.id.map String.toList) := by
  have hdrop : i.path.dropWhile (· = '/') = i.path := by
    obtain ⟨c, cs, hcons⟩ := List.exists_cons_of_ne_nil h.path_ne
    have hhead := h.head_path_ne
    rw [hcons] at hhead ⊢
    rw [List.dropWhile_cons_of_neg]
    simpa using hhead
  rw [hdrop]
  refine ⟨h.chars, h.splitTag_path, h.name_ne, h.last_ne, ?_, hid⟩
  intro hempty
  obtain ⟨t, ht, hnil⟩ := Option.map_eq_some_iff.mp hempty
  exact (h.tag t ht).1 hnil

/-- An image that is well-formed is read back from the URI that is written for it. -/
theorem parse_toUri (h : i.WellFormed) : parse i.toUri = .ok i := by
  have hmark : '?' ∉ i.path := h.notMem_path (by decide)
  rw [parse_eq_ok_iff, parseChars_eq_ok_iff, toList_toUri]
  cases hid : i.id with
  | none => exact ⟨i.path, [], [], rfl, hmark, Or.inl ⟨rfl, rfl⟩, hid ▸ h.gives (by rw [hid]; rfl)⟩
  | some d =>
    obtain ⟨hne, hamp⟩ := h.id d hid
    exact ⟨i.path, _, _, rfl, hmark, Or.inr ⟨_, rfl, rfl⟩, hid ▸ h.gives (by rw [hid, contentId_pieces hne hamp]; rfl)⟩

/-- The short form of an image tells its path and its content ID. -/
theorem cut_display (h : i.WellFormed) : Text.cutFirst '@' i.display.toList = i.id.map fun d => (i.path, d.toList) := by
  have hat : '@' ∉ i.path := h.notMem_path (by decide)
  rw [toList_display_eq]
  cases i.id with
  | none =>
    rw [Option.map_none, Option.getD_none, List.append_nil]
    exact Text.cutFirst_eq_none_iff.mpr hat
  | some d => exact Text.cutFirst_append d.toList hat

/-- Images with the same short form have the same path and the same content ID. -/
theorem parts_of_display_eq (hi : i.WellFormed) (hj : j.WellFormed) (h : i.display = j.display) : i.path = j.path ∧ i.id = j.id := by
  have hcut := hi.cut_display
  rw [h, hj.cut_display] at hcut
  cases hid : i.id with
  | none =>
    rw [hid, Option.map_none, Option.map_eq_none_iff] at hcut
    have hi' := toList_display_eq i
    have hj' := toList_display_eq j
    rw [hid, Option.map_none, Option.getD_none, List.append_nil] at hi'
    rw [hcut, Option.map_none, Option.getD_none, List.append_nil] at hj'
    exact ⟨by rw [← hi', h, hj'], hcut.symm⟩
  | some d =>
    rw [hid, Option.map_some, Option.map_eq_some_iff] at hcut
    obtain ⟨e, he, hparts⟩ := hcut
    obtain ⟨hpath, hde⟩ := Prod.mk.inj hparts
    exact ⟨hpath.symm, by rw [he, String.toList_inj.mp hde]⟩

/-- Images with the same short form are the same. -/
theorem eq_of_display_eq (hi : i.WellFormed) (hj : j.WellFormed) (h : i.display = j.display) : i = j := by
  obtain ⟨hpath, hid⟩ := hi.parts_of_display_eq hj h
  have hsplit := hi.splitTag_path
  rw [hpath, hj.splitTag_path] at hsplit
  obtain ⟨hname, htag⟩ := Prod.mk.inj hsplit
  obtain ⟨name, tag, id⟩ := i
  obtain ⟨name', tag', id'⟩ := j
  obtain rfl := String.toList_inj.mp hname
  obtain rfl : tag' = tag := Option.map_injective (fun _ _ => String.toList_inj.mp) htag
  cases hid
  rfl

end WellFormed

/-- The images that URIs name are those that are well-formed. -/
theorem exists_parse_iff : (∃ uri, parse uri = .ok i) ↔ i.WellFormed :=
  ⟨fun ⟨_, h⟩ => .of_parse h, fun h => ⟨i.toUri, h.parse_toUri⟩⟩

/-- What a runner is told of a job's image is its short form. -/
theorem runArguments_image (s : Sandbox) (job : JobSpec) (i : ImageRef) :
    Container.runArguments s { job with config := { job.config with image := i } } =
      "run" :: Container.options s job ++ job.config.env.flatMap (fun pair => ["--env", pair]) ++ i.display :: job.config.cmd := by
  unfold Container.runArguments
  rw [List.append_assoc _ [_]]
  rfl

/-- An image that a URI names is in canonical form.
1. Its name is not empty and neither begins nor ends with a slash.
2. Its tag, if it has one, is not empty and has no slash and no colon.
3. Its content ID, if it has one, is not empty.
4. It is read back from the URI that is written for it.
5. No other image that a URI names has its short form, so that a runner is told something else for the same job with another image. -/
theorem image_reference_canonical (h : parse uri = .ok i) :
    (i.name ≠ "" ∧ i.name.toList.head? ≠ some '/' ∧ i.name.toList.getLast? ≠ some '/') ∧
    (∀ t, i.tag = some t → t ≠ "" ∧ '/' ∉ t.toList ∧ ':' ∉ t.toList) ∧
    (∀ d, i.id = some d → d ≠ "") ∧
    parse i.toUri = .ok i ∧
    ∀ other j, parse other = .ok j → j ≠ i → j.display ≠ i.display ∧
      ∀ (s : Sandbox) (job : JobSpec),
        Container.runArguments s { job with config := { job.config with image := j } } ≠
          Container.runArguments s { job with config := { job.config with image := i } } := by
  have hi := WellFormed.of_parse h
  have hne {s : String} (hs : s.toList ≠ []) : s ≠ "" := by
    rintro rfl
    exact hs rfl
  refine ⟨⟨hne hi.name_ne, hi.head_ne, hi.last_ne⟩, ?_, ?_, hi.parse_toUri, ?_⟩
  · intro t ht
    obtain ⟨hfull, hslash, hcolon⟩ := hi.tag t ht
    exact ⟨hne hfull, hslash, hcolon⟩
  · intro d hd
    exact hne (hi.id d hd).1
  · intro other j hj hother
    have hdisplay : j.display ≠ i.display := fun heq => hother ((WellFormed.of_parse hj).eq_of_display_eq hi heq)
    refine ⟨hdisplay, fun s job hsame => hdisplay ?_⟩
    rw [runArguments_image, runArguments_image, List.append_cancel_left_eq] at hsame
    exact (List.cons.inj hsame).1

/-- Two URIs that are cut at the same signs: of one the content ID has an at sign, a colon and a question mark, and the last of several
IDs counts; the other has a port in place of a tag, and slashes in front. -/
theorem image_reference_canonical_of_two :
    let i : ImageRef := { name := "registry.local:5000/app", tag := some "v2", id := some "b@c:d?e=f" }
    let j : ImageRef := { name := "registry.local:5000/v2", tag := none, id := none }
    parse "docker://registry.local:5000/app:v2?id=a&x=y&id=b@c:d?e=f" = .ok i ∧ parse "docker:////registry.local:5000/v2" = .ok j ∧
      i.toUri = "docker://registry.local:5000/app:v2?id=b@c:d?e=f" ∧ parse i.toUri = .ok i ∧ j.display ≠ i.display := by
  intro i j
  have hi : parse "docker://registry.local:5000/app:v2?id=a&x=y&id=b@c:d?e=f" = .ok i := by decide +kernel
  have hj : parse "docker:////registry.local:5000/v2" = .ok j := by decide +kernel
  obtain ⟨-, -, -, hback, hothers⟩ := image_reference_canonical hi
  exact ⟨hi, hj, by decide +kernel, hback, (hothers _ j hj (by decide +kernel)).1⟩

end JobPlane.ImageRef
