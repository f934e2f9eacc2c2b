import JobPlane.Image
import JobPlane.Proofs.Text.Cut
import Mathlib.Data.List.TakeWhile

/-!
# What image references are made of

Which parts of a URI an accepted image reference comes from (`TakenFrom.of_parse`), and what its short form begins with.
-/

namespace JobPlane

namespace ImageRef

variable {uri : String} {i : ImageRef}

/-- The path of a repository is its name and, behind a colon, its tag. -/
theorem eq_of_splitTag {path name : List Char} {tag : Option (List Char)} (h : splitTag path = (name, tag)) :
    path = name ++ (tag.map (':' :: ·)).getD [] := by
  unfold splitTag at h
  split at h
  · rename_i a b hcut
    split at h
    · obtain ⟨rfl, rfl⟩ := Prod.mk.inj h
      simp
    · obtain ⟨rfl, rfl⟩ := Prod.mk.inj h
      exact (Text.eq_of_cutLast hcut).1
  · obtain ⟨rfl, rfl⟩ := Prod.mk.inj h
    simp

/-- How a URI is taken apart: the scheme, some slashes, the path of the repository, and what comes after it; the path gives the name and
the tag of the image. -/
structure TakenFrom (uri : String) (i : ImageRef) (slashes : Nat) (path after : List Char) : Prop where
  uri_eq : uri.toList = scheme ++ List.replicate slashes '/' ++ path ++ after
  after_eq : after = [] ∨ ∃ query, after = '?' :: query
  path_eq : path = i.name.toList ++ (i.tag.map fun t => ':' :: t.toList).getD []
  name_ne : i.name.toList ≠ []
  head_ne : path.head? ≠ some '/'
  chars : ∀ c ∈ path, isPathChar c = true

/-- Characters that are dropped from the front because they are slashes are slashes. -/
theorem eq_replicate_append_dropWhile (cs : List Char) :
    ∃ n, cs = List.replicate n '/' ++ cs.dropWhile (· = '/') := by
  refine ⟨(cs.takeWhile (· = '/')).length, ?_⟩
  have hall : cs.takeWhile (· = '/') = List.replicate (cs.takeWhile (· = '/')).length '/' := by
    refine List.eq_replicate_iff.mpr ⟨rfl, fun c hc => ?_⟩
    simpa using List.mem_takeWhile_imp hc
  rw [← hall, List.takeWhile_append_dropWhile]

/-- A path from which slashes were dropped does not begin with one. -/
theorem head_dropWhile_ne (cs : List Char) : (cs.dropWhile (· = '/')).head? ≠ some '/' := by
  intro h
  have hnot := List.head?_dropWhile_not (fun c => decide (c = '/')) cs
  rw [h] at hnot
  simp at hnot

/-- What a path and the pairs of a query have to be for an image to have this name, tag and content ID. -/
structure Gives (path : List Char) (query : List (List Char)) (name : List Char) (tag id : Option (List Char)) : Prop where
  chars : ∀ c ∈ path, isPathChar c = true
  split : splitTag path = (name, tag)
  name_ne : name ≠ []
  last_ne : name.getLast? ≠ some '/'
  tag_ne : tag ≠ some []
  content : contentId none query = .ok id

/-- A path and a query are accepted exactly if they give an image. -/
theorem gives_iff {path name : List Char} {tag id : Option (List Char)} {query : List (List Char)} :
    (if path.isEmpty then .error .noRepository
      else if !path.all isPathChar then .error .character
      else if (splitTag path).1.isEmpty || (splitTag path).1.getLast? = some '/' || (splitTag path).2 = some [] then .error .repository
      else (contentId none query).map fun id => ((splitTag path).1, (splitTag path).2, id)) =
        (.ok (name, tag, id) : Except Flaw (List Char × Option (List Char) × Option (List Char))) ↔ Gives path query name tag id := by
  constructor
  · intro h
    split at h
    · cases h
    · split at h
      · cases h
      · rename_i hchars
        split at h
        · cases h
        · rename_i hwhole
          cases hid : contentId none query with
          | error e => simp [hid, Except.map] at h
          | ok content =>
            simp only [hid, Except.map, Except.ok.injEq, Prod.mk.injEq] at h
            obtain ⟨rfl, rfl, rfl⟩ := h
            simp only [Bool.or_eq_true, List.isEmpty_iff, decide_eq_true_eq, not_or] at hwhole
            exact ⟨by simpa using hchars, rfl, hwhole.1.1, hwhole.1.2, hwhole.2, hid⟩
  · rintro ⟨hchars, hsplit, hname, hlast, htag, hid⟩
    have hne : path ≠ [] := by
      rintro rfl
      cases hsplit
      exact hname rfl
    have hall : path.all isPathChar = true := List.all_eq_true.mpr hchars
    simp [hne, hall, hsplit, hname, hlast, htag, hid, Except.map]

/-- How the characters of a URI that names an image are taken apart: behind the scheme come the path of the repository, with slashes in
front of it or not, and the query, if there is one. -/
theorem parseChars_eq_ok_iff {uri name : List Char} {tag id : Option (List Char)} :
    parseChars uri = .ok (name, tag, id) ↔
      ∃ before after query, uri = scheme ++ before ++ after ∧ '?' ∉ before ∧
        (after = [] ∧ query = [] ∨ ∃ q, after = '?' :: q ∧ query = Text.pieces '&' q) ∧
        Gives (before.dropWhile (· = '/')) query name tag id := by
  constructor
  · intro h
    unfold parseChars at h
    split at h
    · cases h
    · rename_i rest hscheme
      have huri := Text.after?_eq_some_iff.mp hscheme
      -- the path ends where the query begins, if there is one
      cases hcut : Text.cutFirst '?' rest with
      | none =>
        rw [hcut] at h
        exact ⟨rest, [], [], by rw [huri, List.append_nil], Text.cutFirst_eq_none_iff.mp hcut, Or.inl ⟨rfl, rfl⟩, gives_iff.mp h⟩
      | some parts =>
        obtain ⟨before, q⟩ := parts
        rw [hcut] at h
        obtain ⟨hrest, hmark⟩ := Text.eq_of_cutFirst hcut
        refine ⟨before, '?' :: q, Text.pieces '&' q, ?_, hmark, Or.inr ⟨q, rfl, rfl⟩, gives_iff.mp h⟩
        rw [huri, hrest, List.append_assoc]
  · rintro ⟨before, after, query, rfl, hmark, hafter, hgives⟩
    unfold parseChars
    rw [List.append_assoc, Text.after?_eq_some_iff.mpr rfl]
    rcases hafter with ⟨rfl, rfl⟩ | ⟨q, rfl, rfl⟩
    · simp only [List.append_nil, Text.cutFirst_eq_none_iff.mpr hmark]
      exact gives_iff.mpr hgives
    · simp only [Text.cutFirst_append q hmark]
      exact gives_iff.mpr hgives

/-- An image is read as its characters are. -/
theorem parse_eq_ok_iff :
    parse uri = .ok i ↔ parseChars uri.toList = .ok (i.name.toList, i.tag.map String.toList, i.id.map String.toList) := by
  obtain ⟨name, tag, id⟩ := i
  unfold parse
  constructor
  · intro h
    cases hparts : parseChars uri.toList with
    | error e => simp [hparts, Except.map] at h
    | ok parts =>
      rw [hparts] at h
      cases h
      obtain ⟨name, tag, id⟩ := parts
      cases tag <;> cases id <;> simp
  · intro h
    rw [h]
    cases tag <;> cases id <;> simp [Except.map]

/-- An accepted image comes from a URI that is taken apart in this way. -/
theorem TakenFrom.of_parse (h : parse uri = .ok i) : ∃ slashes path after, TakenFrom uri i slashes path after := by
  obtain ⟨before, after, query, huri, -, hafter, hgives⟩ := parseChars_eq_ok_iff.mp (parse_eq_ok_iff.mp h)
  obtain ⟨n, hslashes⟩ := eq_replicate_append_dropWhile before
  refine ⟨n, before.dropWhile (· = '/'), after, ?_, ?_, ?_, hgives.name_ne, head_dropWhile_ne before, hgives.chars⟩
  · rw [huri, List.append_assoc scheme (List.replicate n '/'), ← hslashes]
  · rcases hafter with ⟨hnone, -⟩ | ⟨q, hq, -⟩
    · exact Or.inl hnone
    · exact Or.inr ⟨q, hq⟩
  · rw [eq_of_splitTag hgives.split]
    cases i.tag <;> rfl

/-- The short form of an image begins with its name. -/
theorem toList_display (i : ImageRef) : ∃ more, i.display.toList = i.name.toList ++ more := by
  unfold display
  rw [String.append_assoc, String.toList_append]
  exact ⟨_, rfl⟩

/-- The short form of an accepted image begins as the path in its URI does. -/
theorem TakenFrom.head_display {slashes : Nat} {path after : List Char} (h : TakenFrom uri i slashes path after) :
    i.display.toList.head? = path.head? := by
  obtain ⟨more, hdisplay⟩ := i.toList_display
  obtain ⟨c, cs, hname⟩ := List.exists_cons_of_ne_nil h.name_ne
  rw [hdisplay, h.path_eq, hname]
  rfl

/-- The short form of an accepted image begins with a character that is no slash exactly if the URI has it where its repository begins. -/
theorem head_display_iff (h : parse uri = .ok i) {c : Char} (hslash : c ≠ '/') :
    i.display.toList.head? = some c ↔ ∃ slashes rest, uri.toList = scheme ++ List.replicate slashes '/' ++ c :: rest := by
  obtain ⟨n, path, after, hreads⟩ := TakenFrom.of_parse h
  rw [hreads.head_display]
  constructor
  · intro hhead
    obtain ⟨rest, rfl⟩ := List.head?_eq_some_iff.mp hhead
    exact ⟨n, rest ++ after, by simp [hreads.uri_eq]⟩
  · rintro ⟨m, rest, huri⟩
    have hne : path ≠ [] := by
      rw [hreads.path_eq]
      simp [hreads.name_ne]
    obtain ⟨d, ds, rfl⟩ := List.exists_cons_of_ne_nil hne
    have hd : d ≠ '/' := by simpa using hreads.head_ne
    rw [hreads.uri_eq, List.append_assoc, List.append_assoc, List.append_assoc, List.append_cancel_left_eq] at huri
    -- both begin with as many slashes
    have hsame := congrArg (List.dropWhile (· = '/')) huri
    simp only [List.dropWhile_append, List.dropWhile_replicate] at hsame
    have hboth : d = c ∧ ds ++ after = rest := by simpa [hd, hslash] using hsame
    rw [hboth.1, List.head?_cons]

end ImageRef

end JobPlane
