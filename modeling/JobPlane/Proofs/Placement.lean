import Mathlib.Data.List.Nodup
import JobPlane.Placement
import JobPlane.Proofs.Text.Order

/-!
# The host with the fewest jobs

A host stands before another if it has fewer jobs, or as many and the smaller ID. That is an order in which only hosts of one ID stand
level, so among several hosts the ID of the foremost does not depend on where they are looked for (`leastLoaded_eq_ok_iff`), and it
stays the same as long as that host is there, has no more jobs than before, and every other host has at least as many
(`Foremost.of_heavier`). `least_loaded_choice` says what this comes to for a cluster.
-/

namespace JobPlane

namespace Snapshot

/-- Each host is under its own ID, and no two are under the same. -/
structure Keyed (s : Snapshot) : Prop where
  key_eq : ∀ e ∈ s, e.1 = e.2.id
  distinct : (s.map (·.1)).Nodup

/-- What is left of a snapshot without the host under a key. -/
def without (s : Snapshot) (key : String) : Snapshot := s.filter (·.1 ≠ key)

variable {s : Snapshot} {key : String} {g h : HostSnapshot} {e : String × HostSnapshot}

/-- A host is there under its own ID. -/
theorem Keyed.mem_of_host (hs : s.Keyed) (hh : h ∈ s.map (·.2)) : (h.id, h) ∈ s := by
  obtain ⟨e, he, rfl⟩ := List.mem_map.mp hh
  rw [← hs.key_eq e he]
  exact he

/-- Two hosts of one ID are the same. -/
theorem Keyed.eq_of_id_eq (hs : s.Keyed) (hg : (g.id, g) ∈ s) (hh : (h.id, h) ∈ s) (hid : g.id = h.id) : g = h := by
  have heq := List.inj_on_of_nodup_map hs.distinct hg hh hid
  exact congrArg Prod.snd heq

/-- A host that is put in is there, and every host is that one or was there before. -/
theorem eq_or_mem_of_mem_insert (he : e ∈ s.insert key h) : e = (key, h) ∨ e ∈ s := by
  unfold insert at he
  split at he
  · obtain ⟨d, hd, rfl⟩ := List.mem_map.mp he
    split
    · exact Or.inl rfl
    · exact Or.inr hd
  · rcases List.mem_append.mp he with hold | hnew
    · exact Or.inr hold
    · exact Or.inl (List.mem_singleton.mp hnew)

/-- A host under another key stays when one is put in. -/
theorem mem_insert_of_ne (he : e ∈ s) (hne : e.1 ≠ key) : e ∈ s.insert key h := by
  unfold insert
  split
  · exact List.mem_map.mpr ⟨e, he, if_neg (by simpa using hne)⟩
  · exact List.mem_append_left _ he

end Snapshot

namespace Selector

variable {a b c g h : HostSnapshot} {hosts : List HostSnapshot}

/-! ## The order of hosts -/

/-- A host is preferred for having fewer jobs, or as many and the smaller ID. -/
theorem preferred_iff : preferred a b = true ↔
    a.jobs.length < b.jobs.length ∨ a.jobs.length = b.jobs.length ∧ a.id < b.id := by
  simp [preferred]

/-- A host is not preferred to another exactly if it has more jobs, or as many and no smaller ID. -/
theorem not_preferred_iff : preferred a b = false ↔
    b.jobs.length < a.jobs.length ∨ b.jobs.length = a.jobs.length ∧ b.id ≤ a.id := by
  rw [← Bool.not_eq_true, preferred_iff, ← String.not_lt]
  constructor
  · intro hnot
    rcases Nat.lt_trichotomy b.jobs.length a.jobs.length with hlt | heq | hgt
    · exact Or.inl hlt
    · exact Or.inr ⟨heq, fun hid => hnot (Or.inr ⟨heq.symm, hid⟩)⟩
    · exact absurd (Or.inl hgt) hnot
  · rintro (hlt | ⟨heq, hid⟩) (hgt | ⟨heq', hid'⟩)
    · omega
    · omega
    · omega
    · exact hid hid'

/-- No host is preferred to itself. -/
theorem not_preferred_self (a : HostSnapshot) : preferred a a = false :=
  not_preferred_iff.mpr (Or.inr ⟨rfl, String.le_refl _⟩)

/-- Of two hosts at most one is preferred to the other. -/
theorem not_preferred_of_preferred (hab : preferred a b = true) : preferred b a = false := by
  rcases preferred_iff.mp hab with hlt | ⟨heq, hid⟩
  · exact not_preferred_iff.mpr (Or.inl hlt)
  · exact not_preferred_iff.mpr (Or.inr ⟨heq, String.not_lt.mp (String.lt_asymm hid)⟩)

/-- What is not preferred to a host is not preferred to one before it either. -/
theorem not_preferred_trans (hba : preferred b a = false) (hcb : preferred c b = false) : preferred c a = false := by
  rw [not_preferred_iff] at hba hcb ⊢
  rcases hba with hba | ⟨hba, hid⟩ <;> rcases hcb with hcb | ⟨hcb, hid'⟩
  · exact Or.inl (by omega)
  · exact Or.inl (by omega)
  · exact Or.inl (by omega)
  · exact Or.inr ⟨hba.trans hcb, String.le_trans hid hid'⟩

/-! ## The foremost of several hosts -/

/-- One of several hosts to which none of them is preferred. -/
structure Foremost (h : HostSnapshot) (hosts : List HostSnapshot) : Prop where
  mem : h ∈ hosts
  least : ∀ g ∈ hosts, preferred g h = false

/-- Going through the hosts and keeping the better one each time ends with the foremost. -/
theorem foremost_foldl (h : HostSnapshot) (hosts : List HostSnapshot) :
    Foremost (hosts.foldl (fun best h => if preferred h best then h else best) h) (h :: hosts) := by
  induction hosts generalizing h with
  | nil =>
    refine ⟨List.mem_singleton_self h, fun g hg => ?_⟩
    rw [List.mem_singleton.mp hg]
    exact not_preferred_self h
  | cons g hosts ih =>
    rw [List.foldl_cons]
    by_cases hgh : preferred g h = true
    · rw [if_pos hgh]
      obtain ⟨hmem, hleast⟩ := ih g
      refine ⟨List.mem_cons_of_mem h hmem, fun x hx => ?_⟩
      rcases List.mem_cons.mp hx with rfl | hx
      · exact not_preferred_trans (hleast g List.mem_cons_self) (not_preferred_of_preferred hgh)
      · exact hleast x hx
    · rw [if_neg hgh]
      obtain ⟨hmem, hleast⟩ := ih h
      refine ⟨?_, fun x hx => ?_⟩
      · rcases List.mem_cons.mp hmem with heq | hmem
        · rw [heq]
          exact List.mem_cons_self
        · exact List.mem_cons_of_mem h (List.mem_cons_of_mem g hmem)
      · rcases List.mem_cons.mp hx with rfl | hx
        · exact hleast x List.mem_cons_self
        · rcases List.mem_cons.mp hx with rfl | hx
          · exact not_preferred_trans (hleast h List.mem_cons_self) (by simpa using hgh)
          · exact hleast x (List.mem_cons_of_mem h hx)

/-- No host has fewer jobs than the foremost. -/
theorem Foremost.jobs_le (hh : Foremost h hosts) (hg : g ∈ hosts) : h.jobs.length ≤ g.jobs.length := by
  rcases not_preferred_iff.mp (hh.least g hg) with hlt | ⟨heq, -⟩
  · exact Nat.le_of_lt hlt
  · exact Nat.le_of_eq heq

/-- No host with as few jobs as the foremost has a smaller ID. -/
theorem Foremost.id_le (hh : Foremost h hosts) (hg : g ∈ hosts) (heq : g.jobs.length = h.jobs.length) : h.id ≤ g.id := by
  rcases not_preferred_iff.mp (hh.least g hg) with hlt | ⟨-, hid⟩
  · omega
  · exact hid

/-- Two hosts that are both the foremost have the same ID. -/
theorem Foremost.id_eq (ha : Foremost a hosts) (hb : Foremost b hosts) : a.id = b.id := by
  have hjobs : a.jobs.length = b.jobs.length := Nat.le_antisymm (ha.jobs_le hb.mem) (hb.jobs_le ha.mem)
  exact String.le_antisymm (ha.id_le hb.mem hjobs.symm) (hb.id_le ha.mem hjobs)

/-- The foremost host stays the foremost among hosts each of which was there before, with the same ID and at most as many jobs. -/
theorem Foremost.of_heavier {others : List HostSnapshot} (hh : Foremost h hosts) (hmem : h ∈ others)
    (heavier : ∀ g ∈ others, ∃ g' ∈ hosts, g'.id = g.id ∧ g'.jobs.length ≤ g.jobs.length) : Foremost h others := by
  refine ⟨hmem, fun g hg => ?_⟩
  obtain ⟨g', hg', hid, hjobs⟩ := heavier g hg
  refine not_preferred_trans (hh.least g' hg') (not_preferred_iff.mpr ?_)
  rcases Nat.lt_or_eq_of_le hjobs with hlt | heq
  · exact Or.inl hlt
  · exact Or.inr ⟨heq, hid ▸ String.le_refl _⟩

/-- The foremost host of a snapshot stays the foremost of one whose hosts were there before, with at most as many jobs. -/
theorem Foremost.kept {s t : Snapshot} (hh : Foremost h (s.map (·.2))) (ht : (h.id, h) ∈ t)
    (heavier : ∀ e ∈ t, ∃ e' ∈ s, e'.2.id = e.2.id ∧ e'.2.jobs.length ≤ e.2.jobs.length) : Foremost h (t.map (·.2)) := by
  refine hh.of_heavier (List.mem_map_of_mem ht) fun g hg => ?_
  obtain ⟨e, he, rfl⟩ := List.mem_map.mp hg
  obtain ⟨e', he', hid, hjobs⟩ := heavier e he
  exact ⟨e'.2, List.mem_map_of_mem he', hid, hjobs⟩

/-- The host that is chosen is the foremost, wherever it stands. -/
theorem leastLoaded_eq_ok_iff {s : Snapshot} {id : String} :
    leastLoaded s = .ok id ↔ ∃ h, Foremost h (s.map (·.2)) ∧ h.id = id := by
  unfold leastLoaded
  split
  · rename_i hnone
    rw [hnone]
    constructor
    · intro h
      cases h
    · rintro ⟨h, hh, -⟩
      exact absurd hh.mem (List.not_mem_nil)
  · rename_i first rest hsome
    rw [hsome]
    have hbest := foremost_foldl first rest
    constructor
    · intro h
      cases h
      exact ⟨_, hbest, rfl⟩
    · rintro ⟨h, hh, rfl⟩
      rw [hbest.id_eq hh]

/-- The foremost host of a snapshot is chosen in whatever order its hosts come. -/
theorem Foremost.chosen {s order : Snapshot} (hh : Foremost h (s.map (·.2))) (hperm : order.Perm s) :
    leastLoaded order = .ok h.id := by
  have hhosts := hperm.map (·.2)
  refine leastLoaded_eq_ok_iff.mpr ⟨h, ⟨hhosts.mem_iff.mpr hh.mem, fun g hg => ?_⟩, rfl⟩
  exact hh.least g (hhosts.mem_iff.mp hg)

/-! ## The choice in a cluster -/

/-- The choice among the hosts of a cluster. In whatever order they come, it is the same one of them: it has no more jobs than any other,
and of those that have as few the ID that is smallest byte by byte. It stays the same when another host gets more jobs, and when another
host is left out. -/
theorem least_loaded_choice {s : Snapshot} (hne : s ≠ []) (hkeyed : s.Keyed) :
    ∃ h, (h.id, h) ∈ s ∧
      (∀ g, (g.id, g) ∈ s → h.jobs.length ≤ g.jobs.length ∧
        (g.jobs.length = h.jobs.length → g ≠ h → Bytes.ofText h.id < Bytes.ofText g.id)) ∧
      ∀ order : Snapshot,
        (order.Perm s → leastLoaded order = .ok h.id) ∧
        (∀ g jobs, (g.id, g) ∈ s → g.id ≠ h.id → g.jobs.Sublist jobs → order.Perm (s.insert g.id { g with jobs }) →
          leastLoaded order = .ok h.id) ∧
        (∀ key, key ≠ h.id → order.Perm (s.without key) → leastLoaded order = .ok h.id) := by
  obtain ⟨first, rest, hcons⟩ := List.exists_cons_of_ne_nil hne
  obtain ⟨h, hh⟩ : ∃ h, Foremost h (s.map (·.2)) := by
    rw [hcons, List.map_cons]
    exact ⟨_, foremost_foldl first.2 _⟩
  have hmem : (h.id, h) ∈ s := hkeyed.mem_of_host hh.mem
  refine ⟨h, hmem, fun g hg => ?_, fun order => ⟨hh.chosen, ?_, ?_⟩⟩
  · have hg' : g ∈ s.map (·.2) := List.mem_map_of_mem hg
    refine ⟨hh.jobs_le hg', fun heq hother => Utf8.ofText_lt_iff.mpr ?_⟩
    refine Decidable.byContradiction fun hnot => hother ?_
    have hids : g.id = h.id := String.le_antisymm (String.not_lt.mp hnot) (hh.id_le hg' heq)
    exact hkeyed.eq_of_id_eq hg hmem hids
  · intro g jobs hg hother hmore hperm
    refine (hh.kept (Snapshot.mem_insert_of_ne hmem (Ne.symm hother)) fun e he => ?_).chosen hperm
    rcases Snapshot.eq_or_mem_of_mem_insert he with rfl | he
    · exact ⟨(g.id, g), hg, rfl, hmore.length_le⟩
    · exact ⟨e, he, rfl, Nat.le_refl _⟩
  · intro key hother hperm
    refine (hh.kept ?_ fun e he => ?_).chosen hperm
    · exact List.mem_filter.mpr ⟨hmem, by simpa using Ne.symm hother⟩
    · exact ⟨e, (List.mem_filter.mp he).1, rfl, Nat.le_refl _⟩

/-- Three hosts, of which two have as many jobs. -/
def threeHosts : Snapshot := [("hb", ⟨"hb", [{}]⟩), ("hc", ⟨"hc", [{}, {}]⟩), ("ha", ⟨"ha", [{}]⟩)]

/-- The smaller ID is chosen of the two, whatever comes first, whether the other one gets a job or the third host goes. -/
theorem least_loaded_choice_of_three : threeHosts.Keyed ∧ leastLoaded threeHosts.reverse = .ok "ha" ∧
    leastLoaded (threeHosts.insert "hb" ⟨"hb", [{}, {}]⟩) = .ok "ha" ∧ leastLoaded (threeHosts.without "hc") = .ok "ha" := by
  have hkeyed : threeHosts.Keyed := ⟨by simp [threeHosts], by simp [threeHosts]⟩
  obtain ⟨h, -, -, hstays⟩ := least_loaded_choice (by simp [threeHosts]) hkeyed
  have hid : h.id = "ha" := by
    have hchosen := (hstays threeHosts).1 (List.Perm.refl _)
    have hseen : leastLoaded threeHosts = .ok "ha" := by rfl
    exact Except.ok.inj (hchosen.symm.trans hseen)
  rw [hid] at hstays
  refine ⟨hkeyed, (hstays _).1 (List.reverse_perm _), ?_, ?_⟩
  · exact (hstays _).2.1 ⟨"hb", [{}]⟩ _ (by simp [threeHosts]) (by decide) (List.sublist_cons_self _ _) (List.Perm.refl _)
  · exact (hstays _).2.2 "hc" (by decide) (List.Perm.refl _)

end Selector

end JobPlane
