import JobPlane.Cli.Arguments
import JobPlane.Local.Cluster
import JobPlane.Proofs.Text.Blank
import JobPlane.Proofs.Text.Cut

/-!
# Hosts that are checked and hosts that are added

The hosts of a configuration are checked before a cluster is made of them, and each is checked again where it is added. Both checks pass
the same hosts and stop at the same one (`addHosts_checked`, `addHosts_refused`), so a cluster of checked hosts has exactly these, and one
that cannot be made has the hosts before the one that the check names (`registered_as_checked`). On a command line, the hosts are what
stands between commas, without the blanks around it (`Cli.lists_iff`).
-/

namespace JobPlane

/-! ## The hosts on a command line -/

namespace Cli

open Text

/-- What a part of a list of hosts says: a host with blanks around it, or nothing where it is blank throughout. -/
inductive Says : List Char → List String → Prop
  | nothing {part : List Char} (hblank : ∀ c ∈ part, isBlank c = true) : Says part []
  | host {lead host trail : List Char} (hlead : ∀ c ∈ lead, isBlank c = true) (htrail : ∀ c ∈ trail, isBlank c = true)
      (hne : host ≠ []) (hfirst : isBlank (host.head hne) = false) (hlast : isBlank (host.getLast hne) = false) :
      Says (lead ++ host ++ trail) [String.ofList host]

/-- The hosts that a text lists: what its parts between commas say, in order. -/
inductive Lists : List Char → List String → Prop
  | last {part : List Char} {hosts : List String} (hcomma : ',' ∉ part) (hpart : Says part hosts) : Lists part hosts
  | cons {part rest : List Char} {hosts others : List String} (hcomma : ',' ∉ part) (hpart : Says part hosts)
      (hrest : Lists rest others) : Lists (part ++ ',' :: rest) (hosts ++ others)

/-- What is left of a part that is trimmed, if something is. -/
def said (part : List Char) : List String := if trim part = [] then [] else [String.ofList (trim part)]

variable {part : List Char} {hosts : List String} {text : String}

/-- A part says what is left of it when it is trimmed, and nothing else. -/
theorem says_iff : Says part hosts ↔ hosts = said part := by
  constructor
  · intro h
    cases h with
    | nothing hblank =>
      have htrim : trim part = [] := by
        rw [trim, trimLeft_blanks hblank]
        rfl
      rw [said, if_pos htrim]
    | host hlead htrail hne hfirst hlast => rw [said, trim_append _ hlead htrail, trim_eq_self hne hfirst hlast, if_neg hne]
  · rintro rfl
    obtain ⟨lead, trail, hpart, hlead, htrail⟩ := exists_blanks part
    unfold said
    split_ifs with hnone
    · refine .nothing fun c hc => ?_
      rw [hpart, hnone, List.append_nil, List.mem_append] at hc
      exact hc.elim (hlead c) (htrail c)
    · have hsays := Says.host hlead htrail hnone (isBlank_head_trim hnone) (isBlank_getLast_trim hnone)
      rwa [← hpart] at hsays

/-- The hosts of a list are told piece by piece. -/
theorem splitHosts_eq (text : String) : splitHosts text = (pieces ',' text.toList).flatMap said := by
  rw [splitHosts, splitAll]
  induction pieces ',' text.toList with
  | nil => rfl
  | cons part parts ih =>
    have hempty : (trimmed (String.ofList part)).isEmpty = decide (trim part = []) := by
      rw [Bool.eq_iff_iff]
      simp [trimmed, String.isEmpty_iff]
    rw [List.map_cons, List.map_cons, List.filter_cons, List.flatMap_cons, ih, hempty]
    by_cases hnone : trim part = []
    · simp [said, hnone]
    · simp [said, hnone, trimmed]

/-- What the pieces of a text say is listed by it. -/
theorem lists_pieces (cs : List Char) : Lists cs ((pieces ',' cs).flatMap said) := by
  -- what follows the first comma is shorter
  induction hlength : cs.length using Nat.strongRecOn generalizing cs with
  | ind length ih =>
    cases hcut : cutFirst ',' cs with
    | none =>
      have hcomma := cutFirst_eq_none_iff.mp hcut
      rw [pieces_of_notMem hcomma, List.flatMap_singleton]
      exact .last hcomma (says_iff.mpr rfl)
    | some cut =>
      obtain ⟨part, rest⟩ := cut
      obtain ⟨rfl, hcomma⟩ := eq_of_cutFirst hcut
      rw [pieces_append, pieces_of_notMem hcomma, List.singleton_append, List.flatMap_cons]
      refine .cons hcomma (says_iff.mpr rfl) (ih rest.length ?_ rest rfl)
      rw [← hlength, List.length_append, List.length_cons]
      omega

/-- A text lists the hosts that it is split into, and no others. -/
theorem lists_iff : Lists text.toList hosts ↔ hosts = splitHosts text := by
  rw [splitHosts_eq]
  generalize text.toList = cs
  constructor
  · intro h
    induction h with
    | last hcomma hpart => rw [says_iff.mp hpart, pieces_of_notMem hcomma, List.flatMap_singleton]
    | cons hcomma hpart _ ih =>
      rw [pieces_append, pieces_of_notMem hcomma, List.singleton_append, List.flatMap_cons, ← says_iff.mp hpart, ← ih]
  · rintro rfl
    exact lists_pieces cs

end Cli

/-! ## The check, and the hosts that are added -/

/-- What is wrong with a host that comes after others. -/
def ConfigError.Blames (e : ConfigError) (before : List String) (host : String) : Prop :=
  (e = .invalidHost host ∧ isHostId host = false) ∨ (e = .duplicateHost host ∧ isHostId host = true ∧ host ∈ before)

/-- What is wrong with a host is so no matter in what order those before it are given. -/
theorem ConfigError.Blames.of_mem {e : ConfigError} {xs ys : List String} {host : String} (h : e.Blames xs host)
    (hsub : ∀ x ∈ xs, x ∈ ys) : e.Blames ys host := by
  rcases h with h | ⟨he, hvalid, hmem⟩
  · exact Or.inl h
  · exact Or.inr ⟨he, hvalid, hsub host hmem⟩

namespace Config

variable {before : List String}

/-- A host that is fit and not yet given leaves the hosts after it to be checked. -/
theorem checkHosts_cons_fit {h : String} {hs : List String} (hvalid : isHostId h = true) (hnew : h ∉ before) :
    checkHosts before (h :: hs) = checkHosts (h :: before) hs := by
  have hcontains : before.contains h = false := by simpa using hnew
  rw [checkHosts, hvalid, hcontains]
  rfl

/-- A host that is not fit, or given already, ends the check, whatever hosts come after it. -/
theorem checkHosts_cons_unfit {e : ConfigError} {h : String} {hs : List String} (hblames : e.Blames before h) :
    checkHosts before (h :: hs) = .error e := by
  rcases hblames with ⟨rfl, hinvalid⟩ | ⟨rfl, hvalid, hmem⟩
  · rw [checkHosts, hinvalid]
    rfl
  · have hcontains : before.contains h = true := by simpa using hmem
    rw [checkHosts, hvalid, hcontains]
    rfl

/-- A host is fit and not yet given, or something is wrong with it. -/
theorem fit_or_blames (before : List String) (h : String) :
    (isHostId h = true ∧ h ∉ before) ∨ ∃ e : ConfigError, e.Blames before h := by
  by_cases hvalid : isHostId h = true
  · by_cases hmem : h ∈ before
    · exact Or.inr ⟨.duplicateHost h, Or.inr ⟨rfl, hvalid, hmem⟩⟩
    · exact Or.inl ⟨hvalid, hmem⟩
  · exact Or.inr ⟨.invalidHost h, Or.inl ⟨rfl, by simpa using hvalid⟩⟩

end Config

namespace LocalCluster

variable {c : LocalCluster} {before : List String} {x : String}

/-- A cluster with hosts added to it on which nothing runs. -/
def withNew (c : LocalCluster) (ids : List String) : LocalCluster := { c with hosts := c.hosts ++ ids.map fun id => { id } }

/-- Hosts are added one after another. -/
theorem withNew_cons (c : LocalCluster) (x : String) (xs : List String) : c.withNew (x :: xs) = (c.withNew [x]).withNew xs := by
  simp [withNew]

/-- The hosts of a cluster are those that were given. -/
def Has (c : LocalCluster) (before : List String) : Prop := ∀ x, (c.host? x).isSome ↔ x ∈ before

/-- A cluster without hosts has none of those given. -/
theorem has_nil (hc : c.hosts = []) : c.Has [] := by
  intro x
  simp [host?, hc]

/-- A host that is added is one of those given. -/
theorem Has.withNew (h : c.Has before) (x : String) : (c.withNew [x]).Has (x :: before) := by
  intro y
  have hy := h y
  simp only [host?, List.find?_isSome, beq_iff_eq] at hy
  simp only [host?, List.find?_isSome, beq_iff_eq, LocalCluster.withNew, List.map_cons, List.map_nil, List.mem_append,
    List.mem_cons, List.not_mem_nil, or_false, ← hy]
  constructor
  · rintro ⟨g, hg | rfl, rfl⟩
    · exact Or.inr ⟨g, hg, rfl⟩
    · exact Or.inl rfl
  · rintro (rfl | ⟨g, hg, rfl⟩)
    · exact ⟨{ id := y }, Or.inr rfl, rfl⟩
    · exact ⟨g, Or.inl hg, rfl⟩

/-- A host that is fit and not yet there is added, and nothing else changes. -/
theorem addHost_fit (h : c.Has before) (hvalid : isHostId x = true) (hnew : x ∉ before) : c.addHost x = .ok (c.withNew [x]) := by
  have hnone : c.host? x = none := by
    rw [← Option.not_isSome_iff_eq_none, h x]
    exact hnew
  rw [addHost, hvalid, hnone]
  rfl

/-- A host that is not fit, or there already, is not added. -/
theorem addHost_unfit {e : ConfigError} (h : c.Has before) (hblames : e.Blames before x) :
    ∃ reason, c.addHost x = .error (.unavailable reason) := by
  rcases hblames with ⟨rfl, hinvalid⟩ | ⟨rfl, hvalid, hmem⟩
  · exact ⟨_, by rw [addHost, hinvalid]; rfl⟩
  · obtain ⟨g, hg⟩ := Option.isSome_iff_exists.mp ((h x).mpr hmem)
    exact ⟨_, by rw [addHost, hvalid, hg]; rfl⟩

/-- Hosts that pass the check are all added. -/
theorem addHosts_checked {xs : List String} (h : c.Has before) (hcheck : Config.checkHosts before xs = .ok ()) :
    c.addHosts xs = (c.withNew xs, .ok ()) ∧ xs.Nodup ∧ ∀ x ∈ xs, x ∉ before := by
  induction xs generalizing c before with
  | nil => simp [addHosts, withNew]
  | cons x xs ih =>
    rcases Config.fit_or_blames before x with ⟨hvalid, hnew⟩ | ⟨e, hblames⟩
    · rw [Config.checkHosts_cons_fit hvalid hnew] at hcheck
      obtain ⟨hadd, hnodup, hfresh⟩ := ih (h.withNew x) hcheck
      refine ⟨?_, ?_, ?_⟩
      · rw [withNew_cons, addHosts, addHost_fit h hvalid hnew]
        exact hadd
      · rw [List.nodup_cons]
        exact ⟨fun hmem => hfresh x hmem List.mem_cons_self, hnodup⟩
      · intro y hy
        rcases List.mem_cons.mp hy with rfl | hy
        · exact hnew
        · exact fun hmem => hfresh y hy (List.mem_cons_of_mem x hmem)
    · rw [Config.checkHosts_cons_unfit hblames] at hcheck
      cases hcheck

/-- Hosts that do not pass the check are added up to the one that it names, which is not. -/
theorem addHosts_refused {xs : List String} {e : ConfigError} (h : c.Has before) (hcheck : Config.checkHosts before xs = .error e) :
    ∃ pre x post reason, xs = pre ++ x :: post ∧ Config.checkHosts before pre = .ok () ∧
      Config.checkHosts before (pre ++ [x]) = .error e ∧ e.Blames (pre.reverse ++ before) x ∧
      c.addHosts xs = (c.withNew pre, .error (.unavailable reason)) ∧ (c.withNew pre).addHost x = .error (.unavailable reason) := by
  induction xs generalizing c before with
  | nil => cases hcheck
  | cons x xs ih =>
    rcases Config.fit_or_blames before x with ⟨hvalid, hnew⟩ | ⟨e', hblames⟩
    · rw [Config.checkHosts_cons_fit hvalid hnew] at hcheck
      obtain ⟨pre, y, post, reason, rfl, hpre, hstop, hblames, hadd, hrefused⟩ := ih (h.withNew x) hcheck
      refine ⟨x :: pre, y, post, reason, rfl, ?_, ?_, ?_, ?_, ?_⟩
      · rw [Config.checkHosts_cons_fit hvalid hnew, hpre]
      · rw [List.cons_append, Config.checkHosts_cons_fit hvalid hnew, hstop]
      · rw [List.reverse_cons, List.append_assoc, List.singleton_append]
        exact hblames
      · rw [withNew_cons, addHosts, addHost_fit h hvalid hnew]
        exact hadd
      · rw [withNew_cons]
        exact hrefused
    · rw [Config.checkHosts_cons_unfit hblames] at hcheck
      cases hcheck
      obtain ⟨reason, hrefused⟩ := addHost_unfit h hblames
      have hnone : c.withNew [] = c := by simp [withNew]
      refine ⟨[], x, xs, reason, rfl, rfl, Config.checkHosts_cons_unfit hblames, hblames, ?_, ?_⟩
      · rw [addHosts, hrefused, hnone]
      · rw [hnone, hrefused]

/-- Nothing runs on a new host. -/
theorem snapshot_new (id : String) : ({ id } : LocalHost).snapshot = { id, jobs := [] } := by simp [LocalHost.snapshot]

/-- Hosts that were added are listed under their IDs, without jobs. -/
theorem hosts_withNew (hc : c.hosts = []) (ids : List String) :
    (Cluster.hosts (c.withNew ids)).1 = .ok (ids.map fun id => (id, { id, jobs := [] })) := by
  have hlisted : (c.withNew ids).snapshot = ids.map fun id => (id, { id, jobs := [] }) := by
    simp [snapshot, withNew, hc, snapshot_new]
  exact congrArg Except.ok hlisted

end LocalCluster

namespace Config

/-- The cluster that is made of a configuration's hosts, and what came of it. -/
def registered (c : Config) : LocalCluster × Except ClusterError Unit :=
  ({ runtime := c.runtime, sandbox := c.sandbox } : LocalCluster).addHosts c.hosts

/-- The check of a configuration's hosts says what comes of making a cluster of them. -/
structure Foretells (c : Config) : Prop where
  /-- Hosts that pass are registered and listed, each once and under its own ID, and no job is on them. -/
  accepted : c.validate = .ok () →
    c.registered.2 = .ok () ∧ c.hosts.Nodup ∧
    (Cluster.hosts c.registered.1).1 = .ok (c.hosts.map fun id => (id, { id, jobs := [] }))
  /-- Where the check stops at a host, so does registering, and exactly the hosts before that one are registered. -/
  rejected : ∀ e, c.validate = .error e → c.hosts ≠ [] →
    ∃ before host after reason, c.hosts = before ++ host :: after ∧ e.Blames before host ∧
      (before ≠ [] → ({ c with hosts := before } : Config).validate = .ok ()) ∧
      ({ c with hosts := before ++ [host] } : Config).validate = .error e ∧
      c.registered.2 = .error (.unavailable reason) ∧ c.registered.1.addHost host = .error (.unavailable reason) ∧
      (Cluster.hosts c.registered.1).1 = .ok (before.map fun id => (id, { id, jobs := [] }))

/-- A configuration that has hosts is checked by them. -/
theorem validate_eq_checkHosts {c : Config} (h : c.hosts ≠ []) : c.validate = checkHosts [] c.hosts := by
  have hsome : c.hosts.isEmpty = false := by simpa using h
  rw [validate, hsome]
  rfl

/-- The check and the making of a cluster agree on the hosts of any configuration. -/
theorem foretells (c : Config) : c.Foretells := by
  have hbare : ({ runtime := c.runtime, sandbox := c.sandbox } : LocalCluster).Has [] := LocalCluster.has_nil rfl
  refine ⟨fun hok => ?_, fun e he hsome => ?_⟩
  · have hsome : c.hosts ≠ [] := by
      intro hnone
      simp [validate, hnone] at hok
    rw [validate_eq_checkHosts hsome] at hok
    obtain ⟨hadd, hnodup, -⟩ := LocalCluster.addHosts_checked hbare hok
    rw [registered, hadd]
    exact ⟨rfl, hnodup, LocalCluster.hosts_withNew rfl _⟩
  · rw [validate_eq_checkHosts hsome] at he
    obtain ⟨before, host, after, reason, hsplit, hbefore, hstop, hblames, hadd, hrefused⟩ := LocalCluster.addHosts_refused hbare he
    have hregistered : c.registered = _ := hadd
    rw [hregistered]
    refine ⟨before, host, after, reason, hsplit, hblames.of_mem (by simp), fun hne => ?_, ?_, rfl, hrefused,
      LocalCluster.hosts_withNew rfl _⟩
    · exact (validate_eq_checkHosts (c := { c with hosts := before }) hne).trans hbefore
    · exact (validate_eq_checkHosts (c := { c with hosts := before ++ [host] }) (by simp)).trans hstop

/-- For every configuration, and so for every text of hosts on the command line, the check of its hosts and the making of a cluster of them
agree: they pass the same lists, and stop at the same host. The hosts of a text are what stands between its commas, in order, without the
blanks around it and where anything is left. -/
theorem registered_as_checked (c : Config) :
    c.Foretells ∧
    ∀ text, ∃ c', Cli.Setting.hosts.apply text c = .ok c' ∧ c'.hosts = Cli.splitHosts text ∧
      (∀ hosts, Cli.Lists text.toList hosts ↔ hosts = c'.hosts) ∧ c'.Foretells :=
  ⟨foretells c, fun _ => ⟨_, rfl, rfl, fun _ => Cli.lists_iff, foretells _⟩⟩

example : ({ hosts := ["a", "b", "a", "c"] } : Config).validate = .error (.duplicateHost "a") ∧
    (registered { hosts := ["a", "b", "a", "c"] }).1.hosts.map (·.id) = ["a", "b"] := ⟨rfl, rfl⟩

end Config

end JobPlane
