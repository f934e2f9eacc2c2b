import JobPlane.Local.Container
import JobPlane.Proofs.Image

/-!
# Reading the arguments of a container back

A container runtime reads the arguments it is started with from left to right: what begins with a dash is an option, the first argument
that does not is the image, and all that follow are the command. `arguments_read_back` says when what it reads is what the job and the
sandbox say.
-/

namespace JobPlane.Container

/-! ## Reading -/

/-- What a runtime makes of the arguments that it is started with. -/
structure Invocation where
  options : List String := []
  env : List String := []
  image : String
  cmd : List String := []
  deriving DecidableEq

/-- An argument that is read as an option. -/
def isOption (a : String) : Bool := a.toList.head? == some '-'

/-- The option that takes the argument after it as its value. -/
def envOption : String := "--env"

/-- What is read behind some options and variables. -/
def Invocation.behind (options env : List String) (i : Invocation) : Invocation :=
  { i with options := options ++ i.options, env := env ++ i.env }

/-- Reads options up to the image, and then the command; nothing if no image comes. `value` says that the next argument is the value of
the option before it. -/
def readFrom (value : Bool) : List String → Option Invocation
  | [] => none
  | a :: rest =>
    if value then (readFrom false rest).map (.behind [] [a])
    else if a = envOption then readFrom true rest
    else if isOption a then (readFrom false rest).map (.behind [a] [])
    else some { image := a, cmd := rest }

/-- Reads the arguments of a runtime that is to run something. -/
def read : List String → Option Invocation
  | [] => none
  | verb :: rest => if verb = "run" then readFrom false rest else none

theorem map_behind_nil (i : Option Invocation) : i.map (.behind [] []) = i := by
  cases i <;> rfl

/-- An argument that is no option is the image. -/
theorem readFrom_image {a : String} (h : isOption a = false) (rest : List String) :
    readFrom false (a :: rest) = some { image := a, cmd := rest } := by
  have hne : a ≠ envOption := by
    rintro rfl
    exact absurd h (by decide)
  simp [readFrom, hne, h]

/-- Options without a value of their own are options, and reading goes on behind them. -/
theorem readFrom_options {os : List String} (h : ∀ o ∈ os, isOption o = true ∧ o ≠ envOption) (rest : List String) :
    readFrom false (os ++ rest) = (readFrom false rest).map (.behind os []) := by
  induction os with
  | nil => rw [List.nil_append, map_behind_nil]
  | cons o os ih =>
    obtain ⟨hoption, hne⟩ := h o List.mem_cons_self
    have hrest := ih fun o' ho' => h o' (List.mem_cons_of_mem o ho')
    rw [List.cons_append, readFrom, if_neg (by simp), if_neg hne, if_pos hoption, hrest, Option.map_map]
    rfl

/-- Variables are variables whatever is in them, and reading goes on behind them. -/
theorem readFrom_env (es rest : List String) :
    readFrom false (es.flatMap (fun e => [envOption, e]) ++ rest) = (readFrom false rest).map (.behind [] es) := by
  induction es with
  | nil => rw [List.flatMap_nil, List.nil_append, map_behind_nil]
  | cons e es ih =>
    rw [List.flatMap_cons, List.append_assoc, List.cons_append, List.cons_append, List.nil_append, readFrom, if_neg (by simp),
      if_pos rfl, readFrom, if_pos rfl, ih, Option.map_map]
    rfl

/-- Where the first argument is an option, an option or a variable is read. -/
theorem of_readFrom_option {a : String} {rest : List String} {i : Invocation} (h : isOption a = true)
    (hread : readFrom false (a :: rest) = some i) : i.options ≠ [] ∨ i.env ≠ [] := by
  rw [readFrom, if_neg (by simp)] at hread
  split at hread
  · right
    cases rest with
    | nil => cases hread
    | cons value rest =>
      rw [readFrom, if_pos rfl] at hread
      obtain ⟨i', -, rfl⟩ := Option.map_eq_some_iff.mp hread
      simp [Invocation.behind]
  · left
    obtain ⟨i', -, rfl⟩ := Option.map_eq_some_iff.mp hread
    simp [Invocation.behind]

/-! ## The sandbox's options -/

/-- The options that a sandbox sets for a job. -/
inductive Chosen (s : Sandbox) (j : JobSpec) : String → Prop
  | remove : Chosen s j "--rm"
  | name : Chosen s j ("--name=jobgate-" ++ j.id)
  | interactive (h : j.config.attachStdin = true) : Chosen s j "--interactive"
  | tty (h : j.config.tty = true) : Chosen s j "--tty"
  | network (h : s.networkDisabled = true) : Chosen s j "--network=none"
  | memory {limit : String} (h : s.memoryLimit = some limit) : Chosen s j ("--memory=" ++ limit)
  | cpus {limit : String} (h : s.cpuLimit = some limit) : Chosen s j ("--cpus=" ++ limit)
  | capabilities : Chosen s j "--cap-drop=ALL"
  | privileges : Chosen s j "--security-opt=no-new-privileges"
  | readOnly : Chosen s j "--read-only"

variable {s : Sandbox} {j : JobSpec} {o : String}

/-- The name of a job's container as an option. -/
theorem nameOption_eq (j : JobSpec) : "--name=" ++ name j = "--name=jobgate-" ++ j.id := by
  have hlead : "--name=jobgate-" = "--name=" ++ "jobgate-" := by decide
  rw [hlead, String.append_assoc]
  rfl

/-- The options of a job are those that the sandbox sets for it, and no others. -/
theorem mem_options : o ∈ options s j ↔ Chosen s j o := by
  rw [options, nameOption_eq]
  constructor
  · intro h
    simp only [List.mem_append, List.mem_cons, List.not_mem_nil, or_false] at h
    rcases h with ((((((rfl | rfl) | h) | h) | h) | h) | h) | rfl | rfl | rfl
    · exact .remove
    · exact .name
    · split at h
      · rw [List.mem_singleton.mp h]
        exact .interactive (by assumption)
      · cases h
    · split at h
      · rw [List.mem_singleton.mp h]
        exact .tty (by assumption)
      · cases h
    · split at h
      · rw [List.mem_singleton.mp h]
        exact .network (by assumption)
      · cases h
    · split at h
      · rw [List.mem_singleton.mp h]
        exact .memory (by assumption)
      · cases h
    · split at h
      · rw [List.mem_singleton.mp h]
        exact .cpus (by assumption)
      · cases h
    · exact .capabilities
    · exact .privileges
    · exact .readOnly
  · intro h
    cases h <;> simp [*]

/-- An argument that begins as an option does is one, and it is not the option for variables if it differs from that early. -/
theorem isOption_append {lead : String} (h : isOption lead = true) (hother : ¬lead.toList <+: envOption.toList) (value : String) :
    isOption (lead ++ value) = true ∧ lead ++ value ≠ envOption := by
  constructor
  · simp only [isOption, beq_iff_eq] at h ⊢
    obtain ⟨cs, hcs⟩ := List.head?_eq_some_iff.mp h
    rw [String.toList_append, hcs, List.cons_append, List.head?_cons]
  · intro heq
    refine hother ⟨value.toList, ?_⟩
    rw [← String.toList_append, heq]

/-- The sandbox's options are read as options. -/
theorem Chosen.isOption (h : Chosen s j o) : isOption o = true ∧ o ≠ envOption := by
  cases h
  case name => exact isOption_append (by decide) (by decide) _
  case memory => exact isOption_append (by decide) (by decide) _
  case cpus => exact isOption_append (by decide) (by decide) _
  all_goals decide

/-! ## Reading back -/

/-- What is read of a job's arguments: the sandbox's options and the job's environment, and then whatever the image and the command come
to by themselves. -/
theorem read_runArguments (s : Sandbox) (j : JobSpec) :
    read (runArguments s j) =
      (readFrom false (j.config.image.display :: j.config.cmd)).map (.behind (options s j) j.config.env) := by
  have hoptions : ∀ o ∈ options s j, isOption o = true ∧ o ≠ envOption := fun o ho => (mem_options.mp ho).isOption
  have hargs : runArguments s j = "run" :: (options s j ++
      (j.config.env.flatMap (fun e => [envOption, e]) ++ (j.config.image.display :: j.config.cmd))) := by
    simp [runArguments, envOption]
  rw [hargs, read, if_pos rfl, readFrom_options hoptions, readFrom_env, Option.map_map]
  have hbehind : Invocation.behind (options s j) [] ∘ Invocation.behind [] j.config.env = Invocation.behind (options s j) j.config.env := by
    funext i
    simp [Invocation.behind]
  rw [hbehind]

/-- What a runtime makes of the arguments of a job whose image a URI names.
1. It is the sandbox's options, the job's environment, its image and its command, each as it was given, exactly if the short form of the
   image is no option.
2. The options are those that the sandbox sets for the job, and no others.
3. The short form of the image is an option exactly if the URI has a dash where its repository begins, behind slashes or not.
4. In any case the sandbox's options and the job's environment are read first. Where the short form of the image is an option, it is read
   with them, and the words of the command are read on as further options, until one of them is taken for the image. -/
theorem arguments_read_back (s : Sandbox) {uri : String} (h : ImageRef.parse uri = .ok j.config.image) :
    (read (runArguments s j) =
        some { options := options s j, env := j.config.env, image := j.config.image.display, cmd := j.config.cmd } ↔
      isOption j.config.image.display = false) ∧
    (∀ o, o ∈ options s j ↔ Chosen s j o) ∧
    (isOption j.config.image.display = true ↔
      ∃ slashes rest, uri.toList = ImageRef.scheme ++ List.replicate slashes '/' ++ '-' :: rest) ∧
    read (runArguments s j) =
      (readFrom false (j.config.image.display :: j.config.cmd)).map (.behind (options s j) j.config.env) := by
  refine ⟨⟨fun hread => ?_, fun himage => ?_⟩, fun o => mem_options, ?_, read_runArguments s j⟩
  · -- an option in place of the image is read with the others
    by_contra hoption
    rw [read_runArguments] at hread
    obtain ⟨i, hi, heq⟩ := Option.map_eq_some_iff.mp hread
    simp only [Invocation.behind, Invocation.mk.injEq, List.append_right_eq_self] at heq
    rcases of_readFrom_option (by simpa using hoption) hi with hmore | hmore
    · exact hmore heq.1
    · exact hmore heq.2.1
  · rw [read_runArguments, readFrom_image himage]
    simp [Invocation.behind]
  · rw [← ImageRef.head_display_iff h (c := '-') (by decide)]
    simp [isOption]

/-- A job of two words of command whose image a URI names. -/
def jobOf (image : ImageRef) : JobSpec := { id := "j", config := { image, env := ["A=1"], cmd := ["alpine", "sh"] } }

/-- A job is read as it was given for an image that is no option. An image whose repository begins with a dash is read as one more
option, the first word of the command as the image, and the rest as the command. -/
theorem arguments_read_back_of_two_images :
    read (runArguments {} (jobOf { name := "alpine", tag := some "3" })) =
      some { options := options {} (jobOf { name := "alpine", tag := some "3" }), env := ["A=1"], image := "alpine:3",
             cmd := ["alpine", "sh"] } ∧
    read (runArguments {} (jobOf { name := "--privileged" })) =
      some { options := options {} (jobOf { name := "--privileged" }) ++ ["--privileged"], env := ["A=1"], image := "alpine",
             cmd := ["sh"] } := by
  have hplain : ImageRef.parse "docker://alpine:3" = .ok (jobOf { name := "alpine", tag := some "3" }).config.image := by decide
  have hdashed : ImageRef.parse "docker://--privileged" = .ok (jobOf { name := "--privileged" }).config.image := by decide
  obtain ⟨hplainRead, -⟩ := arguments_read_back {} hplain
  obtain ⟨-, -, -, hdashedRead⟩ := arguments_read_back {} hdashed
  refine ⟨hplainRead.mpr (by decide), ?_⟩
  rw [hdashedRead]
  decide

end JobPlane.Container
