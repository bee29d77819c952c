import Retest.Config
import Retest.Proofs.Templates
import Retest.Run.Host

/-! Which program a configuration starts its workers with. It is checked that the command as it is
written is not all blank, but the program is the first item of the command when it is expanded. So
the command of an accepted configuration is never empty, and its program can still be blank. -/

namespace Retest

theorem Host.start_ne_noCommand (h : Host) (program : String) (args : List String) :
    h.start (program :: args) ≠ .error .noCommand := by
  rw [Host.start]
  cases h program args <;> simp

/-- No machine has a program without a name. -/
theorem Machine.exists_host_error (m : Machine) (args : List String) :
    ∃ reason, m.host "" args = .error reason := by
  have hslash : "".toList.contains '/' = false := by decide
  have hknown : Shell.Utility.names.contains "" = false := by decide +kernel
  have hfind : m.find "" = .error .notFound := by
    rw [Machine.find, hslash, hknown]
    rfl
  rw [Machine.host]
  split
  · exact ⟨_, rfl⟩
  · cases m.checkDir with
    | error reason => exact ⟨_, rfl⟩
    | ok _ => exact ⟨_, by rw [Except.bind, hfind]⟩

namespace Config

variable {c : Config} {env : Environment}

theorem ofText_eq_ok_iff {text : List Char} {base : Path} : ofText text base = .ok c ↔
    ∃ read : Config, (Toml.ofText? text).bind ofEntries? = some read ∧ read.check = .ok () ∧
      c = { read with base } := by
  rw [ofText]
  cases (Toml.ofText? text).bind ofEntries? with
  | none => simp
  | some read => cases hcheck : read.check <;> simp [hcheck, Except.map, eq_comm]

/-- What is accepted has a command with an item that is not blank, at whatever place. -/
theorem exists_not_blank {text : List Char} {base : Path} (h : ofText text base = .ok c) :
    ∃ argument ∈ c.command, isBlankText argument = false := by
  obtain ⟨read, -, hcheck, rfl⟩ := ofText_eq_ok_iff.mp h
  have hall : read.command.all isBlankText ≠ true := by
    intro hall
    simp only [check, hall] at hcheck
    split at hcheck
    · cases hcheck
    · split at hcheck <;> cases hcheck
  simpa using hall

theorem workerCommand_cons {first : String} {more command : List String}
    (hc : c.command = first :: more) (h : c.workerCommand env = .ok command) :
    ∃ program args, command = program :: args ∧ expandText env first = .ok program := by
  rw [workerCommand, hc, List.mapM_cons] at h
  cases hfirst : expandText env first with
  | error name =>
    rw [hfirst] at h
    cases h
  | ok program =>
    rw [hfirst] at h
    obtain ⟨args, -, rfl⟩ := of_map_eq_ok h
    exact ⟨program, args, rfl, rfl⟩

/-- The command of an accepted configuration is never empty, so that no start of a worker fails for
want of a command. The program is what the first item expands to. It is blank just when nothing but
white space comes out of that item, whatever stands in the others. -/
theorem program_named_iff {text : List Char} {base : Path} {command : List String}
    (hc : ofText text base = .ok c) (hcommand : c.workerCommand env = .ok command) :
    (∃ argument ∈ c.command, isBlankText argument = false) ∧
      (∀ h : Host, h.start command ≠ .error .noCommand) ∧
      ∃ first more program args, c.command = first :: more ∧ command = program :: args ∧
        (isBlankText program = false ↔ ¬env.Blanks first.toList) := by
  have hsome := exists_not_blank hc
  -- The check only has it that there is a first item; what comes out of it is up to the item.
  cases hwritten : c.command with
  | nil => simp [hwritten] at hsome
  | cons first more =>
    obtain ⟨program, args, rfl, hexpand⟩ := workerCommand_cons hwritten hcommand
    rw [← hwritten]
    refine ⟨hsome, fun h => h.start_ne_noCommand program args, first, more, program, args,
      hwritten, rfl, ?_⟩
    rw [← isBlankText_expandText_iff hexpand, Bool.not_eq_true]

namespace Sample

def commanding (command : String) : List Char :=
  ("[project]\nname = \"p\"\n[worker]\ncommand = " ++ command ++ "\n").toList

def commanded (command : List String) : Config := { name := "p", command }

/-- Such a file is accepted if its command is not all blank. -/
theorem ofText_commanding (text : String) (command : List String)
    (hread : (Toml.ofText? (commanding text)).bind ofEntries? = some (commanded command))
    (hsome : command.all isBlankText = false) (base : Path) :
    ofText (commanding text) base = .ok { commanded command with base } := by
  refine ofText_eq_ok_iff.mpr ⟨commanded command, hread, ?_, rfl⟩
  simp [check, commanded, hsome]

end Sample

/-- A program that comes out of a reference has a name, though the item behind it has none. -/
theorem referenced_program_is_named :
    ∃ c, ofText (Sample.commanding "[\"$\x7bJAVA:-java\x7d\", \"\"]") ⟨"."⟩ = .ok c ∧
      c.workerCommand ⟨[("JAVA", "jre")]⟩ = .ok ["jre", ""] ∧
      c.command = ["$\x7bJAVA:-java\x7d", ""] ∧
      ¬(⟨[("JAVA", "jre")]⟩ : Environment).Blanks "$\x7bJAVA:-java\x7d".toList := by
  have hc := Sample.ofText_commanding "[\"$\x7bJAVA:-java\x7d\", \"\"]"
    ["$\x7bJAVA:-java\x7d", ""] (by decide +kernel) (by decide) ⟨"."⟩
  refine ⟨_, hc, rfl, rfl, ?_⟩
  have hcommand : ({ Sample.commanded ["$\x7bJAVA:-java\x7d", ""] with base := ⟨"."⟩ } :
      Config).workerCommand ⟨[("JAVA", "jre")]⟩ = .ok ["jre", ""] := rfl
  obtain ⟨-, -, first, more, program, args, hwritten, hexpanded, hnamed⟩ :=
    program_named_iff hc hcommand
  cases hwritten
  cases hexpanded
  exact hnamed.mp (by decide)

/-- A command is accepted though its first item is blank, since another one is not, and no machine
starts a worker by it. So is one whose only item comes to nothing when it is expanded. -/
theorem blank_program_is_accepted :
    (∃ c, ofText (Sample.commanding "[\"\", \"w\"]") ⟨"."⟩ = .ok c ∧
      (∀ env, c.workerCommand env = .ok ["", "w"]) ∧ isBlankText "" = true ∧
      ∀ m : Machine, ∃ reason, m.host.start ["", "w"] = .error (.spawn " w" reason)) ∧
    ∃ c, ofText (Sample.commanding "[\"$\x7bJAVA\x7d\"]") ⟨"."⟩ = .ok c ∧
      c.workerCommand ⟨[("JAVA", "")]⟩ = .ok [""] := by
  have hblank := Sample.ofText_commanding "[\"\", \"w\"]" ["", "w"] (by decide +kernel)
    (by decide) ⟨"."⟩
  have hempty := Sample.ofText_commanding "[\"$\x7bJAVA\x7d\"]" ["$\x7bJAVA\x7d"]
    (by decide +kernel) (by decide) ⟨"."⟩
  refine ⟨⟨_, hblank, fun env => rfl, by decide, fun m => ?_⟩, _, hempty, rfl⟩
  obtain ⟨reason, hreason⟩ := m.exists_host_error ["w"]
  exact ⟨reason, by rw [Host.start, hreason]; rfl⟩

end Config

end Retest
