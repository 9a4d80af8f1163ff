import LoanCheck.Proofs.Check.Unkeyed
import LoanCheck.Proofs.CommandLine.Files
import LoanCheck.Proofs.CommandLine.Options
import LoanCheck.Proofs.Program.Names

/-!
# The verdict of the command line

What the exit code says is defined here by the files alone: whether there is a configuration,
whether every source holds a program, and whether every unit of every source is accepted.  The
program either ends with that code, whatever form of output was asked for, or it is ended by
something that nothing handles, which `Options.Breaks` tells exactly.  Data with half of a
surrogate pair alone is left out: it counts as such an end, whatever would be made of it.
-/

namespace LoanCheck

/-- A unit whose names are texts comes to a result. -/
theorem CodeUnit.Textual.analyse_eq_ok {unit : CodeUnit} (textual : unit.Textual) (config : Config)
    (recordStates : Bool) : ∃ result, unit.analyse config recordStates = .ok result := by
  cases analysed : unit.analyse config recordStates with
  | ok result => exact ⟨result, rfl⟩
  | error error =>
      refine absurd (CodeUnit.analyse_eq_error_iff.mp analysed).2 (CodeUnit.not_unkeyed ?_)
      intro statement listed name named
      exact Json.key_of_isText (textual statement listed name named)

namespace CommandLine

/-- The units of files, in order, each with the path of its file. -/
def unitsOf (disk : Disk) (names : List (List Char)) : List (Path × CodeUnit) :=
  names.flatMap fun name =>
    match Program.load disk (Path.ofChars name) with
    | .ok program => program.units.map fun unit => (Path.ofChars name, unit)
    | .error _ => []

namespace Options

variable (disk : Disk) (options : Options)

/-- Something ends the program that nothing handles.  Sources are read only if there is a
configuration. -/
def Breaks : Prop :=
  options.BreaksConfig disk ∨ (∃ config, options.Configures disk config) ∧
    ∃ name ∈ options.sources, BreaksSource disk (Path.ofChars name)

/-- There is no configuration, or a source that holds no program. -/
def Fails : Prop :=
  (∀ config, ¬options.Configures disk config) ∨
    ∃ name ∈ options.sources, ∀ program, Program.load disk (Path.ofChars name) ≠ .ok program

/-- Some unit of some source is not accepted. -/
def Rejects : Prop :=
  ∃ config, options.Configures disk config ∧ ∃ entry ∈ unitsOf disk options.sources,
    ∃ result, entry.2.analyse config false = .ok result ∧ result.accepted = false

/-- Every unit of every source is accepted. -/
def Accepts : Prop :=
  ∃ config, options.Configures disk config ∧ ∀ entry ∈ unitsOf disk options.sources,
    ∃ result, entry.2.analyse config false = .ok result ∧ result.accepted = true

/-- What was found in each unit, in order, with the path of its source. -/
def Finds (found : List (Path × UnitResult)) : Prop :=
  ∃ config, options.Configures disk config ∧
    List.Forall₂ (fun entry finding =>
      finding.1 = entry.1 ∧ entry.2.analyse config false = .ok finding.2)
      (unitsOf disk options.sources) found

/-- The output says what the files say. -/
structure Judged (output : Output) : Prop where
  code : output.exitCode ∈ [exitAccepted, exitRejected, exitBadInput]
  bad : output.exitCode = exitBadInput ↔ options.Fails disk
  rejected : output.exitCode = exitRejected ↔ ¬options.Fails disk ∧ options.Rejects disk
  accepted : output.exitCode = exitAccepted ↔ ¬options.Fails disk ∧ options.Accepts disk
  data : options.json = true → ∃ units diagnostics,
    output.stdout = (Json.obj [("exit_code", .nat output.exitCode), ("units", .arr units),
        ("diagnostics", .arr diagnostics)]).write .line ++ "\n" ∧
      (output.exitCode = exitBadInput → units = []) ∧
      (output.exitCode ≠ exitBadInput → ∃ found, options.Finds disk found ∧
        units = found.map (fun finding => finding.2.report finding.1) ∧
        diagnostics = found.flatMap fun finding =>
          finding.2.diagnosticReports finding.1 ++ finding.2.faultReports finding.1)

end Options

section Sources

variable {disk : Disk} {names : List (List Char)}

theorem mapM_loadSource_of_breaks (decodes : ∀ name ∈ names, disk.Decodes (Path.ofChars name))
    (breaks : ∃ name ∈ names, BreaksSource disk (Path.ofChars name)) :
    ∃ escape, (names.map Path.ofChars).mapM (loadSource disk) = .error escape := by
  obtain ⟨name, listed, broken⟩ := breaks
  rcases loadSource_cases (decodes name listed) with
    ⟨_, _, fits, _⟩ | ⟨_, ⟨_, fits, _⟩ | ⟨escape, _, failed⟩⟩
  · exact absurd broken fits
  · exact absurd broken fits
  · exact exists_mapM_eq_error (List.mem_map_of_mem listed) failed

/-- Sources that do not end the program are read, and those that hold no program are told. -/
theorem mapM_loadSource_of_fits (decodes : ∀ name ∈ names, disk.Decodes (Path.ofChars name))
    (fits : ∀ name ∈ names, ¬BreaksSource disk (Path.ofChars name)) :
    ∃ sources, (names.map Path.ofChars).mapM (loadSource disk) = .ok sources ∧
      (failures sources = [] ↔
        ∀ name ∈ names, ∃ program, Program.load disk (Path.ofChars name) = .ok program) := by
  induction names with
  | nil => exact ⟨[], rfl, by simp [failures]⟩
  | cons name rest inductionHypothesis =>
      obtain ⟨others, read, told⟩ := inductionHypothesis
        (fun other listed => decodes other (List.mem_cons_of_mem name listed))
        (fun other listed => fits other (List.mem_cons_of_mem name listed))
      have joined {source : Source} (first : loadSource disk (Path.ofChars name) = .ok source) :
          ((name :: rest).map Path.ofChars).mapM (loadSource disk) = .ok (source :: others) := by
        rw [List.map_cons, List.mapM_cons, bind_of_ok first, bind_of_ok read]
        rfl
      rcases loadSource_cases (decodes name List.mem_cons_self) with
        ⟨program, loaded, _, first⟩ | ⟨unloaded, ⟨message, _, first⟩ | ⟨_, breaks, _⟩⟩
      · refine ⟨_, joined first, ?_⟩
        rw [List.forall_mem_cons, ← told]
        exact (and_iff_right ⟨program, loaded⟩).symm
      · refine ⟨_, joined first, ?_⟩
        rw [List.forall_mem_cons]
        refine iff_of_false (List.cons_ne_nil _ _) ?_
        rintro ⟨⟨program, loaded⟩, _⟩
        exact unloaded program loaded
      · exact absurd breaks (fits name List.mem_cons_self)

end Sources

/-- What was found in each unit, with the path of its source. -/
def entries (findings : List Findings) : List (Path × UnitResult) :=
  findings.flatMap fun found => found.results.map fun result => (found.path, result)

theorem unitReports_eq (findings : List Findings) :
    unitReports findings = (entries findings).map fun finding => finding.2.report finding.1 := by
  simp [unitReports, entries, List.map_flatMap, Function.comp_def]

theorem flatReports_eq (findings : List Findings) :
    flatReports findings = (entries findings).flatMap fun finding =>
      finding.2.diagnosticReports finding.1 ++ finding.2.faultReports finding.1 := by
  simp [flatReports, entries, List.flatMap_assoc, List.flatMap_map]

theorem allAccepted_iff (findings : List Findings) :
    allAccepted findings = true ↔ ∀ finding ∈ entries findings, finding.2.accepted = true := by
  simp only [allAccepted, entries, List.all_eq_true, List.mem_flatMap, List.mem_map]
  constructor
  · rintro all _ ⟨found, listed, result, among, rfl⟩
    exact all found listed result among
  · intro all found listed result among
    exact all (found.path, result) ⟨found, listed, result, among, rfl⟩

theorem examine_eq_ok {program : Program} (textual : ∀ unit ∈ program.units, unit.Textual)
    (config : Config) (path : Path) :
    ∃ found, examine config path program = .ok found ∧ found.path = path ∧
      List.Forall₂ (fun unit result => unit.analyse config false = .ok result) program.units
        found.results := by
  have all : ∀ checked ∈ program.units.map fun unit => (unit, unit.check config false),
      ∃ result, UnitResult.ofCheck checked.1 checked.2 = .ok result := by
    intro checked listed
    obtain ⟨unit, among, rfl⟩ := List.mem_map.mp listed
    exact (textual unit among).analyse_eq_ok config false
  obtain ⟨results, analysed, related⟩ := exists_mapM_eq_ok all
  refine ⟨_, bind_of_ok analysed _, rfl, ?_⟩
  exact List.forall₂_map_left_iff.mp related

/-- Every unit of every source comes to a result, in order. -/
theorem examine_all {disk : Disk} {names : List (List Char)} {sources : List Source}
    (loads : ∀ name ∈ names, ∃ program, Program.load disk (Path.ofChars name) = .ok program ∧
      ∀ unit ∈ program.units, unit.Textual)
    (read : (names.map Path.ofChars).mapM (loadSource disk) = .ok sources) (config : Config) :
    ∃ findings, (loaded sources).mapM (fun source => examine config source.1 source.2) =
        .ok findings ∧
      List.Forall₂ (fun entry finding =>
        finding.1 = entry.1 ∧ entry.2.analyse config false = .ok finding.2)
        (unitsOf disk names) (entries findings) := by
  induction names generalizing sources with
  | nil =>
      cases read
      exact ⟨[], rfl, .nil⟩
  | cons name rest inductionHypothesis =>
      obtain ⟨program, held, textual⟩ := loads name List.mem_cons_self
      have first : loadSource disk (Path.ofChars name) = .ok ⟨Path.ofChars name, .ok program⟩ := by
        rw [loadSource, held]
      rw [List.map_cons, List.mapM_cons, bind_of_ok first] at read
      obtain ⟨others, readOthers, whole⟩ := bind_eq_ok_iff.mp read
      cases whole
      obtain ⟨later, examinedLater, relatedLater⟩ := inductionHypothesis
        (fun other listed => loads other (List.mem_cons_of_mem name listed)) readOthers
      obtain ⟨found, examined, samePath, related⟩ :=
        examine_eq_ok textual config (Path.ofChars name)
      refine ⟨found :: later, ?_, ?_⟩
      · have here : loaded (⟨Path.ofChars name, .ok program⟩ :: others) =
            (Path.ofChars name, program) :: loaded others := rfl
        rw [here, List.mapM_cons, bind_of_ok examined, bind_of_ok examinedLater]
        rfl
      · have units : unitsOf disk (name :: rest) =
            program.units.map (fun unit => (Path.ofChars name, unit)) ++ unitsOf disk rest := by
          simp [unitsOf, held]
        rw [units, entries, List.flatMap_cons]
        refine List.rel_append ?_ relatedLater
        rw [List.forall₂_map_left_iff, List.forall₂_map_right_iff]
        exact related.imp fun unit result analysed => ⟨samePath, analysed⟩

/-- Names in a source that is no data are texts anyway. -/
theorem textual_of_load {disk : Disk} {path : Path} {program : Program}
    (held : Program.load disk path = .ok program) (text : path.isData = false) :
    ∀ unit ∈ program.units, unit.Textual := by
  unfold Program.load at held
  split at held <;> try cases held
  next content _ =>
    rw [Program.ofFileText, text] at held
    simp only [Bool.false_eq_true, if_false] at held
    split at held
    · next made =>
        cases held
        exact Program.textual_of_readText made
    · cases held

namespace Options

variable {disk : Disk} {options : Options}

theorem judged_of_fails (fails : options.Fails disk) {output : Output}
    (code : output.exitCode = exitBadInput)
    (data : options.json = true → ∃ diagnostics,
      output.stdout = payload exitBadInput [] diagnostics ++ "\n") :
    options.Judged disk output where
  code := by simp [code]
  bad := iff_of_true code fails
  rejected := by
    refine iff_of_false ?_ fun holds => holds.1 fails
    rw [code]
    decide
  accepted := by
    refine iff_of_false ?_ fun holds => holds.1 fails
    rw [code]
    decide
  data asked := by
    obtain ⟨diagnostics, printed⟩ := data asked
    refine ⟨[], diagnostics, ?_, fun _ => rfl, fun other => absurd code other⟩
    rw [printed, code]
    rfl

theorem judged_refuseConfig (fails : options.Fails disk) (fault : Fault) :
    options.Judged disk (refuseConfig options fault) := by
  unfold refuseConfig
  split
  · exact judged_of_fails fails rfl fun _ => ⟨_, rfl⟩
  · next unasked => exact judged_of_fails fails rfl fun asked => absurd asked unasked

theorem judged_refuseSources (fails : options.Fails disk) (sources : List Source) :
    options.Judged disk (refuseSources options sources) := by
  unfold refuseSources
  split
  · exact judged_of_fails fails rfl fun _ => ⟨_, rfl⟩
  · next unasked => exact judged_of_fails fails rfl fun asked => absurd asked unasked

theorem judged_conclude {config : Config} (built : options.Configures disk config)
    (holds : ¬options.Fails disk) {findings : List Findings}
    (related : List.Forall₂ (fun entry finding =>
      finding.1 = entry.1 ∧ entry.2.analyse config false = .ok finding.2)
      (unitsOf disk options.sources) (entries findings)) (sources : List Source) :
    options.Judged disk (conclude options sources findings) := by
  have unique : ∀ other, options.Configures disk other → other = config := by
    intro other alsoBuilt
    cases built.symm.trans alsoBuilt
    rfl
  have code : (conclude options sources findings).exitCode = verdict findings := rfl
  have accepts : options.Accepts disk ↔ allAccepted findings = true := by
    rw [allAccepted_iff]
    constructor
    · rintro ⟨other, alsoBuilt, all⟩ finding listed
      cases unique other alsoBuilt
      obtain ⟨entry, among, _, analysed⟩ := exists_of_mem_right related listed
      obtain ⟨result, same, accepted⟩ := all entry among
      cases analysed.symm.trans same
      exact accepted
    · intro all
      refine ⟨config, built, ?_⟩
      intro entry among
      obtain ⟨finding, listed, _, analysed⟩ := exists_of_mem_left related among
      exact ⟨finding.2, analysed, all finding listed⟩
  have rejects : options.Rejects disk ↔ allAccepted findings = false := by
    rw [Bool.eq_false_iff, ne_eq, allAccepted_iff]
    simp only [not_forall, exists_prop]
    constructor
    · rintro ⟨other, alsoBuilt, entry, among, result, analysed, rejected⟩
      cases unique other alsoBuilt
      obtain ⟨finding, listed, _, same⟩ := exists_of_mem_left related among
      cases analysed.symm.trans same
      exact ⟨finding, listed, by rw [rejected]; decide⟩
    · rintro ⟨finding, listed, rejected⟩
      obtain ⟨entry, among, _, analysed⟩ := exists_of_mem_right related listed
      exact ⟨config, built, entry, among, finding.2, analysed, Bool.eq_false_iff.mpr rejected⟩
  refine ⟨?_, ?_, ?_, ?_, ?_⟩
  · rw [code, verdict]
    split <;> simp
  · refine iff_of_false ?_ holds
    rw [code, verdict]
    split <;> decide
  · rw [and_iff_right holds, rejects, code, verdict]
    cases allAccepted findings <;> decide
  · rw [and_iff_right holds, accepts, code, verdict]
    cases allAccepted findings <;> decide
  · intro asked
    refine ⟨_, _, ?_, ?_, fun _ => ⟨entries findings, ⟨config, built, related⟩,
      unitReports_eq findings, flatReports_eq findings⟩⟩
    · simp only [conclude, asked, if_true]
      rfl
    · intro bad
      rw [code, verdict] at bad
      split at bad <;> cases bad

/-- The exit code depends on what the files say, not on the form of the output. -/
theorem Judged.exitCode_eq {output other : Output} {json : Bool}
    (judged : options.Judged disk output)
    (again : Judged disk { options with json } other) : other.exitCode = output.exitCode := by
  have sameFails : Fails disk { options with json } = options.Fails disk := rfl
  have sameRejects : Rejects disk { options with json } = options.Rejects disk := rfl
  have sameAccepts : Accepts disk { options with json } = options.Accepts disk := rfl
  have bad := judged.bad.trans (sameFails ▸ again.bad.symm)
  have rejected := judged.rejected.trans (sameFails ▸ sameRejects ▸ again.rejected.symm)
  have accepted := judged.accepted.trans (sameFails ▸ sameAccepts ▸ again.accepted.symm)
  have code := judged.code
  simp only [List.mem_cons, List.not_mem_nil, or_false] at code
  rcases code with isAccepted | isRejected | isBad
  · rw [isAccepted, accepted.mp isAccepted]
  · rw [isRejected, rejected.mp isRejected]
  · rw [isBad, bad.mp isBad]

end Options

section Run

variable {disk : Disk} {options : Options}

/-- Once there is a configuration and no source ends the program, its output says what the files
say. -/
theorem runOptions_of_config {config : Config} (built : options.Configures disk config)
    (decodes : ∀ name ∈ options.sources, disk.Decodes (Path.ofChars name))
    (textual : ∀ name ∈ options.sources, (Path.ofChars name).isData = true → ∀ program,
      Program.load disk (Path.ofChars name) = .ok program → ∀ unit ∈ program.units, unit.Textual)
    (fits : ∀ name ∈ options.sources, ¬BreaksSource disk (Path.ofChars name)) :
    ∃ output, runOptions disk options = .ok output ∧ options.Judged disk output := by
  obtain ⟨sources, read, allHeld⟩ := mapM_loadSource_of_fits decodes fits
  rw [runOptions, bind_of_ok built]
  simp only [read]
  by_cases none : failures sources = []
  · have held := allHeld.mp none
    have holds : ¬options.Fails disk := by
      rintro (unbuilt | ⟨name, listed, unloaded⟩)
      · exact unbuilt config built
      · obtain ⟨program, found⟩ := held name listed
        exact unloaded program found
    have loads : ∀ name ∈ options.sources, ∃ program,
        Program.load disk (Path.ofChars name) = .ok program ∧
          ∀ unit ∈ program.units, unit.Textual := by
      intro name listed
      obtain ⟨program, found⟩ := held name listed
      refine ⟨program, found, ?_⟩
      cases isData : (Path.ofChars name).isData with
      | true => exact textual name listed isData program found
      | false => exact textual_of_load found isData
    obtain ⟨findings, examined, related⟩ := examine_all loads read config
    refine ⟨conclude options sources findings, ?_,
      Options.judged_conclude built holds related sources⟩
    change (if (failures sources).isEmpty = true then _ else _) = _
    rw [if_pos (List.isEmpty_iff.mpr none), examined]
    rfl
  · have fails : options.Fails disk := by
      refine .inr ?_
      simpa using mt allHeld.mpr none
    refine ⟨refuseSources options sources, ?_, Options.judged_refuseSources fails sources⟩
    change (if (failures sources).isEmpty = true then _ else _) = _
    rw [if_neg (mt List.isEmpty_iff.mp none)]
    rfl

variable (decodes : ∀ name ∈ options.files, disk.Decodes (Path.ofChars name))
  (textual : ∀ name ∈ options.sources, (Path.ofChars name).isData = true → ∀ program,
    Program.load disk (Path.ofChars name) = .ok program → ∀ unit ∈ program.units, unit.Textual)

include decodes textual

theorem runOptions_cases :
    (options.Breaks disk ∧ ∃ escape, runOptions disk options = .error escape) ∨
      (¬options.Breaks disk ∧
        ∃ output, runOptions disk options = .ok output ∧ options.Judged disk output) := by
  have decodesConfig : ∀ name, options.config = some (.value name) →
      disk.Decodes (Path.ofChars name) := by
    intro name asked
    refine decodes name ?_
    rw [Options.files, asked]
    exact List.mem_cons_self
  have decodesSources : ∀ name ∈ options.sources, disk.Decodes (Path.ofChars name) := by
    intro name listed
    refine decodes name ?_
    unfold Options.files
    split
    · exact List.mem_cons_of_mem _ listed
    · exact listed
  rcases buildConfig_cases decodesConfig with
    ⟨intact, ⟨config, built⟩ | ⟨error, fault, built, told⟩⟩ |
      ⟨breaks, ⟨escape, ended⟩ | ⟨error, limit, built, passed⟩⟩
  · by_cases breaks : ∃ name ∈ options.sources, BreaksSource disk (Path.ofChars name)
    · obtain ⟨escape, ended⟩ := mapM_loadSource_of_breaks decodesSources breaks
      refine .inl ⟨.inr ⟨⟨config, built⟩, breaks⟩, escape, ?_⟩
      rw [runOptions, bind_of_ok built]
      simp only [ended]
      rfl
    · refine .inr ⟨?_, runOptions_of_config built decodesSources textual
        fun name listed broken => breaks ⟨name, listed, broken⟩⟩
      rintro (broken | ⟨_, broken⟩)
      · exact intact broken
      · exact breaks broken
  · have unbuilt : ∀ config, ¬options.Configures disk config := by
      intro config known
      cases built.symm.trans known
    refine .inr ⟨?_, refuseConfig options fault, ?_,
      Options.judged_refuseConfig (.inl unbuilt) fault⟩
    · rintro (broken | ⟨⟨config, known⟩, _⟩)
      · exact intact broken
      · exact unbuilt config known
    · rw [runOptions, bind_of_ok built]
      simp only [told]
      rfl
  · refine .inl ⟨.inl breaks, escape, ?_⟩
    rw [runOptions, ended]
    rfl
  · refine .inl ⟨.inl breaks, .limit limit, ?_⟩
    rw [runOptions, bind_of_ok built]
    simp only [passed]
    rfl

end Run

/-- Every file holds a brace that opens a scope. -/
def bracedDisk : Disk := fun _ => .ok [0x7b]

/-- The one unit of such a file. -/
def braced : CodeUnit := ⟨"a", [⟨.enter, Span.between (some "a.bir") ⟨1, 1⟩ ⟨1, 2⟩⟩]⟩

end CommandLine

end LoanCheck
