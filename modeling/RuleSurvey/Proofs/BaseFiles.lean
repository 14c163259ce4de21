import RuleSurvey.Proofs.Scan
import RuleSurvey.Proofs.Survey

namespace RuleSurvey

/-!
When a base file shows up among the unreached files. A base file is left out by the text of its path,
and the paths of rule files are plain. So a base file is left out wherever its own path is in normal
form, and a path in any other form leaves out nothing.
-/

namespace BasePaths

def toList (paths : BasePaths) : List Path :=
  [paths.includes, paths.load, paths.rules]

end BasePaths

def SurveyOptions.baseNames (options : SurveyOptions) : List String :=
  [options.includesFile, options.loadFile, options.dispatchFile]

theorem BasePaths.join_mem_toList {root : Path} {options : SurveyOptions} {name : String}
    (configured : name ∈ options.baseNames) :
    root.join (.ofString name) ∈ (ofRoot root options).toList :=
  List.mem_map_of_mem (f := fun name => root.join (.ofString name)) configured

/-- A text names a path if both come to the same normal form. -/
def Path.IsNamedBy (path : Path) (text : String) : Prop :=
  (ofString text).normalize = path.normalize

instance (path : Path) (text : String) : Decidable (path.IsNamedBy text) :=
  inferInstanceAs (Decidable (_ = _))

namespace Path

variable {path : Path} {text : String}

theorem IsNamedBy.display_eq (named : path.IsNamedBy text) (normal : path.normalize = path)
    (plain : (ofString text).IsPlain) : path.display = text := by
  have same : ofString text = path := by
    rw [← plain.normalize, named, normal]
  rw [← same, display_ofString]

theorem isPlain_of_display (plain : (ofString text).IsPlain) (shown : path.display = text) :
    path.IsPlain := by
  rw [← shown] at plain
  exact isPlain_ofString_display.mp plain

end Path

namespace Report.Coherent

variable {report : Report} {bases : List Path} {base : Path} {file : String}

theorem not_isNamedBy_of_normal (coherent : report.Coherent (bases.map (·.display)))
    (plain : ∀ file ∈ report.ruleFiles, (Path.ofString file).IsPlain)
    (member : base ∈ bases) (normal : base.normalize = base) (listed : file ∈ report.unreached) :
    ¬ base.IsNamedBy file := by
  intro named
  obtain ⟨known, visible, _⟩ := (coherent.firstSeen_unreached.mem_iff file).mp listed
  have shown := named.display_eq normal (plain file known)
  exact visible (List.mem_map.mpr ⟨base, member, shown⟩)

theorem reaches_or_normal (coherent : report.Coherent (bases.map (·.display)))
    (plain : ∀ file ∈ report.ruleFiles, (Path.ofString file).IsPlain)
    (known : file ∈ report.ruleFiles) (unlisted : file ∉ report.unreached) :
    report.Reaches file ∨ ∃ other ∈ bases, other.normalize = other ∧ other.display = file := by
  by_cases reached : report.Reaches file
  · exact .inl reached
  · by_cases visible : file ∈ bases.map (·.display)
    · obtain ⟨other, member, shown⟩ := List.mem_map.mp visible
      have normal := (Path.isPlain_of_display (plain file known) shown).normalize
      exact .inr ⟨other, member, normal, shown⟩
    · exact absurd ((coherent.firstSeen_unreached.mem_iff file).mpr ⟨known, visible, reached⟩) unlisted

end Report.Coherent

section

variable {disk : Disk} {options : SurveyOptions} {path : Path} {target : Target} {file : String}

theorem isPlain_of_mem_ruleFiles (resolved : Target.ofPath disk path = .ok target)
    (listed : file ∈ (survey disk options target).value.ruleFiles) :
    (Path.ofString file).IsPlain := by
  have coherent := survey_coherent disk options target
  have read := survey_readFrom disk options target
  rw [coherent.ruleFiles, read.files, List.map_map] at listed
  obtain ⟨found, member, same⟩ := List.mem_map.mp listed
  have shown : found.display = file := same
  rw [← shown, Path.isPlain_ofString_display]
  exact Disk.isPlain_of_mem_ruleFiles resolved member

/-- A name made of steps down, with single separators, leads to a path in normal form. -/
theorem Path.IsPlain.join_ofString {root : Path} (plain : root.IsPlain) {name : String}
    {steps : List (List UInt8)} (nonempty : steps ≠ []) (named : ∀ step ∈ steps, IsName step)
    (same : ofString name = ofSteps false steps) : (root.join (ofString name)).IsPlain := by
  obtain ⟨names, rootNamed, root⟩ := plain
  refine ⟨names ++ steps, List.forall_mem_append.mpr ⟨rootNamed, named⟩, ?_⟩
  rw [root, same, join_ofSteps rootNamed nonempty named]

end

/--
No file that is listed as unreached names a base file, exactly if every rule file that a base path in
another than its normal form names is reached or is shown under a base path in normal form. A base
path in normal form is never named by a listed file, and names made of steps down give such paths.
-/
theorem survey_base_files_unlisted_iff {disk : Disk} {path : Path} {target : Target}
    (options : SurveyOptions) (resolved : Target.ofPath disk path = .ok target) :
    let report := (survey disk options target).value
    let bases := (BasePaths.ofRoot target.root options).toList
    ((∀ file ∈ report.unreached, ∀ base ∈ bases, ¬ base.IsNamedBy file) ↔
        ∀ base ∈ bases, base.normalize ≠ base → ∀ file ∈ report.ruleFiles, base.IsNamedBy file →
          report.Reaches file ∨ ∃ other ∈ bases, other.normalize = other ∧ other.display = file) ∧
      (∀ base ∈ bases, base.normalize = base → ∀ file ∈ report.unreached, ¬ base.IsNamedBy file) ∧
      ∀ name ∈ options.baseNames, ∀ steps ≠ [], (∀ step ∈ steps, Path.IsName step) →
        Path.ofString name = .ofSteps false steps →
          ∀ file ∈ report.unreached, ¬ (target.root.join (.ofString name)).IsNamedBy file := by
  intro report bases
  have coherent : report.Coherent (bases.map (·.display)) := survey_coherent disk options target
  have plain : ∀ file ∈ report.ruleFiles, (Path.ofString file).IsPlain :=
    fun file => isPlain_of_mem_ruleFiles resolved
  have root := Target.isPlain_root resolved
  have guarded : ∀ base ∈ bases, base.normalize = base → ∀ file ∈ report.unreached,
      ¬ base.IsNamedBy file :=
    fun base member normal file listed => coherent.not_isNamedBy_of_normal plain member normal listed
  refine ⟨⟨?_, ?_⟩, guarded, ?_⟩
  · intro clean base member _ file known named
    refine coherent.reaches_or_normal plain known ?_
    intro listed
    exact clean file listed base member named
  · intro covered file listed base member named
    -- A base path in normal form guards itself; the assumption is about the others.
    by_cases normal : base.normalize = base
    · exact guarded base member normal file listed named
    · obtain ⟨known, visible, unreached⟩ := (coherent.firstSeen_unreached.mem_iff file).mp listed
      cases covered base member normal file known named with
      | inl reached => exact unreached reached
      | inr hidden =>
          obtain ⟨other, among, _, shown⟩ := hidden
          exact visible (List.mem_map.mpr ⟨other, among, shown⟩)
  · intro name configured steps nonempty named same
    have joined := root.join_ofString nonempty named same
    exact guarded _ (BasePaths.join_mem_toList configured) joined.normalize

/-- A root with a dispatch file, whose one rule calls nothing, and a second rule file. -/
def sampleDisk : Disk where
  root := [(⟨Utf8.encode "r".toList, by decide +kernel⟩, .directory [
    (⟨Utf8.encode "m.rules".toList, by decide +kernel⟩, .file (Utf8.encode "if (x) \x7b\n".toList)),
    (⟨Utf8.encode "s.rules".toList, by decide +kernel⟩, .file [])])]
  workingDirectory := { location := [] }

def sampleTarget : Target where
  root := .ofString "/r"
  singleFile := none

theorem ofPath_sampleDisk : Target.ofPath sampleDisk (.ofString "/r") = .ok sampleTarget := rfl

theorem survey_base_files_unlisted_sample :
    let options : SurveyOptions := { dispatchFile := "m.rules" }
    Target.ofPath sampleDisk (.ofString "/r") = .ok sampleTarget ∧
      "/r/s.rules" ∈ (survey sampleDisk options sampleTarget).value.unreached ∧
      ¬ (sampleTarget.root.join (.ofString options.dispatchFile)).IsNamedBy "/r/s.rules" := by
  intro options
  have listed : "/r/s.rules" ∈ (survey sampleDisk options sampleTarget).value.unreached := by
    decide +kernel
  have guarded := (survey_base_files_unlisted_iff options ofPath_sampleDisk).2.1
  have member : sampleTarget.root.join (.ofString options.dispatchFile) ∈
      (BasePaths.ofRoot sampleTarget.root options).toList :=
    BasePaths.join_mem_toList (by decide)
  exact ⟨ofPath_sampleDisk, listed, guarded _ member (by decide +kernel) _ listed⟩

/-- A dispatch file is listed by a survey that it drives, if its name is not in normal form. -/
theorem survey_lists_respelled_dispatch_file :
    let options : SurveyOptions := { dispatchFile := "./m.rules" }
    Target.ofPath sampleDisk (.ofString "/r") = .ok sampleTarget ∧
      (survey sampleDisk options sampleTarget).value.unreached = ["/r/m.rules", "/r/s.rules"] ∧
      (sampleTarget.root.join (.ofString options.dispatchFile)).IsNamedBy "/r/m.rules" :=
  ⟨ofPath_sampleDisk, by decide +kernel, by decide +kernel⟩

end RuleSurvey
