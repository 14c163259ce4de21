import RuleSurvey.Proofs.Walk

namespace RuleSurvey

/-!
What the two caps of a scan leave of a scan without caps. A walk that is cut at a depth comes upon what a
deeper one comes upon down to there, in the same order, and of that the first rule files are kept. The
records of a scan tell whether there were more.
-/

mutual

/-- How many levels lie below a node. -/
def Node.height : Node → Nat
  | .directory entries => entriesHeight entries + 1
  | _ => 0

def entriesHeight : List (EntryName × Node) → Nat
  | [] => 0
  | (_, node) :: rest => max node.height (entriesHeight rest)

end

/-- How many steps a path takes that a root above it does not. -/
def Path.depthBelow (root path : Path) : Nat :=
  path.steps.length - root.steps.length

/-- The rule files that a walk of some depth comes upon, in its order. -/
def Disk.ruleFilesWithin (disk : Disk) (extension : String) (root : Path) (depth : Nat) : List Path :=
  ((disk.visits root depth).filter (disk.isRuleFile { extension })).map (·.path)

/-- What a scan without caps finds: the files that any caps leave which are large enough. -/
def Disk.FindsUncapped (disk : Disk) (extension : String) (root : Path) (found : List Path) : Prop :=
  ∃ enough, ∀ depth ≥ enough, ∀ files ≥ enough,
    (disk.scan ⟨extension, depth, files⟩ root).value = found

/-- The text of a record begins with these words. -/
def LogRecord.opensWith (record : LogRecord) (words : String) : Bool :=
  words.toList.isPrefixOf record.message.toList

def stopRecord (root : Path) (files : Nat) : LogRecord :=
  ⟨.warn, .scan, "Stopping scan of " ++ root.display ++ " at " ++ toString files ++ " rule files"⟩

def foundRecord (root : Path) (files : Nat) : LogRecord :=
  ⟨.info, .scan, "Found " ++ toString files ++ " rule files under " ++ root.display⟩

section Depth

variable {path root : Path} {depth deeper : Nat} {top node : Node} {names : List EntryName}

theorem Node.height_le_of_mem {entry : EntryName × Node} {entries : Entries}
    (member : entry ∈ entries) : entry.2.height ≤ entriesHeight entries := by
  induction entries with
  | nil => cases member
  | cons first rest ih =>
      rw [entriesHeight]
      cases List.mem_cons.mp member with
      | inl same =>
          rw [same]
          exact Nat.le_max_left _ _
      | inr later => exact (ih later).trans (Nat.le_max_right _ _)

theorem Node.length_le_height (below : top.below? names = some node) :
    names.length ≤ top.height := by
  induction names generalizing top with
  | nil => exact Nat.zero_le _
  | cons name rest ih =>
      cases top with
      | directory entries =>
          obtain ⟨inner, listed, further⟩ := Node.below?_cons.mp below
          have within := Node.height_le_of_mem (List.mem_of_find?_eq_some listed)
          rw [List.length_cons, Node.height]
          exact Nat.succ_le_succ ((ih further).trans within)
      | _ => cases below

/-- A walk that is cut at a depth finds what a deeper one finds down to there. -/
theorem Node.finds_eq_filter (within : depth ≤ deeper) :
    top.finds depth path = (top.finds deeper path).filter fun found => found.1.length ≤ depth := by
  induction deeper generalizing depth path top with
  | zero =>
      rw [Nat.le_zero.mp within]
      rfl
  | succ deeper ih =>
      cases depth with
      | zero =>
          change [] = _
          rw [eq_comm, List.filter_eq_nil_iff]
          intro found member
          have nonempty := (Node.mem_finds_iff.mp member).1
          simpa using nonempty
      | succ depth =>
          cases top with
          | directory entries =>
              rw [Node.finds, Node.finds]
              split
              · rfl
              · rw [List.filter_flatMap]
                congr 1
                funext entry
                rw [ih (Nat.le_of_succ_le_succ within), List.filter_cons_of_pos (by simp),
                  List.filter_map]
                congr 3
                funext found
                simp
          | _ => rfl

theorem Path.depthBelow_descend (root : Path) (names : List EntryName) :
    root.depthBelow (root.descend names) = names.length := by
  rw [Path.depthBelow, Path.steps_descend, List.length_append, List.length_map,
    Nat.add_sub_cancel_left]

end Depth

@[simp] theorem Visit.path_ofFound (path : Path) (found : List EntryName × Node) :
    (Visit.ofFound path found).path = path.descend found.1 := rfl

namespace Disk

section Walks

variable {disk : Disk} {extension : String} {root : Path} {depth deeper : Nat}

/-- Whatever a root is, a walk comes upon it first, and then upon what lies below one node. -/
theorem exists_visits_eq (disk : Disk) (root : Path) :
    ∃ first top, first.path = root ∧
      ∀ depth, disk.visits root depth = first :: Node.visitsBelow root depth top := by
  have nothing : ∀ depth, Node.visitsBelow root depth (.file []) = [] := by
    intro depth
    cases depth <;> rfl
  unfold Disk.visits
  split
  · rename_i reason _
    exact ⟨.failure root reason, .file [], rfl, fun depth => by rw [nothing]⟩
  · rename_i reason _ _
    exact ⟨.failure root reason, .file [], rfl, fun depth => by rw [nothing]⟩
  · exact ⟨_, _, rfl, fun depth => rfl⟩
  · exact ⟨_, _, rfl, fun depth => rfl⟩

theorem exists_ruleFilesWithin_eq (disk : Disk) (extension : String) (root : Path) :
    ∃ (atRoot : Bool) (top : Node) (accepted : List EntryName × Node → Bool), ∀ depth,
      disk.ruleFilesWithin extension root depth =
        (if atRoot then [root] else []) ++
          ((top.finds depth root).filter accepted).map fun found => root.descend found.1 := by
  obtain ⟨first, top, here, visits⟩ := disk.exists_visits_eq root
  refine ⟨disk.isRuleFile { extension } first, top,
    fun found => disk.isRuleFile { extension } (Visit.ofFound root found), fun depth => ?_⟩
  rw [ruleFilesWithin, visits, List.filter_cons, filter_visitsBelow, List.filter_map]
  split <;> simp [here, Function.comp_def]

/-- The rule files down to a depth are told from the deeper ones by their paths. -/
theorem ruleFilesWithin_eq_filter (within : depth ≤ deeper) :
    disk.ruleFilesWithin extension root depth =
      (disk.ruleFilesWithin extension root deeper).filter fun file => root.depthBelow file ≤ depth := by
  obtain ⟨atRoot, top, accepted, files⟩ := disk.exists_ruleFilesWithin_eq extension root
  have shallow : ((if atRoot then [root] else []).filter fun file => root.depthBelow file ≤ depth) =
      if atRoot then [root] else [] := by
    cases atRoot <;> simp [Path.depthBelow]
  rw [files, files, List.filter_append, shallow, List.filter_map, List.filter_filter,
    Node.finds_eq_filter within, List.filter_filter]
  congr 3
  funext found
  simp [Path.depthBelow_descend, Bool.and_comm]

theorem exists_ruleFilesWithin_const (disk : Disk) (extension : String) (root : Path) :
    ∃ height, ∀ depth ≥ height,
      disk.ruleFilesWithin extension root depth = disk.ruleFilesWithin extension root height := by
  obtain ⟨atRoot, top, accepted, files⟩ := disk.exists_ruleFilesWithin_eq extension root
  refine ⟨top.height, fun depth deep => ?_⟩
  have all : (top.finds depth root).filter (fun found => found.1.length ≤ top.height) =
      top.finds depth root := by
    rw [List.filter_eq_self]
    intro found member
    obtain ⟨_, _, _, below⟩ := Node.mem_finds_iff.mp member
    simpa using Node.length_le_height below
  rw [files, files, Node.finds_eq_filter deep, all]

theorem scan_value_eq_take (disk : Disk) (options : ScanOptions) (root : Path) :
    (disk.scan options root).value =
      (disk.ruleFilesWithin options.extension root options.maxDepth).take options.maxFiles := by
  simp only [scan, Logged.value_bind, Logged.value_pure, value_collect]
  rfl

end Walks

section Records

variable {disk : Disk} {options : ScanOptions} {root : Path}

theorem opensWith_append (level : Level) (topic : Topic) {words opening : String} (rest : String)
    (opens : words.toList <+: opening.toList) :
    LogRecord.opensWith ⟨level, topic, opening ++ rest⟩ words = true := by
  rw [LogRecord.opensWith, String.toList_append, List.isPrefixOf_iff_prefix]
  exact opens.trans (List.prefix_append _ _)

theorem not_opensWith_append (level : Level) (topic : Topic) {words opening : String} (rest : String)
    (apart : Text.Apart words.toList opening.toList) :
    LogRecord.opensWith ⟨level, topic, opening ++ rest⟩ words = false := by
  rw [LogRecord.opensWith, String.toList_append, ← Bool.not_eq_true, List.isPrefixOf_iff_prefix]
  exact apart.not_prefix_append rest.toList

theorem filter_report {words : String}
    (apart : Text.Apart words.toList "Failed to read entry: IO error for operation on ".toList)
    (visit : Visit) : visit.report.log.filter (·.opensWith words) = [] := by
  cases visit with
  | entry path node => rfl
  | failure path reason =>
      rw [Visit.report, log_record, String.append_assoc, String.append_assoc]
      refine List.filter_cons_of_neg ?_
      rw [not_opensWith_append _ _ _ apart]
      exact Bool.false_ne_true

/-- What a scan tells of, apart from failures, is that it stopped for want of room. -/
theorem filter_log_collect {shown : LogRecord → Bool}
    (silent : ∀ visit : Visit, visit.report.log.filter shown = []) (room : Nat)
    (visits : List Visit) :
    (disk.collect options root room visits).log.filter shown =
      if room < (visits.filter (disk.isRuleFile options)).length then
        [stopRecord root options.maxFiles].filter shown
      else [] := by
  induction visits generalizing room with
  | nil => rfl
  | cons visit rest ih =>
      cases accepted : disk.isRuleFile options visit with
      | false => simp [collect, accepted, silent, ih]
      | true =>
          cases room with
          | zero => simp [collect, accepted, stopRecord]
          | succ room => simp [collect, accepted, ih]

theorem log_scan (disk : Disk) (options : ScanOptions) (root : Path) :
    (disk.scan options root).log =
      (disk.collect options root options.maxFiles (disk.visits root options.maxDepth)).log ++
        [foundRecord root (disk.scan options root).value.length] := rfl

theorem stops_scan (disk : Disk) (options : ScanOptions) (root : Path) :
    (disk.scan options root).log.filter (·.opensWith "Stopping scan") =
      if options.maxFiles < (disk.ruleFilesWithin options.extension root options.maxDepth).length then
        [stopRecord root options.maxFiles]
      else [] := by
  have stops : (stopRecord root options.maxFiles).opensWith "Stopping scan" = true := by
    rw [stopRecord, String.append_assoc, String.append_assoc, String.append_assoc]
    exact opensWith_append _ _ _ (by decide +kernel)
  have finds : ∀ files, (foundRecord root files).opensWith "Stopping scan" = false := by
    intro files
    rw [foundRecord, String.append_assoc, String.append_assoc]
    exact not_opensWith_append _ _ _ (by decide +kernel)
  rw [log_scan, List.filter_append, filter_log_collect (filter_report (by decide +kernel)),
    ruleFilesWithin, List.length_map]
  simp only [List.filter_cons, List.filter_nil, stops, finds, Bool.false_eq_true, if_true, if_false,
    List.append_nil]
  rfl

theorem finds_scan (disk : Disk) (options : ScanOptions) (root : Path) :
    (disk.scan options root).log.filter (·.opensWith "Found") =
      [foundRecord root (disk.scan options root).value.length] := by
  have stops : (stopRecord root options.maxFiles).opensWith "Found" = false := by
    rw [stopRecord, String.append_assoc, String.append_assoc, String.append_assoc]
    exact not_opensWith_append _ _ _ (by decide +kernel)
  have finds : ∀ files, (foundRecord root files).opensWith "Found" = true := by
    intro files
    rw [foundRecord, String.append_assoc, String.append_assoc]
    exact opensWith_append _ _ _ (by decide +kernel)
  rw [log_scan, List.filter_append, filter_log_collect (filter_report (by decide +kernel))]
  simp only [List.filter_cons, List.filter_nil, stops, finds, Bool.false_eq_true, if_true, if_false,
    ite_self, List.nil_append]

end Records

end Disk

/--
A scan with caps gives the first files, as many as it may keep, among those of the scan without caps that
lie within its depth; these are the rule files that a walk of that depth comes upon. It reports that it
stopped, once, exactly if there are more of them, and how many files it gives.
-/
theorem scan_caps_filter_then_take (disk : Disk) (extension : String) (root : Path) :
    ∃ found, disk.FindsUncapped extension root found ∧ ∀ depth files,
      let within := found.filter fun file => root.depthBelow file ≤ depth
      let scan := disk.scan ⟨extension, depth, files⟩ root
      within = disk.ruleFilesWithin extension root depth ∧
        scan.value = within.take files ∧
        scan.log.filter (·.opensWith "Stopping scan") =
          (if files < within.length then [stopRecord root files] else []) ∧
        scan.log.filter (·.opensWith "Found") = [foundRecord root scan.value.length] := by
  obtain ⟨height, const⟩ := disk.exists_ruleFilesWithin_const extension root
  let found := disk.ruleFilesWithin extension root height
  have value : ∀ depth files, (disk.scan ⟨extension, depth, files⟩ root).value =
      (disk.ruleFilesWithin extension root depth).take files :=
    fun depth files => disk.scan_value_eq_take ⟨extension, depth, files⟩ root
  refine ⟨found, ⟨max height found.length, fun depth deep files many => ?_⟩, fun depth files => ?_⟩
  · rw [value, const depth ((Nat.le_max_left _ _).trans deep)]
    exact List.take_of_length_le ((Nat.le_max_right _ _).trans many)
  · intro within scan
    -- Both depths are compared with a third one that neither exceeds.
    have cut : disk.ruleFilesWithin extension root depth = within := by
      rw [Disk.ruleFilesWithin_eq_filter (Nat.le_max_left depth height),
        const _ (Nat.le_max_right depth height)]
    have stops := disk.stops_scan ⟨extension, depth, files⟩ root
    rw [cut] at stops
    exact ⟨cut.symm, cut ▸ value depth files, stops,
      disk.finds_scan ⟨extension, depth, files⟩ root⟩

end RuleSurvey
