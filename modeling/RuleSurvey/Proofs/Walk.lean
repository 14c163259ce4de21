import RuleSurvey.Proofs.Lookup
import RuleSurvey.Proofs.Scan
import Mathlib.Data.List.Nodup

namespace RuleSurvey

/-!
What a scan finds, and in which order. A walk comes upon every entry that real directories lead to, by
the list of names that lead there, and it comes upon them in ascending order of these lists: a directory
stands right before what lies below it, and between its neighbours. The one thing that stops a walk is a
directory whose path is too long for it to be listed.
-/

/-- What names lead to below a node, if all of them but the last name directories. -/
def Node.below? : Node → List EntryName → Option Node
  | node, [] => some node
  | .directory entries, name :: rest =>
      (Entries.get? entries name.bytes).bind fun entry => entry.2.below? rest
  | _, _ :: _ => none

/-- The entries below a node with the names that lead to them, in the order of a walk. -/
def Node.finds : Nat → Path → Node → List (List EntryName × Node)
  | depth + 1, path, .directory entries =>
      if path.bytes.length ≥ Disk.pathLimit then []
      else (sortBy (fun entry => entry.1.bytes) entries).flatMap fun entry =>
        ([entry.1], entry.2) ::
          (entry.2.finds depth (path.child entry.1)).map fun found => (entry.1 :: found.1, found.2)
  | _, _, _ => []

def Path.descend (path : Path) (names : List EntryName) : Path :=
  names.foldl child path

/-- The directories on the way have paths that are short enough to be listed. -/
def Path.ListsAlong (path : Path) (names : List EntryName) : Prop :=
  ∀ i < names.length, (path.descend (names.take i)).bytes.length < Disk.pathLimit

section Order

variable {first second third : List UInt8}

theorem bytes_trichotomy (notLess : ¬ first < second) (different : first ≠ second) :
    second < first := by
  by_contra notMore
  exact different (List.le_antisymm notMore notLess)

theorem EntryName.ext {name other : EntryName} (same : name.bytes = other.bytes) : name = other := by
  cases name
  cases other
  cases same
  rfl

theorem mem_sorted_iff {entry : EntryName × Node} {entries : Entries} :
    entry ∈ sortBy (fun entry => entry.1.bytes) entries ↔
      Entries.get? entries entry.1.bytes = some entry := by
  rw [Entries.get?, mem_sortBy_iff List.lt_irrefl List.lt_trans bytes_trichotomy]
  simp only [beq_eq_decide]

end Order

section Finds

variable {path : Path} {depth : Nat} {top node : Node} {names : List EntryName}

theorem Path.listsAlong_cons {name : EntryName} :
    path.ListsAlong (name :: names) ↔
      path.bytes.length < Disk.pathLimit ∧ (path.child name).ListsAlong names := by
  constructor
  · intro short
    exact ⟨short 0 (Nat.succ_pos _), fun i bound => short (i + 1) (Nat.succ_lt_succ bound)⟩
  · intro short i bound
    cases i with
    | zero => exact short.1
    | succ i => exact short.2 i (Nat.lt_of_succ_lt_succ bound)

theorem Node.below?_cons {name : EntryName} {entries : Entries} :
    (Node.directory entries).below? (name :: names) = some node ↔
      ∃ inner, Entries.get? entries name.bytes = some (name, inner) ∧
        inner.below? names = some node := by
  rw [Node.below?, Option.bind_eq_some_iff]
  constructor
  · intro found
    obtain ⟨entry, listed, further⟩ := found
    have same : entry.1 = name := EntryName.ext (by simpa using List.find?_some listed)
    exact ⟨entry.2, by rw [listed, ← same], further⟩
  · intro found
    obtain ⟨inner, listed, further⟩ := found
    exact ⟨(name, inner), listed, further⟩

theorem Node.mem_finds_directory {entries : Entries} :
    (names, node) ∈ (Node.directory entries).finds (depth + 1) path ↔
      path.bytes.length < Disk.pathLimit ∧ ∃ name inner rest, names = name :: rest ∧
        Entries.get? entries name.bytes = some (name, inner) ∧
        (rest = [] ∧ node = inner ∨ (rest, node) ∈ inner.finds depth (path.child name)) := by
  rw [Node.finds]
  split
  · rename_i long
    simp [Nat.not_lt.mpr long]
  · rename_i short
    simp only [List.mem_flatMap, List.mem_cons, List.mem_map, mem_sorted_iff]
    refine ⟨fun found => ⟨Nat.not_le.mp short, ?_⟩, fun found => ?_⟩
    · obtain ⟨entry, listed, self | ⟨deeper, member, same⟩⟩ := found
      · cases self
        exact ⟨entry.1, entry.2, [], rfl, listed, .inl ⟨rfl, rfl⟩⟩
      · cases same
        exact ⟨entry.1, entry.2, deeper.1, rfl, listed, .inr member⟩
    · obtain ⟨_, name, inner, rest, rfl, listed, ⟨rfl, rfl⟩ | deeper⟩ := found
      · exact ⟨(name, node), listed, .inl rfl⟩
      · exact ⟨(name, inner), listed, .inr ⟨(rest, node), deeper, rfl⟩⟩

theorem Node.mem_finds_iff :
    (names, node) ∈ top.finds depth path ↔ names ≠ [] ∧ names.length ≤ depth ∧
      path.ListsAlong names ∧ top.below? names = some node := by
  induction depth generalizing names path top with
  | zero => cases names <;> simp [Node.finds]
  | succ depth ih =>
      cases names with
      | nil =>
          cases top with
          | directory entries => simp [mem_finds_directory]
          | _ => simp [Node.finds]
      | cons name rest =>
          cases top with
          | directory entries =>
              rw [mem_finds_directory, Path.listsAlong_cons, Node.below?_cons]
              refine ⟨fun found => ?_, fun found => ?_⟩
              · obtain ⟨short, _, inner, _, same, listed, last | deeper⟩ := found
                · obtain ⟨rfl, rfl⟩ := last
                  cases same
                  exact ⟨List.cons_ne_nil _ _, Nat.succ_le_succ (Nat.zero_le _),
                    ⟨short, nofun⟩, node, listed, rfl⟩
                · cases same
                  obtain ⟨_, within, lists, below⟩ := ih.mp deeper
                  exact ⟨List.cons_ne_nil _ _, Nat.succ_le_succ within, ⟨short, lists⟩,
                    inner, listed, below⟩
              · obtain ⟨_, within, ⟨short, lists⟩, inner, listed, below⟩ := found
                refine ⟨short, name, inner, rest, rfl, listed, ?_⟩
                cases rest with
                | nil =>
                    cases below
                    exact .inl ⟨rfl, rfl⟩
                | cons next rest =>
                    exact .inr (ih.mpr ⟨List.cons_ne_nil _ _, Nat.le_of_succ_le_succ within,
                      lists, below⟩)
          | _ => simp [Node.finds, Node.below?]

theorem Node.exists_rest_of_mem {entry : EntryName × Node} {deeper : List (List EntryName × Node)}
    {found : List EntryName × Node}
    (member : found ∈ ([entry.1], entry.2) ::
      deeper.map fun found => (entry.1 :: found.1, found.2)) :
    ∃ rest, found.1 = entry.1 :: rest := by
  cases List.mem_cons.mp member with
  | inl self => exact ⟨[], self ▸ rfl⟩
  | inr below =>
      obtain ⟨further, _, same⟩ := List.mem_map.mp below
      exact ⟨further.1, same ▸ rfl⟩

theorem Node.ascending_finds (depth : Nat) (path : Path) (top : Node) :
    (top.finds depth path).Pairwise fun first second =>
      first.1.map (·.bytes) < second.1.map (·.bytes) := by
  induction depth generalizing path top with
  | zero => simp [Node.finds]
  | succ depth ih =>
      cases top with
      | directory entries =>
          rw [Node.finds]
          split
          · exact .nil
          · rw [List.pairwise_flatMap]
            constructor
            · intro entry _
              rw [List.pairwise_cons, List.pairwise_map]
              constructor
              · -- A directory comes before all that lies below it.
                intro found member
                obtain ⟨⟨names, node⟩, below, same⟩ := List.mem_map.mp member
                subst same
                obtain ⟨nonempty, _⟩ := Node.mem_finds_iff.mp below
                obtain ⟨name, rest, rfl⟩ := List.exists_cons_of_ne_nil nonempty
                exact List.cons_lt_cons_iff.mpr (.inr ⟨rfl, List.nil_lt_cons _ _⟩)
              · exact (ih _ _).imp fun less => List.cons_lt_cons_iff.mpr (.inr ⟨rfl, less⟩)
            · refine (ascending_sortBy List.lt_trans bytes_trichotomy entries).imp ?_
              intro entry other less found member further among
              obtain ⟨rest, same⟩ := Node.exists_rest_of_mem member
              obtain ⟨tail, otherSame⟩ := Node.exists_rest_of_mem among
              rw [same, otherSame]
              exact List.cons_lt_cons_iff.mpr (.inl less)
      | _ => simp [Node.finds]

end Finds

section Paths

variable {path root : Path} {names : List EntryName} {name : EntryName}

theorem Path.steps_child (path : Path) (name : EntryName) :
    (path.child name).steps = path.steps ++ [name.bytes] := by
  rw [Path.child, name.path_eq_ofSteps, steps_join (isAbsolute_ofSteps false name.isStep),
    steps_ofSteps false name.isStep]

theorem Path.steps_descend (path : Path) (names : List EntryName) :
    (path.descend names).steps = path.steps ++ names.map (·.bytes) := by
  induction names generalizing path with
  | nil => exact (List.append_nil _).symm
  | cons name rest ih =>
      have further : path.descend (name :: rest) = (path.child name).descend rest := rfl
      rw [further, ih, Path.steps_child, List.append_assoc]
      rfl

theorem Path.descend_injective (path : Path) : Function.Injective path.descend := by
  intro names others same
  have steps := congrArg Path.steps same
  rw [steps_descend, steps_descend] at steps
  exact List.map_injective_iff.mpr (fun _ _ => EntryName.ext) (List.append_cancel_left steps)

theorem Path.fileName?_descend (last : names.getLast? = some name) :
    (path.descend names).fileName? = some name.bytes := by
  have nonempty : names.map (·.bytes) ≠ [] := by
    intro empty
    rw [List.map_eq_nil_iff.mp empty] at last
    cases last
  rw [Path.fileName?, steps_descend, List.getLast?_append_of_ne_nil _ nonempty, List.getLast?_map,
    last]
  exact if_neg name.isName.descends

/-- The last name is text that ends in a dot and the extension, in any mix of cases. -/
def ScanOptions.AcceptsName (options : ScanOptions) (name : EntryName) : Prop :=
  ∃ text, name.bytes = Utf8.encode text ∧
    '.' :: Text.lowercase options.extension.toList <:+ Text.lowercase text

theorem ScanOptions.accepts_descend_iff {options : ScanOptions}
    (last : names.getLast? = some name) :
    options.accepts (path.descend names) = true ↔ options.AcceptsName name := by
  rw [ScanOptions.accepts, Path.fileName?_descend last, Option.bind_some, AcceptsName]
  cases decoded : Utf8.decode? name.bytes with
  | none =>
      simp only [Bool.false_eq_true, false_iff, not_exists, not_and]
      intro text same
      rw [Utf8.decode?_eq_some_iff.mpr same] at decoded
      cases decoded
  | some text =>
      have spelled := Utf8.decode?_eq_some_iff.mp decoded
      simp only [List.isSuffixOf_iff_suffix]
      refine ⟨fun ends => ⟨text, spelled, ends⟩, fun named => ?_⟩
      obtain ⟨other, same, ends⟩ := named
      rw [Utf8.decode?_eq_some_iff.mpr same] at decoded
      cases decoded
      exact ends

end Paths

section Scan

variable {disk : Disk} {options : ScanOptions} {path root : Path} {depth : Nat} {top node : Node}
  {names : List EntryName}

def Visit.ofFound (path : Path) (found : List EntryName × Node) : Visit :=
  .entry (path.descend found.1) found.2

/-- Only entries count as rule files, and what was found leads to all of them. -/
theorem Disk.filter_visitsBelow (disk : Disk) (options : ScanOptions) (path : Path) (depth : Nat)
    (top : Node) :
    (top.visitsBelow path depth).filter (disk.isRuleFile options) =
      ((top.finds depth path).map (Visit.ofFound path)).filter (disk.isRuleFile options) := by
  induction depth generalizing path top with
  | zero => simp [Node.visitsBelow, Node.finds]
  | succ depth ih =>
      cases top with
      | directory entries =>
          rw [Node.visitsBelow, Node.finds]
          split
          · rfl
          · rw [entriesBelow_eq_map, sortBy_map, List.flatMap_map, List.map_flatMap,
              List.filter_flatMap, List.filter_flatMap]
            congr 1
            funext entry
            rw [List.map_cons, List.map_map, List.filter_cons, List.filter_cons, ih]
            rfl
      | _ => simp [Node.visitsBelow, Node.finds]

/-- A root that is a directory is no rule file, whether or not a link leads to it. -/
theorem Disk.filter_visits {entries : Entries} (found : disk.node root = .ok (.directory entries)) :
    (disk.visits root depth).filter (disk.isRuleFile options) =
      ((Node.directory entries).visitsBelow root depth).filter (disk.isRuleFile options) := by
  obtain same | ⟨target, same⟩ := Disk.nodeOrLink_of_node found
  · rw [Disk.visits, same]
    exact List.filter_cons_of_neg Bool.false_ne_true
  · rw [Disk.visits, same, found]
    refine List.filter_cons_of_neg ?_
    simp [Disk.isRuleFile, Disk.meetsFile, Disk.isFile, found]

theorem Disk.exists_entries_of_isDirectory (directory : disk.isDirectory path = true) :
    ∃ entries, disk.node path = .ok (.directory entries) := by
  unfold Disk.isDirectory at directory
  split at directory
  · rename_i entries found
    exact ⟨entries, found⟩
  · cases directory

theorem Disk.meetsFile_entry_iff :
    disk.meetsFile (.entry path node) = true ↔ (∃ content, node = .file content) ∨
      (∃ target, node = .link target) ∧ disk.isFile path = true := by
  cases node <;> simp [Disk.meetsFile]

structure Disk.HoldsRuleFile (disk : Disk) (options : ScanOptions) (root : Path)
    (names : List EntryName) : Prop where
  within : names.length ≤ options.maxDepth
  lists : root.ListsAlong names
  file : ∃ top node, disk.node root = .ok top ∧ top.below? names = some node ∧
    ((∃ content, node = .file content) ∨
      (∃ target, node = .link target) ∧ disk.isFile (root.descend names) = true)
  named : ∃ name, names.getLast? = some name ∧ options.AcceptsName name

def Disk.ruleFilesFound (disk : Disk) (options : ScanOptions) (root : Path) (top : Node) :
    List (List EntryName) :=
  ((top.finds options.maxDepth root).filter fun found =>
    disk.isRuleFile options (Visit.ofFound root found)).map (·.1)

theorem Disk.mem_ruleFilesFound_iff (found : disk.node root = .ok top) :
    names ∈ disk.ruleFilesFound options root top ↔ disk.HoldsRuleFile options root names := by
  simp only [Disk.ruleFilesFound, List.mem_map, List.mem_filter, Disk.isRuleFile, Bool.and_eq_true]
  constructor
  · intro listed
    obtain ⟨⟨_, node⟩, ⟨member, file, accepted⟩, rfl⟩ := listed
    obtain ⟨nonempty, within, lists, below⟩ := Node.mem_finds_iff.mp member
    have last := List.getLast?_eq_some_getLast nonempty
    exact ⟨within, lists, ⟨top, node, found, below, Disk.meetsFile_entry_iff.mp file⟩,
      _, last, (ScanOptions.accepts_descend_iff last).mp accepted⟩
  · intro holds
    obtain ⟨within, lists, ⟨other, node, same, below, file⟩, name, last, accepted⟩ := holds
    cases found.symm.trans same
    have nonempty : names ≠ [] := by
      intro empty
      rw [empty] at last
      cases last
    exact ⟨(names, node), ⟨Node.mem_finds_iff.mpr ⟨nonempty, within, lists, below⟩,
      Disk.meetsFile_entry_iff.mpr file, (ScanOptions.accepts_descend_iff last).mpr accepted⟩, rfl⟩

theorem Disk.ascending_ruleFilesFound :
    (disk.ruleFilesFound options root top).Pairwise fun first second =>
      first.map (·.bytes) < second.map (·.bytes) := by
  rw [Disk.ruleFilesFound, List.pairwise_map]
  exact (Node.ascending_finds _ _ _).filter _

theorem Disk.scan_value {entries : Entries} (found : disk.node root = .ok (.directory entries)) :
    (disk.scan options root).value =
      ((disk.ruleFilesFound options root (.directory entries)).map root.descend).take
        options.maxFiles := by
  simp only [Disk.scan, Logged.value_bind, Logged.value_pure, Disk.value_collect]
  rw [Disk.filter_visits found, Disk.filter_visitsBelow, List.filter_map, List.map_map,
    Disk.ruleFilesFound, List.map_map]
  rfl

end Scan

/--
A scan of a directory lists the rule files below it, as many as the options allow and in ascending
order of the names that lead to them: those within the depth asked for, behind directories whose paths
can be listed. No file is listed twice.
-/
theorem scan_lists_rule_files_in_order (disk : Disk) (options : ScanOptions) (root : Path)
    (directory : disk.isDirectory root = true) :
    ∃ listing : List (List EntryName),
      (∀ names, names ∈ listing ↔ disk.HoldsRuleFile options root names) ∧
      (listing.Pairwise fun first second => first.map (·.bytes) < second.map (·.bytes)) ∧
      (disk.scan options root).value = (listing.map root.descend).take options.maxFiles ∧
      (disk.scan options root).value.Nodup := by
  obtain ⟨entries, found⟩ := Disk.exists_entries_of_isDirectory directory
  have ascending : (disk.ruleFilesFound options root (.directory entries)).Pairwise
      fun first second => first.map (·.bytes) < second.map (·.bytes) :=
    Disk.ascending_ruleFilesFound
  have distinct : (disk.ruleFilesFound options root (.directory entries)).Nodup := by
    refine ascending.imp ?_
    intro first second less same
    rw [same] at less
    exact List.lt_irrefl _ less
  refine ⟨_, fun names => Disk.mem_ruleFilesFound_iff found, ascending, Disk.scan_value found, ?_⟩
  rw [Disk.scan_value found]
  exact (List.Nodup.map root.descend_injective distinct).sublist (List.take_sublist _ _)

/-- A directory, also reached by a link, with a file, a directory and links among its entries. -/
def branchedDisk : Disk where
  root := [
    (⟨Utf8.encode "d".toList, by decide +kernel⟩, .directory [
      (⟨Utf8.encode "l.rules".toList, by decide +kernel⟩, .link (.ofString "a.rules")),
      (⟨Utf8.encode "a.rules".toList, by decide +kernel⟩, .file []),
      (⟨Utf8.encode "m".toList, by decide +kernel⟩, .link (.ofString "a")),
      (⟨Utf8.encode "a".toList, by decide +kernel⟩, .directory [
        (⟨Utf8.encode "b.RULES".toList, by decide +kernel⟩, .file [])])]),
    (⟨Utf8.encode "via".toList, by decide +kernel⟩, .link (.ofString "d"))]
  workingDirectory := { location := [] }

theorem scan_branchedDisk_in_order :
    let root := Path.ofString "/via"
    branchedDisk.isDirectory root = true ∧
      (branchedDisk.scan {} root).value =
        [.ofString "/via/a/b.RULES", .ofString "/via/a.rules", .ofString "/via/l.rules"] ∧
      ∃ listing : List (List EntryName),
        (∀ names, names ∈ listing ↔ branchedDisk.HoldsRuleFile {} root names) ∧
        (listing.Pairwise fun first second => first.map (·.bytes) < second.map (·.bytes)) ∧
        (branchedDisk.scan {} root).value =
          (listing.map root.descend).take ({} : ScanOptions).maxFiles ∧
        (branchedDisk.scan {} root).value.Nodup := by
  intro root
  have directory : branchedDisk.isDirectory root = true := by decide +kernel
  exact ⟨directory, by decide +kernel, scan_lists_rule_files_in_order branchedDisk {} root directory⟩

def subdirectory : EntryName := ⟨Utf8.encode "sub".toList, by decide +kernel⟩

def innerFile : EntryName := ⟨Utf8.encode "y.rules".toList, by decide +kernel⟩

def deepDisk : Disk where
  root := [(⟨Utf8.encode "d".toList, by decide +kernel⟩,
    .directory [(subdirectory, .directory [(innerFile, .file [])])])]
  workingDirectory := { location := [] }

/-- A path with so many separators that there is room for a few more bytes only. -/
def stretchedPath : Path :=
  ⟨100 :: List.replicate 4092 Path.separator⟩

theorem node_stretchedPath : deepDisk.node stretchedPath =
    .ok (.directory [(subdirectory, .directory [(innerFile, .file [])])]) := by
  have admissible : stretchedPath.IsAdmissible :=
    ⟨by decide +kernel, List.cons_ne_nil _ _, by decide +kernel⟩
  have steps : Disk.lookupSteps stretchedPath = [Utf8.encode "d".toList, Path.here] := by
    decide +kernel
  rw [Disk.node, Disk.find_eq_bind admissible, steps]
  rfl

/-- A file below a directory that has too long a path to be listed is passed over. -/
theorem scan_misses_file_below_stretched_path :
    let names := [subdirectory, innerFile]
    deepDisk.isDirectory stretchedPath = true ∧ names.length ≤ ({} : ScanOptions).maxDepth ∧
      (∃ top, deepDisk.node stretchedPath = .ok top ∧ top.below? names = some (.file [])) ∧
      (∃ name, names.getLast? = some name ∧ ({} : ScanOptions).AcceptsName name) ∧
      (deepDisk.scan {} stretchedPath).value = [] := by
  intro names
  have accepted : ({} : ScanOptions).AcceptsName innerFile :=
    ⟨"y.rules".toList, rfl, by decide +kernel⟩
  have nothing : deepDisk.ruleFilesFound {} stretchedPath
      (.directory [(subdirectory, .directory [(innerFile, .file [])])]) = [] := by
    decide +kernel
  refine ⟨by rw [Disk.isDirectory, node_stretchedPath], by decide, ⟨_, node_stretchedPath, rfl⟩,
    ⟨innerFile, rfl, accepted⟩, ?_⟩
  rw [Disk.scan_value node_stretchedPath, nothing]
  rfl

end RuleSurvey
