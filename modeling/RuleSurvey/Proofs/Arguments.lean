import RuleSurvey.Proofs.CommandLine

namespace RuleSurvey.Command

/-!
What a command line asks for. An argument list is accepted exactly if it spells a line that names one
path and gives every option at most once, with a value that can be read. What is left out has its
default.
-/

/-- What a setting can be set to. -/
def Setting.Value : Setting → Type
  | format => Format
  | extension => String
  | maxDepth => Nat
  | maxFiles => Nat

def Setting.read? : (setting : Setting) → String → Option setting.Value
  | format, text => format? text
  | extension, text => some text
  | maxDepth, text => count? text
  | maxFiles, text => count? text

namespace Arguments

variable {arguments next : Arguments}

/-- What the arguments ask for once all of them are read. -/
def complete (arguments : Arguments) : Except Stop Invocation :=
  match arguments.path with
  | none => .error (.usage .missingPath)
  | some path => .ok {
      path
      options := arguments.options
      format := arguments.format.getD .json
      compact := arguments.compact
      verbose := arguments.verbose
      quiet := arguments.quiet }

section Gathering

def given (arguments : Arguments) : (setting : Setting) → Option setting.Value
  | .format => arguments.format
  | .extension => arguments.extension
  | .maxDepth => arguments.maxDepth
  | .maxFiles => arguments.maxFiles

def isOn (arguments : Arguments) : Switch → Bool
  | .compact => arguments.compact
  | .verbose => arguments.verbose
  | .quiet => arguments.quiet

/-- A path is taken once, and all else stays as it is. -/
theorem of_setPath {path : Path} (accepted : arguments.setPath path = .ok next) :
    arguments.path = none ∧ path.bytes ≠ [] ∧ next.path = some path ∧ next.given = arguments.given ∧
      next.isOn = arguments.isOn := by
  unfold setPath at accepted
  split_ifs at accepted with taken empty
  cases accepted
  refine ⟨by simpa using taken, by simpa using empty, rfl, ?_, ?_⟩
  · exact funext fun setting => by cases setting <;> rfl
  · exact funext fun switch => by cases switch <;> rfl

theorem of_fill {α : Type} {setting : Setting} {old value? filled : Option α} {text : String}
    (accepted : fill setting old value? text = .ok filled) :
    old = none ∧ filled = value? ∧ value?.isSome = true := by
  unfold fill at accepted
  split at accepted
  · cases accepted
  · rename_i free
    cases value? with
    | none => cases accepted
    | some value =>
        cases accepted
        exact ⟨by simpa using free, rfl, rfl⟩

/-- A setting is filled once, and all else stays as it is. -/
theorem of_set {setting : Setting} {text : String}
    (accepted : arguments.set setting text = .ok next) :
    arguments.given setting = none ∧ next.given setting = setting.read? text ∧
      (setting.read? text).isSome = true ∧
      (∀ other, other ≠ setting → next.given other = arguments.given other) ∧
      next.path = arguments.path ∧ next.isOn = arguments.isOn := by
  cases setting
  all_goals
    obtain ⟨filled, done, same⟩ := exists_of_bind_eq_ok accepted
    cases same
    obtain ⟨free, read, readable⟩ := of_fill done
    refine ⟨free, read, readable, ?_, rfl, funext fun switch => by cases switch <;> rfl⟩
    intro other different
    cases other <;> simp at different <;> rfl

/-- A switch is turned on once, and all else stays as it is. -/
theorem of_turnOn {switch : Switch} (accepted : arguments.turnOn switch = .ok next) :
    arguments.isOn switch = false ∧
      (∀ other, next.isOn other = true ↔ other = switch ∨ arguments.isOn other = true) ∧
      next.path = arguments.path ∧ next.given = arguments.given := by
  unfold turnOn at accepted
  cases switch
  all_goals
    dsimp only at accepted
    split_ifs at accepted with raised
    cases accepted
    refine ⟨eq_false_of_ne_true raised, ?_, rfl, funext fun setting => by cases setting <;> rfl⟩
    intro other
    cases other <;> simp [isOn]

/-- What has been read says neither more nor less than the items do. -/
structure Gathers (arguments : Arguments) (items : List Item) : Prop where
  path : Item.paths items = arguments.path.toList
  nonempty : ∀ path ∈ Item.paths items, path.bytes ≠ []
  value : ∀ setting, (Item.values setting items).map setting.read? =
    (arguments.given setting).toList.map some
  distinct : (Item.flags items).Nodup
  flag : ∀ switch, switch ∈ Item.flags items ↔ arguments.isOn switch = true

variable {items : List Item} {item : Item}

theorem Gathers.apply (gathers : arguments.Gathers items)
    (accepted : arguments.apply item = .ok next) : next.Gathers (items ++ [item]) := by
  cases item with
  | path place =>
      obtain ⟨free, nonempty, path, given, on⟩ := of_setPath accepted
      have none : Item.paths items = [] := by simp [gathers.path, free]
      exact {
        path := by simp [none, path]
        nonempty := by simpa [none] using nonempty
        value := fun setting => by simpa [given] using gathers.value setting
        distinct := by simpa using gathers.distinct
        flag := fun switch => by simpa [on] using gathers.flag switch }
  | value setting text =>
      obtain ⟨free, given, readable, others, path, on⟩ := of_set accepted
      obtain ⟨value, read⟩ := Option.isSome_iff_exists.mp readable
      exact {
        path := by simpa [path] using gathers.path
        nonempty := by simpa using gathers.nonempty
        value := by
          intro wanted
          by_cases same : setting = wanted
          · subst wanted
            simp [gathers.value, free, given, read]
          · simp [gathers.value, same, others wanted (Ne.symm same)]
        distinct := by simpa using gathers.distinct
        flag := fun switch => by simpa [on] using gathers.flag switch }
  | flag switch =>
      obtain ⟨free, on, path, given⟩ := of_turnOn accepted
      have fresh : ∀ other ∈ Item.flags items, other ≠ switch := by
        intro other member same
        rw [gathers.flag, same, free] at member
        cases member
      exact {
        path := by simpa [path] using gathers.path
        nonempty := by simpa using gathers.nonempty
        value := fun setting => by simpa [given] using gathers.value setting
        distinct := by simpa [List.nodup_append, gathers.distinct] using fresh
        flag := fun other => by simp [gathers.flag, on, or_comm] }

theorem Gathers.foldlM (gathers : arguments.Gathers items) {later : List Item}
    (accepted : later.foldlM Arguments.apply arguments = .ok next) :
    next.Gathers (items ++ later) := by
  induction later generalizing arguments items with
  | nil =>
      cases accepted
      rwa [List.append_nil]
  | cons item rest ih =>
      rw [List.foldlM_cons] at accepted
      obtain ⟨middle, first, others⟩ := exists_of_bind_eq_ok accepted
      have gathered := ih (gathers.apply first) others
      rwa [List.append_assoc, List.singleton_append] at gathered

theorem gathers_nil : ({} : Arguments).Gathers [] where
  path := rfl
  nonempty := by simp [Item.paths]
  value setting := by cases setting <;> rfl
  distinct := List.nodup_nil
  flag switch := by cases switch <;> simp [Item.flags, isOn]

/-- Nothing is said twice, and every value can be read. -/
structure Consistent (items : List Item) : Prop where
  onePath : (Item.paths items).length ≤ 1
  nonempty : ∀ path ∈ Item.paths items, path.bytes ≠ []
  oneValue : ∀ setting, (Item.values setting items).length ≤ 1
  readable : ∀ setting, ∀ text ∈ Item.values setting items, (setting.read? text).isSome = true
  distinct : (Item.flags items).Nodup

theorem Consistent.sublist {all : List Item} (consistent : Consistent all)
    (part : items.Sublist all) : Consistent items where
  onePath := (part.filterMap _).length_le.trans consistent.onePath
  nonempty path member := consistent.nonempty path ((part.filterMap _).mem member)
  oneValue setting := (part.filterMap _).length_le.trans (consistent.oneValue setting)
  readable setting text member := consistent.readable setting text ((part.filterMap _).mem member)
  distinct := consistent.distinct.sublist (part.filterMap _)

theorem Gathers.exists_apply (gathers : arguments.Gathers items)
    (consistent : Consistent (items ++ [item])) : ∃ next, arguments.apply item = .ok next := by
  cases item with
  | path place =>
      have free : arguments.path = none := by simpa [gathers.path] using consistent.onePath
      have nonempty : place.bytes ≠ [] := consistent.nonempty place (by simp)
      refine ⟨{ arguments with path := some place }, ?_⟩
      simp [Arguments.apply, setPath, free, nonempty]
  | value setting text =>
      have free : arguments.given setting = none := by
        have none : Item.values setting items = [] := by simpa using consistent.oneValue setting
        simpa [none] using gathers.value setting
      have readable : (setting.read? text).isSome = true :=
        consistent.readable setting text (by simp)
      obtain ⟨value, read⟩ := Option.isSome_iff_exists.mp readable
      cases setting
      all_goals
        simp only [given, Setting.read?] at free read
        exact ⟨_, by simp only [Arguments.apply, set, fill, free, read]; rfl⟩
  | flag switch =>
      have off : arguments.isOn switch = false := by
        have distinct := consistent.distinct
        rw [Item.flags_concat, List.nodup_append] at distinct
        have fresh : switch ∉ Item.flags items := fun member =>
          distinct.2.2 switch member switch (by simp) rfl
        simpa [gathers.flag] using fresh
      cases switch
      all_goals
        simp only [isOn] at off
        exact ⟨_, by simp only [Arguments.apply, turnOn, off]; rfl⟩

/-- What says nothing twice and nothing unreadable is taken over to its end. -/
theorem Gathers.exists_foldlM (gathers : arguments.Gathers items) {later : List Item}
    (consistent : Consistent (items ++ later)) :
    ∃ last, later.foldlM Arguments.apply arguments = .ok last := by
  induction later generalizing arguments items with
  | nil => exact ⟨arguments, rfl⟩
  | cons item rest ih =>
      rw [← List.singleton_append, ← List.append_assoc] at consistent
      obtain ⟨next, applied⟩ := gathers.exists_apply (consistent.sublist (List.sublist_append_left _ _))
      obtain ⟨last, done⟩ := ih (gathers.apply applied) consistent
      refine ⟨last, ?_⟩
      rw [List.foldlM_cons, applied]
      exact done

end Gathering

end Arguments

/-- A setting that is left out keeps its default; one that is given has the value that it reads. -/
def Chosen {α : Type} (read? : String → Option α) (default : α) (texts : List String) (value : α) :
    Prop :=
  (texts = [] ∧ value = default) ∨ ∃ text, texts = [text] ∧ read? text = some value

def withoutDots (text : String) : String :=
  String.ofList (text.toList.dropWhile (· == '.'))

/-- What a line asks for: one path, and every option at most once. -/
structure Line.Asks (line : Line) (invocation : Invocation) : Prop where
  path : Item.paths line.items = [invocation.path]
  nonempty : invocation.path.bytes ≠ []
  format : Chosen format? .json (Item.values .format line.items) invocation.format
  extension : Chosen (fun text => some (withoutDots text)) "rules"
    (Item.values .extension line.items) invocation.options.scan.extension
  maxDepth : Chosen count? 64 (Item.values .maxDepth line.items) invocation.options.scan.maxDepth
  maxFiles : Chosen count? 100000 (Item.values .maxFiles line.items) invocation.options.scan.maxFiles
  baseNames : invocation.options = { scan := invocation.options.scan }
  distinct : (Item.flags line.items).Nodup
  compact : invocation.compact = true ↔ .compact ∈ Item.flags line.items
  verbose : invocation.verbose = true ↔ .verbose ∈ Item.flags line.items
  quiet : invocation.quiet = true ↔ .quiet ∈ Item.flags line.items

namespace Chosen

variable {α : Type} {read? : String → Option α} {default value other : α} {texts : List String}

theorem unique (chosen : Chosen read? default texts value) (again : Chosen read? default texts other) :
    value = other := by
  obtain ⟨rfl, rfl⟩ | ⟨text, rfl, read⟩ := chosen
  · obtain ⟨_, rfl⟩ | ⟨_, none, _⟩ := again
    · rfl
    · cases none
  · obtain ⟨none, _⟩ | ⟨_, same, reread⟩ := again
    · cases none
    · cases same
      exact Option.some.inj (read.symm.trans reread)

theorem length_le (chosen : Chosen read? default texts value) : texts.length ≤ 1 := by
  obtain ⟨rfl, _⟩ | ⟨text, rfl, _⟩ := chosen <;> simp

theorem readable (chosen : Chosen read? default texts value) :
    ∀ text ∈ texts, (read? text).isSome = true := by
  obtain ⟨rfl, _⟩ | ⟨text, rfl, read⟩ := chosen <;> simp [*]

theorem of_map_eq {given : Option α} (gathered : texts.map read? = given.toList.map some) :
    Chosen read? default texts (given.getD default) := by
  cases given with
  | none => exact .inl ⟨by simpa using gathered, rfl⟩
  | some found =>
      obtain ⟨text, rfl, read⟩ := List.map_eq_singleton_iff.mp gathered
      exact .inr ⟨text, rfl, read⟩

theorem map (chosen : Chosen read? default texts value) (change : α → α) :
    Chosen (fun text => (read? text).map change) (change default) texts (change value) := by
  obtain ⟨rfl, rfl⟩ | ⟨text, rfl, read⟩ := chosen
  · exact .inl ⟨rfl, rfl⟩
  · exact .inr ⟨text, rfl, Option.map_eq_some_iff.mpr ⟨value, read, rfl⟩⟩

end Chosen

namespace Line

variable {line : Line} {invocation : Invocation} {arguments : Arguments}

theorem Asks.unique {other : Invocation} (asks : line.Asks invocation) (again : line.Asks other) :
    invocation = other := by
  have path := asks.path.symm.trans again.path
  have format := asks.format.unique again.format
  have extension := asks.extension.unique again.extension
  have maxDepth := asks.maxDepth.unique again.maxDepth
  have maxFiles := asks.maxFiles.unique again.maxFiles
  have compact := Bool.eq_iff_iff.mpr (asks.compact.trans again.compact.symm)
  have verbose := Bool.eq_iff_iff.mpr (asks.verbose.trans again.verbose.symm)
  have quiet := Bool.eq_iff_iff.mpr (asks.quiet.trans again.quiet.symm)
  have names := asks.baseNames
  have otherNames := again.baseNames
  obtain ⟨_, ⟨⟨_, _, _⟩, _, _, _⟩, _, _, _, _⟩ := invocation
  obtain ⟨_, ⟨⟨_, _, _⟩, _, _, _⟩, _, _, _, _⟩ := other
  simp_all

theorem Asks.consistent (asks : line.Asks invocation) : Arguments.Consistent line.items where
  onePath := by simp [asks.path]
  nonempty := by simp [asks.path, asks.nonempty]
  oneValue setting := by
    cases setting
    · exact asks.format.length_le
    · exact asks.extension.length_le
    · exact asks.maxDepth.length_le
    · exact asks.maxFiles.length_le
  readable setting := by
    cases setting
    · exact asks.format.readable
    · exact fun _ _ => rfl
    · exact asks.maxDepth.readable
    · exact asks.maxFiles.readable
  distinct := asks.distinct

theorem asks_of_complete (gathers : arguments.Gathers line.items)
    (complete : arguments.complete = .ok invocation) : line.Asks invocation := by
  unfold Arguments.complete at complete
  split at complete
  · cases complete
  · rename_i path named
    cases complete
    have only : Item.paths line.items = [path] := by rw [gathers.path, named, Option.toList_some]
    have dotless : arguments.options.scan.extension =
        withoutDots (arguments.extension.getD "rules") := by
      unfold Arguments.options
      cases arguments.extension <;> rfl
    exact {
      path := only
      nonempty := gathers.nonempty path (by simp [only])
      format := .of_map_eq (gathers.value .format)
      extension := by
        rw [dotless]
        exact (Chosen.of_map_eq (gathers.value .extension)).map withoutDots
      maxDepth := .of_map_eq (gathers.value .maxDepth)
      maxFiles := .of_map_eq (gathers.value .maxFiles)
      baseNames := rfl
      distinct := gathers.distinct
      compact := (gathers.flag .compact).symm
      verbose := (gathers.flag .verbose).symm
      quiet := (gathers.flag .quiet).symm }

theorem parse_spell (written : line.IsWritten) :
    Invocation.parse line.spell = line.items.foldlM Arguments.apply {} >>= Arguments.complete := by
  rw [Invocation.parse, foldlM_read_spell written, bind_map_left]
  apply bind_congr
  intro arguments
  unfold Arguments.complete
  obtain ⟨_ | path, _⟩ := arguments <;> cases line.behind <;> rfl

end Line

/-- An argument list is accepted exactly if it spells a line that asks for something. -/
theorem Invocation.parse_eq_ok_iff {given : List Argument} {invocation : Invocation} :
    parse given = .ok invocation ↔
      ∃ line : Line, line.IsWritten ∧ line.spell = given ∧ line.Asks invocation := by
  constructor
  · intro accepted
    have spelled : ∃ line : Line, line.IsWritten ∧ line.spell = given := by
      obtain ⟨⟨arguments, expecting⟩, read, done⟩ := exists_of_bind_eq_ok accepted
      refine Arguments.exists_line read fun setting open_ => ?_
      subst expecting
      cases done
    obtain ⟨line, written, rfl⟩ := spelled
    rw [Line.parse_spell written] at accepted
    obtain ⟨arguments, taken, complete⟩ := exists_of_bind_eq_ok accepted
    exact ⟨line, written, rfl, Line.asks_of_complete (Arguments.gathers_nil.foldlM taken) complete⟩
  · intro asked
    obtain ⟨line, written, rfl, asks⟩ := asked
    have consistent : Arguments.Consistent ([] ++ line.items) := asks.consistent
    obtain ⟨arguments, taken⟩ := Arguments.gathers_nil.exists_foldlM consistent
    have gathers := Arguments.gathers_nil.foldlM taken
    have named : arguments.path = some invocation.path := by
      have paths := gathers.path.symm.trans asks.path
      simpa using paths
    obtain ⟨other, complete⟩ : ∃ other, arguments.complete = .ok other := by
      rw [Arguments.complete, named]
      exact ⟨_, rfl⟩
    have same := (Line.asks_of_complete gathers complete).unique asks
    rw [Line.parse_spell written, taken, ← same]
    exact complete

end RuleSurvey.Command
