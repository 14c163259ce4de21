import RuleSurvey.Command.Arguments
import RuleSurvey.Proofs.Path

namespace RuleSurvey.Command

/-!
How a command line is written. It is a row of words, each of one or two arguments, and perhaps `--`
with nothing but paths behind it. Reading the arguments one by one comes to the same as taking over
what the words say, and whatever is read without a fault is such a line.
-/

namespace Argument

variable {argument : Argument} {text : String}

def ofPath (path : Path) : Argument :=
  ⟨path.bytes⟩

@[simp]
theorem path_ofPath (path : Path) : (ofPath path).path = path := rfl

theorem map_ofPath_path (given : List Argument) : (given.map path).map ofPath = given := by
  rw [List.map_map]
  exact List.map_id given

@[simp]
theorem display_ofString (text : String) : (ofString text).display = text :=
  Path.display_ofString text

theorem text?_eq_some_iff : argument.text? = some text ↔ argument = ofString text := by
  obtain ⟨bytes⟩ := argument
  simp only [text?, ofString, Option.map_eq_some_iff, Utf8.decode?_eq_some_iff, mk.injEq]
  constructor
  · rintro ⟨characters, rfl, rfl⟩
    rw [String.toList_ofList]
  · intro same
    exact ⟨text.toList, same, String.ofList_toList⟩

@[simp]
theorem text?_ofString (text : String) : (ofString text).text? = some text :=
  text?_eq_some_iff.mpr rfl

/-- What is shown without a replacement character is shown as it is. -/
theorem eq_ofString_of_display (shown : argument.display = text) (faultless : '\uFFFD' ∉ text.toList) :
    argument = ofString text := by
  obtain ⟨bytes⟩ := argument
  have same : Utf8.shown bytes = Utf8.encode text.toList := by
    rw [← shown, display, Path.display, String.toList_ofList]
    rfl
  rw [ofString, (Utf8.shown_eq_encode_iff faultless).mp same]

end Argument

/-- The switches that have a letter of their own. -/
inductive Letter where
  | verbose
  | quiet
deriving DecidableEq

namespace Letter

def char : Letter → Char
  | verbose => 'v'
  | quiet => 'q'

def switch : Letter → Switch
  | verbose => .verbose
  | quiet => .quiet

end Letter

/-- One thing that a command line says, however it is written. -/
inductive Item where
  | path (place : Path)
  | value (setting : Setting) (text : String)
  | flag (switch : Switch)

namespace Item

@[simp]
def path? : Item → Option Path
  | path place => some place
  | _ => none

@[simp]
def value? (wanted : Setting) : Item → Option String
  | value setting text => if setting = wanted then some text else none
  | _ => none

@[simp]
def flag? : Item → Option Switch
  | flag switch => some switch
  | _ => none

def paths (items : List Item) : List Path :=
  items.filterMap path?

/-- The texts that are given for a setting. -/
def values (wanted : Setting) (items : List Item) : List String :=
  items.filterMap (value? wanted)

def flags (items : List Item) : List Switch :=
  items.filterMap flag?

theorem filterMap_concat {α : Type} (view : Item → Option α) (items : List Item) (item : Item) :
    (items ++ [item]).filterMap view = items.filterMap view ++ (view item).toList := by
  rw [List.filterMap_append]
  cases viewed : view item <;> simp [viewed]

@[simp]
theorem paths_concat (items : List Item) (item : Item) :
    paths (items ++ [item]) = paths items ++ item.path?.toList :=
  filterMap_concat path? items item

@[simp]
theorem values_concat (wanted : Setting) (items : List Item) (item : Item) :
    values wanted (items ++ [item]) = values wanted items ++ (item.value? wanted).toList :=
  filterMap_concat (value? wanted) items item

@[simp]
theorem flags_concat (items : List Item) (item : Item) :
    flags (items ++ [item]) = flags items ++ item.flag?.toList :=
  filterMap_concat flag? items item

end Item

inductive Word where
  | path (place : Path)
  /-- `--name=value` -/
  | joined (setting : Setting) (text : String)
  /-- `--name value` -/
  | apart (setting : Setting) (text : String)
  | long (switch : Switch)
  /-- Letters behind one dash. -/
  | short (first : Letter) (rest : List Letter)

namespace Word

def spell : Word → List Argument
  | path place => [.ofPath place]
  | joined setting text => [.ofString (setting.name ++ "=" ++ text)]
  | apart setting text => [.ofString setting.name, .ofString text]
  | long switch => [.ofString switch.name]
  | short first rest => [.ofString (String.ofList ('-' :: (first :: rest).map Letter.char))]

def items : Word → List Item
  | path place => [.path place]
  | joined setting text => [.value setting text]
  | apart setting text => [.value setting text]
  | long switch => [.flag switch]
  | short first rest => (first :: rest).map fun letter => .flag letter.switch

/-- What stands alone must not be taken for an option. -/
def IsWritten : Word → Prop
  | path place => looksLikeOption (.ofPath place) = false
  | apart _ text => looksLikeOption (.ofString text) = false
  | _ => True

end Word

structure Line where
  words : List Word
  /-- The arguments behind `--`, if it is there. -/
  behind : Option (List Path)

namespace Line

def spell (line : Line) : List Argument :=
  line.words.flatMap Word.spell ++ line.behind.elim [] (.ofString "--" :: ·.map .ofPath)

def items (line : Line) : List Item :=
  line.words.flatMap Word.items ++ (line.behind.getD []).map .path

def IsWritten (line : Line) : Prop :=
  ∀ word ∈ line.words, word.IsWritten

end Line

/-- Where a sequence of two steps succeeds, each of them does. -/
theorem exists_of_bind_eq_ok {ε α β : Type} {first : Except ε α} {rest : α → Except ε β} {last : β}
    (accepted : (first >>= rest) = .ok last) :
    ∃ middle, first = .ok middle ∧ rest middle = .ok last := by
  cases first with
  | error reason => cases accepted
  | ok middle => exact ⟨middle, rfl, accepted⟩

namespace Arguments

variable {arguments next : Arguments} {expecting : Expecting}

def apply (arguments : Arguments) : Item → Except Stop Arguments
  | .path place => arguments.setPath place
  | .value setting text => arguments.set setting text
  | .flag switch => arguments.turnOn switch

theorem looksLikeOption_eq_false_iff {argument : Argument} :
    looksLikeOption argument = false ↔ ∀ c rest, argument.display.toList ≠ '-' :: c :: rest := by
  unfold looksLikeOption
  split
  · rename_i c rest dash
    simp only [Bool.true_eq_false, false_iff, not_forall, not_not]
    exact ⟨c, rest, dash⟩
  · rename_i undashed
    exact iff_of_true rfl undashed

section Spelling

theorem read_joined (setting : Setting) (text : String) :
    read (arguments, .any) (.ofString (setting.name ++ "=" ++ text)) =
      (·, .any) <$> arguments.set setting text := by
  cases setting <;>
    simp [read, readLong, Setting.name, LongOption.ofName?, List.takeWhile, List.dropWhile]

theorem read_name (setting : Setting) :
    read (arguments, .any) (.ofString setting.name) = pure (arguments, .value setting) := by
  simp only [read, Argument.display_ofString, Argument.text?_ofString]
  cases setting <;> rfl

theorem read_value {setting : Setting} {text : String}
    (plain : looksLikeOption (.ofString text) = false) :
    read (arguments, .value setting) (.ofString text) = (·, .any) <$> arguments.set setting text := by
  simp [read, plain]

theorem read_long (switch : Switch) :
    read (arguments, .any) (.ofString switch.name) = (·, .any) <$> arguments.turnOn switch := by
  simp only [read, Argument.display_ofString, Argument.text?_ofString]
  cases switch <;> rfl

theorem foldlM_readLetter (letters : List Letter) :
    (letters.map Letter.char).foldlM readLetter arguments =
      (letters.map fun letter => Item.flag letter.switch).foldlM apply arguments := by
  induction letters generalizing arguments with
  | nil => rfl
  | cons letter rest ih =>
      rw [List.map_cons, List.map_cons, List.foldlM_cons, List.foldlM_cons]
      cases letter <;> exact bind_congr fun _ => ih

theorem read_short (first : Letter) (rest : List Letter) :
    read (arguments, .any) (.ofString (String.ofList ('-' :: (first :: rest).map Letter.char))) =
      (·, .any) <$> ((first :: rest).map fun letter => Item.flag letter.switch).foldlM apply
        arguments := by
  rw [← foldlM_readLetter]
  cases first <;> simp [read, Letter.char]

theorem read_path {path : Path} (plain : looksLikeOption (.ofPath path) = false) :
    read (arguments, .any) (.ofPath path) = (·, .any) <$> arguments.setPath path := by
  have undashed := looksLikeOption_eq_false_iff.mp plain
  simp only [read]
  split
  · exact absurd ‹_› (undashed _ _)
  · exact absurd ‹_› (undashed _ _)
  · exact absurd ‹_› (undashed _ _)
  · simp

theorem foldlM_read_word {word : Word} (written : word.IsWritten) (arguments : Arguments) :
    word.spell.foldlM read (arguments, .any) = (·, .any) <$> word.items.foldlM apply arguments := by
  cases word with
  | path place => simp [Word.spell, Word.items, apply, read_path written]
  | joined setting text => simp [Word.spell, Word.items, apply, read_joined]
  | apart setting text => simp [Word.spell, Word.items, apply, read_name, read_value written]
  | long switch => simp [Word.spell, Word.items, apply, read_long]
  | short first rest =>
    rw [Word.spell, Word.items, List.foldlM_cons, read_short]
    simp

theorem foldlM_read_words {words : List Word} (written : ∀ word ∈ words, word.IsWritten)
    (arguments : Arguments) :
    (words.flatMap Word.spell).foldlM read (arguments, .any) =
      (·, .any) <$> (words.flatMap Word.items).foldlM apply arguments := by
  induction words generalizing arguments with
  | nil => rfl
  | cons word rest ih =>
      obtain ⟨first, others⟩ := List.forall_mem_cons.mp written
      simp only [List.flatMap_cons, List.foldlM_append, foldlM_read_word first, bind_map_left, map_bind,
        ih others]

theorem foldlM_read_behind (paths : List Path) (arguments : Arguments) :
    (paths.map Argument.ofPath).foldlM read (arguments, .path) =
      (·, .path) <$> (paths.map Item.path).foldlM apply arguments := by
  induction paths generalizing arguments with
  | nil => rfl
  | cons path rest ih => simp [read, apply, ih]

end Spelling

section Segmentation

theorem name_of_setting {name : String} {setting : Setting}
    (named : LongOption.ofName? name = some (.setting setting)) : setting.name = "--" ++ name := by
  unfold LongOption.ofName? at named
  split at named <;> cases named <;> rfl

theorem name_of_switch {name : String} {switch : Switch}
    (named : LongOption.ofName? name = some (.switch switch)) : switch.name = "--" ++ name := by
  unfold LongOption.ofName? at named
  split at named <;> cases named <;> rfl

theorem exists_letters {letters : List Char}
    (accepted : letters.foldlM readLetter arguments = .ok next) :
    ∃ known : List Letter, letters = known.map Letter.char := by
  induction letters generalizing arguments with
  | nil => exact ⟨[], rfl⟩
  | cons letter rest ih =>
      rw [List.foldlM_cons] at accepted
      obtain ⟨middle, first, others⟩ := exists_of_bind_eq_ok accepted
      obtain ⟨known, rfl⟩ := ih others
      unfold readLetter at first
      split at first
      · exact ⟨.verbose :: known, rfl⟩
      · exact ⟨.quiet :: known, rfl⟩
      all_goals cases first

theorem of_bind_eq_ok {result : Except Stop Arguments} {after : Expecting}
    (accepted : (do return (← result, after)) = Except.ok (next, expecting)) :
    result = .ok next ∧ expecting = after := by
  obtain ⟨middle, done, same⟩ := exists_of_bind_eq_ok accepted
  cases same
  exact ⟨done, rfl⟩

/-- An argument that is a word by itself. -/
def IsWord (argument : Argument) : Prop :=
  ∃ word : Word, word.IsWritten ∧ word.spell = [argument]

/-- A long option is a word, or it is a name whose value is to come. -/
theorem isWord_or_name_of_readLong {text : List Char}
    (accepted : arguments.readLong text = .ok (next, expecting)) :
    (expecting = .any ∧ IsWord (.ofString (String.ofList ('-' :: '-' :: text)))) ∨
      ∃ setting, expecting = .value setting ∧ String.ofList ('-' :: '-' :: text) = setting.name := by
  have unstopped : text.dropWhile (· != '=') = [] → text.takeWhile (· != '=') = text := by
    intro ended
    have whole := @List.takeWhile_append_dropWhile _ (· != '=') text
    rwa [ended, List.append_nil] at whole
  unfold readLong at accepted
  dsimp only at accepted
  split at accepted
  · rename_i setting _ value named stopped
    refine .inl ⟨(of_bind_eq_ok accepted).2, .joined setting (String.ofList value), trivial, ?_⟩
    have whole := Text.eq_takeWhile_append stopped
    generalize text.takeWhile (· != '=') = name at named whole
    have spelled : setting.name ++ "=" ++ String.ofList value =
        String.ofList ('-' :: '-' :: text) := by
      rw [name_of_setting named, whole, ← String.toList_inj]
      simp
    rw [Word.spell, spelled]
  · rename_i setting named stopped
    cases accepted
    rw [unstopped stopped] at named
    refine .inr ⟨setting, rfl, ?_⟩
    rw [name_of_setting named, ← String.toList_inj]
    simp
  · rename_i switch named stopped
    rw [unstopped stopped] at named
    refine .inl ⟨(of_bind_eq_ok accepted).2, .long switch, trivial, ?_⟩
    have spelled : switch.name = String.ofList ('-' :: '-' :: text) := by
      rw [name_of_switch named, ← String.toList_inj]
      simp
    rw [Word.spell, spelled]
  · cases accepted
  · cases accepted

/-- What an argument can be that is read where any may stand. -/
theorem read_any_cases {argument : Argument}
    (accepted : read (arguments, .any) argument = .ok (next, expecting)) :
    (expecting = .any ∧ IsWord argument) ∨
      (∃ setting, expecting = .value setting ∧ argument = .ofString setting.name) ∨
      (expecting = .path ∧ argument = .ofString "--") := by
  simp only [read] at accepted
  split at accepted
  · rename_i dashes
    cases accepted
    have shown : argument.display = "--" := String.toList_inj.mp dashes
    exact .inr (.inr ⟨rfl, Argument.eq_ofString_of_display shown (by decide)⟩)
  · rename_i text _ dashes
    split at accepted
    · rename_i isText
      obtain ⟨whole, read⟩ := Option.isSome_iff_exists.mp isText
      obtain rfl := Argument.text?_eq_some_iff.mp read
      rw [Argument.display_ofString] at dashes
      obtain rfl : whole = String.ofList ('-' :: '-' :: text) := by
        rw [← dashes, String.ofList_toList]
      obtain word | ⟨setting, awaited, name⟩ := isWord_or_name_of_readLong accepted
      · exact .inl word
      · exact .inr (.inl ⟨setting, awaited, congrArg Argument.ofString name⟩)
    · cases accepted
  · rename_i letter letters _ _ dash
    obtain ⟨group, free⟩ := of_bind_eq_ok accepted
    obtain ⟨known, spelled⟩ := exists_letters group
    cases known with
    | nil => cases spelled
    | cons first rest =>
        have shown : argument.display = String.ofList ('-' :: (first :: rest).map Letter.char) := by
          rw [← spelled, ← dash, String.ofList_toList]
        have faultless : '\uFFFD' ∉ '-' :: (first :: rest).map Letter.char := by
          rw [List.mem_cons, not_or]
          refine ⟨by decide, ?_⟩
          intro member
          obtain ⟨letter, _, same⟩ := List.mem_map.mp member
          cases letter <;> exact absurd same (by decide)
        refine .inl ⟨free, .short first rest, trivial, ?_⟩
        rw [Word.spell, Argument.eq_ofString_of_display shown]
        rwa [String.toList_ofList]
  · rename_i noDashes noLong noShort
    exact .inl ⟨(of_bind_eq_ok accepted).2, .path argument.path,
      looksLikeOption_eq_false_iff.mpr noShort, rfl⟩

theorem of_read_value {setting : Setting} {argument : Argument}
    (accepted : read (arguments, .value setting) argument = .ok (next, expecting)) :
    ∃ text, argument = .ofString text ∧ looksLikeOption argument = false ∧ expecting = .any := by
  simp only [read] at accepted
  split at accepted
  · cases accepted
  · rename_i plain
    split at accepted
    · rename_i text read
      exact ⟨text, Argument.text?_eq_some_iff.mp read, Bool.not_eq_true _ ▸ plain,
        (of_bind_eq_ok accepted).2⟩
    · cases accepted

/-- What is read without a fault and leaves no value open is a line. -/
theorem exists_line {given : List Argument}
    (accepted : given.foldlM read (arguments, .any) = .ok (next, expecting))
    (settled : ∀ setting, expecting ≠ .value setting) :
    ∃ line : Line, line.IsWritten ∧ line.spell = given := by
  -- By the number of arguments: a name and its value are taken together.
  induction sized : given.length using Nat.strongRecOn generalizing given arguments with
  | ind size ih =>
      cases given with
      | nil => exact ⟨⟨[], none⟩, by simp [Line.IsWritten], rfl⟩
      | cons argument rest =>
          have shorter : rest.length < size := by
            rw [← sized]
            exact Nat.lt_succ_self _
          rw [List.foldlM_cons] at accepted
          obtain ⟨⟨middle, awaited⟩, first, others⟩ := exists_of_bind_eq_ok accepted
          obtain ⟨rfl, word, written, spelled⟩ | ⟨setting, rfl, rfl⟩ | ⟨rfl, rfl⟩ :=
            read_any_cases first
          · obtain ⟨line, kept, rfl⟩ := ih _ shorter others rfl
            refine ⟨⟨word :: line.words, line.behind⟩, List.forall_mem_cons.mpr ⟨written, kept⟩, ?_⟩
            simp [Line.spell, spelled]
          · cases rest with
            | nil =>
                cases others
                exact absurd rfl (settled setting)
            | cons value later =>
                rw [List.length_cons] at shorter
                rw [List.foldlM_cons] at others
                obtain ⟨⟨filled, awaited⟩, second, others⟩ := exists_of_bind_eq_ok others
                obtain ⟨text, rfl, plain, rfl⟩ := of_read_value second
                obtain ⟨line, kept, rfl⟩ := ih _ (by omega) others rfl
                refine ⟨⟨.apart setting text :: line.words, line.behind⟩,
                  List.forall_mem_cons.mpr ⟨plain, kept⟩, ?_⟩
                simp [Line.spell, Word.spell]
          · refine ⟨⟨[], some (rest.map Argument.path)⟩, by simp [Line.IsWritten], ?_⟩
            rw [Line.spell, Option.elim_some, Argument.map_ofPath_path]
            rfl

end Segmentation

end Arguments

theorem Line.foldlM_read_spell {line : Line} (written : line.IsWritten) (arguments : Arguments) :
    line.spell.foldlM Arguments.read (arguments, .any) =
      (·, if line.behind.isSome then .path else .any) <$>
        line.items.foldlM Arguments.apply arguments := by
  obtain ⟨words, behind⟩ := line
  rw [spell, items, List.foldlM_append, List.foldlM_append, Arguments.foldlM_read_words written]
  cases behind with
  | none => simp
  | some paths =>
      simp only [bind_map_left, map_bind, Option.elim_some, List.foldlM_cons, Option.getD_some,
        Option.isSome_some, if_true, ← Arguments.foldlM_read_behind]
      rfl

end RuleSurvey.Command
