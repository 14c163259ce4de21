import RuleSurvey.Path
import RuleSurvey.Proofs.Text
import RuleSurvey.Proofs.Utf8

namespace RuleSurvey.Path

/-!
Plain paths: from the root through one name after the other, with nothing to be left out or
cancelled. They are the normal forms of the absolute paths, and displaying a path neither makes it
plain nor spoils a plain one. A path that is given as text has its steps and its file name as texts.
-/

/-- A step that leads to an entry of a directory. -/
structure IsName (step : List UInt8) : Prop where
  nonempty : step ≠ []
  undivided : separator ∉ step
  moves : step ≠ here
  descends : step ≠ up

/-- A step as paths have it: to an entry of a directory, or to the parent. -/
def IsStep (step : List UInt8) : Prop :=
  step = up ∨ IsName step

def IsPlain (path : Path) : Prop :=
  ∃ names, (∀ name ∈ names, IsName name) ∧ path = ofSteps true names

/--
The file name in the text of a path: its last component, with empty ones and `.` left out, unless
that leads to a parent.
-/
def nameIn? (text : List Char) : Option (List Char) :=
  ((text.splitOn '/').filter fun component => component ≠ [] ∧ component ≠ ['.']).getLast?.filter
    (· ≠ ['.', '.'])

section Steps

variable {step : List UInt8} {names : List (List UInt8)}

theorem IsStep.nonempty (proper : IsStep step) : step ≠ [] := by
  cases proper with
  | inl climbs => simp [climbs, up]
  | inr name => exact name.nonempty

theorem IsStep.undivided (proper : IsStep step) : separator ∉ step := by
  cases proper with
  | inl climbs => simp [climbs, up, separator]
  | inr name => exact name.undivided

theorem IsStep.moves (proper : IsStep step) : step ≠ here := by
  cases proper with
  | inl climbs => simp [climbs, up, here]
  | inr name => exact name.moves

theorem isStep_of_names (named : ∀ name ∈ names, IsName name) : ∀ step ∈ names, IsStep step :=
  fun step member => .inr (named step member)

end Steps

section Splitting

variable {bytes step : List UInt8} {names : List (List UInt8)} {path : Path}

theorem splitOn_shown (bytes : List UInt8) :
    (Utf8.shown bytes).splitOn separator = (bytes.splitOn separator).map Utf8.shown := by
  have ascii : separator.toNat < 0x80 := by decide
  induction bytes using Text.separated_induction separator with
  | single bytes undivided =>
      rw [List.splitOn_eq_singleton undivided, List.map_singleton]
      exact List.splitOn_eq_singleton (mt (Utf8.mem_shown_iff ascii).mp undivided)
  | divided before after ihBefore ihAfter =>
      rw [Utf8.shown_append ascii, List.splitOn_append_cons_self, List.splitOn_append_cons_self,
        List.map_append, ihBefore, ihAfter]

theorem splitOn_separator_cons (rest : List UInt8) :
    (separator :: rest).splitOn separator = [] :: rest.splitOn separator :=
  List.splitOn_append_cons_self [] rest

/-- Bytes that do not end in a separator end in something else. -/
theorem exists_piece (nonempty : bytes ≠ []) (ends : bytes.getLast? ≠ some separator) :
    ∃ piece ∈ bytes.splitOn separator, piece ≠ [] := by
  induction bytes using Text.separated_induction separator with
  | single bytes undivided =>
      rw [List.splitOn_eq_singleton undivided]
      exact ⟨bytes, List.mem_singleton_self bytes, nonempty⟩
  | divided before after _ ihAfter =>
      have more : after ≠ [] := by
        intro empty
        rw [empty, List.getLast?_concat] at ends
        exact ends rfl
      rw [List.getLast?_append_of_ne_nil _ (List.cons_ne_nil _ _), List.getLast?_cons,
        List.getLast?_eq_some_getLast more] at ends
      obtain ⟨piece, cut, filled⟩ := ihAfter more (by rwa [List.getLast?_eq_some_getLast more])
      rw [List.splitOn_append_cons_self]
      exact ⟨piece, List.mem_append_right _ cut, filled⟩

theorem isAbsolute_iff : path.isAbsolute = true ↔ ∃ rest, path.bytes = separator :: rest := by
  rw [isAbsolute]
  cases path.bytes with
  | nil => simp
  | cons byte rest => simp

theorem eq_of_bytes_eq {first second : Path} (same : first.bytes = second.bytes) : first = second := by
  cases first
  cases second
  exact congrArg mk same

theorem bytes_ofSteps (names : List (List UInt8)) :
    (ofSteps true names).bytes = separator :: List.intercalate [separator] names := rfl

theorem ofSteps_singleton (step : List UInt8) : ofSteps false [step] = ⟨step⟩ := by
  rw [ofSteps, List.intercalate_singleton]
  rfl

theorem splitOn_intercalate (nonempty : names ≠ []) (proper : ∀ step ∈ names, IsStep step) :
    (List.intercalate [separator] names).splitOn separator = names :=
  List.splitOn_intercalate separator (fun step member => (proper step member).undivided) nonempty

theorem splitOn_ofSteps (nonempty : names ≠ []) (named : ∀ name ∈ names, IsName name) :
    (ofSteps true names).bytes.splitOn separator = [] :: names := by
  rw [bytes_ofSteps, splitOn_separator_cons, splitOn_intercalate nonempty (isStep_of_names named)]

theorem isPlain_iff_splitOn :
    path.IsPlain ↔ ∃ tail, path.bytes.splitOn separator = [] :: tail ∧
      (tail = [[]] ∨ tail ≠ [] ∧ ∀ name ∈ tail, IsName name) := by
  constructor
  · intro plain
    obtain ⟨names, named, same⟩ := plain
    by_cases empty : names = []
    · -- The root has nothing on either side of its one separator.
      rw [same, empty]
      exact ⟨[[]], rfl, .inl rfl⟩
    · exact ⟨names, same ▸ splitOn_ofSteps empty named, .inr ⟨empty, named⟩⟩
  · intro cuts
    have whole : [separator].intercalate (path.bytes.splitOn separator) = path.bytes :=
      List.intercalate_splitOn separator
    obtain ⟨tail, cut, root | ⟨nonempty, named⟩⟩ := cuts
    · rw [cut, root] at whole
      exact ⟨[], by simp, eq_of_bytes_eq whole.symm⟩
    · rw [cut, List.intercalate_cons_of_ne_nil nonempty] at whole
      exact ⟨tail, named, eq_of_bytes_eq whole.symm⟩

end Splitting

section Display

variable {bytes : List UInt8} {path : Path}

theorem display_ofString (text : String) : (ofString text).display = text := by
  rw [display, ofString, Utf8.display_encode, String.ofList_toList]

theorem isAbsolute_ofString {text : String} :
    (ofString text).isAbsolute = true ↔ text.toList.head? = some '/' := by
  rw [isAbsolute_iff, ofString]
  cases text.toList with
  | nil => simp [Utf8.encode]
  | cons c rest =>
      constructor
      · intro starts
        obtain ⟨bytes, same⟩ := starts
        dsimp only at same
        have pieces := Utf8.pieces_encode (c :: rest)
        rw [same, Utf8.pieces_cons_ascii (by decide)] at pieces
        injection pieces with first
        injection first with first
        rw [← first]
        rfl
      · intro starts
        cases starts
        exact ⟨Utf8.encode rest, rfl⟩

theorem ofString_display (path : Path) : ofString path.display = ⟨Utf8.shown path.bytes⟩ := by
  rw [ofString, display, String.toList_ofList]
  rfl

theorem shown_eq_nil_iff : Utf8.shown bytes = [] ↔ bytes = [] :=
  Utf8.shown_eq_encode_iff (List.not_mem_nil : '\uFFFD' ∉ [])

theorem isName_shown_iff : IsName (Utf8.shown bytes) ↔ IsName bytes := by
  have separators : separator ∈ Utf8.shown bytes ↔ separator ∈ bytes :=
    Utf8.mem_shown_iff (by decide)
  have stays : Utf8.shown bytes = here ↔ bytes = here :=
    Utf8.shown_eq_encode_iff (by decide : '\uFFFD' ∉ ['.'])
  have climbs : Utf8.shown bytes = up ↔ bytes = up :=
    Utf8.shown_eq_encode_iff (by decide : '\uFFFD' ∉ ['.', '.'])
  constructor
  · intro name
    exact ⟨mt shown_eq_nil_iff.mpr name.nonempty, mt separators.mpr name.undivided,
      mt stays.mpr name.moves, mt climbs.mpr name.descends⟩
  · intro name
    exact ⟨mt shown_eq_nil_iff.mp name.nonempty, mt separators.mp name.undivided,
      mt stays.mp name.moves, mt climbs.mp name.descends⟩

/-- A path is plain exactly if the text that shows it is. -/
theorem isPlain_ofString_display : (ofString path.display).IsPlain ↔ path.IsPlain := by
  rw [ofString_display, isPlain_iff_splitOn, isPlain_iff_splitOn, splitOn_shown]
  cases path.bytes.splitOn separator with
  | nil => simp
  | cons head tail =>
      have root : tail.map Utf8.shown = [[]] ↔ tail = [[]] := by
        simp [List.map_eq_cons_iff, shown_eq_nil_iff]
      simp [shown_eq_nil_iff, isName_shown_iff, root]

end Display

section FileNames

variable {text fileName : List Char}

/-- Text is cut at a separator where its bytes are. -/
theorem splitOn_encode (text : List Char) :
    (Utf8.encode text).splitOn separator = (text.splitOn '/').map Utf8.encode := by
  have ascii : separator.toNat < 0x80 := by decide
  induction text using Text.separated_induction '/' with
  | single text undivided =>
      rw [List.splitOn_eq_singleton undivided, List.map_singleton]
      exact List.splitOn_eq_singleton (mt (Utf8.mem_of_mem_encode ascii) undivided)
  | divided before after ihBefore ihAfter =>
      have bytes : Utf8.encode (before ++ '/' :: after) =
          Utf8.encode before ++ separator :: Utf8.encode after := by
        rw [Utf8.encode, List.flatMap_append, List.flatMap_cons]
        rfl
      rw [bytes, List.splitOn_append_cons_self, List.splitOn_append_cons_self, List.map_append,
        ihBefore, ihAfter]

theorem steps_ofString (path : String) :
    (ofString path).steps =
      ((path.toList.splitOn '/').filter fun component =>
        component ≠ [] ∧ component ≠ ['.']).map Utf8.encode := by
  have empty : ∀ component, Utf8.encode component = [] ↔ component = [] :=
    fun component => Utf8.encode_injective.eq_iff' rfl
  have stays : ∀ component, Utf8.encode component = here ↔ component = ['.'] :=
    fun component => Utf8.encode_injective.eq_iff' (by decide +kernel)
  rw [steps, ofString, splitOn_encode, List.filter_map]
  congr 1
  refine List.filter_congr fun component _ => ?_
  simp [empty, stays]

theorem fileName?_ofString (path : String) :
    (ofString path).fileName? = (nameIn? path.toList).map Utf8.encode := by
  have climbs : ∀ component, Utf8.encode component = up ↔ component = ['.', '.'] :=
    fun component => Utf8.encode_injective.eq_iff' (by decide +kernel)
  rw [fileName?, steps_ofString, List.getLast?_map, nameIn?]
  cases ((path.toList.splitOn '/').filter fun component =>
      component ≠ [] ∧ component ≠ ['.']).getLast? with
  | none => rfl
  | some component =>
      by_cases parent : component = ['.', '.'] <;> simp [climbs, parent, Option.filter_some]

theorem nameIn?_of_undivided (undivided : '/' ∉ text) (solid : ∃ c ∈ text, c ≠ '.') :
    nameIn? text = some text := by
  obtain ⟨c, member, solid⟩ := solid
  have nonempty : text ≠ [] := List.ne_nil_of_mem member
  have stays : text ≠ ['.'] := by
    rintro rfl
    exact solid (by simpa using member)
  have climbs : text ≠ ['.', '.'] := by
    rintro rfl
    exact solid (by simpa using member)
  rw [nameIn?, List.splitOn_eq_singleton undivided]
  simp [nonempty, stays, climbs]

theorem mem_splitOn_of_nameIn? (named : nameIn? text = some fileName) :
    fileName ∈ text.splitOn '/' := by
  obtain ⟨last, _⟩ := Option.filter_eq_some_iff.mp named
  exact List.mem_of_mem_filter (List.mem_of_getLast? last)

end FileNames

section Normal

variable {step : List UInt8} {names kept steps : List (List UInt8)} {path : Path} {absolute : Bool}

theorem mem_steps_iff :
    step ∈ path.steps ↔ step ∈ path.bytes.splitOn separator ∧ step ≠ [] ∧ step ≠ here := by
  simp [Path.steps]

/-- A path that is cut at a separator has the steps of both sides. -/
theorem steps_append (before after : List UInt8) :
    Path.steps ⟨before ++ separator :: after⟩ = Path.steps ⟨before⟩ ++ Path.steps ⟨after⟩ := by
  rw [Path.steps, List.splitOn_append_cons_self, List.filter_append]
  rfl

theorem steps_intercalate (proper : ∀ step ∈ names, IsStep step) :
    Path.steps ⟨[separator].intercalate names⟩ = names := by
  by_cases empty : names = []
  · rw [empty]
    rfl
  · rw [Path.steps, splitOn_intercalate empty proper, List.filter_eq_self]
    intro step member
    simp [(proper step member).nonempty, (proper step member).moves]

theorem steps_ofSteps (absolute : Bool) (proper : ∀ step ∈ names, IsStep step) :
    (ofSteps absolute names).steps = names := by
  cases absolute with
  | false => exact steps_intercalate proper
  | true =>
      have cut := steps_append [] ([separator].intercalate names)
      rw [steps_intercalate proper] at cut
      exact cut

theorem settle_of_names (named : ∀ name ∈ names, IsName name) :
    settle absolute kept names = kept.reverse ++ names := by
  induction names generalizing kept with
  | nil => simp [settle]
  | cons name rest ih =>
      have first := named name List.mem_cons_self
      rw [settle.eq_def]
      simp only [first.descends, if_false]
      rw [ih fun other member => named other (List.mem_cons_of_mem _ member)]
      simp

/-- From the root on, settling keeps names only. -/
theorem isName_of_mem_settle (named : ∀ name ∈ kept, IsName name)
    (proper : ∀ step ∈ steps, IsStep step) (member : step ∈ settle true kept steps) :
    IsName step := by
  fun_induction settle true kept steps with
  | case1 kept => exact named step (List.mem_reverse.mp member)
  | case2 rest ih =>
      exact ih (by simp) (fun other later => proper other (List.mem_cons_of_mem _ later)) member
  | case3 rest before ih =>
      -- No step to a parent is ever kept.
      exact absurd rfl (named up List.mem_cons_self).descends
  | case4 rest last before _ ih =>
      exact ih (fun name older => named name (List.mem_cons_of_mem _ older))
        (fun other later => proper other (List.mem_cons_of_mem _ later)) member
  | case5 kept first rest descends ih =>
      have name := (proper first List.mem_cons_self).resolve_left descends
      refine ih ?_ (fun other later => proper other (List.mem_cons_of_mem _ later)) member
      exact List.forall_mem_cons.mpr ⟨name, named⟩

theorem isStep_of_mem_steps (member : step ∈ path.steps) : IsStep step := by
  obtain ⟨cut, nonempty, moves⟩ := mem_steps_iff.mp member
  by_cases climbs : step = up
  · exact .inl climbs
  · exact .inr ⟨nonempty, Text.not_mem_of_mem_splitOn cut, moves, climbs⟩

theorem normalize_of_isAbsolute (absolute : path.isAbsolute = true) :
    path.normalize = ofSteps true (settle true [] path.steps) := by
  simp [Path.normalize, absolute]

theorem isPlain_normalize (absolute : path.isAbsolute = true) : path.normalize.IsPlain := by
  refine ⟨_, ?_, normalize_of_isAbsolute absolute⟩
  intro name member
  exact isName_of_mem_settle (by simp) (fun step => isStep_of_mem_steps) member

theorem IsPlain.isAbsolute (plain : path.IsPlain) : path.isAbsolute = true := by
  obtain ⟨names, _, same⟩ := plain
  rw [same]
  rfl

theorem IsPlain.normalize (plain : path.IsPlain) : path.normalize = path := by
  rw [normalize_of_isAbsolute plain.isAbsolute]
  obtain ⟨names, named, same⟩ := plain
  rw [same, steps_ofSteps true (isStep_of_names named), settle_of_names named]
  rfl

theorem IsPlain.parent (plain : path.IsPlain) : path.parent.IsPlain := by
  obtain ⟨names, named, same⟩ := plain
  refine ⟨names.dropLast, fun name member => named name (List.dropLast_subset names member), ?_⟩
  rw [Path.parent, same, steps_ofSteps true (isStep_of_names named)]
  rfl

end Normal

section Joining

variable {names others : List (List UInt8)} {base path : Path}

theorem isAbsolute_join (base path : Path) :
    (base.join path).isAbsolute = (path.isAbsolute || base.isAbsolute) := by
  unfold join
  cases starts : path.isAbsolute with
  | true => exact starts
  | false =>
      by_cases empty : base.bytes = []
      · rw [if_pos (by simp [empty]), starts, isAbsolute, empty]
        rfl
      · rw [if_neg (by simp [empty])]
        split
        all_goals rw [isAbsolute, List.head?_append_of_ne_nil _ empty]; rfl

theorem intercalate_append (nonempty : names ≠ []) (othersNonempty : others ≠ []) :
    [separator].intercalate (names ++ others) =
      [separator].intercalate names ++ separator :: [separator].intercalate others := by
  induction names with
  | nil => exact absurd rfl nonempty
  | cons name rest ih =>
      by_cases last : rest = []
      · simp [last, List.intercalate_cons_of_ne_nil othersNonempty]
      · rw [List.cons_append, List.intercalate_cons_of_ne_nil (by simp [last]), ih last,
          List.intercalate_cons_of_ne_nil last, List.append_assoc, List.append_assoc,
          List.append_assoc]

/-- Leaving steps out leaves bytes out. -/
theorem intercalate_sublist (fewer : names.Sublist others) :
    ([separator].intercalate names).Sublist ([separator].intercalate others) := by
  induction fewer with
  | slnil => exact .slnil
  | @cons names others step _ ih =>
      by_cases last : others = []
      · rw [last] at ih
        rw [List.sublist_nil.mp ih]
        exact List.nil_sublist _
      · rw [List.intercalate_cons_of_ne_nil last]
        exact ih.trans (List.sublist_append_right _ _)
  | @cons_cons names others step fewer ih =>
      by_cases last : names = []
      · by_cases alone : others = []
        · rw [last, alone]
        · rw [last, List.intercalate_cons_of_ne_nil alone, List.intercalate_singleton,
            List.append_assoc]
          exact List.sublist_append_left _ _
      · have more : others ≠ [] := by
          intro empty
          rw [empty] at fewer
          exact last (List.sublist_nil.mp fewer)
        rw [List.intercalate_cons_of_ne_nil last, List.intercalate_cons_of_ne_nil more]
        exact ih.append_left _

theorem bytes_ofSteps_sublist (fewer : names.Sublist path.steps) :
    (ofSteps path.isAbsolute names).bytes.Sublist path.bytes := by
  have spelled : ∀ bytes, names.Sublist (Path.steps ⟨bytes⟩) →
      ([separator].intercalate names).Sublist bytes := by
    intro bytes among
    have pieces := intercalate_sublist (among.trans List.filter_sublist)
    rwa [List.intercalate_splitOn] at pieces
  cases starts : path.isAbsolute with
  | false => exact spelled path.bytes fewer
  | true =>
      obtain ⟨rest, same⟩ := isAbsolute_iff.mp starts
      have behind : path.steps = Path.steps ⟨rest⟩ := by
        rw [Path.steps, same, splitOn_separator_cons]
        rfl
      rw [same]
      exact (spelled rest (behind ▸ fewer)).cons_cons separator

theorem isAbsolute_ofSteps (absolute : Bool) (proper : ∀ step ∈ names, IsStep step) :
    (ofSteps absolute names).isAbsolute = absolute := by
  cases absolute with
  | true => rfl
  | false =>
      by_cases empty : names = []
      · rw [empty]
        rfl
      · rw [← Bool.not_eq_true, isAbsolute_iff]
        intro starts
        obtain ⟨rest, same⟩ := starts
        have cuts : (ofSteps false names).bytes.splitOn separator = names :=
          splitOn_intercalate empty proper
        rw [same, splitOn_separator_cons] at cuts
        exact (proper [] (cuts ▸ List.mem_cons_self)).nonempty rfl

theorem getLast?_intercalate (nonempty : names ≠ []) (proper : ∀ step ∈ names, IsStep step) :
    ([separator].intercalate names).getLast? ≠ some separator := by
  intro ends
  obtain ⟨front, same⟩ := List.getLast?_eq_some_iff.mp ends
  have cuts := splitOn_intercalate nonempty proper
  rw [same, List.splitOn_append_cons_self, List.splitOn_nil] at cuts
  exact (proper [] (cuts ▸ List.mem_append_right _ List.mem_cons_self)).nonempty rfl

/-- Only the root ends in a separator. -/
theorem getLast?_ofSteps (absolute : Bool) (nonempty : names ≠ [])
    (proper : ∀ step ∈ names, IsStep step) :
    (ofSteps absolute names).bytes.getLast? ≠ some separator := by
  have inner := getLast?_intercalate nonempty proper
  have filled : [separator].intercalate names ≠ [] := by
    intro empty
    have cuts := steps_intercalate proper
    rw [empty] at cuts
    exact nonempty cuts.symm
  rwa [ofSteps, List.getLast?_append_of_ne_nil _ filled]

/-- Relative names lead on from a plain path to a plain path. -/
theorem join_ofSteps (named : ∀ name ∈ names, IsName name) (nonempty : others ≠ [])
    (othersNamed : ∀ name ∈ others, IsName name) :
    (ofSteps true names).join (ofSteps false others) = ofSteps true (names ++ others) := by
  have relative := isAbsolute_ofSteps false (isStep_of_names othersNamed)
  unfold join
  rw [if_neg (by simp [relative, bytes_ofSteps])]
  by_cases root : names = []
  · rw [root]
    rfl
  · rw [if_neg (getLast?_ofSteps true root (isStep_of_names named))]
    apply eq_of_bytes_eq
    rw [bytes_ofSteps (names ++ others), intercalate_append root nonempty]
    rfl

end Joining

end RuleSurvey.Path
