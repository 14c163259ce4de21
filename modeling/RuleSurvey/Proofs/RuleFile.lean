import RuleSurvey.RuleFile
import RuleSurvey.Proofs.Text

namespace RuleSurvey

namespace RuleFile

open Text

/-!
Where a declared name comes from. The blanks in a heading may span lines, so a heading that breaks
off at the end of its line goes on in the lines that follow. Any other heading is read from its own
line alone, and the text is then read as its lines are, one after the other.
-/

section Headings

variable {row rest name : List Char}

/-- The name of the heading with which a text starts. -/
def headed? (text : List Char) : Option (List Char) :=
  (pastHeading? text).bind headingName?

/-- A line that ends before the heading has its name. -/
inductive BreaksOff : List Char → Prop
  | mark (gap : Blanks) : BreaksOff ('#' :: gap.val)
  | heading (gap trail : Blanks) : BreaksOff ('#' :: (gap.val ++ ("Name:".toList ++ trail.val)))

theorem pastHeading?_eq_some_iff {text : List Char} :
    pastHeading? text = some rest ↔
      ∃ gap : Blanks, text = '#' :: (gap.val ++ ("Name:".toList ++ rest)) := by
  have named : "Name:".toList ++ rest = 'N' :: ("ame:".toList ++ rest) := rfl
  simp only [pastHeading?, Option.bind_eq_bind, Option.bind_eq_some_iff, strip?_eq_some_iff, named,
    trimStart_eq_cons_iff]
  constructor
  · intro found
    obtain ⟨comment, start, _, gap, whole⟩ := found
    exact ⟨gap, start.trans (congrArg _ whole)⟩
  · intro found
    obtain ⟨gap, whole⟩ := found
    exact ⟨_, whole, by decide, gap, rfl⟩

theorem declaredName?_cons (c : Char) (text : List Char) :
    declaredName? (c :: text) = (headed? (c :: text)).or (declaredNameFrom? (c == '\n') text) := by
  rw [declaredName?, declaredNameFrom?, if_pos rfl, ← headed?]
  cases headed? (c :: text) <;> rfl

theorem declaredNameFrom?_false_append (undivided : '\n' ∉ row) (rest : List Char) :
    declaredNameFrom? false (row ++ rest) = declaredNameFrom? false rest := by
  induction row with
  | nil => rfl
  | cons c row ih =>
      rw [List.mem_cons, not_or] at undivided
      obtain ⟨first, others⟩ := undivided
      have inLine : (c == '\n') = false := beq_false_of_ne (Ne.symm first)
      simpa [declaredNameFrom?, inLine] using ih others

theorem declaredName?_eq_headed? (undivided : '\n' ∉ row) : declaredName? row = headed? row := by
  cases row with
  | nil => rfl
  | cons c row =>
      rw [List.mem_cons, not_or] at undivided
      obtain ⟨first, others⟩ := undivided
      have skipped : declaredNameFrom? false row = none := by
        simpa [declaredNameFrom?] using declaredNameFrom?_false_append others []
      rw [declaredName?_cons, beq_false_of_ne (Ne.symm first), skipped, Option.or_none]

theorem declaredName?_append (undivided : '\n' ∉ row) (rest : List Char) :
    declaredName? (row ++ '\n' :: rest) =
      (headed? (row ++ '\n' :: rest)).or (declaredName? rest) := by
  cases row with
  | nil => exact declaredName?_cons '\n' rest
  | cons c row =>
      rw [List.mem_cons, not_or] at undivided
      obtain ⟨first, others⟩ := undivided
      rw [List.cons_append, declaredName?_cons, beq_false_of_ne (Ne.symm first),
        declaredNameFrom?_false_append others]
      rfl

theorem headed?_mark (comment : List Char) :
    headed? ('#' :: comment) = (strip? "Name:".toList (trimStart comment)).bind headingName? := by
  simp [headed?, pastHeading?, strip?]

theorem headed?_of_ne {c : Char} (unmarked : c ≠ '#') (text : List Char) :
    headed? (c :: text) = none := by
  simp [headed?, pastHeading?, strip?, Ne.symm unmarked]

theorem headingName?_of_ne_nil {text : List Char} (solid : trimStart text ≠ []) :
    headingName? text = some (trim ((trimStart text).takeWhile (· != '\n'))) := by
  cases trimmed : trimStart text with
  | nil => exact absurd trimmed solid
  | cons c rest => rw [headingName?, trimmed]

/-- The name is the line on which it stands; what follows that line has no part in it. -/
theorem headingName?_row (undivided : '\n' ∉ row) (solid : trimStart row ≠ []) (rest : List Char)
    (ends : ∀ c ∈ rest.head?, c = '\n') : headingName? (row ++ rest) = some (trim row) := by
  have within : ∀ c ∈ trimStart row, (c != '\n') = true := by
    intro c member
    have listed := mem_of_mem_trimStart member
    simpa using fun same : c = '\n' => undivided (same ▸ listed)
  have stops : rest.takeWhile (· != '\n') = [] := by
    cases rest with
    | nil => rfl
    | cons c rest => simp [ends c rfl]
  have whole := trimStart_append_of_ne_nil solid rest
  rw [headingName?_of_ne_nil (by simp [whole, solid]), whole, List.takeWhile_append_of_pos within,
    stops, List.append_nil, trim_trimStart]

/-- A line that does not break off is read alike, whatever follows it. -/
theorem headed?_append (undivided : '\n' ∉ row) (complete : ¬ BreaksOff row) (rest : List Char) :
    headed? (row ++ '\n' :: rest) = headed? row := by
  cases row with
  | nil => exact headed?_of_ne (by decide) rest
  | cons c comment =>
      by_cases marked : c = '#'
      · subst marked
        -- Blanks up to the end of the line, behind the mark or the colon, would make it break off.
        obtain ⟨gap, cut⟩ := exists_append_trimStart comment
        have solid : trimStart comment ≠ [] := by
          intro empty
          rw [empty, List.append_nil] at cut
          exact complete (cut ▸ .mark gap)
        rw [List.cons_append, headed?_mark, headed?_mark, trimStart_append_of_ne_nil solid,
          strip?_append (by decide)]
        cases found : strip? "Name:".toList (trimStart comment) with
        | none => rfl
        | some text =>
            have named := strip?_eq_some_iff.mp found
            have inText : '\n' ∉ text := by
              intro member
              have listed : '\n' ∈ trimStart comment := by simp [named, member]
              exact undivided (List.mem_cons_of_mem _ (mem_of_mem_trimStart listed))
            have given : trimStart text ≠ [] := by
              intro empty
              rw [named] at cut
              exact complete (cut ▸ .heading gap ⟨text, trimStart_eq_nil_iff.mp empty⟩)
            have alone := headingName?_row inText given [] (by simp)
            rw [List.append_nil] at alone
            exact (headingName?_row inText given ('\n' :: rest) (by simp)).trans alone.symm
      · rw [List.cons_append, headed?_of_ne marked, headed?_of_ne marked]

theorem headed?_heading (gap : Blanks) (text : List Char) :
    headed? ('#' :: (gap.val ++ ("Name:".toList ++ text))) = headingName? text := by
  rw [headed?, pastHeading?_eq_some_iff.mpr ⟨gap, rfl⟩]
  rfl

theorem headed?_heading_append (gap : Blanks) (text rest : List Char) :
    headed? ('#' :: (gap.val ++ ("Name:".toList ++ text)) ++ rest) = headingName? (text ++ rest) := by
  rw [← headed?_heading gap]
  simp

/-- A heading that breaks off behind its colon takes the next line for its name. -/
theorem headed?_heading_next (gap trail : Blanks) {next : List Char} (undivided : '\n' ∉ next)
    (solid : trimStart next ≠ []) :
    headed? ('#' :: (gap.val ++ ("Name:".toList ++ trail.val)) ++ '\n' :: next) =
      some (trim next) := by
  have skipped : trimStart (trail.val ++ '\n' :: next) = trimStart next := by
    rw [trimStart_append]
    rfl
  have alone := headingName?_row undivided solid [] (by simp)
  rw [List.append_nil, headingName?_of_ne_nil solid] at alone
  rw [headed?_heading_append, headingName?_of_ne_nil (skipped ▸ solid), skipped, alone]

theorem headed?_blank (gap : Blanks) : headed? ('#' :: gap.val) = none := by
  have empty : trimStart gap.val = [] := trimStart_eq_nil_iff.mpr gap.property
  rw [headed?_mark, empty]
  rfl

theorem headingName?_eq_none_iff {text : List Char} :
    headingName? text = none ↔ ∀ c ∈ text, c = '\n' := by
  by_cases empty : trimStart text = []
  · rw [headingName?, empty]
    by_cases feeds : text.all (· == '\n') = true <;> simp_all
  · rw [headingName?_of_ne_nil empty]
    constructor
    · exact fun found => nomatch found
    · intro feeds
      apply absurd (trimStart_eq_nil_iff.mpr _) empty
      intro c member
      rw [feeds c member]
      decide

theorem breaksOff_iff :
    (strip? ['#'] row).any (·.all isBlank) = true ∨ (pastHeading? row).any (·.all isBlank) = true ↔
      BreaksOff row := by
  simp only [Option.any_eq_true, List.all_eq_true]
  constructor
  · intro broken
    cases broken with
    | inl marked =>
        obtain ⟨comment, start, blank⟩ := marked
        exact strip?_eq_some_iff.mp start ▸ .mark ⟨comment, blank⟩
    | inr headed =>
        obtain ⟨trail, start, blank⟩ := headed
        obtain ⟨gap, whole⟩ := pastHeading?_eq_some_iff.mp start
        exact whole ▸ .heading gap ⟨trail, blank⟩
  · intro broken
    cases broken with
    | mark gap => exact .inl ⟨gap.val, strip?_eq_some_iff.mpr rfl, gap.property⟩
    | heading gap trail =>
        exact .inr ⟨trail.val, pastHeading?_eq_some_iff.mpr ⟨gap, rfl⟩, trail.property⟩

instance (row : List Char) : Decidable (BreaksOff row) :=
  decidable_of_iff _ breaksOff_iff

theorem isSome_headed?_append (undivided : '\n' ∉ row) (own : headed? row = some name)
    (rest : List Char) : (headed? (row ++ '\n' :: rest)).isSome = true := by
  by_cases broken : BreaksOff row
  · cases broken with
    | mark gap => simp [headed?_blank] at own
    | heading gap trail =>
        rw [headed?_heading] at own
        rw [headed?_heading_append, Option.isSome_iff_ne_none, ne_eq, headingName?_eq_none_iff]
        intro feeds
        have none := headingName?_eq_none_iff.mpr fun c member =>
          feeds c (List.mem_append_left _ member)
        simp [none] at own
  · rw [headed?_append undivided broken, own]
    rfl

theorem headingName?_blank {run : Blanks} (found : headingName? run.val = some name) : name = [] := by
  rw [headingName?, trimStart_eq_nil_iff.mpr run.property] at found
  exact (Option.some.inj (Option.ite_none_left_eq_some.mp found).2).symm

/-- A line that breaks off has no name but an empty one, and the line after it can give it another. -/
theorem BreaksOff.takes_next (broken : BreaksOff row) :
    (∀ name, headed? row = some name → name = []) ∧
      ∃ name ≠ [], headed? (row ++ '\n' :: "Name:x".toList) = some name := by
  cases broken with
  | mark gap =>
      refine ⟨by simp [headed?_blank], ['x'], by simp, ?_⟩
      rw [List.cons_append, headed?_mark, trimStart_append]
      rfl
  | heading gap trail =>
      refine ⟨?_, "Name:x".toList, by simp, headed?_heading_next gap trail (by decide) (by decide)⟩
      intro name own
      rw [headed?_heading] at own
      exact headingName?_blank own

end Headings

section Lines

variable {row : List Char} {rows rest : List (List Char)}

def joined (rows : List (List Char)) : List Char :=
  List.intercalate ['\n'] rows

/-- The lines from the first one on that starts a heading with a name. -/
def firstHeading? : List (List Char) → Option (List (List Char))
  | [] => none
  | row :: rest =>
      if (headed? (joined (row :: rest))).isSome = true then some (row :: rest)
      else firstHeading? rest

theorem joined_singleton (row : List Char) : joined [row] = row := by
  simp [joined]

theorem joined_cons (row next : List Char) (others : List (List Char)) :
    joined (row :: next :: others) = row ++ '\n' :: joined (next :: others) := by
  simp [joined]

theorem declaredName?_joined_cons (undivided : '\n' ∉ row) (rest : List (List Char)) :
    declaredName? (joined (row :: rest)) =
      (headed? (joined (row :: rest))).or (declaredName? (joined rest)) := by
  cases rest with
  | nil =>
      rw [joined_singleton, declaredName?_eq_headed? undivided]
      exact (Option.or_none).symm
  | cons next others => rw [joined_cons, declaredName?_append undivided]

theorem headed?_joined (undivided : '\n' ∉ row) (complete : ¬ BreaksOff row)
    (rest : List (List Char)) : headed? (joined (row :: rest)) = headed? row := by
  cases rest with
  | nil => rw [joined_singleton]
  | cons next others => rw [joined_cons, headed?_append undivided complete]

theorem headed?_eq_none_of_joined (undivided : '\n' ∉ row)
    (unnamed : headed? (joined (row :: rest)) = none) : headed? row = none := by
  cases rest with
  | nil => rwa [joined_singleton] at unnamed
  | cons next others =>
      rw [joined_cons] at unnamed
      cases own : headed? row with
      | none => rfl
      | some name =>
          have named := isSome_headed?_append undivided own (joined (next :: others))
          simp [unnamed] at named

/-- Line by line, a text has the name that it has as a whole, unless its first heading breaks off. -/
theorem declaredName?_joined_iff (undivided : ∀ row ∈ rows, '\n' ∉ row) :
    declaredName? (joined rows) = rows.findSome? declaredName? ↔
      ∀ row after, firstHeading? rows = some (row :: after) → BreaksOff row →
        headed? (joined (row :: after)) = (row :: after).findSome? declaredName? := by
  induction rows with
  | nil => simp [firstHeading?, joined, declaredName?, declaredNameFrom?]
  | cons row rest ih =>
      obtain ⟨first, others⟩ := List.forall_mem_cons.mp undivided
      rw [declaredName?_joined_cons first]
      cases found : headed? (joined (row :: rest)) with
      | none =>
          -- Neither reading finds anything here, and both go on with the next line.
          have own := headed?_eq_none_of_joined first found
          have skipped : firstHeading? (row :: rest) = firstHeading? rest := by
            simp [firstHeading?, found]
          rw [Option.none_or, List.findSome?_cons, declaredName?_eq_headed? first, own, skipped]
          exact ih others
      | some name =>
          have here : firstHeading? (row :: rest) = some (row :: rest) := by
            simp [firstHeading?, found]
          rw [Option.some_or, here]
          constructor
          · intro same headRow after split _
            obtain ⟨rfl, rfl⟩ := List.cons.inj (Option.some.inj split)
            rw [found, same]
          · intro covered
            by_cases broken : BreaksOff row
            · exact found ▸ covered row rest rfl broken
            · have own : headed? row = some name := headed?_joined first broken rest ▸ found
              rw [List.findSome?_cons, declaredName?_eq_headed? first, own]

theorem suffix_of_firstHeading? {lines : List (List Char)}
    (found : firstHeading? rows = some lines) : lines <:+ rows := by
  induction rows with
  | nil => simp [firstHeading?] at found
  | cons row rest ih =>
      rw [firstHeading?] at found
      split_ifs at found with named
      · exact Option.some.inj found ▸ List.suffix_rfl
      · exact (ih found).trans (List.suffix_cons row rest)

theorem declaredName?_joined_of_complete (undivided : ∀ row ∈ rows, '\n' ∉ row)
    (complete : ∀ row ∈ rows.dropLast, ¬ BreaksOff row) :
    declaredName? (joined rows) = rows.findSome? declaredName? := by
  rw [declaredName?_joined_iff undivided]
  intro row after found broken
  obtain ⟨front, whole⟩ := suffix_of_firstHeading? found
  cases after with
  | nil =>
      -- Nothing follows the last line, so it may break off.
      have alone : '\n' ∉ row := undivided row (by simp [← whole])
      simp [joined_singleton, declaredName?_eq_headed? alone]
  | cons next others =>
      refine absurd broken (complete row ?_)
      rw [← whole, List.dropLast_append_of_ne_nil (List.cons_ne_nil _ _)]
      simp

/-- The first name that a line of a text has by itself. -/
def nameOfLines (path content : String) : Option String :=
  (content.toList.splitOn '\n').findSome? fun row => (ofText path (String.ofList row)).declaredName

theorem declaredName_eq_nameOfLines_iff (path content : String) :
    (ofText path content).declaredName = nameOfLines path content ↔
      declaredName? content.toList = (content.toList.splitOn '\n').findSome? declaredName? := by
  have lines : nameOfLines path content =
      ((content.toList.splitOn '\n').findSome? declaredName?).map String.ofList := by
    rw [List.map_findSome?]
    simp only [nameOfLines, ofText, String.toList_ofList]
    rfl
  have texts : Function.Injective String.ofList := fun first second same => String.ofList_inj.mp same
  rw [lines]
  exact (Option.map_injective texts).eq_iff

theorem joined_splitOn (text : List Char) : joined (text.splitOn '\n') = text :=
  List.intercalate_splitOn '\n'

theorem splitOn_pair {next : List Char} (undivided : '\n' ∉ row) (alone : '\n' ∉ next) :
    (row ++ '\n' :: next).splitOn '\n' = [row, next] := by
  rw [List.splitOn_append_cons_self, List.splitOn_eq_singleton undivided,
    List.splitOn_eq_singleton alone]
  rfl

theorem BreaksOff.declaredName?_ne (broken : BreaksOff row) (undivided : '\n' ∉ row) :
    declaredName? (row ++ '\n' :: "Name:x".toList) ≠
      [row, "Name:x".toList].findSome? declaredName? := by
  obtain ⟨own, name, nonempty, taken⟩ := broken.takes_next
  have unnamed : declaredName? "Name:x".toList = none := by decide
  rw [declaredName?_append undivided, taken, Option.some_or, List.findSome?_cons,
    declaredName?_eq_headed? undivided]
  cases read : headed? row with
  | none =>
      rw [List.findSome?_cons, unnamed]
      exact Option.some_ne_none name
  | some ownName =>
      intro same
      exact nonempty ((Option.some.inj same).trans (own ownName read))

theorem breaksOff_iff_exists_next (undivided : '\n' ∉ row) :
    BreaksOff row ↔ ∃ next : List Char, '\n' ∉ next ∧
      declaredName? (row ++ '\n' :: next) ≠ [row, next].findSome? declaredName? := by
  constructor
  · intro broken
    exact ⟨"Name:x".toList, by decide, broken.declaredName?_ne undivided⟩
  · intro found
    obtain ⟨next, alone, differ⟩ := found
    by_contra complete
    have same : declaredName? (joined [row, next]) = [row, next].findSome? declaredName? :=
      declaredName?_joined_of_complete (by simp [undivided, alone]) (by simpa using complete)
    rw [joined_cons, joined_singleton] at same
    exact differ same

end Lines

end RuleFile

open RuleFile

/--
A text has the first name that one of its lines has by itself, exactly if its first heading does not
break off at the end of a line, or if the lines from there on have the name that this heading takes
from them. In particular this holds if no line but the last breaks off. A line that breaks off never
is harmless: with some line after it, the text takes a name that its lines do not have. A heading
that breaks off behind its colon takes all of the next line, if that is not blank.
-/
theorem declaredName_nameOfLines (path : String) :
    (∀ content : String, (ofText path content).declaredName = nameOfLines path content ↔
      ∀ row after, firstHeading? (content.toList.splitOn '\n') = some (row :: after) →
        BreaksOff row → headed? (joined (row :: after)) = (row :: after).findSome? declaredName?) ∧
      (∀ content : String, (∀ row ∈ (content.toList.splitOn '\n').dropLast, ¬ BreaksOff row) →
        (ofText path content).declaredName = nameOfLines path content) ∧
      (∀ row : List Char, '\n' ∉ row → (BreaksOff row ↔ ∃ next : List Char, '\n' ∉ next ∧
        (ofText path (String.ofList (row ++ '\n' :: next))).declaredName ≠
          nameOfLines path (String.ofList (row ++ '\n' :: next)))) ∧
      ∀ (gap trail : Text.Blanks) (next : List Char), '\n' ∉ next → Text.trimStart next ≠ [] →
        (ofText path (String.ofList ('#' :: (gap.val ++ ("Name:".toList ++ trail.val)) ++
          '\n' :: next))).declaredName = some (String.ofList (Text.trim next)) := by
  have undivided : ∀ text : List Char, ∀ row ∈ text.splitOn '\n', '\n' ∉ row :=
    fun text row => Text.not_mem_of_mem_splitOn
  refine ⟨?_, ?_, ?_, ?_⟩
  · intro content
    have same := declaredName?_joined_iff (undivided content.toList)
    rwa [joined_splitOn, ← declaredName_eq_nameOfLines_iff path] at same
  · intro content complete
    have same := declaredName?_joined_of_complete (undivided content.toList) complete
    rwa [joined_splitOn, ← declaredName_eq_nameOfLines_iff path] at same
  · intro row alone
    rw [breaksOff_iff_exists_next alone]
    refine exists_congr fun next => and_congr_right fun last => not_congr ?_
    rw [declaredName_eq_nameOfLines_iff, String.toList_ofList, splitOn_pair alone last]
  · intro gap trail next alone solid
    have taken := headed?_heading_next gap trail alone solid
    have first : declaredName? ('#' :: (gap.val ++ ("Name:".toList ++ trail.val)) ++ '\n' :: next) =
        some (Text.trim next) := by
      rw [List.cons_append, declaredName?_cons, ← List.cons_append, taken, Option.some_or]
    rw [ofText, String.toList_ofList, first, Option.map_some]

theorem declaredName_nameOfLines_sample :
    let content := "# x\n#\tName: a \r\n# Name:"
    (∀ row ∈ (content.toList.splitOn '\n').dropLast, ¬ BreaksOff row) ∧
      (ofText "x.rules" content).declaredName = nameOfLines "x.rules" content := by
  intro content
  have complete : ∀ row ∈ (content.toList.splitOn '\n').dropLast, ¬ BreaksOff row := by
    decide +kernel
  exact ⟨complete, (declaredName_nameOfLines "x.rules").2.1 content complete⟩

/-- A heading without a name takes the whole next heading for it. -/
theorem declaredName_takes_next_line :
    let content := "# Name:\n# Name: b"
    (ofText "x.rules" content).declaredName = some "# Name: b" ∧
      nameOfLines "x.rules" content = some "b" := by
  decide +kernel

end RuleSurvey
