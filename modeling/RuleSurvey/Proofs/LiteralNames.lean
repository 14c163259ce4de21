import RuleSurvey.Proofs.Matching
import RuleSurvey.Proofs.Path

namespace RuleSurvey

/-!
Files that are named after a name, letter by letter. Names and file names are lowered apart from each
other, and the form of a capital sigma depends on its neighbours. So what stands around a name in a file
name can give its sigmas another form than they have in the name alone, and then the file is missed;
nothing else keeps a name from being found in a file name that holds it.
-/

namespace Text

/-- A capital sigma between these texts ends a word. -/
def EndsWord (front back : List Char) : Prop :=
  startsCased front.reverse = true ∧ startsCased back = false

/-- Every capital sigma of a text ends a word between two other texts exactly if it does by itself. -/
def KeepsSigmas (before text after : List Char) : Prop :=
  ∀ front back, text = front ++ 'Σ' :: back →
    (EndsWord (before ++ front) (back ++ after) ↔ EndsWord front back)

/-- Whether a capital sigma between these texts ends a word depends on what stands around them. -/
def LeavesOpen (front back : List Char) : Prop :=
  (∀ c ∈ front, isCaseIgnorable c = true) ∧ startsCased back = false ∨
    startsCased front.reverse = true ∧ ∀ c ∈ back, isCaseIgnorable c = true

/-- The lowercase form that a text has between two others; the one before it is read backwards. -/
def lowerWithin (before : List Char) : List Char → List Char → List Char
  | [], _ => []
  | c :: text, after =>
      (if c = 'Σ' then [lowerSigma before (text ++ after)] else lowerChar c) ++
        lowerWithin (c :: before) text after

section Contexts

variable {before after other others text : List Char}

theorem lowerFrom_append (before text after : List Char) :
    lowerFrom before (text ++ after) =
      lowerWithin before text after ++ lowerFrom (text.reverse ++ before) after := by
  induction text generalizing before with
  | nil => rfl
  | cons c text ih =>
      rw [List.cons_append, lowerFrom, lowerWithin, ih, List.append_assoc, List.reverse_cons,
        List.append_assoc]
      rfl

theorem lowercase_eq_lowerWithin (text : List Char) : lowercase text = lowerWithin [] text [] := by
  have whole := lowerFrom_append [] text []
  rwa [List.append_nil, lowerFrom, List.append_nil] at whole

theorem lowercase_append (before text after : List Char) :
    lowercase (before ++ text ++ after) =
      lowerWithin [] before (text ++ after) ++ lowerWithin before.reverse text after ++
        lowerFrom (text.reverse ++ before.reverse) after := by
  rw [lowercase, List.append_assoc, lowerFrom_append, lowerFrom_append, List.append_nil,
    List.append_assoc]

/-- Neighbours do not change how many characters a character is lowered to. -/
theorem length_lowerWithin (before after other others text : List Char) :
    (lowerWithin before text after).length = (lowerWithin other text others).length := by
  induction text generalizing before other with
  | nil => rfl
  | cons c text ih =>
      rw [lowerWithin, lowerWithin, List.length_append, List.length_append, ih (c :: before)]
      split <;> rfl

theorem lowerWithin_eq_iff :
    lowerWithin before text after = lowerWithin other text others ↔
      ∀ front back, text = front ++ 'Σ' :: back →
        lowerSigma (front.reverse ++ before) (back ++ after) =
          lowerSigma (front.reverse ++ other) (back ++ others) := by
  induction text generalizing before other with
  | nil => simp [lowerWithin]
  | cons c text ih =>
      have lengths : (if c = 'Σ' then [lowerSigma before (text ++ after)] else lowerChar c).length =
          (if c = 'Σ' then [lowerSigma other (text ++ others)] else lowerChar c).length := by
        split <;> rfl
      rw [lowerWithin, lowerWithin]
      constructor
      · intro same front back split
        obtain ⟨first, rest⟩ := List.append_inj same lengths
        cases front with
        | nil =>
            cases split
            simpa using first
        | cons d front =>
            cases split
            simpa using ih.mp rest front back rfl
      · intro same
        have rest : lowerWithin (c :: before) text after = lowerWithin (c :: other) text others := by
          refine ih.mpr fun front back split => ?_
          simpa using same (c :: front) back (by rw [split]; rfl)
        rw [rest]
        split
        · rename_i sigma
          subst sigma
          have first := same [] text rfl
          rw [List.reverse_nil, List.nil_append, List.nil_append] at first
          rw [first]
        · rfl

theorem lowerSigma_eq_iff :
    lowerSigma (before.reverse) after = lowerSigma (other.reverse) others ↔
      (EndsWord before after ↔ EndsWord other others) := by
  unfold lowerSigma EndsWord
  cases startsCased before.reverse <;> cases startsCased after <;>
    cases startsCased other.reverse <;> cases startsCased others <;> decide

/-- A text is lowered between two others as it is by itself exactly if its sigmas keep their form. -/
theorem lowerWithin_eq_lowercase_iff :
    lowerWithin before.reverse text after = lowercase text ↔ KeepsSigmas before text after := by
  rw [lowercase_eq_lowerWithin, lowerWithin_eq_iff]
  refine forall_congr' fun front => forall_congr' fun back => imp_congr_right fun _ => ?_
  rw [← List.reverse_append, List.append_nil, List.append_nil, lowerSigma_eq_iff]

theorem KeepsSigmas.lowercase_infix (keeps : KeepsSigmas before text after) :
    lowercase text <:+: lowercase (before ++ text ++ after) := by
  rw [lowercase_append, lowerWithin_eq_lowercase_iff.mpr keeps]
  exact List.infix_append _ _ _

end Contexts

section Neighbours

variable {front back text rest : List Char} {letter : Char}

theorem startsCased_of_ignorable (skipped : ∀ c ∈ text, isCaseIgnorable c = true) :
    startsCased (text ++ rest) = startsCased rest := by
  rw [startsCased, List.dropWhile_append_of_pos skipped, startsCased]

theorem startsCased_append (seen : ¬ ∀ c ∈ text, isCaseIgnorable c = true) :
    startsCased (text ++ rest) = startsCased text := by
  have stops : text.dropWhile isCaseIgnorable ≠ [] := mt List.dropWhile_eq_nil_iff.mp seen
  obtain ⟨c, further, same⟩ := List.exists_cons_of_ne_nil stops
  rw [startsCased, List.dropWhile_append, same, startsCased, same]
  rfl

theorem not_ignorable_of_startsCased (cased : startsCased text = true) :
    ¬ ∀ c ∈ text, isCaseIgnorable c = true := by
  intro skipped
  have nothing : startsCased (text ++ []) = startsCased [] := startsCased_of_ignorable skipped
  rw [List.append_nil, cased] at nothing
  cases nothing

theorem keepsSigmas_of_settled {before after : List Char}
    (settled : ∀ front back, text = front ++ 'Σ' :: back → ¬ LeavesOpen front back) :
    KeepsSigmas before text after := by
  intro front back split
  have closed := settled front back split
  rw [LeavesOpen, not_or, not_and, not_and] at closed
  unfold EndsWord
  rw [List.reverse_append]
  by_cases skipped : ∀ c ∈ front, isCaseIgnorable c = true
  · -- Nothing in front counts, so a cased character behind the sigma rules the final form out.
    have cased : startsCased back = true := by simpa using closed.1 skipped
    simp [startsCased_append (not_ignorable_of_startsCased cased), cased]
  · have seen : ¬ ∀ c ∈ front.reverse, isCaseIgnorable c = true := by simpa using skipped
    rw [startsCased_append seen]
    refine and_congr_right fun cased => ?_
    rw [startsCased_append (closed.2 cased)]

/-- A letter that is its own lowercase form and can stand in a file name. -/
structure IsSmallLetter (letter : Char) : Prop where
  cased : startsCased [letter] = true
  lower : lowerChar letter = [letter]
  noSigma : letter ≠ 'Σ'
  undivided : letter ≠ '/'

theorem exists_smallLetter (other : Option Char) :
    ∃ letter, IsSmallLetter letter ∧ other ≠ some letter := by
  by_cases first : other = some 'a'
  · rw [first]
    exact ⟨'b', ⟨by decide +kernel, by decide +kernel, by decide, by decide⟩, by decide⟩
  · exact ⟨'a', ⟨by decide +kernel, by decide +kernel, by decide, by decide⟩, first⟩

theorem IsSmallLetter.lowerWithin (small : IsSmallLetter letter)
    (before after : List Char) : lowerWithin before [letter] after = [letter] := by
  rw [Text.lowerWithin, if_neg small.noSigma, small.lower]
  rfl

theorem not_infix_cons {word : List Char} (lengths : word.length = text.length)
    (different : word ≠ text) (starts : word.head? ≠ some letter) : ¬ word <:+: letter :: text := by
  intro inside
  cases List.infix_cons_iff.mp inside with
  | inl first =>
      cases word with
      | nil => exact different (List.eq_nil_of_length_eq_zero lengths.symm).symm
      | cons c rest => exact starts (congrArg some (List.cons_prefix_cons.mp first).1)
  | inr later => exact different (later.eq_of_length lengths)

theorem IsSmallLetter.missed_behind (small : IsSmallLetter letter)
    (starts : (lowercase text).head? ≠ some letter) (changes : ¬ KeepsSigmas [letter] text []) :
    ¬ lowercase text <:+: lowercase ([letter] ++ text ++ []) := by
  have lengths : (lowercase text).length = (Text.lowerWithin [letter] text []).length := by
    rw [lowercase_eq_lowerWithin]
    exact length_lowerWithin _ _ _ _ _
  rw [lowercase_append, small.lowerWithin, lowerFrom, List.append_nil]
  exact not_infix_cons lengths (Ne.symm (mt lowerWithin_eq_lowercase_iff.mp changes)) starts

theorem IsSmallLetter.missed_before (small : IsSmallLetter letter)
    (ends : (lowercase text).getLast? ≠ some letter) (changes : ¬ KeepsSigmas [] text [letter]) :
    ¬ lowercase text <:+: lowercase ([] ++ text ++ [letter]) := by
  have lengths : (lowercase text).length = (Text.lowerWithin [] text [letter]).length := by
    rw [lowercase_eq_lowerWithin]
    exact length_lowerWithin _ _ _ _ _
  have last : lowerFrom (text.reverse ++ [].reverse) [letter] = [letter] := by
    rw [lowerFrom, if_neg small.noSigma, small.lower]
    rfl
  rw [lowercase_append, last, Text.lowerWithin, List.nil_append, ← List.reverse_infix,
    List.reverse_concat]
  refine not_infix_cons (by simpa using lengths) ?_ (by rwa [List.head?_reverse])
  intro same
  exact changes (lowerWithin_eq_lowercase_iff.mp (List.reverse_injective same).symm)

/-- One more letter in front or behind can give an open sigma its other form. -/
theorem LeavesOpen.exists_missed (leaves : LeavesOpen front back)
    (split : text = front ++ 'Σ' :: back) :
    ∃ before after, '/' ∉ before ++ after ∧
      ¬ lowercase text <:+: lowercase (before ++ text ++ after) := by
  cases leaves with
  | inl opening =>
      obtain ⟨skipped, uncased⟩ := opening
      obtain ⟨letter, small, starts⟩ := exists_smallLetter (lowercase text).head?
      refine ⟨[letter], [], by simpa using small.undivided.symm, small.missed_behind starts ?_⟩
      intro keeps
      have skippedBack : ∀ c ∈ front.reverse, isCaseIgnorable c = true := by simpa using skipped
      have final : EndsWord ([letter] ++ front) (back ++ []) := by
        rw [EndsWord, List.reverse_append, startsCased_of_ignorable skippedBack, List.append_nil]
        exact ⟨small.cased, uncased⟩
      exact not_ignorable_of_startsCased ((keeps front back split).mp final).1 skippedBack
  | inr closing =>
      obtain ⟨cased, skipped⟩ := closing
      obtain ⟨letter, small, ends⟩ := exists_smallLetter (lowercase text).getLast?
      refine ⟨[], [letter], by simpa using small.undivided.symm, small.missed_before ends ?_⟩
      intro keeps
      have uncased : startsCased back = false := by
        rw [← Bool.not_eq_true]
        exact fun cased => not_ignorable_of_startsCased cased skipped
      have final := (keeps front back split).mpr ⟨cased, uncased⟩
      rw [EndsWord, startsCased_of_ignorable skipped, small.cased] at final
      exact Bool.noConfusion final.2

end Neighbours

end Text

theorem Candidate.baseNameOf_of_nameIn? {path : String} {fileName : List Char}
    (named : Path.nameIn? path.toList = some fileName) :
    baseNameOf path = Text.lowercase fileName := by
  rw [baseNameOf, Path.fileName?_ofString, named]
  exact congrArg Text.lowercase (Utf8.display_encode fileName)

namespace Catalog

variable {files : List RuleFile} {file : RuleFile} {name : String} {before after : List Char}

theorem mem_candidates_of_keepsSigmas (member : file ∈ files)
    (named : Path.nameIn? file.path.toList = some (before ++ name.toList ++ after))
    (keeps : Text.KeepsSigmas before name.toList after) :
    file.path ∈ (ofRuleFiles files).candidates name := by
  refine mem_candidates_iff.mpr ⟨file, member, rfl, .inl ?_⟩
  rw [Candidate.baseNameOf_of_nameIn? named]
  exact keeps.lowercase_infix

/-- A file without a declared name answers to what its file name holds in lowercase, and no more. -/
theorem exists_unlisted {fileName : List Char} (undivided : '/' ∉ fileName)
    (solid : ∃ c ∈ fileName, c ≠ '.')
    (missed : ¬ Text.lowercase name.toList <:+: Text.lowercase fileName) :
    ∃ file : RuleFile, Path.nameIn? file.path.toList = some fileName ∧
      file.path ∉ (ofRuleFiles [file]).candidates name := by
  have named : Path.nameIn? (String.ofList fileName).toList = some fileName := by
    rw [String.toList_ofList]
    exact Path.nameIn?_of_undivided undivided solid
  refine ⟨⟨String.ofList fileName, none, none⟩, named, fun listed => ?_⟩
  obtain ⟨file, member, _, answers⟩ := mem_candidates_iff.mp listed
  rw [List.mem_singleton.mp member] at answers
  obtain inside | ⟨declared, same, _⟩ := answers
  · rw [Candidate.baseNameOf_of_nameIn? named] at inside
    exact missed inside
  · cases same

/--
A file is found under every name that its file name holds as it is written, wherever the capital sigmas
of the name have the same form in both. The names for which no file name can change that form, so that
every such file is found, are those of which no sigma is left open.
-/
theorem finds_literal_names_iff (name : String) :
    (∀ files : List RuleFile, ∀ file ∈ files, ∀ before after,
      Path.nameIn? file.path.toList = some (before ++ name.toList ++ after) →
        Text.KeepsSigmas before name.toList after →
          file.path ∈ (ofRuleFiles files).candidates name) ∧
    ((∀ files : List RuleFile, ∀ file ∈ files, ∀ fileName,
      Path.nameIn? file.path.toList = some fileName → name.toList <:+: fileName →
        file.path ∈ (ofRuleFiles files).candidates name) ↔
      '/' ∈ name.toList ∨ ∀ front back, name.toList = front ++ 'Σ' :: back →
        ¬ Text.LeavesOpen front back) := by
  refine ⟨fun files file member before after => mem_candidates_of_keepsSigmas member, ?_⟩
  constructor
  · intro found
    by_contra unsettled
    rw [not_or] at unsettled
    obtain ⟨undivided, unsettled⟩ := unsettled
    push Not at unsettled
    obtain ⟨front, back, split, leaves⟩ := unsettled
    obtain ⟨before, after, clear, missed⟩ := leaves.exists_missed split
    have whole : '/' ∉ before ++ name.toList ++ after := by
      simp only [List.mem_append, not_or] at clear ⊢
      exact ⟨⟨clear.1, undivided⟩, clear.2⟩
    have sigma : 'Σ' ∈ before ++ name.toList ++ after := by simp [split]
    obtain ⟨file, named, unlisted⟩ := exists_unlisted whole ⟨'Σ', sigma, by decide⟩ missed
    exact unlisted (found [file] file List.mem_cons_self _ named (List.infix_append _ _ _))
  · intro settled files file member fileName named inside
    obtain ⟨before, after, rfl⟩ := inside
    cases settled with
    | inl divided =>
        have undivided := Text.not_mem_of_mem_splitOn (Path.mem_splitOn_of_nameIn? named)
        exact absurd (by simp [divided]) undivided
    | inr settled =>
        exact mem_candidates_of_keepsSigmas member named (Text.keepsSigmas_of_settled settled)

/-- By itself the name ends in a final sigma; in front of a dot and a letter it does not. -/
theorem misses_file_named_literally :
    let name := "ΟΔΟΣ"
    let file : RuleFile := ⟨"/r/ΟΔΟΣ.rules", none, none⟩
    Path.nameIn? file.path.toList = some (name.toList ++ ".rules".toList) ∧
      (ofRuleFiles [file]).candidates name = [] := by
  decide +kernel

end Catalog

end RuleSurvey
