import RuleSurvey.Proofs.Dispatch

namespace RuleSurvey

/-!
Dispatch files as they are written: rules with their lines, and calls around them. Rules are read
back as they were. A closing line is read like any other line, so the calls behind it are read as
calls of the block that it closes.
-/

namespace Dispatch

open Text

abbrev CallName := {name : String // IsCallable name}

def openingLine (condition : String) : List Char :=
  "if ( ".toList ++ condition.toList ++ " ) \x7b".toList

def callLine (width : Nat) (name : String) : List Char :=
  List.replicate width ' ' ++ name.toList ++ "();".toList

/-- A block with the calls that stand behind its closing line, up to the next block. -/
structure Passage where
  rule : DispatchRule
  valid : rule.Valid
  stray : List CallName

namespace Passage

def rows (width : Nat) (passage : Passage) : List (List Char) :=
  openingLine passage.rule.condition :: (passage.rule.functions.map (callLine width) ++
    ['\x7d'] :: passage.stray.unattach.map (callLine width))

def body (passage : Passage) : List Line :=
  passage.rule.functions.map .call ++ .other :: passage.stray.unattach.map .call

/-- The rule with the calls from both sides of the closing line. -/
def extended (passage : Passage) : DispatchRule :=
  ⟨passage.rule.condition, passage.rule.functions ++ passage.stray.unattach⟩

end Passage

/-- A text of blocks, with calls in front of the first one and behind each. -/
def renderPassages (width : Nat) (leading : List CallName) (passages : List Passage) : String :=
  String.ofList (unlines (leading.unattach.map (callLine width) ++
    passages.flatMap (Passage.rows width)))

section Reading

variable {condition name : String}

theorem openingLine_eq (condition : String) :
    openingLine condition = "if".toList ++ ([' '] ++ '(' ::
      (' ' :: (condition.toList ++ [' ']) ++ ')' :: ([' '] ++ ['\x7b']))) := by
  change "if ( ".toList ++ condition.toList ++ " ) \x7b".toList = _
  simp

theorem ofText_openingLine (trimmed : trim condition.toList = condition.toList) :
    Line.ofText (openingLine condition) = .opening condition := by
  have space : ∀ c ∈ [' '], isBlank c = true := List.forall_mem_singleton.mpr (by decide)
  have guarded : trim (' ' :: (condition.toList ++ [' '])) = condition.toList :=
    (trim_append ⟨_, space⟩ condition.toList ⟨_, space⟩).trans trimmed
  apply Line.ofText_of_condition?
  rw [condition?_eq_some_iff]
  refine ⟨{ lead := ⟨[], by simp⟩, keyword := "if".toList, gap := ⟨_, space⟩
            guarded := ' ' :: (condition.toList ++ [' ']), space := ⟨_, space⟩
            trail := ⟨[], by simp⟩, isKeyword := .inl rfl, nonempty := by simp
            whole := openingLine_eq condition }, ?_⟩
  rw [Opening.condition, guarded, String.ofList_toList]

theorem ofText_callLine (width : Nat) (callable : IsCallable name) :
    Line.ofText (callLine width name) = .call name := by
  have starts : ∀ c ∈ (List.replicate width ' ').getLast?, isWordChar c = false := by
    intro c last
    rw [List.eq_of_mem_replicate (List.mem_of_getLast? last)]
    decide +kernel
  let calling : Calling (callLine width name) :=
    { before := List.replicate width ' ', name := name.toList, gap := ⟨[], by simp⟩
      inner := ⟨[], by simp⟩, space := ⟨[], by simp⟩, trail := ⟨[], by simp⟩
      nonempty := by simpa using callable.nonempty, named := callable.named
      startsWord := starts, whole := by simp [callLine] }
  have called : call? (callLine width name) = some name :=
    call?_eq_some_iff.mpr ⟨calling, String.ofList_toList⟩
  exact Line.ofText_of_call? calling.condition?_eq_none called

theorem IsCallable.of_mem_unattach {names : List CallName} (member : name ∈ names.unattach) :
    IsCallable name := by
  obtain ⟨callable, _⟩ := List.mem_unattach.mp member
  exact callable

theorem map_ofText_callLine (width : Nat) {names : List String}
    (callable : ∀ name ∈ names, IsCallable name) :
    (names.map (callLine width)).map Line.ofText = names.map .call := by
  rw [List.map_map]
  apply List.map_congr_left
  intro name member
  exact ofText_callLine width (callable name member)

theorem Passage.map_ofText_rows (width : Nat) (passage : Passage) :
    (passage.rows width).map Line.ofText = .opening passage.rule.condition :: passage.body := by
  have closing : Line.ofText ['\x7d'] = .other := by decide
  rw [rows, List.map_cons, List.map_append, List.map_cons, closing,
    ofText_openingLine passage.valid.trimmed, map_ofText_callLine width passage.valid.callable,
    map_ofText_callLine width fun name => IsCallable.of_mem_unattach]
  rfl

theorem opened_of_mem_calls {names : List String} {line : Line} (member : line ∈ names.map .call) :
    line.opened = none := by
  obtain ⟨name, _, rfl⟩ := List.mem_map.mp member
  rfl

theorem called_calls (names : List String) : (names.map .call).filterMap Line.called = names := by
  rw [List.filterMap_map]
  exact List.filterMap_some

theorem Passage.opened_of_mem_body {passage : Passage} {line : Line} (member : line ∈ passage.body) :
    line.opened = none := by
  cases List.mem_append.mp member with
  | inl inside => exact opened_of_mem_calls inside
  | inr behind =>
      cases List.mem_cons.mp behind with
      | inl closing => rw [closing]; rfl
      | inr stray => exact opened_of_mem_calls stray

theorem Passage.called_body (passage : Passage) :
    passage.body.filterMap Line.called = passage.extended.functions := by
  rw [body, List.filterMap_append, called_calls, List.filterMap_cons_none rfl, called_calls]
  rfl

theorem finish_foldl_passages (width : Nat) (passages : List Passage) :
    (Reader.ofRows (passages.flatMap (Passage.rows width))).finish =
      passages.map Passage.extended := by
  induction passages with
  | nil => rfl
  | cons passage rest ih =>
      have starts : ∀ line ∈ ((rest.flatMap (Passage.rows width)).map Line.ofText).head?,
          line.opened.isSome = true := by
        cases rest with
        | nil => simp
        | cons next others =>
            rw [List.flatMap_cons, List.map_append, Passage.map_ofText_rows]
            simp [Line.opened]
      rw [List.flatMap_cons, Reader.ofRows, List.map_append, Passage.map_ofText_rows,
        List.cons_append, Reader.finish_foldl_block (fun line => Passage.opened_of_mem_body) starts,
        passage.called_body, ← Reader.ofRows, ih]
      rfl

theorem not_mem_callLine (width : Nat) (callable : IsCallable name) : '\n' ∉ callLine width name := by
  have inName : '\n' ∉ name.toList := by
    intro member
    exact absurd (callable.named _ member) (by decide)
  simp [callLine, inName]

theorem Passage.not_mem_of_mem_rows {width : Nat} {passage : Passage} {row : List Char}
    (member : row ∈ passage.rows width) : '\n' ∉ row := by
  have inCalls : ∀ names : List String, (∀ name ∈ names, IsCallable name) →
      ∀ row ∈ names.map (callLine width), '\n' ∉ row := by
    intro names callable row listed
    obtain ⟨name, called, rfl⟩ := List.mem_map.mp listed
    exact not_mem_callLine width (callable name called)
  simp only [rows, List.mem_cons, List.mem_append] at member
  obtain opening | inside | closing | stray := member
  · simp [opening, openingLine_eq, passage.valid.undivided]
  · exact inCalls _ passage.valid.callable row inside
  · simp [closing]
  · exact inCalls _ (fun name => IsCallable.of_mem_unattach) row stray

theorem dispatchRulesOf_unlines {rows : List (List Char)} (undivided : ∀ row ∈ rows, '\n' ∉ row) :
    dispatchRulesOf (String.ofList (unlines rows)) = (Reader.ofRows rows).finish := by
  change (Reader.ofRows (lines (String.ofList (unlines rows)).toList)).finish = _
  rw [String.toList_ofList, lines_unlines undivided, ofRows_map_dropReturn]

theorem dispatchRulesOf_renderPassages (width : Nat) (leading : List CallName)
    (passages : List Passage) :
    dispatchRulesOf (renderPassages width leading passages) = passages.map Passage.extended := by
  have callable : ∀ name ∈ leading.unattach, IsCallable name := fun name => IsCallable.of_mem_unattach
  have undivided : ∀ row ∈ leading.unattach.map (callLine width) ++
      passages.flatMap (Passage.rows width), '\n' ∉ row := by
    intro row member
    cases List.mem_append.mp member with
    | inl before =>
        obtain ⟨name, called, rfl⟩ := List.mem_map.mp before
        exact not_mem_callLine width (callable name called)
    | inr inside =>
        obtain ⟨passage, _, written⟩ := List.mem_flatMap.mp inside
        exact passage.not_mem_of_mem_rows written
  have ignored : Reader.ofRows (leading.unattach.map (callLine width)) = {} := by
    rw [Reader.ofRows, map_ofText_callLine width callable]
    exact Reader.foldl_idle _ fun line => opened_of_mem_calls
  rw [renderPassages, dispatchRulesOf_unlines undivided, Reader.ofRows_append, ignored]
  exact finish_foldl_passages width passages

theorem Passage.extended_eq_rule_iff (passage : Passage) :
    passage.extended = passage.rule ↔ passage.stray = [] := by
  obtain ⟨⟨condition, functions⟩, valid, stray⟩ := passage
  cases stray <;> simp [extended]

/-- Rules alone are passages with no calls around them. -/
theorem exists_passages {rules : List DispatchRule} (valid : ∀ rule ∈ rules, rule.Valid) :
    ∃ passages : List Passage,
      passages.flatMap (Passage.rows 4) = rules.flatMap DispatchRule.toLines ∧
        passages.map Passage.extended = rules := by
  induction rules with
  | nil => exact ⟨[], rfl, rfl⟩
  | cons rule rest ih =>
      obtain ⟨first, others⟩ := List.forall_mem_cons.mp valid
      obtain ⟨passages, written, read⟩ := ih others
      let passage : Passage := ⟨rule, first, []⟩
      have same : passage.extended = rule := passage.extended_eq_rule_iff.mpr rfl
      refine ⟨passage :: passages, ?_, ?_⟩
      · rw [List.flatMap_cons, List.flatMap_cons, written]
        rfl
      · rw [List.map_cons, read, same]

theorem dispatchRulesOf_of_valid {rules : List DispatchRule} (valid : ∀ rule ∈ rules, rule.Valid) :
    dispatchRulesOf (renderDispatch rules) = rules := by
  obtain ⟨passages, written, read⟩ := exists_passages valid
  have whole : renderDispatch rules = renderPassages 4 [] passages := by
    rw [renderDispatch, ← written]
    rfl
  rw [whole, dispatchRulesOf_renderPassages, read]

end Reading

end Dispatch

open Dispatch

/--
Writing rules and reading them back: a text gives valid rules only, every list of valid rules is read
as it was written, and so the rules of any text survive being written anew.
-/
theorem dispatchRulesOf_renderDispatch :
    (∀ text : String, ∀ rule ∈ dispatchRulesOf text, rule.Valid) ∧
      (∀ rules : List DispatchRule, (∀ rule ∈ rules, rule.Valid) →
        dispatchRulesOf (renderDispatch rules) = rules) ∧
      ∀ text : String,
        dispatchRulesOf (renderDispatch (dispatchRulesOf text)) = dispatchRulesOf text :=
  ⟨fun _ _ member => valid_of_mem member, fun _ valid => dispatchRulesOf_of_valid valid,
    fun _ => dispatchRulesOf_of_valid fun _ member => valid_of_mem member⟩

/-- A guard may look like the end of its own line, and a name like a keyword. -/
theorem dispatchRulesOf_renderDispatch_sample :
    let rules : List DispatchRule := [⟨") \x7b if ( f();\r)", ["if", "_0", "if"]⟩, ⟨"", []⟩]
    (∀ rule ∈ rules, rule.Valid) ∧ dispatchRulesOf (renderDispatch rules) = rules := by
  intro rules
  have valid : ∀ rule ∈ rules, rule.Valid := by decide
  exact ⟨valid, dispatchRulesOf_renderDispatch.2.1 rules valid⟩

/--
Calls in front of the first block are ignored, and calls behind a closing line are added to the
block before it. So the rules of a text are those of its blocks exactly if no call stands behind a
closing line.
-/
theorem dispatchRulesOf_stray_calls (width : Nat) (leading : List CallName) (passages : List Passage) :
    dispatchRulesOf (renderPassages width leading passages) = passages.map Passage.extended ∧
      (dispatchRulesOf (renderPassages width leading passages) = passages.map (·.rule) ↔
        ∀ passage ∈ passages, passage.stray = []) := by
  have read := dispatchRulesOf_renderPassages width leading passages
  refine ⟨read, ?_⟩
  rw [read, List.map_inj_left]
  exact forall₂_congr fun passage _ => passage.extended_eq_rule_iff

/-- A call behind the only block of a text is read as a call of that block. -/
theorem dispatchRulesOf_call_behind_block :
    let passage : Passage := ⟨⟨"a", ["f"]⟩, by decide, [⟨"g", by decide⟩]⟩
    renderPassages 0 [] [passage] = "if ( a ) \x7b\nf();\n\x7d\ng();\n" ∧
      dispatchRulesOf "if ( a ) \x7b\nf();\n\x7d\ng();\n" = [⟨"a", ["f", "g"]⟩] ∧
      dispatchRulesOf (renderPassages 0 [] [passage]) ≠ [passage.rule] := by
  decide +kernel

end RuleSurvey
