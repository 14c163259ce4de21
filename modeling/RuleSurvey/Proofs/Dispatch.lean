import RuleSurvey.Proofs.DispatchLine
import Mathlib.Data.List.Basic

namespace RuleSurvey

namespace Dispatch

open Text

/-!
The rules of a dispatch file are its blocks. A block is an opening line with the lines up to the next
one, and its rule has the guard of the one and the calls of the others. The reader, which goes from
line to line with at most one block open, finds exactly these rules.
-/

namespace Line

variable {text : List Char} {condition name : String}

def opened : Line → Option String
  | opening condition => some condition
  | call _ => none
  | other => none

def called : Line → Option String
  | opening _ => none
  | call name => some name
  | other => none

theorem ofText_of_condition? (guarded : condition? text = some condition) :
    ofText text = .opening condition := by
  simp [ofText, guarded]

theorem ofText_of_call? (unopened : condition? text = none) (named : call? text = some name) :
    ofText text = .call name := by
  simp [ofText, unopened, named]

theorem opened_ofText (text : List Char) : (ofText text).opened = condition? text := by
  cases guarded : condition? text with
  | some condition => rw [ofText_of_condition? guarded, opened]
  | none =>
      cases named : call? text <;> simp [ofText, guarded, named, opened]

theorem called_ofText (unopened : condition? text = none) : (ofText text).called = call? text := by
  cases named : call? text <;> simp [ofText, unopened, named, called]

end Line

namespace Reader

variable {reader : Reader} {body rest : List Line} {condition : String}

theorem step_other (reader : Reader) : reader.step .other = reader := by
  obtain ⟨rules, state⟩ := reader
  cases state <;> rfl

theorem toList_flush (rules : Array DispatchRule) (state : State) :
    (state.flush rules).toList = rules.toList ++ (state.flush #[]).toList := by
  cases state <;> simp [State.flush]

theorem finish_foldl (rules : Array DispatchRule) (state : State) (lines : List Line) :
    (lines.foldl step ⟨rules, state⟩).finish =
      rules.toList ++ (lines.foldl step ⟨#[], state⟩).finish := by
  induction lines generalizing rules state with
  | nil => exact toList_flush rules state
  | cons line rest ih =>
      rw [List.foldl_cons, List.foldl_cons]
      cases line with
      | opening condition =>
          -- The block that the line closes joins the rules in front, on either side.
          rw [step, step, ih, ih (state.flush #[]), toList_flush, List.append_assoc]
      | call name =>
          cases state with
          | idle => exact ih rules .idle
          | inBlock condition functions => exact ih rules (.inBlock condition (functions.push name))
      | other =>
          rw [step_other, step_other]
          exact ih rules state

/-- An opening line, like the end of the text, closes what is before it. -/
theorem finish_foldl_of_opened (starts : ∀ line ∈ rest.head?, line.opened.isSome = true) :
    (rest.foldl step reader).finish = reader.finish ++ (rest.foldl step {}).finish := by
  cases rest with
  | nil => simp [finish, State.flush]
  | cons line rest =>
      cases line with
      | opening condition =>
          simp only [List.foldl_cons, step]
          rw [finish_foldl]
          rfl
      | call name => simp [Line.opened] at starts
      | other => simp [Line.opened] at starts

theorem foldl_inBlock (rules : Array DispatchRule) (functions : Array String)
    (unopened : ∀ line ∈ body, line.opened = none) :
    body.foldl step ⟨rules, .inBlock condition functions⟩ =
      ⟨rules, .inBlock condition (functions ++ body.filterMap Line.called)⟩ := by
  induction body generalizing functions with
  | nil => simp
  | cons line rest ih =>
      obtain ⟨first, others⟩ := List.forall_mem_cons.mp unopened
      cases line with
      | opening condition => simp [Line.opened] at first
      | call name =>
          rw [List.foldl_cons, step, ih _ others]
          simp [Line.called]
      | other =>
          rw [List.foldl_cons, step_other, ih _ others]
          rfl

theorem foldl_idle (rules : Array DispatchRule) (unopened : ∀ line ∈ body, line.opened = none) :
    body.foldl step ⟨rules, .idle⟩ = ⟨rules, .idle⟩ := by
  induction body with
  | nil => rfl
  | cons line rest ih =>
      obtain ⟨first, others⟩ := List.forall_mem_cons.mp unopened
      cases line with
      | opening condition => simp [Line.opened] at first
      | call name => exact ih others
      | other => exact ih others

/-- A whole block gives one rule, whatever comes before it and after it. -/
theorem finish_foldl_block (unopened : ∀ line ∈ body, line.opened = none)
    (ends : ∀ line ∈ rest.head?, line.opened.isSome = true) :
    ((.opening condition :: (body ++ rest)).foldl step reader).finish =
      reader.finish ++ ⟨condition, body.filterMap Line.called⟩ :: (rest.foldl step {}).finish := by
  rw [List.foldl_cons, List.foldl_append]
  have inside : body.foldl step (reader.step (.opening condition)) =
      ⟨reader.state.flush reader.rules, .inBlock condition (#[] ++ body.filterMap Line.called)⟩ :=
    foldl_inBlock _ _ unopened
  rw [inside, finish_foldl_of_opened ends]
  simp [finish, State.flush]

theorem conditions_step (reader : Reader) (line : Line) :
    (reader.step line).finish.map (·.condition) =
      reader.finish.map (·.condition) ++ line.opened.toList := by
  obtain ⟨rules, state⟩ := reader
  cases line with
  | opening condition => simp [step, finish, State.flush, Line.opened]
  | call name => cases state <;> simp [step, finish, State.flush, Line.opened]
  | other => simp [step_other, Line.opened]

theorem conditions_foldl (reader : Reader) (lines : List Line) :
    (lines.foldl step reader).finish.map (·.condition) =
      reader.finish.map (·.condition) ++ lines.filterMap Line.opened := by
  induction lines generalizing reader with
  | nil => simp
  | cons line rest ih =>
      rw [List.foldl_cons, ih, conditions_step, List.append_assoc]
      cases opened : line.opened <;> simp [opened]

/-- Once a block is open, every call is added at the end of all functions so far. -/
theorem functions_step (inside : reader.state ≠ .idle) (line : Line) :
    (reader.step line).state ≠ .idle ∧
      (reader.step line).finish.flatMap (·.functions) =
        reader.finish.flatMap (·.functions) ++ line.called.toList := by
  obtain ⟨rules, state⟩ := reader
  cases state with
  | idle => exact absurd rfl inside
  | inBlock condition functions =>
      cases line with
      | opening condition => simp [step, finish, State.flush, Line.called]
      | call name => simp [step, finish, State.flush, Line.called]
      | other => simp [step, finish, State.flush, Line.called]

theorem functions_foldl (inside : reader.state ≠ .idle) (lines : List Line) :
    (lines.foldl step reader).finish.flatMap (·.functions) =
      reader.finish.flatMap (·.functions) ++ lines.filterMap Line.called := by
  induction lines generalizing reader with
  | nil => simp
  | cons line rest ih =>
      obtain ⟨stays, added⟩ := functions_step inside line
      rw [List.foldl_cons, ih stays, added, List.append_assoc]
      cases called : line.called <;> simp [called]

end Reader

section Blocks

variable {rows : List (List Char)}

def opens (row : List Char) : Bool :=
  (condition? row).isSome

/-- An opening line of a text, with the lines from there up to the next one or to the end. -/
structure Block (rows : List (List Char)) where
  before : List (List Char)
  opening : List Char
  body : List (List Char)
  after : List (List Char)
  condition : String
  whole : rows = before ++ opening :: (body ++ after)
  opened : condition? opening = some condition
  inside : ∀ row ∈ body, condition? row = none
  ends : ∀ row ∈ after.head?, opens row = true

namespace Block

/-- How many blocks come before. -/
def index (block : Block rows) : Nat :=
  block.before.countP opens

def rule (block : Block rows) : DispatchRule :=
  ⟨block.condition, block.body.filterMap call?⟩

def cons (row : List Char) (block : Block rows) : Block (row :: rows) where
  before := row :: block.before
  opening := block.opening
  body := block.body
  after := block.after
  condition := block.condition
  whole := by rw [List.cons_append, ← block.whole]
  opened := block.opened
  inside := block.inside
  ends := block.ends

theorem index_cons (row : List Char) (block : Block rows) :
    (block.cons row).index = block.index + if opens row = true then 1 else 0 :=
  List.countP_cons

/-- The block that the first line opens. -/
def first {row : List Char} {condition : String} (opened : condition? row = some condition)
    (rest : List (List Char)) : Block (row :: rest) where
  before := []
  opening := row
  body := rest.takeWhile (!opens ·)
  after := rest.dropWhile (!opens ·)
  condition
  whole := by rw [List.takeWhile_append_dropWhile, List.nil_append]
  opened
  inside := by
    intro row member
    simpa [opens] using List.mem_takeWhile_imp member
  ends := by
    intro row member
    have stopped := List.head?_dropWhile_not (!opens ·) rest
    rw [Option.mem_def.mp member] at stopped
    simpa using stopped

end Block

def Reader.ofRows (rows : List (List Char)) : Reader :=
  (rows.map Line.ofText).foldl step {}

theorem conditions_ofRows (rows : List (List Char)) :
    (Reader.ofRows rows).finish.map (·.condition) = rows.filterMap condition? := by
  have opened : Line.opened ∘ Line.ofText = condition? := funext Line.opened_ofText
  rw [Reader.ofRows, Reader.conditions_foldl, List.filterMap_map, opened]
  rfl

theorem length_finish_ofRows (rows : List (List Char)) :
    (Reader.ofRows rows).finish.length = rows.countP opens := by
  have lengths := congrArg List.length (conditions_ofRows rows)
  rwa [List.length_map, List.length_filterMap_eq_countP] at lengths

theorem Reader.ofRows_append (front back : List (List Char)) :
    ofRows (front ++ back) = (back.map Line.ofText).foldl step (ofRows front) := by
  rw [ofRows, List.map_append, List.foldl_append, ofRows]

theorem opened_of_opens (starts : ∀ row ∈ rows.head?, opens row = true) :
    ∀ line ∈ (rows.map Line.ofText).head?, line.opened.isSome = true := by
  intro line member
  rw [List.head?_map] at member
  obtain ⟨row, first, same⟩ := Option.map_eq_some_iff.mp member
  rw [← same, Line.opened_ofText]
  exact starts row first

theorem called_body {body : List (List Char)} (inside : ∀ row ∈ body, condition? row = none) :
    (body.map Line.ofText).filterMap Line.called = body.filterMap call? := by
  rw [List.filterMap_map]
  apply List.filterMap_congr
  intro row member
  exact Line.called_ofText (inside row member)

theorem Block.finish_eq (block : Block rows) :
    (Reader.ofRows rows).finish = (Reader.ofRows block.before).finish ++ block.rule ::
      (Reader.ofRows block.after).finish := by
  obtain ⟨before, opening, body, after, condition, whole, opened, inside, ends⟩ := block
  subst whole
  have unopened : ∀ line ∈ body.map Line.ofText, line.opened = none := by
    intro line member
    obtain ⟨row, listed, same⟩ := List.mem_map.mp member
    rw [← same, Line.opened_ofText, inside row listed]
  rw [Reader.ofRows_append, List.map_cons, List.map_append, Line.ofText_of_condition? opened,
    Reader.finish_foldl_block unopened (opened_of_opens ends), called_body inside]
  rfl

theorem Block.getElem?_index (block : Block rows) :
    (Reader.ofRows rows).finish[block.index]? = some block.rule := by
  rw [block.finish_eq, Block.index, ← length_finish_ofRows]
  simp

theorem exists_block {index : Nat} (bound : index < rows.countP opens) :
    ∃ block : Block rows, block.index = index := by
  induction rows generalizing index with
  | nil => simp at bound
  | cons row rest ih =>
      rw [List.countP_cons] at bound
      cases opened : condition? row with
      | none =>
          have closed : opens row = false := by simp [opens, opened]
          simp only [closed] at bound
          obtain ⟨block, same⟩ := ih bound
          exact ⟨block.cons row, by rw [Block.index_cons, same, closed]; rfl⟩
      | some condition =>
          have opening : opens row = true := by simp [opens, opened]
          simp only [opening] at bound
          cases index with
          | zero => exact ⟨.first opened rest, rfl⟩
          -- This line opens one more block in front of the one that the rest has.
          | succ index =>
              obtain ⟨block, same⟩ := ih (Nat.lt_of_succ_lt_succ bound)
              exact ⟨block.cons row, by rw [Block.index_cons, same, opening]; rfl⟩

theorem getElem?_finish_ofRows_iff {index : Nat} {rule : DispatchRule} :
    (Reader.ofRows rows).finish[index]? = some rule ↔
      ∃ block : Block rows, block.index = index ∧ block.rule = rule := by
  constructor
  · intro found
    have bound : index < rows.countP opens := by
      rw [← length_finish_ofRows]
      exact (List.getElem?_eq_some_iff.mp found).1
    obtain ⟨block, same⟩ := exists_block bound
    rw [← same, block.getElem?_index] at found
    exact ⟨block, same, Option.some.inj found⟩
  · intro found
    obtain ⟨block, same, ruled⟩ := found
    rw [← same, block.getElem?_index, ruled]

theorem ofRows_map_dropReturn (rows : List (List Char)) :
    Reader.ofRows (rows.map dropReturn) = Reader.ofRows rows := by
  have same : Line.ofText ∘ dropReturn = Line.ofText := funext Line.ofText_dropReturn
  rw [Reader.ofRows, List.map_map, same, Reader.ofRows]

theorem ofRows_splitOn (text : List Char) :
    Reader.ofRows (text.splitOn '\n') = Reader.ofRows (lines text) := by
  obtain ⟨front, last, cut, read⟩ := exists_splitOn_lines text
  rw [cut, read, Reader.ofRows_append, Reader.ofRows_append, ofRows_map_dropReturn]
  split_ifs with empty
  · -- The empty piece is no line, and as a line it would add nothing.
    rw [empty]
    exact Reader.step_other _
  · rfl

theorem finish_ofRows_append {front back : List (List Char)}
    (starts : ∀ row ∈ back.head?, opens row = true) :
    (Reader.ofRows (front ++ back)).finish =
      (Reader.ofRows front).finish ++ (Reader.ofRows back).finish := by
  rw [Reader.ofRows_append, Reader.finish_foldl_of_opened (opened_of_opens starts)]
  rfl

end Blocks

theorem dispatchRulesOf_append {front back : String}
    (starts : ∀ row ∈ (lines back.toList).head?, opens row = true) :
    dispatchRulesOf (front ++ "\n" ++ back) = dispatchRulesOf front ++ dispatchRulesOf back := by
  have text : (front ++ "\n" ++ back).toList = front.toList ++ '\n' :: back.toList := by
    simp
  have whole : Reader.ofRows (lines (front ++ "\n" ++ back).toList) =
      Reader.ofRows ((front.toList.splitOn '\n').map dropReturn ++ lines back.toList) := by
    rw [text, lines_append]
  change (Reader.ofRows _).finish = _
  rw [whole, finish_ofRows_append starts, ofRows_map_dropReturn, ofRows_splitOn]
  rfl

/--
The rules of a dispatch file, one for each opening line and in their order: the rule at an index is
that of the block with as many blocks before it, so lines in front of the first block have no part in
any. A text that starts with an opening line adds its own rules to those of the text before it.
-/
theorem dispatchRulesOf_blocks :
    (∀ text : String,
      (dispatchRulesOf text).map (·.condition) = (lines text.toList).filterMap condition? ∧
      ∀ (index : Nat) (rule : DispatchRule), (dispatchRulesOf text)[index]? = some rule ↔
        ∃ block : Block (lines text.toList), block.index = index ∧ block.rule = rule) ∧
    ∀ front back : String, (lines back.toList).head?.any opens = true →
      dispatchRulesOf (front ++ "\n" ++ back) = dispatchRulesOf front ++ dispatchRulesOf back := by
  refine ⟨fun text => ⟨conditions_ofRows _, fun index rule => getElem?_finish_ofRows_iff⟩, ?_⟩
  intro front back starts
  apply dispatchRulesOf_append
  intro row first
  rwa [Option.mem_def.mp first] at starts

theorem dispatchRulesOf_blocks_sample :
    (lines "elsif (b) \x7b\r\nh();".toList).head?.any opens = true ∧
      dispatchRulesOf ("g();\nif (a) \x7b\nf();\r" ++ "\n" ++ "elsif (b) \x7b\r\nh();") =
        dispatchRulesOf "g();\nif (a) \x7b\nf();\r" ++ dispatchRulesOf "elsif (b) \x7b\r\nh();" := by
  have starts : (lines "elsif (b) \x7b\r\nh();".toList).head?.any opens = true := by decide +kernel
  exact ⟨starts, dispatchRulesOf_blocks.2 _ _ starts⟩

end Dispatch

/-- A name that a line can call. -/
structure Dispatch.IsCallable (name : String) : Prop where
  nonempty : name ≠ ""
  named : ∀ c ∈ name.toList, Text.isNameChar c = true

/-- A rule that the lines of a text can give. -/
structure DispatchRule.Valid (rule : DispatchRule) : Prop where
  trimmed : Text.trim rule.condition.toList = rule.condition.toList
  undivided : '\n' ∉ rule.condition.toList
  callable : ∀ name ∈ rule.functions, Dispatch.IsCallable name

instance (name : String) : Decidable (Dispatch.IsCallable name) :=
  decidable_of_iff (name ≠ "" ∧ name.toList.all Text.isNameChar = true)
    ⟨fun parts => ⟨parts.1, List.all_eq_true.mp parts.2⟩,
      fun whole => ⟨whole.nonempty, List.all_eq_true.mpr whole.named⟩⟩

instance (rule : DispatchRule) : Decidable rule.Valid :=
  decidable_of_iff (Text.trim rule.condition.toList = rule.condition.toList ∧
      '\n' ∉ rule.condition.toList ∧ ∀ name ∈ rule.functions, Dispatch.IsCallable name)
    ⟨fun parts => ⟨parts.1, parts.2.1, parts.2.2⟩,
      fun whole => ⟨whole.trimmed, whole.undivided, whole.callable⟩⟩

namespace Dispatch

open Text

theorem valid_of_mem {text : String} {rule : DispatchRule} (member : rule ∈ dispatchRulesOf text) :
    rule.Valid := by
  obtain ⟨index, found⟩ := List.mem_iff_getElem?.mp member
  obtain ⟨block, _, rfl⟩ := getElem?_finish_ofRows_iff.mp found
  obtain ⟨opening, same⟩ := condition?_eq_some_iff.mp block.opened
  have listed : block.opening ∈ lines text.toList := by simp [block.whole]
  refine ⟨?_, ?_, ?_⟩
  · change trim block.condition.toList = block.condition.toList
    rw [← same, Opening.condition, String.toList_ofList, trim_trim]
  · change '\n' ∉ block.condition.toList
    rw [← same, Opening.condition, String.toList_ofList]
    intro broken
    apply not_mem_of_mem_lines listed
    rw [opening.whole]
    simp [mem_of_mem_trim broken]
  · intro name called
    obtain ⟨row, _, read⟩ := List.mem_filterMap.mp called
    obtain ⟨calling, rfl⟩ := call?_eq_some_iff.mp read
    refine ⟨?_, by simpa using calling.named⟩
    intro empty
    exact calling.nonempty (by simpa using congrArg String.toList empty)

theorem functions_ne_empty {text : String} {rule : DispatchRule} {name : String}
    (member : rule ∈ dispatchRulesOf text) (called : name ∈ rule.functions) : name ≠ "" :=
  ((valid_of_mem member).callable name called).nonempty

end Dispatch

end RuleSurvey
