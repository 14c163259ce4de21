import RuleSurvey.Traversal
import RuleSurvey.Proofs.Listing
import Mathlib.Logic.Function.Defs
import Std.Data.String.ToNat

namespace RuleSurvey

/-!
The edges of a traversal. All of them come from the source of highest rank that has anything in it,
and in the case of dispatch rules the number in the origin tells which rule an edge belongs to.
-/

theorem dispatchOrigin_injective : Function.Injective dispatchOrigin := by
  intro first second same
  have texts := congrArg String.toList same
  simp only [dispatchOrigin, String.toList_append] at texts
  have digits := String.toList_inj.mp (List.append_cancel_left texts)
  exact Nat.repr_injective digits

/-- The origins that edges from a source can have. -/
def Traversal.Source.Owns : Traversal.Source → String → Prop
  | dispatch, origin => ∃ index, origin = dispatchOrigin index
  | includes, origin => origin = includesOrigin
  | standalone, origin => origin = standaloneOrigin
  | empty, _ => False

/-- The missing names that concern a source; files that stand for themselves have no names. -/
def Traversal.Source.missingNames (missing : Missing) : Traversal.Source → List String
  | dispatch => missing.dispatched
  | includes => missing.includes
  | standalone => []
  | empty => []

/-- The letter by which the origins of a source can be told. -/
def Traversal.Source.initial : Traversal.Source → Char
  | dispatch => 'd'
  | includes => 'i'
  | standalone => 's'
  | empty => 'e'

theorem Traversal.Source.Owns.head {source : Traversal.Source} {origin : String}
    (owned : source.Owns origin) : origin.toList.head? = some source.initial := by
  cases source with
  | dispatch =>
      obtain ⟨index, rfl⟩ := owned
      simp [dispatchOrigin, initial]
  | includes => cases owned; rfl
  | standalone => cases owned; rfl
  | empty => exact owned.elim

theorem Traversal.Source.Owns.unique {first second : Traversal.Source} {origin : String}
    (owned : first.Owns origin) (shared : second.Owns origin) : first = second := by
  have same : first.initial = second.initial :=
    Option.some.inj (owned.head.symm.trans shared.head)
  cases first <;> cases second <;> simp_all [initial]

namespace Traversal

variable {traversal : Traversal} {edge : Reference}

theorem source_of_rules (rules : traversal.rules ≠ []) : traversal.source = .dispatch := by
  simp [source, rules]

theorem source_of_includes (noRules : traversal.rules = []) (includes : traversal.includes ≠ []) :
    traversal.source = .includes := by
  simp [source, noRules, includes]

theorem edges_of_rules (rules : traversal.rules ≠ []) :
    traversal.edges = (traversal.rules.zipIdx 1).flatMap fun (rule, index) =>
      ruleEdges traversal.table index rule := by
  rw [edges, source_of_rules rules]

theorem edges_of_includes (noRules : traversal.rules = []) (includes : traversal.includes ≠ []) :
    traversal.edges = traversal.includes.map fun entry =>
      { origin := includesOrigin, function := some entry.name
        targets := traversal.table.files entry.name } := by
  rw [edges, source_of_includes noRules includes]

/-- Without rules and includes there is an edge for every file, be it that there is none. -/
theorem edges_of_files (noRules : traversal.rules = []) (noIncludes : traversal.includes = []) :
    traversal.edges = traversal.ruleFiles.map fun path =>
      { origin := standaloneOrigin, function := none, targets := [path] } := by
  by_cases noFiles : traversal.ruleFiles = [] <;> simp [edges, source, noRules, noIncludes, noFiles]

/-- What an edge can be. A lower source makes edges only where those above it are empty. -/
inductive Makes (traversal : Traversal) : Reference → Prop where
  | call {index : Nat} {rule : DispatchRule} {name : String}
      (place : traversal.rules[index]? = some rule) (called : name ∈ rule.functions) :
      Makes traversal ⟨dispatchOrigin (index + 1), some name, traversal.table.files name⟩
  | entry {entry : Include}
      (noRules : traversal.rules = []) (listed : entry ∈ traversal.includes) :
      Makes traversal ⟨includesOrigin, some entry.name, traversal.table.files entry.name⟩
  | single {path : String}
      (noRules : traversal.rules = []) (noIncludes : traversal.includes = [])
      (listed : path ∈ traversal.ruleFiles) :
      Makes traversal ⟨standaloneOrigin, none, [path]⟩

theorem Makes.of_mem (member : edge ∈ traversal.edges) : traversal.Makes edge := by
  by_cases noRules : traversal.rules = []
  · by_cases noIncludes : traversal.includes = []
    · rw [edges_of_files noRules noIncludes] at member
      obtain ⟨path, listed, rfl⟩ := List.mem_map.mp member
      exact .single noRules noIncludes listed
    · rw [edges_of_includes noRules noIncludes] at member
      obtain ⟨entry, listed, rfl⟩ := List.mem_map.mp member
      exact .entry noRules listed
  · rw [edges_of_rules noRules] at member
    obtain ⟨⟨rule, number⟩, numbered, member⟩ := List.mem_flatMap.mp member
    obtain ⟨name, called, rfl⟩ := List.mem_map.mp member
    obtain ⟨positive, place⟩ := List.mk_mem_zipIdx_iff_le_and_getElem?_sub.mp numbered
    rw [← Nat.sub_add_cancel positive]
    exact .call place called

theorem Makes.mem (made : traversal.Makes edge) : edge ∈ traversal.edges := by
  cases made with
  | call place called =>
      have rules : traversal.rules ≠ [] := List.ne_nil_of_mem (List.mem_of_getElem? place)
      rw [edges_of_rules rules, List.mem_flatMap]
      refine ⟨(_, _), List.mk_mem_zipIdx_iff_le_and_getElem?_sub.mpr ⟨Nat.le_add_left _ _, ?_⟩,
        List.mem_map_of_mem called⟩
      rwa [Nat.add_sub_cancel]
  | entry noRules listed =>
      rw [edges_of_includes noRules (List.ne_nil_of_mem listed)]
      exact List.mem_map_of_mem listed
  | single noRules noIncludes listed =>
      rw [edges_of_files noRules noIncludes]
      exact List.mem_map_of_mem listed

/-- The names by which files are reached: rules come first, and includes count only without them. -/
def drivingNames (traversal : Traversal) : List String :=
  if traversal.rules = [] then traversal.includes.map (·.name)
  else traversal.rules.flatMap (·.functions)

/-- An edge leads to a file by a driving name, or because the file stands for itself. -/
theorem exists_edge_iff {file : String} :
    (∃ edge ∈ traversal.edges, file ∈ edge.targets) ↔
      (∃ name ∈ traversal.drivingNames, file ∈ traversal.table.files name) ∨
        (traversal.rules = [] ∧ traversal.includes = [] ∧ file ∈ traversal.ruleFiles) := by
  constructor
  · intro found
    obtain ⟨edge, member, target⟩ := found
    cases Makes.of_mem member with
    | call place called =>
        have listed := List.mem_of_getElem? place
        refine .inl ⟨_, ?_, target⟩
        rw [drivingNames, if_neg (List.ne_nil_of_mem listed)]
        exact List.mem_flatMap.mpr ⟨_, listed, called⟩
    | entry noRules listed =>
        refine .inl ⟨_, ?_, target⟩
        rw [drivingNames, if_pos noRules]
        exact List.mem_map_of_mem listed
    | single noRules noIncludes listed =>
        rw [List.mem_singleton] at target
        exact .inr ⟨noRules, noIncludes, target ▸ listed⟩
  · intro found
    obtain ⟨name, driving, target⟩ | ⟨noRules, noIncludes, listed⟩ := found
    · by_cases noRules : traversal.rules = []
      · rw [drivingNames, if_pos noRules] at driving
        obtain ⟨entry, listed, rfl⟩ := List.mem_map.mp driving
        exact ⟨_, (Makes.entry noRules listed).mem, target⟩
      · rw [drivingNames, if_neg noRules] at driving
        obtain ⟨rule, listed, called⟩ := List.mem_flatMap.mp driving
        obtain ⟨index, place⟩ := List.mem_iff_getElem?.mp listed
        exact ⟨_, (Makes.call place called).mem, target⟩
    · exact ⟨_, (Makes.single noRules noIncludes listed).mem, List.mem_singleton_self file⟩

theorem Makes.source_owns (made : traversal.Makes edge) : traversal.source.Owns edge.origin := by
  cases made with
  | call place called =>
      rw [source_of_rules (List.ne_nil_of_mem (List.mem_of_getElem? place))]
      exact ⟨_, rfl⟩
  | entry noRules listed =>
      rw [source_of_includes noRules (List.ne_nil_of_mem listed)]
      rfl
  | single noRules noIncludes listed =>
      have files : traversal.ruleFiles ≠ [] := List.ne_nil_of_mem listed
      simp [source, noRules, noIncludes, files, Source.Owns]

theorem source_owns_iff (member : edge ∈ traversal.edges) (source : Traversal.Source) :
    source.Owns edge.origin ↔ source = traversal.source := by
  have owned := (Makes.of_mem member).source_owns
  constructor
  · intro shared
    exact shared.unique owned
  · intro same
    exact same ▸ owned

theorem of_source_eq_standalone (alone : traversal.source = .standalone) :
    traversal.rules = [] ∧ traversal.includes = [] := by
  by_cases noRules : traversal.rules = []
  · by_cases noIncludes : traversal.includes = []
    · exact ⟨noRules, noIncludes⟩
    · rw [source_of_includes noRules noIncludes] at alone
      contradiction
  · rw [source_of_rules noRules] at alone
    contradiction

theorem filter_origin_ruleEdges (table : MatchTable) (rules : List DispatchRule)
    (start wanted : Nat) :
    ((rules.zipIdx start).flatMap fun (rule, index) => ruleEdges table index rule).filter
        (·.origin == dispatchOrigin wanted) =
      if start ≤ wanted then rules[wanted - start]?.toList.flatMap (ruleEdges table wanted)
      else [] := by
  induction rules generalizing start with
  | nil => simp
  | cons rule rest ih =>
      rw [List.zipIdx_cons, List.flatMap_cons, List.filter_append, ih]
      by_cases same : start = wanted
      · subst start
        have kept : (ruleEdges table wanted rule).filter (·.origin == dispatchOrigin wanted) =
            ruleEdges table wanted rule := by
          simp [ruleEdges, List.filter_eq_self]
        rw [kept, if_neg (Nat.not_succ_le_self wanted), if_pos (Nat.le_refl wanted), Nat.sub_self]
        simp
      · -- Different numbers have different texts, so no edge of this rule has the wanted origin.
        have different : dispatchOrigin start ≠ dispatchOrigin wanted :=
          fun equal => same (dispatchOrigin_injective equal)
        have dropped : (ruleEdges table start rule).filter (·.origin == dispatchOrigin wanted) =
            [] := by
          simp [ruleEdges, List.filter_eq_nil_iff, different]
        rw [dropped, List.nil_append]
        by_cases later : start ≤ wanted
        · have shifted : wanted - start = wanted - (start + 1) + 1 := by omega
          rw [if_pos later, if_pos (by omega), shifted, List.getElem?_cons_succ]
        · rw [if_neg later, if_neg (by omega)]

/-- The names on the edges of one origin are the calls of one rule, in order and with repeats. -/
theorem functions_of_origin {index : Nat} {rule : DispatchRule}
    (place : traversal.rules[index]? = some rule) :
    (traversal.edges.filter (·.origin == dispatchOrigin (index + 1))).map (·.function) =
      rule.functions.map some := by
  have rules : traversal.rules ≠ [] := List.ne_nil_of_mem (List.mem_of_getElem? place)
  rw [edges_of_rules rules, filter_origin_ruleEdges, if_pos (Nat.le_add_left _ _),
    Nat.add_sub_cancel, place]
  simp [ruleEdges]

theorem getElem?_order (index : Nat) :
    traversal.order[index]? = traversal.rules[index]?.map fun rule =>
      { index := index + 1, condition := rule.condition, functions := rule.functions } := by
  simp only [order, List.getElem?_map, List.getElem?_zipIdx, Option.map_map]
  congr 1
  funext rule
  simp [Nat.add_comm]

theorem mem_dispatched_iff {name : String} :
    name ∈ traversal.dispatched ↔
      name ≠ "" ∧ ∃ rule ∈ traversal.rules, name ∈ rule.functions := by
  rw [dispatched, mem_sortBy_id, List.mem_filter, List.mem_flatMap, decide_eq_true_eq, and_comm]

theorem ascending_dispatched (traversal : Traversal) : traversal.dispatched.Pairwise (· < ·) :=
  ascending_sortBy String.lt_trans string_trichotomy _

end Traversal

end RuleSurvey
