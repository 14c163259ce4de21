import RuleSurvey.Reachability
import RuleSurvey.Proofs.Listing
import Mathlib.Algebra.GroupWithZero.Nat
import Mathlib.Data.Finset.Card

namespace RuleSurvey

/-!
What the graph holds once it is built. A place is never given up and no two nodes share one, so a
link can be read by what stands at its places: the links are the targets of the edges, one by one.
Targets that are no rule files become nodes too, but a target has a link by which it was added, so
only rule files can be left over.
-/

theorem ReachNode.file?_injective (first second : ReachNode) (path : String)
    (isFirst : first.file? = some path) (isSecond : second.file? = some path) : first = second := by
  cases first <;> cases second <;> simp_all [file?]

namespace ReachGraph

section Places

variable {graph grown : ReachGraph} {link : ReachLink} {node : ReachNode} {index : Nat}

theorem nodes_intern (graph : ReachGraph) (node : ReachNode) :
    (graph.intern node).nodes =
      if node ∈ graph.nodes then graph.nodes else graph.nodes ++ [node] := by
  unfold intern
  split <;> rfl

@[simp]
theorem links_intern (graph : ReachGraph) (node : ReachNode) :
    (graph.intern node).links = graph.links := by
  unfold intern
  split <;> rfl

theorem prefix_intern (graph : ReachGraph) (node : ReachNode) :
    graph.nodes <+: (graph.intern node).nodes := by
  rw [nodes_intern]
  split
  · exact List.prefix_rfl
  · exact List.prefix_append _ _

/-- A link, read by what stands at its places. -/
def reading (graph : ReachGraph) (link : ReachLink) :
    Option ReachNode × Option String × Option ReachNode :=
  (graph.nodes[link.origin]?, link.function, graph.nodes[link.file]?)

theorem reading_of_prefix (kept : graph.nodes <+: grown.nodes)
    (within : link.Within graph.nodes.length) : grown.reading link = graph.reading link := by
  have same : ∀ index < graph.nodes.length, grown.nodes[index]? = graph.nodes[index]? := by
    intro index below
    rw [List.prefix_iff_getElem?.mp kept index below, List.getElem?_eq_getElem below]
  rw [reading, reading, same _ within.1, same _ within.2]

theorem map_reading_intern (graph : ReachGraph) (node : ReachNode) :
    graph.links.map (graph.intern node).reading = graph.links.map graph.reading :=
  List.map_congr_left fun link listed =>
    reading_of_prefix (graph.prefix_intern node) (graph.bounded link listed)

theorem eq_place_iff (known : node ∈ graph.nodes) :
    index = graph.place node ↔ graph.nodes[index]? = some node := by
  rw [← List.getElem?_idxOf known, eq_comm, eq_comm (a := graph.nodes[index]?)]
  exact (List.getElem?_inj (place_lt known) graph.distinct).symm

end Places

section Building

/-- What a link joins. -/
abbrev Tie := ReachNode × Option String × ReachNode

def Tie.reading (tie : Tie) : Option ReachNode × Option String × Option ReachNode :=
  (some tie.1, tie.2.1, some tie.2.2)

/-- The nodes are those that were met, in this order, and the links read as the ties that were made. -/
structure Holds (graph : ReachGraph) (met : List ReachNode) (made : List Tie) : Prop where
  nodes : graph.nodes = met.eraseDups
  links : graph.links.map graph.reading = made.map Tie.reading

variable {graph : ReachGraph} {met : List ReachNode} {made : List Tie}

theorem Holds.mem_iff (holds : graph.Holds met made) {node : ReachNode} :
    node ∈ graph.nodes ↔ node ∈ met := by
  rw [holds.nodes, List.mem_eraseDups]

/-- A place is led to if a tie with its node was made. -/
theorem Holds.led_to_iff (holds : graph.Holds met made) {node : ReachNode}
    (known : node ∈ graph.nodes) :
    (∃ link ∈ graph.links, link.file = graph.place node) ↔ ∃ tie ∈ made, tie.2.2 = node := by
  have ends : graph.links.map (fun link => graph.nodes[link.file]?) =
      made.map fun tie => some tie.2.2 := by
    have read := congrArg (List.map (·.2.2)) holds.links
    rwa [List.map_map, List.map_map] at read
  have listed : some node ∈ graph.links.map (fun link => graph.nodes[link.file]?) ↔
      some node ∈ made.map fun tie => some tie.2.2 := by rw [ends]
  simpa [eq_place_iff known] using listed

theorem Holds.intern (holds : graph.Holds met made) (node : ReachNode) :
    (graph.intern node).Holds (met ++ [node]) made where
  nodes := by
    rw [nodes_intern, eraseDups_concat]
    simp only [holds.nodes, List.mem_eraseDups]
  links := by rw [links_intern, map_reading_intern, holds.links]

theorem Holds.link (holds : graph.Holds met made) (origin : String) (function : Option String)
    (file : String) :
    (graph.link origin function file).Holds (met ++ [.origin origin, .file file])
      (made ++ [(.origin origin, function, .file file)]) where
  nodes := by
    have grown := ((holds.intern (.origin origin)).intern (.file file)).nodes
    rwa [List.append_assoc] at grown
  links := by
    have grown := ((holds.intern (.origin origin)).intern (.file file)).links
    -- The two ends are read where they have just been given a place.
    have first := List.getElem?_idxOf (mem_intern_of_mem (.file file)
      (graph.mem_intern (.origin origin)))
    have second := List.getElem?_idxOf ((graph.intern (.origin origin)).mem_intern (.file file))
    rw [ReachGraph.link, List.map_append, List.map_append]
    exact congrArg₂ (· ++ ·) grown (by simp [reading, Tie.reading, place, first, second])

/-- What one step adds is added by each of many. -/
theorem Holds.foldl {α : Type} {act : ReachGraph → α → ReachGraph} (seen : α → List ReachNode)
    (tied : α → List Tie)
    (step : ∀ {graph met made}, Holds graph met made → ∀ item,
      (act graph item).Holds (met ++ seen item) (made ++ tied item))
    (holds : graph.Holds met made) (items : List α) :
    (items.foldl act graph).Holds (met ++ items.flatMap seen) (made ++ items.flatMap tied) := by
  induction items generalizing graph met made with
  | nil => simpa using holds
  | cons item rest ih => simpa using ih (step holds item)

def nodesMet (edge : Reference) : List ReachNode :=
  .origin edge.origin :: edge.targets.flatMap fun file => [.origin edge.origin, .file file]

def tiesMade (edge : Reference) : List Tie :=
  edge.targets.flatMap fun file => [(.origin edge.origin, edge.function, .file file)]

theorem Holds.addEdge (holds : graph.Holds met made) (edge : Reference) :
    (graph.addEdge edge).Holds (met ++ nodesMet edge) (made ++ tiesMade edge) := by
  have started := holds.intern (.origin edge.origin)
  have linked := started.foldl _ _
    (fun holds file => holds.link edge.origin edge.function file) edge.targets
  rwa [List.append_assoc, List.singleton_append] at linked

theorem holds_ofEdges (edges : List Reference) (ruleFiles : List String) :
    (ofEdges edges ruleFiles).Holds (ruleFiles.map .file ++ edges.flatMap nodesMet)
      (edges.flatMap tiesMade) := by
  have start : empty.Holds [] [] := ⟨by simp [empty], rfl⟩
  have listed : (ruleFiles.foldl (fun graph file => graph.intern (.file file)) empty).Holds
      (ruleFiles.map .file) [] := by
    have met := start.foldl (fun file => [.file file]) (fun _ => [])
      (fun holds file => by simpa using holds.intern (.file file)) ruleFiles
    rw [List.flatMap_eq_nil_iff.mpr fun _ _ => rfl] at met
    simpa [List.map_eq_flatMap] using met
  exact listed.foldl nodesMet tiesMade (fun holds => holds.addEdge) edges

end Building

section Built

variable {edges : List Reference} {ruleFiles : List String} {file origin : String}

theorem file_mem_nodesMet_iff {edge : Reference} :
    .file file ∈ nodesMet edge ↔ file ∈ edge.targets := by
  simp [nodesMet]

theorem origin_mem_nodesMet_iff {edge : Reference} :
    .origin origin ∈ nodesMet edge ↔ edge.origin = origin := by
  refine ⟨fun met => ?_, fun same => same ▸ List.mem_cons_self⟩
  rcases List.mem_cons.mp met with first | again
  · exact (ReachNode.origin.inj first).symm
  · obtain ⟨file, _, listed⟩ := List.mem_flatMap.mp again
    have same : origin = edge.origin := by simpa using listed
    exact same.symm

theorem filterMap_nodesMet (edge : Reference) :
    (nodesMet edge).filterMap ReachNode.file? = edge.targets := by
  rw [nodesMet, List.filterMap_cons_none rfl, List.filterMap_flatMap]
  exact List.flatMap_singleton' edge.targets

theorem files_ofEdges (edges : List Reference) (ruleFiles : List String) :
    (ofEdges edges ruleFiles).nodes.filterMap ReachNode.file? =
      (ruleFiles ++ edges.flatMap (·.targets)).eraseDups := by
  rw [(holds_ofEdges edges ruleFiles).nodes, filterMap_eraseDups ReachNode.file?_injective,
    List.filterMap_append, List.filterMap_flatMap]
  simp only [filterMap_nodesMet, List.filterMap_map]
  congr 2
  exact List.filterMap_some

theorem mem_nodes_ofEdges_iff {node : ReachNode} :
    node ∈ (ofEdges edges ruleFiles).nodes ↔
      node ∈ (ruleFiles ++ edges.flatMap (·.targets)).map ReachNode.file ∨
        node ∈ (edges.map (·.origin)).map ReachNode.origin := by
  rw [(holds_ofEdges edges ruleFiles).mem_iff]
  cases node with
  | origin name => simp [origin_mem_nodesMet_iff]
  | file path => simp [file_mem_nodesMet_iff]

theorem any_links_ofEdges (known : .file file ∈ (ofEdges edges ruleFiles).nodes) :
    (ofEdges edges ruleFiles).links.any
        (·.file == (ofEdges edges ruleFiles).place (.file file)) =
      decide (∃ edge ∈ edges, file ∈ edge.targets) := by
  rw [Bool.eq_iff_iff, List.any_eq_true, decide_eq_true_eq]
  simp only [beq_iff_eq, (holds_ofEdges edges ruleFiles).led_to_iff known, tiesMade,
    List.mem_flatMap, List.mem_singleton]
  constructor
  · intro tied
    obtain ⟨_, ⟨edge, member, target, reached, rfl⟩, same⟩ := tied
    exact ⟨edge, member, ReachNode.file.inj same ▸ reached⟩
  · intro targeted
    obtain ⟨edge, member, reached⟩ := targeted
    exact ⟨_, ⟨edge, member, file, reached, rfl⟩, rfl⟩

theorem unreached_ofEdges :
    (ofEdges edges ruleFiles).unreached =
      ruleFiles.eraseDups.filter fun file => !decide (∃ edge ∈ edges, file ∈ edge.targets) := by
  have added : ((edges.flatMap (·.targets)).removeAll ruleFiles).eraseDups.filter
      (fun file => !decide (∃ edge ∈ edges, file ∈ edge.targets)) = [] := by
    rw [List.filter_eq_nil_iff]
    intro file member
    rw [List.mem_eraseDups, List.removeAll, List.mem_filter, List.mem_flatMap] at member
    simpa using member.1
  have linked : ∀ file ∈ (ruleFiles ++ edges.flatMap (·.targets)).eraseDups,
      (!(ofEdges edges ruleFiles).links.any
          (·.file == (ofEdges edges ruleFiles).place (.file file))) =
        !decide (∃ edge ∈ edges, file ∈ edge.targets) := by
    intro file listed
    rw [any_links_ofEdges]
    exact mem_nodes_ofEdges_iff.mpr (.inl (List.mem_map_of_mem (List.mem_eraseDups.mp listed)))
  rw [unreached, files_ofEdges, List.filter_congr linked, List.eraseDups_append,
    List.filter_append, added, List.append_nil]

theorem nodeCount_ofEdges (edges : List Reference) (ruleFiles : List String) :
    (ofEdges edges ruleFiles).nodeCount =
      (ruleFiles ++ edges.flatMap (·.targets)).toFinset.card +
        (edges.map (·.origin)).toFinset.card := by
  let files := (ruleFiles ++ edges.flatMap (·.targets)).toFinset
  let origins := (edges.map (·.origin)).toFinset
  have kinds : (ofEdges edges ruleFiles).nodes.toFinset =
      files.image ReachNode.file ∪ origins.image ReachNode.origin := by
    ext node
    rw [List.mem_toFinset, mem_nodes_ofEdges_iff]
    simp only [files, origins, Finset.mem_union, Finset.mem_image, List.mem_toFinset, List.mem_map]
  have apart : Disjoint (files.image ReachNode.file) (origins.image ReachNode.origin) := by
    simp [Finset.disjoint_left]
  calc (ofEdges edges ruleFiles).nodeCount
    _ = (ofEdges edges ruleFiles).nodes.toFinset.card :=
        (List.toFinset_card_of_nodup (ofEdges edges ruleFiles).distinct).symm
    _ = (files.image ReachNode.file).card + (origins.image ReachNode.origin).card := by
        rw [kinds, Finset.card_union_of_disjoint apart]
    _ = files.card + origins.card := by
        rw [Finset.card_image_of_injective _ fun _ _ => ReachNode.file.inj,
          Finset.card_image_of_injective _ fun _ _ => ReachNode.origin.inj]

theorem linkCount_ofEdges (edges : List Reference) (ruleFiles : List String) :
    (ofEdges edges ruleFiles).linkCount = (edges.map (·.targets.length)).sum := by
  have read := congrArg List.length (holds_ofEdges edges ruleFiles).links
  rw [List.length_map, List.length_map, List.length_flatMap] at read
  simpa [linkCount, tiesMade] using read

end Built

/--
Of any edges and rule files, the graph has a node for every file that is a rule file or a target and
one for every origin, whether or not the same text names both, and a link for every target. Unreached
are the rule files that no edge has for a target, in the order in which they are first listed.
-/
theorem build_counts_distinct_and_lists_unreached (edges : List Reference)
    (ruleFiles : List String) :
    let graph := (build edges ruleFiles).value
    graph.nodeCount = (ruleFiles ++ edges.flatMap (·.targets)).toFinset.card +
        (edges.map (·.origin)).toFinset.card ∧
      graph.linkCount = (edges.map (·.targets.length)).sum ∧
      FirstSeen ruleFiles (fun file => ∀ edge ∈ edges, file ∉ edge.targets) graph.unreached := by
  refine ⟨nodeCount_ofEdges edges ruleFiles, linkCount_ofEdges edges ruleFiles, ?_⟩
  change FirstSeen ruleFiles _ (ofEdges edges ruleFiles).unreached
  rw [unreached_ofEdges]
  refine (firstSeen_filter_eraseDups ruleFiles _).congr fun file _ => ?_
  simp

-- The origin `a` is a node beside the file `a`, and `c` is one although it leads nowhere.
example :
    let graph := ofEdges [⟨"a", none, ["a", "b"]⟩, ⟨"c", none, []⟩] ["a", "d", "d"]
    graph.nodeCount = 5 ∧ graph.linkCount = 2 ∧ graph.unreached = ["d"] := by
  decide +kernel

end ReachGraph

end RuleSurvey
