import RuleSurvey.Traversal

namespace RuleSurvey

/-!
The graph of who reaches which file. A node has its place from the time it is first met, and a link
joins two places. Origins and files are nodes of two kinds, so an origin never stands for a file of
the same name, and each target of an edge is a link of its own.
-/

inductive ReachNode where
  | origin (name : String)
  | file (path : String)
deriving DecidableEq, Repr

def ReachNode.file? : ReachNode → Option String
  | origin _ => none
  | file path => some path

/-- A link leads from the place of an origin to that of a file. -/
structure ReachLink where
  origin : Nat
  function : Option String
  file : Nat
deriving DecidableEq, Repr

/-- Whether both places are among the first so many. -/
def ReachLink.Within (link : ReachLink) (size : Nat) : Prop :=
  link.origin < size ∧ link.file < size

theorem ReachLink.Within.of_le {link : ReachLink} {size larger : Nat} (within : link.Within size)
    (grown : size ≤ larger) : link.Within larger :=
  ⟨Nat.lt_of_lt_of_le within.1 grown, Nat.lt_of_lt_of_le within.2 grown⟩

structure ReachGraph where
  /-- In the order of their discovery. -/
  nodes : List ReachNode
  links : List ReachLink
  distinct : nodes.Nodup
  bounded : ∀ link ∈ links, link.Within nodes.length

namespace ReachGraph

def empty : ReachGraph where
  nodes := []
  links := []
  distinct := .nil
  bounded := List.forall_mem_nil _

def place (graph : ReachGraph) (node : ReachNode) : Nat :=
  graph.nodes.idxOf node

theorem distinct_concat {nodes : List ReachNode} {node : ReachNode} (distinct : nodes.Nodup)
    (unknown : node ∉ nodes) : (nodes ++ [node]).Nodup := by
  refine List.nodup_append.mpr ⟨distinct, by simp, ?_⟩
  intro other listed last member same
  rw [same, List.mem_singleton.mp member] at listed
  exact unknown listed

theorem bounded_concat (graph : ReachGraph) (node : ReachNode) :
    ∀ link ∈ graph.links, link.Within (graph.nodes ++ [node]).length :=
  fun link listed => (graph.bounded link listed).of_le (List.sublist_append_left _ _).length_le

/-- A node that is not known yet gets the next place. -/
def intern (graph : ReachGraph) (node : ReachNode) : ReachGraph :=
  if known : node ∈ graph.nodes then graph
  else
    { nodes := graph.nodes ++ [node]
      links := graph.links
      distinct := distinct_concat graph.distinct known
      bounded := graph.bounded_concat node }

theorem mem_intern (graph : ReachGraph) (node : ReachNode) : node ∈ (graph.intern node).nodes := by
  unfold intern
  split
  · assumption
  · simp

theorem mem_intern_of_mem {graph : ReachGraph} {other : ReachNode} (node : ReachNode)
    (known : other ∈ graph.nodes) : other ∈ (graph.intern node).nodes := by
  unfold intern
  split
  · exact known
  · exact List.mem_append_left _ known

theorem place_lt {graph : ReachGraph} {node : ReachNode} (known : node ∈ graph.nodes) :
    graph.place node < graph.nodes.length :=
  List.idxOf_lt_length_of_mem known

/-- Links an origin to a file; what of the two is no node yet becomes one. -/
def link (graph : ReachGraph) (origin : String) (function : Option String) (file : String) :
    ReachGraph :=
  let grown := (graph.intern (.origin origin)).intern (.file file)
  { nodes := grown.nodes
    links := grown.links ++
      [{ origin := grown.place (.origin origin), function, file := grown.place (.file file) }]
    distinct := grown.distinct
    bounded := List.forall_mem_append.mpr ⟨grown.bounded, List.forall_mem_singleton.mpr
      ⟨place_lt (mem_intern_of_mem _ (mem_intern _ _)), place_lt (mem_intern _ _)⟩⟩ }

/-- An origin without targets is a node too. -/
def addEdge (graph : ReachGraph) (edge : Reference) : ReachGraph :=
  edge.targets.foldl (fun graph file => graph.link edge.origin edge.function file)
    (graph.intern (.origin edge.origin))

/-- Rule files are nodes whether or not an edge leads to them. -/
def ofEdges (edges : List Reference) (ruleFiles : List String) : ReachGraph :=
  edges.foldl addEdge (ruleFiles.foldl (fun graph file => graph.intern (.file file)) empty)

def nodeCount (graph : ReachGraph) : Nat :=
  graph.nodes.length

def linkCount (graph : ReachGraph) : Nat :=
  graph.links.length

def build (edges : List Reference) (ruleFiles : List String) : Logged ReachGraph := do
  let graph := ofEdges edges ruleFiles
  record .debug .reachability
    ("Reachability graph: " ++ toString graph.nodeCount ++ " nodes, " ++
      toString graph.linkCount ++ " edges")
  pure graph

theorem value_build (edges : List Reference) (ruleFiles : List String) :
    (build edges ruleFiles).value = ofEdges edges ruleFiles := rfl

/-- The files to which no link leads. -/
def unreached (graph : ReachGraph) : List String :=
  (graph.nodes.filterMap ReachNode.file?).filter fun file =>
    !graph.links.any (·.file == graph.place (.file file))

end ReachGraph

end RuleSurvey
