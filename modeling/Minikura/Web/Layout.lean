import Minikura.Data.Slots
import Minikura.Web.Topology

/-!
# The layout of the topology page

The Kubernetes nodes that pass the filters stand in a row, those with servers and proxies first.
Below each stand the servers and proxies on it, and those on none at the end of the row. Places
are numbers of pixels and halves of them, which doubles have exactly.

## Main definitions

* `useGraphLayout` — the nodes with their places, and the edges.
* `topologyCanvas` — what the page shows of a graph.
-/

namespace Minikura.Web.Topology

def nodeSpacing : Position := ⟨350, 350⟩

def nodeWidth : ℚ := 320

/-- `metadata.k8sNodes || []` -/
def TopologyNode.k8sNodeNames (node : TopologyNode) : List String :=
  match node.data.metadata with
  | .server metadata => metadata.k8sNodes
  | .proxy metadata => metadata.k8sNodes
  | .k8sNode _ => []

def place (node : TopologyNode) (x y : ℚ) : TopologyNode :=
  { node with position := ⟨x, y⟩, targetPosition := some .top, sourcePosition := some .bottom }

/-! ## Groups -/

structure Grouping where
  k8sNodeGroups : List (String × List TopologyNode) := []
  orphanedNodes : List TopologyNode := []

def groupNode (g : Grouping) (node : TopologyNode) : Grouping :=
  match node.k8sNodeNames with
  | [] => { g with orphanedNodes := g.orphanedNodes ++ [node] }
  | k8sNodeName :: _ =>
    { g with k8sNodeGroups := pushTo g.k8sNodeGroups ("k8s-node-" ++ k8sNodeName) node }

/-! ## Places -/

structure K8sNodePosition where
  x : ℚ
  width : ℚ

/-- What the loops over the Kubernetes nodes share. -/
structure Row where
  currentX : ℚ := 0
  k8sNodePositions : List (String × K8sNodePosition) := []
  layoutedNodesList : List TopologyNode := []

def placeK8sNode (width : ℚ) (row : Row) (k8sNode : TopologyNode) : Row :=
  let centerX := row.currentX + width / 2
  { currentX := row.currentX + (width + nodeSpacing.x)
    k8sNodePositions := setEntry row.k8sNodePositions k8sNode.id ⟨centerX, width⟩
    layoutedNodesList := row.layoutedNodesList ++ [place k8sNode centerX 0] }

def placeGroup (k8sPos : K8sNodePosition) (group : List TopologyNode) : List TopologyNode :=
  let groupWidth := group.length * nodeWidth
  let startX := k8sPos.x - groupWidth / 2 + nodeWidth / 2
  group.mapIdx fun index node => place node (startX + index * nodeWidth) nodeSpacing.y

/-- Half the width of all is taken from the places. -/
def offset (nodes : List TopologyNode) : List TopologyNode :=
  match (nodes.map (·.position.x)).min?, (nodes.map (·.position.x)).max? with
  | some minX, some maxX =>
    nodes.map fun node =>
      { node with position := { node.position with x := node.position.x + -(maxX - minX) / 2 } }
  | _, _ => nodes

/-! ## The layout -/

def grouping (nodes : List TopologyNode) : Grouping :=
  (nodes.filter (·.data.type = .server) ++ nodes.filter (·.data.type = .proxy)).foldl groupNode {}

def placeK8sNodes (nodes : List TopologyNode) (groups : List (String × List TopologyNode)) : Row :=
  let k8sNodes := nodes.filter (·.data.type = .k8sNode)
  let k8sWithApps := k8sNodes.filter fun k8s => 0 < (bucket groups k8s.id).length
  let k8sWithoutApps := k8sNodes.filter fun k8s => (bucket groups k8s.id).length = 0
  let k8sNodeWidths := k8sWithApps.foldl (fun m k8sNode => setEntry m k8sNode.id
    (max nodeWidth ((bucket groups k8sNode.id).length * nodeWidth))) []
  let row := k8sWithApps.foldl (fun row k8sNode =>
    placeK8sNode ((k8sNodeWidths.lookup k8sNode.id).getD nodeWidth) row k8sNode) {}
  k8sWithoutApps.foldl (placeK8sNode nodeWidth) row

def layoutedNodes (nodes : List TopologyNode) : List TopologyNode :=
  let { k8sNodeGroups, orphanedNodes } := grouping nodes
  let row := placeK8sNodes nodes k8sNodeGroups
  let groups := k8sNodeGroups.flatMap fun (k8sNodeId, group) =>
    match row.k8sNodePositions.lookup k8sNodeId with
    | none => []
    | some k8sPos => placeGroup k8sPos group
  let orphans := orphanedNodes.mapIdx fun index node =>
    place node (row.currentX + index * nodeWidth) nodeSpacing.y
  offset (row.layoutedNodesList ++ groups ++ orphans)

structure LayoutInput where
  nodes : List TopologyNode
  edges : List TopologyEdge

def useGraphLayout (input : LayoutInput) : LayoutInput :=
  { input with nodes := layoutedNodes input.nodes }

def topologyCanvas (toLowerCase : String → String) (graph : TopologyGraph)
    (filters : TopologyFilters) : LayoutInput :=
  let filteredNodes := filterNodes toLowerCase graph.nodes filters
  let filteredEdges :=
    if !filters.showConnections then []
    else filterEdges graph.edges (filteredNodes.map (·.id))
  useGraphLayout { nodes := filteredNodes, edges := filteredEdges }

end Minikura.Web.Topology
