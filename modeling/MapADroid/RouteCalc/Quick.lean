import Mathlib.Order.WithBot
import Mathlib.Data.List.Sort
import MapADroid.RouteCalc.UnionFind
import MapADroid.Lib.Multigraph

/- The quick route calculation: a tour of all points by a minimum spanning tree, a
   matching of its odd vertexes and a walk along the edges of both.

   A point is a pair of coordinates, `getLength` the distance of two points and `K` what
   it returns. `shuffle` stands for `random.shuffle`. A function returns `none` where
   the source raises an exception. The walk of `find_eulerian_tour` runs on fuel; that
   what it is given is enough is part of what is proved of `tsp`. -/
namespace MapADroid.RouteCalc
open Lib

variable {C K : Type}

/-! ## The graph -/

/-- `graph[u][v]` is the weight of the edge from `u` to `v`. -/
abbrev Graph (K : Type) := Dict Nat (Dict Nat K)

def Graph.weight (graph : Graph K) (u v : Nat) : Option K := do
  let row ← graph.get? u
  row.get? v

/-- `graph[this][another_point] = length`, in a row of its own if there is none. -/
def setWeight (graph : Graph K) (this another : Nat) (length : K) : Graph K :=
  graph.insert this (((graph.get? this).getD Dict.empty).insert another length)

def buildGraph (getLength : C → C → C → C → K) (data : List (C × C)) : Graph K :=
  (List.finRange data.length).foldl (fun graph (this : Fin data.length) =>
    (List.finRange data.length).foldl (fun graph (another : Fin data.length) =>
      if this = another then graph
      else setWeight graph this another (getLength data[this].1 data[this].2 data[another].1 data[another].2))
      graph) Dict.empty

/-- An edge `(u, v, weight)`, of weight `⊤` for `float("inf")`. -/
structure Edge (K : Type) where
  u : Nat
  v : Nat
  weight : WithTop K

def Edge.ends (e : Edge K) : Nat × Nat := (e.u, e.v)

/-- The triples `(graph[u][v], u, v)`, in the order of the dictionaries. -/
def Graph.edges (graph : Graph K) : List (K ×ₗ Nat ×ₗ Nat) :=
  graph.items.flatMap fun row => row.2.items.map fun i => toLex (i.2, toLex (row.1, i.1))

/-! ## The spanning tree -/

section
variable [LinearOrder K]

/-- The tree found so far, and the union-find of its subtrees. -/
structure Forest (K : Type) where
  tree : List (Edge K)
  subtrees : UnionFind Nat

/-- One turn of the loop over the sorted edges. -/
def Forest.add (forest : Forest K) (edge : K ×ₗ Nat ×ₗ Nat) : Option (Forest K) := do
  let (weight, uv) := ofLex edge
  let (u, v) := ofLex uv
  let (rootU, subtrees) ← forest.subtrees.getItem u
  let (rootV, subtrees) ← subtrees.getItem v
  if rootU = rootV then some ⟨forest.tree, subtrees⟩
  else do
    let subtrees ← subtrees.union [u, v]
    some ⟨forest.tree ++ [⟨u, v, weight⟩], subtrees⟩

def minimumSpanningTree (graph : Graph K) : Option (List (Edge K)) := do
  let forest ← (graph.edges.insertionSort (· ≤ ·)).foldlM Forest.add ⟨[], UnionFind.init⟩
  some forest.tree

/-! ## The matching -/

/-- One turn of the loop that counts the edges at every vertex. -/
def countEdge (tmpG : Dict Nat Nat) (edge : Edge K) : Dict Nat Nat :=
  (((tmpG.setDefault edge.u 0).setDefault edge.v 0).modify edge.u (· + 1)).modify edge.v (· + 1)

def findOddVertexes (minSpanTree : List (Edge K)) : List Nat :=
  ((minSpanTree.foldl countEdge Dict.empty).items.filter fun i => i.2 % 2 = 1).map Prod.fst

/-- One turn of the search for the vertex closest to `vertex`. -/
def closer (graph : Graph K) (vertex : Nat) (best : WithTop K × Nat) (index : Nat) : Option (WithTop K × Nat) :=
  if vertex = index then some best
  else do
    let length ← graph.weight vertex index
    if (length : WithTop K) < best.1 then some (length, index) else some best

def minimumWeightMatching (graph : Graph K) : List (Edge K) → List Nat → Option (List (Edge K))
  | minSpanTree, [] => some minSpanTree
  | minSpanTree, v :: l => do
    let vertex := (v :: l).getLast (List.cons_ne_nil v l)
    let oddVert := (v :: l).dropLast
    let (length, closest) ← oddVert.foldlM (closer graph vertex) (⊤, 0)
    if closest ∈ oddVert then
      minimumWeightMatching graph (minSpanTree ++ [⟨vertex, closest, length⟩]) (oddVert.erase closest)
    else none
termination_by _ oddVert => oddVert.length
decreasing_by
  calc ((v :: l).dropLast.erase closest).length ≤ (v :: l).dropLast.length := List.length_erase_le
    _ < (v :: l).length := by simp

end

/-! ## The tour -/

/-- One turn of the loop that collects the neighbours. -/
def addNeighbours (neighbours : Dict Nat (List Nat)) (edge : Edge K) : Dict Nat (List Nat) :=
  (((neighbours.setDefault edge.u []).setDefault edge.v []).modify edge.u (· ++ [edge.v])).modify edge.v (· ++ [edge.u])

/-- The edges joining `v1` and `v2` deleted, but for those right after a deleted one, which
    the loop over the list it deletes from never looks at. -/
def removeEdgeFromMatchedMst (v1 v2 : Nat) : List (Edge K) → List (Edge K)
  | [] => []
  | [item] => if item.u = v2 ∧ item.v = v1 ∨ item.u = v1 ∧ item.v = v2 then [] else [item]
  | item :: next :: rest =>
    if item.u = v2 ∧ item.v = v1 ∨ item.u = v1 ∧ item.v = v2 then next :: removeEdgeFromMatchedMst v1 v2 rest
    else item :: removeEdgeFromMatchedMst v1 v2 (next :: rest)

/-- What the loops of `find_eulerian_tour` change. -/
structure Tour (K : Type) where
  mst : List (Edge K)
  neighbours : Dict Nat (List Nat)
  ep : List Nat

/-- The edge from `v` to `w` walked: `w` comes to stand at `ind` in the tour. -/
def Tour.pass (t : Tour K) (v w ind : Nat) : Option (Tour K) := do
  let atV ← t.neighbours.get? v
  let neighbours := t.neighbours.insert v (atV.erase w)
  let atW ← neighbours.get? w
  if v ∈ atW then
    some ⟨removeEdgeFromMatchedMst v w t.mst, neighbours.insert w (atW.erase v), t.ep.take ind ++ w :: t.ep.drop ind⟩
  else none

/-- The inner `while`: walk on from `v`, which stands at `stopInd`, until stuck. -/
def Tour.walk : Nat → Tour K → Nat → Nat → Option (Tour K)
  | 0, _, _, _ => none
  | fuel + 1, t, v, stopInd => do
    let atV ← t.neighbours.get? v
    match atV with
    | [] => some t
    | w :: _ => do
      let t ← t.pass v w (stopInd + 1)
      t.walk fuel w (stopInd + 1)

/-- The first vertex of the tour with neighbours left, and its position. -/
def firstOpen (neighbours : Dict Nat (List Nat)) : Nat → List Nat → Option (Option (Nat × Nat))
  | _, [] => some none
  | ind, v :: ep => do
    let atV ← neighbours.get? v
    if 0 < atV.length then some (some (ind, v)) else firstOpen neighbours (ind + 1) ep

/-- The outer `while`. Where no vertex of the tour has neighbours left, it does nothing and
    goes round again. -/
def Tour.complete (steps : Nat) : Nat → Tour K → Option (List Nat)
  | 0, _ => none
  | fuel + 1, t =>
    if 0 < t.mst.length then do
      match ← firstOpen t.neighbours 0 t.ep with
      | none => t.complete steps fuel
      | some (stopInd, v) => do
        let t ← t.walk steps v stopInd
        t.complete steps fuel
    else some t.ep

def findEulerianTour (matchedMinSpanTree : List (Edge K)) : Option (List Nat) := do
  let neighbours := matchedMinSpanTree.foldl addNeighbours Dict.empty
  let first ← matchedMinSpanTree.head?
  let atStart ← neighbours.get? first.u
  let start ← atStart.head?
  Tour.complete (matchedMinSpanTree.length + 1) (matchedMinSpanTree.length + 1) ⟨matchedMinSpanTree, neighbours, [start]⟩

/-! ## The route -/

/-- What the loop over the tour changes. -/
structure Visit (K : Type) where
  path : List Nat
  visited : List Bool
  length : K
  current : Nat

/-- One turn of the loop over the tour. -/
def Visit.next [Add K] (graph : Graph K) (s : Visit K) (node : Nat) : Option (Visit K) := do
  let seen ← s.visited[node]?
  if seen then some s
  else do
    let w ← graph.weight s.current node
    some ⟨s.path ++ [node], s.visited.set node true, s.length + w, node⟩

def tsp [LinearOrder K] [Add K] [Zero K] (getLength : C → C → C → C → K) (shuffle : List Nat → List Nat)
    (data : List (C × C)) : Option (K × List Nat) := do
  let graphData := buildGraph getLength data
  let minSpanTree ← minimumSpanningTree graphData
  let oddVertexes := shuffle (findOddVertexes minSpanTree)
  let matched ← minimumWeightMatching graphData minSpanTree oddVertexes
  let eulerianTour ← findEulerianTour matched
  let current ← eulerianTour.head?
  let visited := List.replicate eulerianTour.length false
  if current < visited.length then do
    let s ← eulerianTour.tail.foldlM (Visit.next graphData) ⟨[current], visited.set current true, 0, current⟩
    some (s.length, s.path)
  else none

end MapADroid.RouteCalc
