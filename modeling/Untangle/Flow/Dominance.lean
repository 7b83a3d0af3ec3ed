import Untangle.Flow.Search

namespace Untangle

structure Detours where
  size : Nat
  reached : List Nat
  without : List (List Nat)

namespace Detours

def avoiding (size : Nat) (next : Nat → List Nat) (roots : List Nat) (node : Nat) : List Nat :=
  reach size (fun id => (next id).filter (· ≠ node)) (roots.filter (· ≠ node)) []

def compute (size : Nat) (next : Nat → List Nat) (roots : List Nat) : Detours :=
  ⟨size,reach size next roots [],(List.range size).map (avoiding size next roots)⟩

def isReached (detours : Detours) (node : Nat) : Bool := node ∈ detours.reached

-- Every way to `b` leads through `a`. Reflexive on what is reached, and nothing else is related.
def dominates (detours : Detours) (a b : Nat) : Bool :=
  detours.isReached a && detours.isReached b && (detours.without[a]?.getD []).all (· ≠ b)

def strictlyDominates (detours : Detours) (a b : Nat) : Bool := a != b && detours.dominates a b

def strict (detours : Detours) (node : Nat) : List Nat :=
  (List.range detours.size).reverse.filter (detours.strictlyDominates · node)

def closest? (detours : Detours) (node : Nat) : Option Nat :=
  let above := detours.strict node
  above.find? fun closest => above.all (detours.dominates · closest)

end Detours

structure Dominance extends Detours where
  parents : List (Option Nat)

namespace Dominance

def ofDetours (detours : Detours) : Dominance :=
  ⟨detours,(List.range detours.size).map detours.closest?⟩

def compute (size : Nat) (next : Nat → List Nat) (roots : List Nat) : Dominance :=
  ofDetours (.compute size next roots)

def isReached (doms : Dominance) (node : Nat) : Bool := doms.toDetours.isReached node
def dominates (doms : Dominance) (a b : Nat) : Bool := doms.toDetours.dominates a b
def strictlyDominates (doms : Dominance) (a b : Nat) : Bool := doms.toDetours.strictlyDominates a b

def immediate? (doms : Dominance) (node : Nat) : Option Nat := doms.parents[node]?.join

def children (doms : Dominance) (node : Nat) : List Nat :=
  (List.range doms.size).filter fun child => doms.immediate? child == some node

theorem immediate_ofDetours (detours : Detours) (node : Nat) (inside : node < detours.size) :
    (ofDetours detours).immediate? node = detours.closest? node := by
  simp [immediate?,ofDetours,inside]

end Dominance

namespace BlockGraph

def dominance (graph : BlockGraph) : Dominance :=
  Dominance.compute graph.size graph.successors graph.roots

-- Dominance of the reversed graph, rooted at every block that leaves the unit. A block that can
-- never leave has no post-dominator.
def postDominance (graph : BlockGraph) : Dominance :=
  Dominance.compute graph.size graph.predecessors graph.exits

end BlockGraph
end Untangle
