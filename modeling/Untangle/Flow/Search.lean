import Untangle.Flow.Graph

namespace Untangle

def unseen (size : Nat) (seen : List Nat) : Nat := ((List.range size).filter (· ∉ seen)).length

theorem unseen_cons_lt {size node : Nat} {seen : List Nat} (inside : node < size) (fresh : node ∉ seen) :
    unseen size (node :: seen) < unseen size seen := by
  unfold unseen
  have sub : (List.range size).filter (· ∉ node :: seen) =
      ((List.range size).filter (· ∉ seen)).filter (· ≠ node) := by
    rw [List.filter_filter]
    congr 1
    funext n
    simp
  rw [sub]
  have member : node ∈ (List.range size).filter (· ∉ seen) := by simp [inside,fresh]
  exact List.length_filter_lt_length_iff_exists.2 ⟨node,member,by simp⟩

def reach (size : Nat) (next : Nat → List Nat) (pending seen : List Nat) : List Nat :=
  match pending with
  | [] => seen
  | node :: rest =>
    if _fresh : node < size ∧ node ∉ seen then reach size next (next node ++ rest) (node :: seen)
    else reach size next rest seen
termination_by (unseen size seen,pending.length)
decreasing_by
  · exact Prod.Lex.left _ _ (unseen_cons_lt _fresh.1 _fresh.2)
  · exact Prod.Lex.right _ (by simp)

inductive Visit where
  | enter (node : Nat)
  | leave (node : Nat)

-- Depth-first search with an explicit stack. A node is finished when all it leads to is; the last
-- one finished comes first in the result.
def finish (size : Nat) (next : Nat → List Nat) (pending : List Visit) (seen finished : List Nat) :
    List Nat :=
  match pending with
  | [] => finished
  | .leave node :: rest => finish size next rest seen (node :: finished)
  | .enter node :: rest =>
    if _fresh : node < size ∧ node ∉ seen then
      finish size next ((next node).map .enter ++ .leave node :: rest) (node :: seen) finished
    else finish size next rest seen finished
termination_by (unseen size seen,pending.length)
decreasing_by
  · exact Prod.Lex.right _ (by simp)
  · exact Prod.Lex.left _ _ (unseen_cons_lt _fresh.1 _fresh.2)
  · exact Prod.Lex.right _ (by simp)

namespace BlockGraph

-- Blocks that control can reach from the entry, with an exception edge from every protected block.
def live (graph : BlockGraph) : List BlockId :=
  reach graph.size (fun id => graph.successors id ++ graph.handlersOf id) [graph.entry] []

def isLive (graph : BlockGraph) (id : BlockId) : Bool := id ∈ graph.live

def order (graph : BlockGraph) : List BlockId :=
  finish graph.size graph.successors (graph.roots.map .enter) [] []

def position? (order : List BlockId) (id : BlockId) : Option Nat := order.idxOf? id

end BlockGraph
end Untangle
