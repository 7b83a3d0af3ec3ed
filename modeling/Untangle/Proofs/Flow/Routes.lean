import Untangle.Proofs.Flow.NaturalLoops

namespace Untangle
open Relation

inductive Route (next : Nat → List Nat) : Nat → Nat → List Nat → Prop where
  | stay (node : Nat) : Route next node node [node]
  | step : middle ∈ next source → Route next middle target nodes → Route next source target (source :: nodes)

variable {size a b source middle target : Nat} {next back : Nat → List Nat} {nodes roots : List Nat}

namespace Route

theorem extend (route : Route next source middle nodes) (leads : target ∈ next middle) :
    Route next source target (nodes ++ [target]) := by
  induction route with
  | stay node => exact .step leads (.stay target)
  | step first _ ih => exact .step first (ih leads)

-- Where edges run the other way, so do routes.
theorem reversed (turns : ∀ one two, two ∈ next one → one ∈ back two) (route : Route next source target nodes) :
    Route back target source nodes.reverse := by
  induction route with
  | stay node => exact .stay node
  | step first _ ih =>
    rw [List.reverse_cons]
    exact ih.extend (turns _ _ first)

end Route

theorem clear_iff_route (inside : ∀ source, ∀ target ∈ next source, target < size) :
    Clear size next a source target ↔ ∃ nodes, Route next source target nodes ∧ a ∉ nodes := by
  constructor
  · intro ⟨start,walk⟩
    induction walk with
    | refl => exact ⟨[source],.stay source,fun member => start (List.mem_singleton.mp member).symm⟩
    | @tail middle target _ last ih =>
      obtain ⟨nodes,route,missing⟩ := ih
      refine ⟨nodes ++ [target],route.extend last.1.2,?_⟩
      intro member
      rcases List.mem_append.mp member with earlier | final
      · exact missing earlier
      · exact last.2 (List.mem_singleton.mp final).symm
  · intro ⟨nodes,route,missing⟩
    induction route with
    | stay node => exact .stay fun same => missing (same ▸ List.mem_cons_self)
    | @step middle source target nodes leads _ ih =>
      refine .after ?_ ⟨inside _ _ leads,leads⟩ (ih fun member => missing (List.mem_cons_of_mem _ member))
      exact fun same => missing (same ▸ List.mem_cons_self)

theorem walk_iff_route (inside : ∀ source, ∀ target ∈ next source, target < size) :
    ReflTransGen (Step size next) source target ↔ ∃ nodes, Route next source target nodes := by
  constructor
  · intro walk
    induction walk with
    | refl => exact ⟨[source],.stay source⟩
    | @tail middle target _ last ih =>
      obtain ⟨nodes,route⟩ := ih
      exact ⟨nodes ++ [target],route.extend last.2⟩
  · intro ⟨nodes,route⟩
    induction route with
    | stay node => exact .refl
    | step leads _ ih => exact .head ⟨inside _ _ leads,leads⟩ ih

def Joined (next : Nat → List Nat) (roots : List Nat) (node : Nat) : Prop :=
  ∃ root ∈ roots, ∃ nodes, Route next root node nodes

theorem reaches_iff_joined (inside : ∀ source, ∀ target ∈ next source, target < size)
    (within : ∀ root ∈ roots, root < size) : Reaches size next roots target ↔ Joined next roots target := by
  rw [Reaches.iff_walk]
  constructor
  · intro ⟨root,known,_,walk⟩
    exact ⟨root,known,(walk_iff_route inside).mp walk⟩
  · intro ⟨root,known,route⟩
    exact ⟨root,known,within root known,(walk_iff_route inside).mpr route⟩

theorem dominates_iff_routes (inside : ∀ source, ∀ target ∈ next source, target < size)
    (within : ∀ root ∈ roots, root < size) : Dominates size next roots a b ↔
      Joined next roots a ∧ Joined next roots b ∧ ∀ root ∈ roots, ∀ nodes, Route next root b nodes → a ∈ nodes := by
  constructor
  · intro dominates
    refine ⟨(reaches_iff_joined inside within).mp dominates.above,
      (reaches_iff_joined inside within).mp dominates.below,?_⟩
    intro root known nodes route
    apply Classical.byContradiction
    intro missing
    exact dominates.never root known (within root known) ((clear_iff_route inside).mpr ⟨nodes,route,missing⟩)
  · intro ⟨above,below,every⟩
    refine ⟨(reaches_iff_joined inside within).mpr above,(reaches_iff_joined inside within).mpr below,?_⟩
    intro root known _ clear
    obtain ⟨nodes,route,missing⟩ := (clear_iff_route inside).mp clear
    exact missing (every root known nodes route)

namespace BlockGraph
variable {graph : BlockGraph}

-- Every way into the unit that comes to the second block meets the first one on it.
structure OnEveryWayIn (graph : BlockGraph) (first second : BlockId) : Prop where
  above : ∃ root ∈ graph.roots, ∃ nodes, Route graph.successors root first nodes
  below : ∃ root ∈ graph.roots, ∃ nodes, Route graph.successors root second nodes
  every : ∀ root ∈ graph.roots, ∀ nodes, Route graph.successors root second nodes → first ∈ nodes

structure OnEveryWayOut (graph : BlockGraph) (first second : BlockId) : Prop where
  below : ∃ exit ∈ graph.exits, ∃ nodes, Route graph.successors first exit nodes
  above : ∃ exit ∈ graph.exits, ∃ nodes, Route graph.successors second exit nodes
  every : ∀ exit ∈ graph.exits, ∀ nodes, Route graph.successors second exit nodes → first ∈ nodes

theorem root_inside (root : BlockId) (known : root ∈ graph.roots) : root < graph.size := by
  rcases List.mem_cons.mp known with same | handler
  · exact same ▸ graph.entry_inside
  · obtain ⟨row,member,same⟩ := mem_handlerEntries.mp handler
    exact same ▸ (handler_inside member).handled

theorem exit_inside (exit : BlockId) (known : exit ∈ graph.exits) : exit < graph.size :=
  mem_ids.mp (List.mem_filter.mp known).1

theorem successor_within (source target : BlockId) (leads : target ∈ graph.successors source) :
    target < graph.size :=
  successor_inside leads

theorem predecessor_inside (target source : BlockId) (leads : source ∈ graph.predecessors target) :
    source < graph.size :=
  mem_ids.mp (List.mem_filter.mp leads).1

theorem route_back {exit block : BlockId} {nodes : List BlockId} :
    Route graph.predecessors exit block nodes ↔ Route graph.successors block exit nodes.reverse := by
  constructor
  · intro route
    exact route.reversed fun _ _ => mem_predecessors.mp
  · intro route
    have forth : Route graph.predecessors exit block nodes.reverse.reverse :=
      route.reversed fun _ _ => mem_predecessors.mpr
    rwa [List.reverse_reverse] at forth

theorem dominates_iff_onEveryWayIn : graph.Dom a b ↔ graph.OnEveryWayIn a b := by
  unfold Dom
  rw [dominates_iff_routes successor_within root_inside]
  exact ⟨fun ⟨above,below,every⟩ => ⟨above,below,every⟩,fun way => ⟨way.above,way.below,way.every⟩⟩

theorem postDominates_iff_onEveryWayOut :
    Dominates graph.size graph.predecessors graph.exits a b ↔ graph.OnEveryWayOut a b := by
  rw [dominates_iff_routes predecessor_inside exit_inside]
  have joined (block : BlockId) : Joined graph.predecessors graph.exits block ↔
      ∃ exit ∈ graph.exits, ∃ nodes, Route graph.successors block exit nodes := by
    constructor
    · intro ⟨exit,known,nodes,route⟩
      exact ⟨exit,known,nodes.reverse,route_back.mp route⟩
    · intro ⟨exit,known,nodes,route⟩
      exact ⟨exit,known,nodes.reverse,route_back.mpr (by rwa [List.reverse_reverse])⟩
  rw [joined,joined]
  constructor
  · intro ⟨below,above,every⟩
    refine ⟨below,above,?_⟩
    intro exit known nodes route
    have member := every exit known nodes.reverse (route_back.mpr (by rwa [List.reverse_reverse]))
    exact List.mem_reverse.mp member
  · intro way
    refine ⟨way.below,way.above,?_⟩
    intro exit known nodes route
    exact List.mem_reverse.mp (way.every exit known nodes.reverse (route_back.mp route))

end BlockGraph
end Untangle
