import Untangle.Flow.Graph

namespace Untangle

theorem distinct_of_repeated [DecidableEq α] {seen items : List α} (once : repeated? seen items = none) :
    items.Nodup ∧ ∀ item ∈ items, item ∉ seen := by
  induction items generalizing seen with
  | nil => simp
  | cons item rest ih =>
    unfold repeated? at once
    split at once
    · cases once
    · rename_i fresh
      obtain ⟨distinct,apart⟩ := ih once
      refine ⟨List.nodup_cons.mpr ⟨fun member => apart item member List.mem_cons_self,distinct⟩,?_⟩
      intro other member known
      rcases List.mem_cons.mp member with rfl | member
      · exact fresh known
      · exact apart other member (List.mem_cons_of_mem _ known)

namespace BlockGraph
variable {graph : BlockGraph} {block target default : BlockId}

theorem mem_ids : block ∈ graph.ids ↔ block < graph.size := List.mem_range

theorem faultless (graph : BlockGraph) :
    (∀ (id : BlockId) (block : BasicBlock), graph.blocks[id]? = some block →
      block.fault? graph.size id = none) ∧
    ∀ (index : Nat) (row : ProtectedRange), graph.table[index]? = some row →
      row.fault? graph.size index = none := by
  have sound := graph.sound
  unfold firstFault at sound
  split at sound
  · cases sound
  · obtain ⟨blocks,rows⟩ := Option.or_eq_none_iff.mp sound
    rw [List.findSome?_eq_none_iff] at blocks rows
    exact ⟨fun id block at_ => blocks (block,id) (List.mem_zipIdx_iff_getElem?.mpr at_),
      fun index row at_ => rows (row,index) (List.mem_zipIdx_iff_getElem?.mpr at_)⟩

-- What a row of the table has to be: it protects blocks of the graph, and a handler outside takes over.
structure Row (graph : BlockGraph) (row : ProtectedRange) : Prop where
  proper : row.first < row.past
  within : row.past ≤ graph.size
  handled : row.handler < graph.size
  apart : row.covers row.handler = false

theorem handler_inside {row : ProtectedRange} (member : row ∈ graph.table) : graph.Row row := by
  obtain ⟨index,inside,rfl⟩ := List.mem_iff_getElem.mp member
  have sound := graph.faultless.2 index _ (List.getElem?_eq_getElem inside)
  unfold ProtectedRange.fault? at sound
  split at sound
  · cases sound
  · rename_i range
    split at sound
    · cases sound
    · rename_i target
      split at sound
      · cases sound
      · rename_i outside
        simp only [not_or,Nat.not_le,Nat.not_lt] at range target
        exact ⟨range.1,range.2,target,by simpa using outside⟩

theorem entry_inside (graph : BlockGraph) : graph.entry < graph.size := by
  have sound := graph.sound
  unfold firstFault at sound
  split at sound
  · cases sound
  · rename_i some
    exact List.length_pos_iff.mpr (by simpa using some)

theorem successor_inside (leads : target ∈ graph.successors block) : target < graph.size := by
  unfold successors terminator at leads
  split at leads
  · rename_i found at_
    have sound := graph.faultless.1 block found at_
    unfold BasicBlock.fault? at sound
    split at sound
    · cases sound
    · rename_i inside
      simpa using List.find?_eq_none.mp inside target leads
  · cases leads

theorem distinct_cases (at_ : graph.terminator block = .switch discriminant cases default) :
    (cases.map (·.1)).Nodup := by
  unfold terminator at at_
  split at at_
  · rename_i found here
    have sound := graph.faultless.1 block found here
    unfold BasicBlock.fault? at sound
    split at sound
    · cases sound
    · rw [at_] at sound
      exact (distinct_of_repeated (Option.map_eq_none_iff.mp sound)).1
  · cases at_

end BlockGraph
end Untangle
