import Untangle.Proofs.Protection.Answers
import Untangle.Proofs.Protection.Coverage

namespace Untangle

def LaidClause.catches (clause : LaidClause) (known : String → Bool) : Bool :=
  clause.types.isEmpty || clause.types.any known

-- Where an exception goes by the tree: through the clauses that are written there, from the innermost `try` outwards.
def searchOutwards? (around : List Guard) (known : String → Bool) : Option BlockId :=
  around.findSome? fun guard => (guard.clauses.find? (·.catches known)).map (·.handler)

-- No row for a block comes after one of a wider range.
def InnerFirst (table : List ProtectedRange) (block : BlockId) : Prop :=
  table.Pairwise fun earlier later => earlier.covers block = true → later.covers block = true →
    earlier.first ≤ later.first → later.past ≤ earlier.past →
    (earlier.first,earlier.past) = (later.first,later.past)

instance (table : List ProtectedRange) (block : BlockId) : Decidable (InnerFirst table block) :=
  inferInstanceAs (Decidable (table.Pairwise _))

namespace TryRegion
variable {row : ProtectedRange} {table : List ProtectedRange} {regions around : List TryRegion}
  {known : String → Bool} {block : BlockId}

section Search
variable {region closer : TryRegion} {earlier later : List ProtectedRange} {handler : BlockId}

end Search
end TryRegion

theorem Guard.Of.answer {guard : Guard} {region : TryRegion} (of : guard.Of region) (known : String → Bool) :
    (guard.clauses.find? (·.catches known)).map (·.handler) = firstClause? region.clauses known := by
  have written : (guard.clauses.find? (·.catches known)).map (·.handler) =
      ((guard.clauses.map fun clause => (clause.types,clause.handler)).find? fun clause =>
        clause.1.isEmpty || clause.1.any known).map (·.2) := by
    rw [List.find?_map,Option.map_map]
    rfl
  have given : firstClause? region.clauses known =
      ((region.clauses.map fun group => (group.caught,group.handler)).find? fun clause =>
        clause.1.isEmpty || clause.1.any known).map (·.2) := by
    rw [List.find?_map,Option.map_map]
    rfl
  rw [written,given,of.clauses]

namespace Layout
variable {graph : BlockGraph} {regions : List TryRegion} {body : Block} {layout : Layout} {placing : Placing}
  {guard other : Guard} {region region' : TryRegion} {outer : List Guard}

theorem Exact.covers (exact_ : layout.Exact graph placing.block) (grouped : TryRegion.group graph.table = .ok regions)
    (listed : placing ∈ layout.placings) (known : region ∈ regions) :
    region.range ∈ placing.around.map (·.range) ↔ region.covers placing.block = true := by
  obtain ⟨row,rowed,same⟩ := (TryRegion.groups_of_group grouped).ranges region known
  have range : region.range = row.range := Prod.ext same.1 same.2
  rw [range,same.covers]
  exact exact_ placing listed rfl row rowed

theorem Of.within (of : layout.Of graph regions body) (grouped : TryRegion.group graph.table = .ok regions)
    (listed : placing ∈ layout.placings) (exact_ : layout.Exact graph placing.block)
    (firsts : ∀ row ∈ graph.table, row.covers placing.block = true → layout.Exact graph row.first)
    (within : guard :: outer <:+ placing.around) (further : other ∈ outer) (known : region ∈ regions)
    (live : region.first ∈ graph.live) (made : guard.Of region) (known' : region' ∈ regions) (made' : other.Of region') :
    region.Within region' := by
  have around : region.range ∈ placing.around.map (·.range) ∧ region'.range ∈ placing.around.map (·.range) := by
    rw [← made.range,← made'.range]
    exact ⟨List.mem_map_of_mem (within.subset List.mem_cons_self),
      List.mem_map_of_mem (within.subset (List.mem_cons_of_mem _ further))⟩
  have here := (exact_.covers grouped listed known).mp around.1
  have there := (exact_.covers grouped listed known').mp around.2
  obtain ⟨row,rowed,same⟩ := (TryRegion.groups_of_group grouped).ranges region known
  have start : layout.Exact graph region.first := by
    rw [same.covers] at here
    exact same.1 ▸ firsts row rowed here
  have taken : region.first ∈ layout.placings.map (·.block) := of.blocks.symm.subset
    (List.mem_filter.mpr ⟨BlockGraph.mem_ids.mpr (BlockGraph.live_inside live),decide_eq_true live⟩)
  obtain ⟨origin,placed,begins⟩ := List.mem_map.mp taken
  rw [← begins] at start
  have own : region.covers region.first = true :=
    TryRegion.covers_iff.mpr ⟨Nat.le_refl _,Nat.lt_of_le_of_lt (TryRegion.covers_iff.mp here).1 (TryRegion.covers_iff.mp here).2⟩
  obtain ⟨found,inside,equal⟩ := List.mem_map.mp ((start.covers grouped placed known).mpr (begins ▸ own))
  obtain ⟨front,outer',splits⟩ := List.append_of_mem inside
  have shared : outer = outer' := of.same_outer (enclosing listed within) (enclosing placed ⟨front,splits.symm⟩)
    (made.range.trans equal.symm)
  subst shared
  have further' : region'.range ∈ origin.around.map (·.range) := by
    rw [← made'.range,splits]
    exact List.mem_map_of_mem (List.mem_append_right _ (List.mem_cons_of_mem _ further))
  have covers := (start.covers grouped placed known').mp further'
  rw [begins] at covers
  rcases TryRegion.nested_of_group grouped known known' here there with inner | ⟨first,_⟩
  · exact inner
  · -- Both start with the same block, and the narrower one stands further in.
    have equal := Nat.le_antisymm first (TryRegion.covers_iff.mp covers).1
    obtain ⟨before,parts⟩ := within
    have narrower := of.narrower placing listed
    rw [← parts] at narrower
    have past := (List.pairwise_cons.mp (List.pairwise_append.mp narrower).2.1).1 other further
    rw [made.range,made'.range] at past
    exact ⟨Nat.le_of_eq equal.symm,past equal⟩

end Layout

-- A block that is exactly written may still stand in its tries the wrong way round: the handler of an inner range
-- starts the outer one once more, within a third.
def reentering : BlockGraph :=
  ⟨[⟨[bump 1],.goto 2⟩,⟨[bump 2],.goto 3⟩,⟨[bump 3],.goto 4⟩,⟨[bump 4],.ret none⟩,⟨[bump 5],.ret none⟩,
    ⟨[bump 6],.ret none⟩,⟨[bump 7],.ret none⟩],[⟨2,3,1,none⟩,⟨2,4,5,none⟩,⟨1,4,6,none⟩],by decide⟩

def reenteredLayout : Layout :=
  [.begins 0,.plain 0 (bump 1),.tryCatch (2,4)
    [.tryCatch (2,3) [.begins 2,.plain 2 (bump 3)]
      [⟨[],1,[.tryCatch (1,4)
        [.begins 1,.plain 1 (bump 2),.begins 3,.plain 3 (bump 4),.plain 3 (.ret none)]
        [⟨[],6,[.begins 6,.plain 6 (bump 7),.plain 6 (.ret none)]⟩]]⟩]]
    [⟨[],5,[.begins 5,.plain 5 (bump 6),.plain 5 (.ret none)]⟩],.begins 4,.plain 4 (bump 5),.plain 4 (.ret none)]

def reenteredTree : Structured := ⟨withoutTrailingReturn (erased reenteredLayout),⟨[],[],[]⟩,[]⟩

theorem reentering_turns_tries : reentering.structured .default = .ok reenteredTree ∧
    reenteredLayout.Exact reentering 3 ∧ InnerFirst reentering.table 3 ∧
    (∃ placing ∈ reenteredLayout.placings, placing.block = 3 ∧
      searchOutwards? placing.around (fun _ => false) = some 6) ∧
    firstRow? reentering.table 3 (fun _ => false) = some 5 := by
  refine ⟨by cbv,by unfold Layout.Exact; decide,by decide,?_,rfl⟩
  exact ⟨_,List.mem_cons_of_mem _ (List.mem_cons_of_mem _ (List.mem_cons_of_mem _ List.mem_cons_self)),rfl,rfl⟩

end Untangle
