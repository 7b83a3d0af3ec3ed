import Mathlib.Data.List.Find
import Untangle.Proofs.Flow.Reach
import Untangle.Proofs.Protection.Answers

namespace Untangle

def HandlersUnbroken (table : List ProtectedRange) : Prop :=
  ∀ bounds, Unbroken ((TryRegion.rowsOf table bounds).map (·.handler))

def RangesNested (table : List ProtectedRange) : Prop :=
  ∀ one ∈ table, ∀ two ∈ table,
    (∀ block, one.covers block = true → two.covers block = true) ∨
      (∀ block, two.covers block = true → one.covers block = true) ∨
        ∀ block, ¬(one.covers block = true ∧ two.covers block = true)

namespace TryRegion
variable {table : List ProtectedRange} {regions : List TryRegion} {one two region : TryRegion}

theorem crossing_none_iff : crossing? regions = none ↔
    ∀ one ∈ regions, ∀ two ∈ regions, one.overlaps two = true → one.Within two ∨ two.Within one := by
  refine ⟨fun straight one first two second => uncrossed straight first second,fun parted => ?_⟩
  induction regions with
  | nil => rfl
  | cons outer rest ih =>
    have none : rest.find? (fun inner => outer.overlaps inner && !outer.nests inner) = none := by
      refine List.find?_eq_none.mpr fun inner member crosses => ?_
      obtain ⟨overlaps,apart⟩ := Bool.and_eq_true_iff.mp crosses
      have nested := parted outer List.mem_cons_self inner (List.mem_cons_of_mem _ member) overlaps
      have nests : outer.nests inner = true := by
        simp only [nests,Bool.or_eq_true,Bool.and_eq_true,decide_eq_true_eq]
        exact nested.symm
      simp [nests] at apart
    unfold crossing?
    rw [none]
    exact ih fun one first two second =>
      parted one (List.mem_cons_of_mem _ first) two (List.mem_cons_of_mem _ second)

theorem within_iff_covers (proper : one.first < one.past) :
    one.Within two ↔ ∀ block, one.covers block = true → two.covers block = true := by
  simp only [covers_iff]
  constructor
  · rintro ⟨first,past⟩ block ⟨after,before⟩
    exact ⟨Nat.le_trans first after,Nat.lt_of_lt_of_le before past⟩
  · intro inside
    have lowest := inside one.first ⟨Nat.le_refl _,proper⟩
    have highest := inside (one.past - 1) ⟨Nat.le_sub_one_of_lt proper,Nat.sub_one_lt_of_lt proper⟩
    exact ⟨lowest.1,Nat.le_of_pred_lt highest.2⟩

theorem overlaps_iff_covers (proper : one.first < one.past) (proper' : two.first < two.past) :
    one.overlaps two = true ↔ ∃ block, one.covers block = true ∧ two.covers block = true := by
  simp only [covers_iff,overlaps,Bool.and_eq_true,decide_eq_true_eq]
  constructor
  · rintro ⟨before,after⟩
    exact ⟨max one.first two.first,⟨Nat.le_max_left _ _,Nat.max_lt.mpr ⟨proper,after⟩⟩,
      Nat.le_max_right _ _,Nat.max_lt.mpr ⟨before,proper'⟩⟩
  · rintro ⟨block,⟨after,before⟩,after',before'⟩
    exact ⟨Nat.lt_of_le_of_lt after before',Nat.lt_of_le_of_lt after' before⟩

theorem straight_iff_nested (collected : Collected table regions) (proper : ∀ row ∈ table, row.first < row.past) :
    crossing? regions = none ↔ RangesNested table := by
  have groups := groups_of_collected collected
  have proper (region : TryRegion) (member : region ∈ regions) : region.first < region.past := by
    obtain ⟨row,listed,first,past⟩ := groups.ranges region member
    rw [first,past]
    exact proper row listed
  have parted (one : TryRegion) (first : one ∈ regions) (two : TryRegion) (second : two ∈ regions) :
      (one.overlaps two = true → one.Within two ∨ two.Within one) ↔
        (∀ block, one.covers block = true → two.covers block = true) ∨
          (∀ block, two.covers block = true → one.covers block = true) ∨
            ∀ block, ¬(one.covers block = true ∧ two.covers block = true) := by
    rw [overlaps_iff_covers (proper one first) (proper two second),within_iff_covers (proper one first),
      within_iff_covers (proper two second),← not_exists,← or_assoc,imp_iff_or_not]
  rw [crossing_none_iff]
  constructor
  · intro straight row listed row' listed'
    obtain ⟨one,first,same⟩ := groups.covered row listed
    obtain ⟨two,second,same'⟩ := groups.covered row' listed'
    have here := (parted one first two second).mp (straight one first two second)
    simpa only [same.covers,same'.covers] using here
  · intro nested one first two second
    obtain ⟨row,listed,same⟩ := groups.ranges one first
    obtain ⟨row',listed',same'⟩ := groups.ranges two second
    refine (parted one first two second).mpr ?_
    simpa only [same.covers,same'.covers] using nested row listed row' listed'

-- A table is grouped if no range takes up a handler again that it has left, and ranges do not cross. There is then
-- a region for each range in the order they come up in, a clause in it for each handler of that range, and the
-- clauses catch what the rows catch, the first first.
theorem group_exact (graph : BlockGraph) :
    ((∃ regions, group graph.table = .ok regions) ↔ HandlersUnbroken graph.table ∧ RangesNested graph.table) ∧
      ∀ regions, group graph.table = .ok regions →
        regions.map range = (graph.table.map (·.range)).eraseDups ∧
          ∀ region ∈ regions, region.handlers.Nodup ∧
            (∀ handler, handler ∈ region.handlers ↔
              ∃ row ∈ graph.table, row.range = region.range ∧ row.handler = handler) ∧
            ∀ known, (region.clauses.find? fun clause => clause.catchAll || clause.types.any known).map (·.handler) =
              (graph.table.find? fun row => row.range = region.range && row.catches known).map (·.handler) := by
  have proper (row : ProtectedRange) (listed : row ∈ graph.table) : row.first < row.past :=
    (BlockGraph.handler_inside listed).1
  refine ⟨?_,?_⟩
  · rw [HandlersUnbroken,← regionsOf_exists_iff]
    constructor
    · rintro ⟨regions,grouped⟩
      obtain ⟨made,straight⟩ := group_ok_iff.mp grouped
      exact ⟨⟨regions,made⟩,(straight_iff_nested (regionsOf_ok made).2 proper).mp straight⟩
    · rintro ⟨⟨regions,made⟩,nested⟩
      exact ⟨regions,group_ok_iff.mpr ⟨made,(straight_iff_nested (regionsOf_ok made).2 proper).mpr nested⟩⟩
  · intro regions grouped
    have collected := collected_of_group grouped
    refine ⟨collected.ranges,fun region member => ?_⟩
    have made := collected.clauses region member
    have squeezed := (clausesOf_ok made).2
    obtain ⟨full,first⟩ := firstClause_of_rows made
    refine ⟨squeezed.once,?_,?_⟩
    · intro handler
      rw [handlers,squeezed.same,List.mem_map]
      simp only [mem_rowsOf,and_assoc]
    · intro known
      have caught : region.clauses.find? (fun clause => clause.catchAll || clause.types.any known) =
          region.clauses.find? (·.catches known) :=
        List.find?_congr fun clause listed => (CatchGroup.catches_iff (full clause listed)).symm
      rw [caught,← firstClause?,first,rowsOf,List.find?_filter]
      simp only [decide_eq_true_eq,Bool.decide_and,Bool.decide_eq_true]

-- A row of the inner range stands between two rows of the outer one.
def interleaving : BlockGraph :=
  ⟨[⟨[],.goto 1⟩,⟨[],.goto 2⟩,⟨[],.ret none⟩,⟨[],.ret none⟩,⟨[],.ret none⟩],
    [⟨0,3,3,some "E"⟩,⟨1,2,4,none⟩,⟨0,3,3,none⟩],by decide⟩

theorem interleaving_grouped :
    group interleaving.table = .ok [⟨0,3,[⟨3,["E"],true⟩]⟩,⟨1,2,[⟨4,[],true⟩]⟩] ∧
      HandlersUnbroken interleaving.table ∧ RangesNested interleaving.table := by
  have grouped : group interleaving.table = .ok [⟨0,3,[⟨3,["E"],true⟩]⟩,⟨1,2,[⟨4,[],true⟩]⟩] := rfl
  exact ⟨grouped,(group_exact interleaving).1.mp ⟨_,grouped⟩⟩

end TryRegion
end Untangle
