import Untangle.Proofs.Protection.Clauses

namespace Untangle

def ProtectedRange.range (row : ProtectedRange) : BlockId × BlockId := (row.first,row.past)

theorem eraseDups_grown [BEq α] [LawfulBEq α] (items : List α) (item : α) : (items ++ [item]).eraseDups =
    if item ∈ items then items.eraseDups else items.eraseDups ++ [item] := by
  rw [List.eraseDups_append]
  split <;> rename_i known <;> simp [List.removeAll,known,List.eraseDups_cons]

namespace TryRegion
variable {row : ProtectedRange} {rows table : List ProtectedRange} {clauses : List CatchGroup}
  {regions regions' : List TryRegion} {bounds : BlockId × BlockId}

def SameRange (region : TryRegion) (row : ProtectedRange) : Prop :=
  region.first = row.first ∧ region.past = row.past

def range (region : TryRegion) : BlockId × BlockId := (region.first,region.past)

theorem sameRange_iff {region : TryRegion} : region.SameRange row ↔ row.range = region.range := by
  unfold SameRange ProtectedRange.range TryRegion.range
  rw [Prod.mk.injEq,eq_comm,eq_comm (a := region.past)]

theorem addRow_splits (added : addRow row regions = .ok regions') :
    (∃ front region back clauses, regions = front ++ region :: back ∧ region.SameRange row ∧
        addClause row region.clauses = .ok clauses ∧ regions' = front ++ {region with clauses} :: back) ∨
      ((∀ region ∈ regions, ¬region.SameRange row) ∧
        ∃ clauses, addClause row [] = .ok clauses ∧ regions' = regions ++ [⟨row.first,row.past,clauses⟩]) := by
  induction regions generalizing regions' with
  | nil =>
    unfold addRow at added
    cases clauses : addClause row [] with
    | error cause =>
      rw [clauses] at added
      cases added
    | ok fresh =>
      rw [clauses] at added
      cases added
      exact Or.inr ⟨by simp,fresh,rfl,rfl⟩
  | cons region rest ih =>
    unfold addRow at added
    split at added
    · rename_i same
      cases clauses : addClause row region.clauses with
      | error cause =>
        rw [clauses] at added
        cases added
      | ok fresh =>
        rw [clauses] at added
        cases added
        exact Or.inl ⟨[],region,rest,fresh,rfl,same,clauses,rfl⟩
    · rename_i apart
      cases more : addRow row rest with
      | error cause =>
        rw [more] at added
        cases added
      | ok others =>
        rw [more] at added
        cases added
        rcases ih more with ⟨front,found,back,fresh,rfl,same,clauses,rfl⟩ | ⟨none,fresh,clauses,rfl⟩
        · exact Or.inl ⟨region :: front,found,back,fresh,rfl,same,clauses,rfl⟩
        · exact Or.inr ⟨List.forall_mem_cons.mpr ⟨apart,none⟩,fresh,clauses,rfl⟩

theorem distinct_addRow (added : addRow row regions = .ok regions') (distinct : (regions.map range).Nodup) :
    (regions'.map range).Nodup := by
  rcases addRow_splits added with ⟨front,region,back,clauses,rfl,_,_,rfl⟩ | ⟨fresh,clauses,_,rfl⟩
  · simpa [range] using distinct
  · rw [List.map_append]
    refine List.nodup_append.mpr ⟨distinct,by simp,?_⟩
    intro known old new latest same
    cases List.mem_singleton.mp latest
    obtain ⟨region,member,rfl⟩ := List.mem_map.mp old
    exact fresh region member (Prod.mk.inj same)

def rowsOf (table : List ProtectedRange) (bounds : BlockId × BlockId) : List ProtectedRange :=
  table.filter (·.range = bounds)

theorem mem_rowsOf : row ∈ rowsOf table bounds ↔ row ∈ table ∧ row.range = bounds := by simp [rowsOf]

theorem rowsOf_same (same : row.range = bounds) : rowsOf (rows ++ [row]) bounds = rowsOf rows bounds ++ [row] := by
  simp [rowsOf,same]

theorem rowsOf_other (other : row.range ≠ bounds) : rowsOf (rows ++ [row]) bounds = rowsOf rows bounds := by
  simp [rowsOf,other]

theorem rowsOf_none (unseen : bounds ∉ table.map (·.range)) : rowsOf table bounds = [] := by
  refine List.filter_eq_nil_iff.mpr fun row listed same => unseen ?_
  exact List.mem_map.mpr ⟨row,listed,of_decide_eq_true same⟩

-- Each region holds the clauses that the rows of its range make, and regions come in the order of their first rows.
structure Collected (rows : List ProtectedRange) (regions : List TryRegion) : Prop where
  ranges : regions.map range = (rows.map (·.range)).eraseDups
  clauses : ∀ region ∈ regions, clausesOf (rowsOf rows region.range) = .ok region.clauses

theorem collected_addRow (added : addRow row regions = .ok regions') (distinct : (regions.map range).Nodup)
    (collected : Collected rows regions) : Collected (rows ++ [row]) regions' := by
  have known : row.range ∈ regions.map range ↔ row.range ∈ rows.map (·.range) := by
    rw [collected.ranges,List.mem_eraseDups]
  have kept {region : TryRegion} (member : region ∈ regions) (other : row.range ≠ region.range) :
      clausesOf (rowsOf (rows ++ [row]) region.range) = .ok region.clauses := by
    rw [rowsOf_other other,collected.clauses region member]
  rcases addRow_splits added with ⟨front,region,back,clauses,rfl,same,fresh,rfl⟩ | ⟨absent,clauses,fresh,rfl⟩
  · have here := sameRange_iff.mp same
    have own : region ∈ front ++ region :: back := List.mem_append_right _ List.mem_cons_self
    have ranges : (front ++ {region with clauses} :: back).map range = (front ++ region :: back).map range := by
      simp [range]
    refine ⟨?_,?_⟩
    · rw [ranges,collected.ranges,List.map_append,List.map_singleton,eraseDups_grown,if_pos]
      exact known.mp (here ▸ List.mem_map.mpr ⟨region,own,rfl⟩)
    · have others {found : TryRegion} (listed : found ∈ front ∨ found ∈ back) : row.range ≠ found.range := by
        rw [List.map_append,List.map_cons] at distinct
        obtain ⟨_,tail,cross⟩ := List.nodup_append.mp distinct
        rw [here]
        rcases listed with before | after
        · exact (cross _ (List.mem_map.mpr ⟨found,before,rfl⟩) _ List.mem_cons_self).symm
        · exact fun same => (List.nodup_cons.mp tail).1 (List.mem_map.mpr ⟨found,after,same.symm⟩)
      intro found listed
      rcases List.mem_append.mp listed with before | rest
      · exact kept (List.mem_append_left _ before) (others (Or.inl before))
      · rcases List.mem_cons.mp rest with rfl | after
        · change clausesOf (rowsOf (rows ++ [row]) region.range) = .ok clauses
          rw [rowsOf_same here,clausesOf_append,collected.clauses region own]
          exact fresh
        · exact kept (List.mem_append_right _ (List.mem_cons_of_mem _ after)) (others (Or.inr after))
  · have new : row.range ∉ rows.map (·.range) := by
      rw [← known]
      intro found
      obtain ⟨region,member,same⟩ := List.mem_map.mp found
      exact absent region member (sameRange_iff.mpr same.symm)
    refine ⟨?_,?_⟩
    · rw [List.map_append,List.map_append,List.map_singleton,List.map_singleton,eraseDups_grown,if_neg new,
        collected.ranges]
      rfl
    · intro found listed
      rcases List.mem_append.mp listed with old | last
      · refine kept old fun same => absent found old (sameRange_iff.mpr same)
      · cases List.mem_singleton.mp last
        change clausesOf (rowsOf (rows ++ [row]) row.range) = .ok clauses
        rw [rowsOf_same rfl,rowsOf_none new]
        exact clausesOf_append.trans fresh

def regionsOf (rows : List ProtectedRange) : Except StructureError (List TryRegion) :=
  rows.foldlM (fun regions row => addRow row regions) []

theorem regionsOf_append : regionsOf (rows ++ [row]) = (regionsOf rows).bind (addRow row) := by
  unfold regionsOf
  rw [List.foldlM_append]
  refine congrArg _ (funext fun regions => ?_)
  rw [List.foldlM_cons]
  cases addRow row regions <;> rfl

theorem group_ok_iff : group table = .ok regions ↔ regionsOf table = .ok regions ∧ crossing? regions = none := by
  unfold group regionsOf
  cases table.foldlM (fun regions row => addRow row regions) [] with
  | error cause => simp [bind,Except.bind]
  | ok made =>
    simp only [bind,Except.bind,Except.ok.injEq]
    constructor
    · intro grouped
      split at grouped
      · cases grouped
      · rename_i straight
        cases grouped
        exact ⟨rfl,straight⟩
    · rintro ⟨rfl,straight⟩
      rw [straight]

theorem regionsOf_ok (made : regionsOf rows = .ok regions) : (regions.map range).Nodup ∧ Collected rows regions := by
  induction rows using List.reverseRecOn generalizing regions with
  | nil =>
    cases made
    exact ⟨List.nodup_nil,rfl,by simp⟩
  | append_singleton rows row ih =>
    rw [regionsOf_append] at made
    cases first : regionsOf rows with
    | error cause =>
      rw [first] at made
      cases made
    | ok earlier =>
      rw [first] at made
      obtain ⟨distinct,collected⟩ := ih first
      exact ⟨distinct_addRow made distinct,collected_addRow made distinct collected⟩

theorem addRow_exists (taken : ∀ region ∈ regions, region.SameRange row → ∃ clauses, addClause row region.clauses = .ok clauses) :
    ∃ regions', addRow row regions = .ok regions' := by
  induction regions with
  | nil => exact ⟨_,rfl⟩
  | cons region rest ih =>
    obtain ⟨here,others⟩ := List.forall_mem_cons.mp taken
    unfold addRow
    split
    · rename_i same
      obtain ⟨clauses,fresh⟩ := here same
      exact ⟨_,by rw [fresh]; rfl⟩
    · obtain ⟨more,added⟩ := ih others
      exact ⟨_,by rw [added]; rfl⟩

theorem regionsOf_exists_iff : (∃ regions, regionsOf rows = .ok regions) ↔
    ∀ bounds, Unbroken ((rowsOf rows bounds).map (·.handler)) := by
  constructor
  · rintro ⟨regions,made⟩ bounds
    obtain ⟨_,collected⟩ := regionsOf_ok made
    by_cases known : bounds ∈ regions.map range
    · obtain ⟨region,member,rfl⟩ := List.mem_map.mp known
      exact (clausesOf_ok (collected.clauses region member)).1
    · rw [collected.ranges,List.mem_eraseDups] at known
      rw [rowsOf_none known]
      exact unbroken_nil
  · intro unbroken
    induction rows using List.reverseRecOn with
    | nil => exact ⟨[],rfl⟩
    | append_singleton rows row ih =>
      have earlier (bounds : BlockId × BlockId) : Unbroken ((rowsOf rows bounds).map (·.handler)) := by
        have grown : (rowsOf rows bounds).Sublist (rowsOf (rows ++ [row]) bounds) :=
          (List.sublist_append_left rows [row]).filter _
        exact fun one middle within => unbroken bounds one middle (within.trans (grown.map _))
      obtain ⟨regions,made⟩ := ih earlier
      obtain ⟨_,collected⟩ := regionsOf_ok made
      rw [regionsOf_append,made]
      refine addRow_exists fun region member same => ?_
      have here := sameRange_iff.mp same
      obtain ⟨clauses,fresh⟩ := clausesOf_exists (unbroken region.range)
      rw [rowsOf_same here,clausesOf_append,collected.clauses region member] at fresh
      exact ⟨clauses,fresh⟩

theorem distinct_of_group (grouped : group table = .ok regions) : (regions.map range).Nodup :=
  (regionsOf_ok (group_ok_iff.mp grouped).1).1

theorem collected_of_group (grouped : group table = .ok regions) : Collected table regions :=
  (regionsOf_ok (group_ok_iff.mp grouped).1).2

structure Groups (rows : List ProtectedRange) (regions : List TryRegion) : Prop where
  ranges : ∀ region ∈ regions, ∃ row ∈ rows, region.SameRange row
  handlers : ∀ region ∈ regions, ∀ clause ∈ region.clauses,
    ∃ row ∈ rows, region.SameRange row ∧ row.handler = clause.handler
  covered : ∀ row ∈ rows, ∃ region ∈ regions, region.SameRange row

theorem groups_of_collected (collected : Collected table regions) : Groups table regions := by
  have known {bounds : BlockId × BlockId} : bounds ∈ regions.map range ↔ bounds ∈ table.map (·.range) := by
    rw [collected.ranges,List.mem_eraseDups]
  refine ⟨?_,?_,?_⟩
  · intro region member
    obtain ⟨row,listed,same⟩ := List.mem_map.mp (known.mp (List.mem_map.mpr ⟨region,member,rfl⟩))
    exact ⟨row,listed,sameRange_iff.mpr same⟩
  · intro region member clause handles
    have squeezed := (clausesOf_ok (collected.clauses region member)).2
    obtain ⟨row,own,same⟩ := List.mem_map.mp ((squeezed.same _).mp (List.mem_map.mpr ⟨clause,handles,rfl⟩))
    obtain ⟨listed,here⟩ := mem_rowsOf.mp own
    exact ⟨row,listed,sameRange_iff.mpr here,same⟩
  · intro row listed
    obtain ⟨region,member,same⟩ := List.mem_map.mp (known.mpr (List.mem_map.mpr ⟨row,listed,rfl⟩))
    exact ⟨region,member,sameRange_iff.mpr same.symm⟩

theorem groups_of_group (grouped : group table = .ok regions) : Groups table regions :=
  groups_of_collected (collected_of_group grouped)

def covers (region : TryRegion) (block : BlockId) : Bool := region.first ≤ block && block < region.past

theorem covers_iff {region : TryRegion} {block : BlockId} :
    region.covers block = true ↔ region.first ≤ block ∧ block < region.past := by
  simp [covers]

theorem SameRange.covers {region : TryRegion} (same : region.SameRange row) (block : BlockId) :
    region.covers block = row.covers block := by
  unfold TryRegion.covers ProtectedRange.covers
  rw [same.1,same.2]

def Within (inner outer : TryRegion) : Prop := outer.first ≤ inner.first ∧ inner.past ≤ outer.past

theorem uncrossed {one two : TryRegion} (straight : crossing? regions = none) (first : one ∈ regions)
    (second : two ∈ regions) (overlaps : one.overlaps two = true) : one.Within two ∨ two.Within one := by
  have within {left right : TryRegion} (nested : left.nests right = true) : left.Within right ∨ right.Within left := by
    simp only [nests,Bool.or_eq_true,Bool.and_eq_true,decide_eq_true_eq] at nested
    exact nested.symm
  have flipped {left right : TryRegion} (overlaps : left.overlaps right = true) : right.overlaps left = true := by
    simpa [TryRegion.overlaps,Bool.and_comm] using overlaps
  induction regions with
  | nil => cases first
  | cons region rest ih =>
    unfold crossing? at straight
    split at straight
    · cases straight
    · rename_i none
      have apart {inner : TryRegion} (member : inner ∈ rest) (overlaps : region.overlaps inner = true) :
          region.nests inner = true := by
        simpa [overlaps] using List.find?_eq_none.mp none inner member
      rcases List.mem_cons.mp first with rfl | earlier <;> rcases List.mem_cons.mp second with rfl | later
      · exact Or.inl ⟨Nat.le_refl _,Nat.le_refl _⟩
      · exact within (apart later overlaps)
      · exact (within (apart earlier (flipped overlaps))).symm
      · exact ih straight earlier later

theorem nested_of_group {one two : TryRegion} {block : BlockId} (grouped : group table = .ok regions)
    (first : one ∈ regions) (second : two ∈ regions) (here : one.covers block = true)
    (there : two.covers block = true) : one.Within two ∨ two.Within one := by
  refine uncrossed (group_ok_iff.mp grouped).2 first second ?_
  obtain ⟨first,past⟩ := covers_iff.mp here
  obtain ⟨first',past'⟩ := covers_iff.mp there
  simp only [overlaps,Bool.and_eq_true,decide_eq_true_eq]
  exact ⟨Nat.lt_of_le_of_lt first past',Nat.lt_of_le_of_lt first' past⟩

end TryRegion
end Untangle
