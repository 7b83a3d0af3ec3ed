import Untangle.Proofs.Emission.Inversion
import Untangle.Proofs.Emission.Pending
import Untangle.Proofs.Emission.Shapes
import Untangle.Proofs.Protection.Regions
import Untangle.Proofs.Sweeping.Ready

namespace Untangle
open Relation

-- A latch that may be written at the end of its loop, whatever comes before it: it tests whether to go on, or it is
-- a single statement on the way back.
def NaturalLoop.EndsWith (loop : NaturalLoop) (graph : BlockGraph) (latch : BlockId) : Prop :=
  loop.latches = [latch] ∧ latch ≠ loop.header ∧
    ((∃ condition thenTarget elseTarget, graph.terminator latch = .branch condition thenTarget elseTarget ∧
        (thenTarget ∉ loop.body ∨ elseTarget ∉ loop.body)) ∨
      (graph.terminator latch = .goto loop.header ∧ ∃ statement, graph.statements latch = [statement]))

-- Ranges are entered at their first block only, by edges and by handlers. A range holds the handlers of all ranges
-- within it. A range that meets a loop holds all of it, or else lies in it, without the header and without a latch
-- that is written apart from the other blocks.
structure BlockGraph.Orderly (graph : BlockGraph) : Prop where
  entered : ∀ row ∈ graph.table, ∀ source ∈ graph.live, ∀ target ∈ graph.successors source,
    row.covers source = false → row.covers target = true → target = row.first
  inward : ∀ inner ∈ graph.table, ∀ outer ∈ graph.table, outer.first ≤ inner.first → inner.past ≤ outer.past →
    (inner.first,inner.past) ≠ (outer.first,outer.past) → outer.covers inner.handler = true
  handled : ∀ inner ∈ graph.table, ∀ outer ∈ graph.table, outer.covers inner.handler = true →
    outer.first ≤ inner.first ∧ inner.past ≤ outer.past ∨ inner.handler = outer.first
  loops : ∀ forest, LoopForest.compute graph graph.dominance graph.order = .ok forest → ∀ loop ∈ forest,
    ∀ row ∈ graph.table, ∀ block ∈ loop.body, row.covers block = true →
      (∀ other ∈ loop.body, row.covers other = true) ∨
        ∀ other ∈ graph.live, row.covers other = true →
          other ∈ loop.body ∧ other ≠ loop.header ∧ ¬loop.EndsWith graph other

def CoveredBy (around : List TryRegion) (block : BlockId) : Prop := ∀ region ∈ around, region.covers block = true

-- Of ranges with the same first block, the narrower one stands further in.
def Ordered (around : List TryRegion) : Prop :=
  around.Pairwise fun inner outer => inner.first = outer.first → inner.past ≤ outer.past

namespace Survey

structure Formed (survey : Survey) : Prop where
  doms : survey.doms = survey.graph.dominance
  postDoms : survey.postDoms = survey.graph.postDominance
  live : survey.live = survey.graph.live
  loops : LoopForest.compute survey.graph survey.graph.dominance survey.graph.order = .ok survey.loops
  tries : TryRegion.group survey.graph.table = .ok survey.tries

theorem formed_of_make {graph : BlockGraph} {settings : StructuringSettings} {survey : Survey}
    (made : Survey.make graph settings = .ok survey) : survey.graph = graph ∧ survey.Formed := by
  unfold make at made
  obtain ⟨forest,loops,made⟩ := ok_of_bind made
  obtain ⟨regions,tries,made⟩ := ok_of_bind made
  cases made
  exact ⟨rfl,rfl,rfl,rfl,ok_of_mapError loops,tries⟩

variable {survey : Survey} {around : List TryRegion} {region other : TryRegion} {block source target : BlockId}
  {scope : Scope} {before after : Progress}

namespace Formed

theorem first_covered (formed : survey.Formed) (known : region ∈ survey.tries) :
    region.covers region.first = true := by
  obtain ⟨row,listed,first,past⟩ := (TryRegion.groups_of_group formed.tries).ranges region known
  refine TryRegion.covers_iff.mpr ⟨Nat.le_refl _,?_⟩
  rw [first,past]
  exact (BlockGraph.handler_inside listed).proper

theorem complete (formed : survey.Formed) : LoopForest.Complete survey.graph survey.loops := by
  rcases LoopForest.compute_cases survey.graph with ⟨_,_,_,_,failed⟩ | ⟨forest,computed,complete⟩
  · cases failed.symm.trans formed.loops
  · cases computed.symm.trans formed.loops
    exact complete

theorem same (formed : survey.Formed) (known : region ∈ survey.tries) (known' : other ∈ survey.tries)
    (range : region.range = other.range) : region = other :=
  List.inj_on_of_nodup_map (TryRegion.distinct_of_group formed.tries) known known' range

theorem same_index (formed : survey.Formed) {index index' : Nat} (at_ : survey.tries[index]? = some region)
    (at' : survey.tries[index']? = some other) (range : region.range = other.range) : index = index' := by
  have inside : index < (survey.tries.map (·.range)).length := by
    rw [List.length_map]
    exact (List.getElem?_eq_some_iff.mp at_).1
  apply (List.getElem?_inj inside (TryRegion.distinct_of_group formed.tries)).mp
  rw [List.getElem?_map,List.getElem?_map,at_,at']
  exact congrArg some range

theorem nested (formed : survey.Formed) (known : region ∈ survey.tries) (known' : other ∈ survey.tries)
    (here : region.covers block = true) (there : other.covers block = true) :
    region.Within other ∨ other.Within region := TryRegion.nested_of_group formed.tries known known' here there

end Formed

def Level (survey : Survey) (around : List TryRegion) (block : BlockId) : Prop :=
  ∀ region ∈ survey.tries, region.covers block = true ↔ region ∈ around

-- Further ranges may start with a block that is reached from there.
def Reached (survey : Survey) (around : List TryRegion) (block : BlockId) : Prop :=
  ∀ region ∈ survey.tries, region.covers block = true → region ∈ around ∨ block = region.first

section Edges
variable (formed : survey.Formed) (orderly : survey.graph.Orderly)
include formed orderly

theorem enters_first (known : region ∈ survey.tries) (live : source ∈ survey.graph.live)
    (leads : target ∈ survey.graph.successors source) (outside : region.covers source = false)
    (inside : region.covers target = true) : target = region.first := by
  obtain ⟨row,listed,same⟩ := (TryRegion.groups_of_group formed.tries).ranges region known
  rw [same.covers] at outside inside
  exact same.1 ▸ orderly.entered row listed source live target leads outside inside

theorem meets_first (known : region ∈ survey.tries) (live : source ∈ survey.graph.live)
    (clear : Clear survey.graph.size survey.graph.successors region.first source target)
    (outside : region.covers source = false) : region.covers target = false := by
  obtain ⟨_,walk⟩ := clear
  induction walk using ReflTransGen.head_induction_on with
  | refl => exact outside
  | @head source middle step _ ih =>
    refine ih (BlockGraph.live_successor live step.1.2) ?_ step.2
    cases inside : region.covers middle with
    | false => rfl
    | true => exact absurd (enters_first formed orderly known live step.1.2 outside inside) step.2

theorem Level.edge (level : survey.Level around source) (live : source ∈ survey.graph.live)
    (leads : target ∈ survey.graph.successors source) : survey.Reached around target := by
  intro region known inside
  cases outside : region.covers source with
  | true => exact Or.inl ((level region known).mp outside)
  | false => exact Or.inr (enters_first formed orderly known live leads outside inside)

theorem Level.merge {taken : List BlockId} {stop : Option BlockId} (level : survey.Level around source)
    (live : source ∈ survey.graph.live) (found : survey.mergePoint scope taken source stop = some target)
    (goes : some target ≠ stop) : survey.Reached around target := by
  intro region known inside
  cases outside : region.covers source with
  | true => exact Or.inl ((level region known).mp outside)
  | false =>
    right
    by_contra apart
    have first : region.first ≠ source := by
      intro same
      rw [← same,formed.first_covered known] at outside
      cases outside
    -- There is a way from the block to the place that does not meet the first block of the range.
    have clear : Clear survey.graph.size survey.graph.successors region.first source target := by
      rcases mergePoint_cases found with ends | ⟨_,behind | below⟩
      · exact absurd ends goes
      · rw [formed.postDoms] at behind
        have dominates := (Dominance.immediate_some behind).1
        exact BlockGraph.clear_forward dominates.above.inside
          (Dominance.immediate_direct behind (fun same => apart same.symm) first)
      · rw [formed.doms] at below
        exact Dominance.immediate_direct (Dominance.mem_children.mp below).2 first fun same => apart same.symm
    have missed := meets_first formed orderly known live clear outside
    rw [inside] at missed
    cases missed

theorem covers_loop (known : region ∈ survey.tries) {loop : NaturalLoop} (member : loop ∈ survey.loops)
    (live : loop.header ∈ survey.graph.live) (inside : region.covers loop.header = true) :
    ∀ other ∈ loop.body, region.covers other = true := by
  obtain ⟨row,listed,same⟩ := (TryRegion.groups_of_group formed.tries).ranges region known
  have header := (formed.complete.natural loop member).header_mem
  rw [same.covers] at inside
  intro other within
  rw [same.covers]
  rcases orderly.loops _ formed.loops loop member row listed _ header inside with whole | parts
  · exact whole other within
  · exact absurd rfl (parts _ live inside).2.1

theorem Level.leave {loop : NaturalLoop} (member : loop ∈ survey.loops) (level : survey.Level around loop.header)
    (live : loop.header ∈ survey.graph.live) (within : source ∈ loop.body) (leads : target ∈ survey.graph.successors source)
    (leaves : target ∉ loop.body) : survey.Reached around target := by
  have natural := formed.complete.natural loop member
  have lives := natural.live live within
  intro region known inside
  cases outside : region.covers source with
  | false => exact Or.inr (enters_first formed orderly known lives leads outside inside)
  | true =>
    left
    obtain ⟨row,listed,same⟩ := (TryRegion.groups_of_group formed.tries).ranges region known
    rw [same.covers] at outside
    have header : region.covers loop.header = true := by
      rw [same.covers]
      rcases orderly.loops _ formed.loops loop member row listed _ within outside with whole | parts
      · exact whole _ natural.header_mem
      · rw [same.covers] at inside
        exact absurd (parts target (BlockGraph.live_successor lives leads) inside).1 leaves
    exact (level region known).mp header

theorem Level.latch {loop : NaturalLoop} {latch : BlockId} (member : loop ∈ survey.loops)
    (level : survey.Level around loop.header) (live : loop.header ∈ survey.graph.live)
    (ends : loop.EndsWith survey.graph latch) : survey.Level around latch := by
  have natural := formed.complete.natural loop member
  have within : latch ∈ loop.body := natural.latch_mem (by simp [ends.1])
  intro region known
  constructor
  · intro inside
    obtain ⟨row,listed,same⟩ := (TryRegion.groups_of_group formed.tries).ranges region known
    refine (level region known).mp ?_
    rw [same.covers] at inside ⊢
    rcases orderly.loops _ formed.loops loop member row listed _ within inside with whole | parts
    · exact whole _ natural.header_mem
    · exact absurd ends (parts latch (natural.live live within) inside).2.2
  · intro open_
    exact covers_loop formed orderly known member live ((level region known).mpr open_) latch within

end Edges
theorem header_unclaimed (formed : survey.Formed) (orderly : survey.graph.Orderly) {index : Nat} {entered : List BlockId}
    (live : block ∈ survey.graph.live) (pending : survey.pendingTry? before.opened block = some (region,index)) :
    survey.loopEnclosesTry entered block region = false := by
  obtain ⟨at_,starts,_⟩ := pendingTry_some pending
  have known := List.mem_of_getElem? at_
  unfold loopEnclosesTry
  split
  · rfl
  · rename_i loop found
    have member := List.mem_of_find?_eq_some found
    obtain rfl : loop.header = block := by simpa using List.find?_some found
    have covers := covers_loop formed orderly known member live (starts ▸ formed.first_covered known)
    have whole : loop.body.all (· ∈ survey.protectedBlocks region) = true := by
      refine List.all_eq_true.mpr fun other within => decide_eq_true ?_
      obtain ⟨first,past⟩ := TryRegion.covers_iff.mp (covers other within)
      refine List.mem_filter.mpr ⟨List.mem_filter.mpr ⟨List.mem_range.mpr past,decide_eq_true first⟩,?_⟩
      exact decide_eq_true (formed.live ▸ (formed.complete.natural loop member).live live within)
    simp [whole]

theorem tryMerge_outside (formed : survey.Formed) (live : region.first ∈ survey.graph.live)
    (known : region ∈ survey.tries) : survey.tryMerge scope region ≠ some region.first := by
  intro found
  unfold tryMerge at found
  have free := (List.mem_filter.mp (earliestBy_mem found)).2
  simp only [Bool.and_eq_true,decide_eq_true_eq] at free
  obtain ⟨first,past⟩ := TryRegion.covers_iff.mp (formed.first_covered known)
  refine free.1.1.1 (List.mem_filter.mpr ⟨List.mem_filter.mpr ⟨List.mem_range.mpr past,decide_eq_true first⟩,?_⟩)
  exact decide_eq_true (formed.live ▸ live)

-- Ranges that have been opened and not closed, innermost first. All that may be emitted next lies in them, and none
-- of them was opened before a wider one that starts with it.
structure Encloses (survey : Survey) (around : List TryRegion) (scope : Scope) (before : Progress) : Prop where
  known : ∀ region ∈ around, ∃ index ∈ before.opened, survey.tries[index]? = some region
  widest : ∀ region ∈ around, ∀ index other, survey.tries[index]? = some other → other.first = region.first →
    region.past < other.past → index ∈ before.opened
  ordered : Ordered around
  live : ∀ block ∈ scope.region, block ∈ survey.graph.live
  region : ∀ block ∈ scope.region, CoveredBy around block
  closed : survey.graph.Orderly → ∀ index ∈ before.opened, ∀ region, survey.tries[index]? = some region →
    region ∈ around ∨ region.first ∈ before.taken

structure Fits (survey : Survey) (around : List TryRegion) (before : Progress) (block : BlockId) : Prop where
  live : block ∈ survey.graph.live
  fresh : block ∉ before.taken
  covered : survey.graph.Orderly → CoveredBy around block
  reached : survey.graph.Orderly → survey.Reached around block

namespace Encloses

theorem tries (encloses : survey.Encloses around scope before) : ∀ region ∈ around, region ∈ survey.tries := by
  intro region member
  obtain ⟨index,_,at_⟩ := encloses.known region member
  exact List.mem_of_getElem? at_

theorem narrow (encloses : survey.Encloses around scope before) (blocks : List BlockId) :
    survey.Encloses around (scope.narrow blocks) before := by
  have kept : ∀ block ∈ (scope.narrow blocks).region, block ∈ scope.region := fun block member =>
    of_decide_eq_true (List.mem_filter.mp member).2
  exact ⟨encloses.known,encloses.widest,encloses.ordered,fun block member => encloses.live block (kept block member),
    fun block member => encloses.region block (kept block member),encloses.closed⟩

theorem inside (encloses : survey.Encloses around scope before) (context : Context) :
    survey.Encloses around (scope.inside context) before :=
  ⟨encloses.known,encloses.widest,encloses.ordered,encloses.live,encloses.region,encloses.closed⟩

theorem fits (encloses : survey.Encloses around scope before) (inside : scope.inRegion block = true)
    (fresh : block ∉ before.taken) (reached : survey.graph.Orderly → survey.Reached around block) :
    survey.Fits around before block :=
  have member : block ∈ scope.region := of_decide_eq_true inside
  ⟨encloses.live block member,fresh,fun _ => encloses.region block member,reached⟩

theorem level (encloses : survey.Encloses around scope before) (orderly : survey.graph.Orderly)
    (fits : survey.Fits around before block) (none : survey.pendingTry? before.opened block = none) :
    survey.Level around block := by
  intro region known
  refine ⟨fun covers => ?_,fits.covered orderly region⟩
  rcases fits.reached orderly region known covers with open_ | rfl
  · exact open_
  obtain ⟨index,at_⟩ := List.mem_iff_getElem?.mp known
  exact (encloses.closed orderly index (pendingTry_none none at_ rfl) region at_).resolve_right fits.fresh

theorem pending_within (encloses : survey.Encloses around scope before) (formed : survey.Formed) {index : Nat}
    (pending : survey.pendingTry? before.opened block = some (region,index)) :
    ∀ outer ∈ around, region.range ≠ outer.range ∧ (region.first = outer.first → region.past ≤ outer.past) := by
  obtain ⟨at_,starts,fresh⟩ := pendingTry_some pending
  intro outer member
  obtain ⟨index',opened,at'⟩ := encloses.known outer member
  refine ⟨fun same => ?_,fun first => ?_⟩
  · exact fresh (formed.same_index at_ at' same ▸ opened)
  · by_contra wider
    exact fresh (encloses.widest outer member index region at_ first (Nat.not_le.mp wider))

theorem opening (encloses : survey.Encloses around scope before) (formed : survey.Formed) {index : Nat}
    {events : List Event} (pending : survey.pendingTry? before.opened block = some (region,index)) :
    survey.Encloses (region :: around) (scope.narrow (survey.protectedBlocks region))
      {before with opened:=index :: before.opened,events} := by
  obtain ⟨at_,starts,_⟩ := pendingTry_some pending
  have inner := encloses.narrow (survey.protectedBlocks region)
  refine ⟨?_,?_,?_,inner.live,?_,?_⟩
  · intro other member
    rcases List.mem_cons.mp member with rfl | member
    · exact ⟨index,List.mem_cons_self,at_⟩
    · obtain ⟨index',opened,known⟩ := encloses.known other member
      exact ⟨index',List.mem_cons_of_mem _ opened,known⟩
  · intro other member index' wider known first past
    refine List.mem_cons_of_mem _ ?_
    rcases List.mem_cons.mp member with rfl | member
    · exact pendingTry_widest pending known (first.trans starts) past
    · exact encloses.widest other member index' wider known first past
  · exact List.pairwise_cons.mpr ⟨fun outer member => (encloses.pending_within formed pending outer member).2,
      encloses.ordered⟩
  · intro other member
    have listed := (List.mem_filter.mp member).1
    obtain ⟨past,first⟩ := List.mem_filter.mp (List.mem_filter.mp listed).1
    refine List.forall_mem_cons.mpr ⟨?_,inner.region other member⟩
    exact TryRegion.covers_iff.mpr ⟨of_decide_eq_true first,List.mem_range.mp past⟩
  · intro orderly index' opened other known
    rcases List.mem_cons.mp opened with rfl | opened
    · cases at_.symm.trans known
      exact Or.inl List.mem_cons_self
    · exact (encloses.closed orderly index' opened other known).imp_left (List.mem_cons_of_mem _)

section Opening
variable (encloses : survey.Encloses around scope before) (formed : survey.Formed) (orderly : survey.graph.Orderly)
  {index : Nat} (fits : survey.Fits around before block)
  (pending : survey.pendingTry? before.opened block = some (region,index))
include encloses formed orderly fits pending

theorem outer_open (known : other ∈ survey.tries) (within : region.Within other) (apart : region.range ≠ other.range) :
    other ∈ around := by
  obtain ⟨at_,rfl,_⟩ := pendingTry_some pending
  have own := formed.first_covered (List.mem_of_getElem? at_)
  have covers : other.covers region.first = true :=
    TryRegion.covers_iff.mpr ⟨within.1,Nat.lt_of_lt_of_le (TryRegion.covers_iff.mp own).2 within.2⟩
  rcases fits.reached orderly other known covers with open_ | first
  · exact open_
  obtain ⟨index',at'⟩ := List.mem_iff_getElem?.mp known
  have past : region.past < other.past :=
    Nat.lt_of_le_of_ne within.2 fun same => apart (Prod.ext first same)
  have opened := pendingTry_widest pending at' first.symm past
  refine (encloses.closed orderly index' opened other at').resolve_right ?_
  rw [← first]
  exact fits.fresh

theorem within_open (member : other ∈ around) : region.Within other ∧ region.range ≠ other.range := by
  obtain ⟨at_,rfl,_⟩ := pendingTry_some pending
  have own := List.mem_of_getElem? at_
  have covers := fits.covered orderly other member
  obtain ⟨apart,narrower⟩ := encloses.pending_within formed pending other member
  refine ⟨?_,apart⟩
  rcases formed.nested own (encloses.tries other member) (formed.first_covered own) covers with within | ⟨first,_⟩
  · exact within
  · have same := Nat.le_antisymm first (TryRegion.covers_iff.mp covers).1
    exact ⟨Nat.le_of_eq same.symm,narrower same⟩

theorem handler_fits {clause : CatchGroup} (listed : clause ∈ region.clauses) :
    CoveredBy around clause.handler ∧ survey.Reached around clause.handler := by
  have own := List.mem_of_getElem? (pendingTry_some pending).1
  have groups := TryRegion.groups_of_group formed.tries
  obtain ⟨row,known,same,handles⟩ := groups.handlers region own clause listed
  refine ⟨fun outer member => ?_,fun outer member covers => ?_⟩
  · obtain ⟨within,apart⟩ := encloses.within_open formed orderly fits pending member
    obtain ⟨row',known',same'⟩ := groups.ranges outer (encloses.tries outer member)
    rw [same'.covers,← handles]
    unfold TryRegion.range at apart
    refine orderly.inward row known row' known' ?_ ?_ ?_
    · exact same.1 ▸ same'.1 ▸ within.1
    · exact same.2 ▸ same'.2 ▸ within.2
    · rwa [same.1,same.2,same'.1,same'.2] at apart
  · obtain ⟨row',known',same'⟩ := groups.ranges outer member
    rw [same'.covers,← handles] at covers
    rcases orderly.handled row known row' known' covers with ⟨first,past⟩ | first
    · left
      refine encloses.outer_open formed orderly fits pending member ⟨?_,?_⟩ ?_
      · rw [same.1,same'.1]
        exact first
      · rw [same.2,same'.2]
        exact past
      · intro range
        have apart := (BlockGraph.handler_inside known).apart
        rw [← same.covers,formed.same own member range,same'.covers,covers] at apart
        cases apart
    · exact Or.inr (handles.symm.trans (first.trans same'.1.symm))

theorem merge_reached (found : survey.tryMerge scope region = some target) : survey.Reached around target := by
  have own := List.mem_of_getElem? (pendingTry_some pending).1
  unfold tryMerge at found
  obtain ⟨leads,free⟩ := List.mem_filter.mp (earliestBy_mem found)
  obtain ⟨source,inside,leads⟩ := List.mem_flatMap.mp leads
  obtain ⟨listed,lives⟩ := List.mem_filter.mp inside
  obtain ⟨past,first⟩ := List.mem_filter.mp listed
  have here : region.covers source = true :=
    TryRegion.covers_iff.mpr ⟨of_decide_eq_true first,List.mem_range.mp past⟩
  have live : source ∈ survey.graph.live := formed.live ▸ of_decide_eq_true lives
  simp only [Bool.and_eq_true,decide_eq_true_eq] at free
  intro other known covers
  cases outside : other.covers source with
  | false => exact Or.inr (enters_first formed orderly known live leads outside covers)
  | true =>
    have apart : ¬other.Within region := by
      intro within
      refine free.1.1.1 (List.mem_filter.mpr ⟨List.mem_filter.mpr ⟨?_,?_⟩,free.2⟩)
      · exact List.mem_range.mpr (Nat.lt_of_lt_of_le (TryRegion.covers_iff.mp covers).2 within.2)
      · exact decide_eq_true (Nat.le_trans within.1 (TryRegion.covers_iff.mp covers).1)
    have within := (formed.nested own known here outside).resolve_right apart
    refine Or.inl (encloses.outer_open formed orderly fits pending known within fun range => apart ?_)
    rw [formed.same own known range]
    exact ⟨Nat.le_refl _,Nat.le_refl _⟩

end Opening

end Encloses
end Survey
end Untangle
