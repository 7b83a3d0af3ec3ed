import Mathlib
import Untangle.Proofs.Emission.Inversion
import Untangle.Proofs.Flow.NaturalLoops

namespace Untangle
open Relation

namespace Survey
variable {survey : Survey} {graph : BlockGraph} {settings : StructuringSettings} {scope : Scope}
  {taken kept : List BlockId} {loop : NaturalLoop} {exit : Option BlockId} {header block target : BlockId}
  {stays : List BlockId → BlockId → Bool} {steps : Nat}

-- One step up: from a block to its closest dominator, and from a handler that has none to the start of
-- the first range that it protects.
def Climbs (survey : Survey) (low high : BlockId) : Prop := survey.above? low = some high

theorem Climbs.inside (made : Survey.make graph settings = .ok survey) {low high : BlockId}
    (climbs : survey.Climbs low high) : high < survey.graph.size := by
  obtain ⟨same,_,doms,_⟩ := make_ok made
  unfold Climbs above? at climbs
  rcases Option.or_eq_some_iff.mp climbs with closest | ⟨_,start⟩
  · rw [doms] at closest
    rw [same]
    exact (Dominance.immediate_some closest).1.above.inside
  · obtain ⟨row,found,rfl⟩ := Option.map_eq_some_iff.mp start
    have row := BlockGraph.handler_inside (List.mem_of_find?_eq_some found)
    exact Nat.lt_of_lt_of_le row.proper row.within

theorem climbs_of_climbsTo (climbs : survey.climbsTo header block steps = true) :
    ReflTransGen survey.Climbs block header := by
  induction steps generalizing block with
  | zero => cases climbs
  | succ steps ih =>
    unfold climbsTo at climbs
    rcases Bool.or_eq_true_iff.mp climbs with here | further
    · exact beq_iff_eq.mp here ▸ .refl
    · split at further
      · cases further
      · rename_i next above
        exact .head above (ih further)

-- A climb that gets to the header passes no block twice before, so it takes fewer steps than there are
-- blocks. `seen` holds the blocks passed so far.
theorem climbsTo_of_climbs (made : Survey.make graph settings = .ok survey) (seen : List BlockId)
    (once : seen.Nodup) (within : ∀ low ∈ seen, low < survey.graph.size) (missing : header ∉ seen)
    (onward : ∀ low ∈ seen, ∀ high, survey.Climbs low high → high = block ∨ high ∈ seen)
    (inside : block < survey.graph.size) (climbs : ReflTransGen survey.Climbs block header)
    (enough : survey.graph.size < seen.length + steps) : survey.climbsTo header block steps = true := by
  induction steps generalizing block seen with
  | zero =>
    have few := length_within once within
    omega
  | succ steps ih =>
    unfold climbsTo
    obtain rfl | ⟨next,first,rest⟩ := climbs.cases_head
    · simp
    · rw [show survey.above? block = some next from first,Bool.or_eq_true_iff]
      refine Decidable.or_iff_not_imp_left.mpr fun apart => ?_
      have fresh : block ∉ seen := by
        intro known
        have closed : ∀ high, ReflTransGen survey.Climbs block high → high ∈ seen := by
          intro high walk
          induction walk with
          | refl => exact known
          | tail _ last ih => exact (onward _ ih _ last).elim (fun same => same ▸ known) id
        exact missing (closed header climbs)
      refine ih (block :: seen) (List.nodup_cons.mpr ⟨fresh,once⟩) (List.forall_mem_cons.mpr ⟨inside,within⟩)
        ?_ ?_ (Climbs.inside made first) rest ?_
      · intro known
        rcases List.mem_cons.mp known with same | known
        · exact apart (beq_iff_eq.mpr same.symm)
        · exact missing known
      · intro low known high up
        rcases List.mem_cons.mp known with same | known
        · exact Or.inl (Option.some.inj (up.symm.trans (same ▸ first)))
        · exact Or.inr (List.mem_cons.mpr (onward low known high up))
      · rw [List.length_cons]
        omega

theorem effectivelyDominates_iff (made : Survey.make graph settings = .ok survey) (inside : block < survey.graph.size) :
    survey.effectivelyDominates header block = true ↔ ReflTransGen survey.Climbs block header :=
  ⟨climbs_of_climbsTo,fun climbs =>
    climbsTo_of_climbs made [] List.nodup_nil (by simp) (by simp) (by simp) inside climbs (by simp)⟩

theorem settle_within (member : block ∈ settle stays kept) : block ∈ kept := by
  fun_induction settle stays kept with
  | case1 kept shrinks ih => exact List.mem_of_mem_filter (ih member)
  | case2 kept full => exact member

theorem settle_stays (member : block ∈ settle stays kept) : stays (settle stays kept) block = true := by
  fun_induction settle stays kept with
  | case1 kept shrinks ih => exact ih member
  | case2 kept full =>
    have same : (staying stays kept).length = kept.length :=
      Nat.le_antisymm (List.length_filter_le _ _) (Nat.not_lt.mp full)
    exact List.length_filter_eq_length_iff.mp same block member

-- Blocks that would stay in any company that has them all are never dropped.
theorem settle_greatest {side : Set BlockId} (sub : ∀ block ∈ side, block ∈ kept)
    (all : ∀ kept : List BlockId, (∀ block ∈ side, block ∈ kept) → ∀ block ∈ side, stays kept block = true) :
    ∀ block ∈ side, block ∈ settle stays kept := by
  fun_induction settle stays kept with
  | case1 kept shrinks ih =>
    exact ih fun block member => List.mem_filter.mpr ⟨sub block member,all kept sub block member⟩
  | case2 kept full => exact sub

-- A block that may go with a loop: control comes to it and it may still be emitted here, it is no part of the
-- loop, nor a place that edges jump to, and it lies under the header.
structure Candidate (survey : Survey) (scope : Scope) (taken : List BlockId) (loop : NaturalLoop)
    (exit : Option BlockId) (block : BlockId) : Prop where
  live : survey.isLive block = true
  untaken : block ∉ taken
  region : scope.inRegion block = true
  outside : block ∉ loop.body
  under : ReflTransGen survey.Climbs block loop.header
  stays : exit ≠ some block
  plain : scope.isJumpTarget block = false

def Seed (survey : Survey) (loop : NaturalLoop) (block : BlockId) : Prop :=
  (∃ source ∈ loop.body, block ∈ survey.graph.successors source) ∨
    ∃ row ∈ survey.graph.table, row.handler = block ∧ ∃ inner ∈ loop.body, row.covers inner = true

-- Side blocks that belong to a loop: from none of them does control get anywhere but into the loop, to other
-- ones, to the exit or to where a jump leads, and the loop leads to each of them through others.
structure Belongs (survey : Survey) (scope : Scope) (taken : List BlockId) (loop : NaturalLoop)
    (exit : Option BlockId) (side : Set BlockId) : Prop where
  candidates : ∀ block ∈ side, survey.Candidate scope taken loop exit block
  closed : ∀ block ∈ side, ∀ target ∈ survey.graph.successors block,
    target ∈ loop.body ∨ target ∈ side ∨ exit = some target ∨ scope.isJumpTarget target = true
  entered : ∀ block ∈ side, ∃ seed ∈ side, survey.Seed loop seed ∧
    ReflTransGen (fun one two => two ∈ survey.graph.successors one ∧ two ∈ side) seed block

theorem live_within (made : Survey.make graph settings = .ok survey) (live : survey.isLive block = true) :
    block < survey.graph.size := by
  obtain ⟨same,lives,_⟩ := make_ok made
  have known : block ∈ survey.live := of_decide_eq_true live
  rw [lives] at known
  exact same ▸ BlockGraph.live_inside known

theorem mem_sideBlocks (made : Survey.make graph settings = .ok survey) :
    block ∈ survey.sideBlocks scope taken loop exit ↔ survey.Candidate scope taken loop exit block := by
  unfold sideBlocks NaturalLoop.contains
  simp only [List.mem_filter,Bool.and_eq_true,BlockGraph.mem_ids]
  constructor
  · rintro ⟨within,⟨⟨⟨⟨⟨outside,apart⟩,live⟩,untaken⟩,region⟩,plain⟩,under⟩
    exact ⟨live,by simpa using untaken,region,by simpa using outside,
      (effectivelyDominates_iff made within).mp under,(bne_iff_ne.mp apart).symm,by simpa using plain⟩
  · rintro ⟨live,untaken,region,outside,under,apart,plain⟩
    have within := live_within made live
    refine ⟨within,⟨⟨⟨⟨⟨?_,?_⟩,live⟩,?_⟩,region⟩,?_⟩,(effectivelyDominates_iff made within).mpr under⟩
    · simpa using outside
    · exact bne_iff_ne.mpr apart.symm
    · simpa using untaken
    · simpa using plain

theorem body_inside (made : Survey.make graph settings = .ok survey) (member : loop ∈ survey.loops)
    (within : block ∈ loop.body) : block < survey.graph.size := by
  obtain ⟨same,_,_,_,computed,_⟩ := make_ok made
  rcases LoopForest.compute_cases graph with ⟨_,_,_,_,failed⟩ | ⟨forest,found,complete⟩
  · cases computed.symm.trans failed
  · cases computed.symm.trans found
    exact same ▸ ((complete.natural loop member).header_dom within).below.inside

def quiet (survey : Survey) (scope : Scope) (taken : List BlockId) (loop : NaturalLoop) (exit : Option BlockId) :
    List BlockId :=
  settle (fun kept block => (survey.graph.successors block).all fun target =>
    loop.contains target || target ∈ kept || some target == exit || scope.isJumpTarget target)
    (survey.sideBlocks scope taken loop exit)

theorem quiet_candidate (made : Survey.make graph settings = .ok survey)
    (member : block ∈ survey.quiet scope taken loop exit) : survey.Candidate scope taken loop exit block :=
  (mem_sideBlocks made).mp (settle_within member)

theorem stays_iff {kept : List BlockId} :
    (loop.contains target || decide (target ∈ kept) || some target == exit || scope.isJumpTarget target) = true ↔
      target ∈ loop.body ∨ target ∈ kept ∨ exit = some target ∨ scope.isJumpTarget target = true := by
  unfold NaturalLoop.contains
  simp only [Bool.or_eq_true,decide_eq_true_eq,beq_iff_eq,or_assoc]
  rw [eq_comm]

theorem quiet_closed (member : block ∈ survey.quiet scope taken loop exit)
    (leads : target ∈ survey.graph.successors block) :
    target ∈ loop.body ∨ target ∈ survey.quiet scope taken loop exit ∨ exit = some target ∨
      scope.isJumpTarget target = true :=
  stays_iff.mp (List.all_eq_true.mp (settle_stays member) target leads)

theorem belongs_quiet (made : Survey.make graph settings = .ok survey) {side : Set BlockId}
    (belongs : survey.Belongs scope taken loop exit side) (member : block ∈ side) :
    block ∈ survey.quiet scope taken loop exit := by
  have candidates (block : BlockId) (member : block ∈ side) : block ∈ survey.sideBlocks scope taken loop exit :=
    (mem_sideBlocks made).mpr (belongs.candidates block member)
  refine settle_greatest candidates ?_ block member
  intro kept sub block member
  refine List.all_eq_true.mpr fun target leads => stays_iff.mpr ?_
  exact (belongs.closed block member target leads).imp_right (Or.imp_left (sub target))

theorem seed_iff : ((survey.graph.predecessors block).any loop.contains ||
    survey.graph.table.any fun row => row.handler == block && loop.body.any row.covers) = true ↔
      survey.Seed loop block := by
  unfold Seed NaturalLoop.contains
  simp only [Bool.or_eq_true,List.any_eq_true,decide_eq_true_eq,Bool.and_eq_true,beq_iff_eq,
    BlockGraph.mem_predecessors]
  refine or_congr ?_ Iff.rfl
  exact exists_congr fun source => and_comm

def gathered (survey : Survey) (scope : Scope) (taken : List BlockId) (loop : NaturalLoop) (exit : Option BlockId) :
    Set BlockId :=
  {block | ∃ seed ∈ survey.quiet scope taken loop exit, survey.Seed loop seed ∧
    ReflTransGen (fun one two => two ∈ survey.graph.successors one ∧ two ∈ survey.quiet scope taken loop exit)
      seed block}

theorem gathered_quiet (member : block ∈ survey.gathered scope taken loop exit) :
    block ∈ survey.quiet scope taken loop exit := by
  obtain ⟨seed,quiet,_,walk⟩ := member
  rcases walk.cases_tail with rfl | ⟨_,_,last⟩
  · exact quiet
  · exact last.2

theorem mem_absorb (made : Survey.make graph settings = .ok survey) (known : loop ∈ survey.loops) :
    block ∈ survey.absorb scope taken loop exit ↔
      block ∈ loop.body ∨ block ∈ survey.gathered scope taken loop exit := by
  change block ∈ survey.graph.ids.filter (· ∈ reach survey.graph.size
    (fun block => (survey.graph.successors block).filter (· ∈ survey.quiet scope taken loop exit))
    ((survey.quiet scope taken loop exit).filter fun block => (survey.graph.predecessors block).any loop.contains ||
      survey.graph.table.any fun row => row.handler == block && loop.body.any row.covers) loop.body) ↔ _
  rw [List.mem_filter,decide_eq_true_eq,BlockGraph.mem_ids,mem_reach_walled,Reaches.iff_walk]
  -- The search stops at the body, where no side block lies anyway.
  have open_ {block : BlockId} (member : block ∈ survey.quiet scope taken loop exit) : block ∉ loop.body :=
    (quiet_candidate made member).outside
  constructor
  · rintro ⟨_,inner | ⟨seed,member,_,walk⟩⟩
    · exact Or.inl inner
    · obtain ⟨quiet,seeds⟩ := List.mem_filter.mp (List.mem_of_mem_filter member)
      refine Or.inr ⟨seed,quiet,seed_iff.mp seeds,ReflTransGen.mono ?_ _ _ walk⟩
      rintro one two ⟨_,leads⟩
      obtain ⟨leads,quiet⟩ := List.mem_filter.mp (List.mem_of_mem_filter leads)
      exact ⟨leads,of_decide_eq_true quiet⟩
  · rintro (inner | gathered)
    · exact ⟨body_inside made known inner,Or.inl inner⟩
    · have within {block : BlockId} (member : block ∈ survey.quiet scope taken loop exit) :
          block < survey.graph.size := live_within made (quiet_candidate made member).live
      refine ⟨within (gathered_quiet gathered),Or.inr ?_⟩
      obtain ⟨seed,quiet,seeds,walk⟩ := gathered
      refine ⟨seed,?_,within quiet,ReflTransGen.mono ?_ _ _ walk⟩
      · exact List.mem_filter.mpr ⟨List.mem_filter.mpr ⟨quiet,seed_iff.mpr seeds⟩,decide_eq_true (open_ quiet)⟩
      · rintro one two ⟨leads,quiet⟩
        exact ⟨within quiet,List.mem_filter.mpr
          ⟨List.mem_filter.mpr ⟨leads,decide_eq_true quiet⟩,decide_eq_true (open_ quiet)⟩⟩

theorem gathered_belongs (made : Survey.make graph settings = .ok survey) :
    survey.Belongs scope taken loop exit (survey.gathered scope taken loop exit) where
  candidates block member := quiet_candidate made (gathered_quiet member)
  closed block member target leads := by
    refine (quiet_closed (gathered_quiet member) leads).imp_right (Or.imp_left fun quiet => ?_)
    obtain ⟨seed,known,seeds,walk⟩ := member
    exact ⟨seed,known,seeds,walk.tail ⟨leads,quiet⟩⟩
  entered block member := by
    obtain ⟨seed,known,seeds,walk⟩ := member
    refine ⟨seed,⟨seed,known,seeds,.refl⟩,seeds,?_⟩
    induction walk with
    | refl => exact .refl
    | tail before last ih => exact ih.tail ⟨last.1,seed,known,seeds,before.tail last⟩

theorem belongs_gathered (made : Survey.make graph settings = .ok survey) {side : Set BlockId}
    (belongs : survey.Belongs scope taken loop exit side) : side ⊆ survey.gathered scope taken loop exit := by
  intro block member
  obtain ⟨seed,known,seeds,walk⟩ := belongs.entered block member
  refine ⟨seed,belongs_quiet made belongs known,seeds,ReflTransGen.mono ?_ _ _ walk⟩
  rintro one two ⟨leads,within⟩
  exact ⟨leads,belongs_quiet made belongs within⟩

-- A loop takes in the largest set of side blocks that belong to it, and nothing else.
theorem absorb_greatest (made : Survey.make graph settings = .ok survey) (known : loop ∈ survey.loops)
    (scope : Scope) (taken : List BlockId) (exit : Option BlockId) :
    ∃ side : Set BlockId, IsGreatest {side | survey.Belongs scope taken loop exit side} side ∧
      ∀ block, block ∈ survey.absorb scope taken loop exit ↔ block ∈ loop.body ∨ block ∈ side :=
  ⟨survey.gathered scope taken loop exit,
    ⟨gathered_belongs made,fun _ belongs => belongs_gathered made belongs⟩,fun _ => mem_absorb made known⟩

-- A loop of two blocks. The handler of one of them goes with it, and so does a block that loops on itself until
-- it returns; the default of the switch leads back to where the loop was never entered, and stays out.
def straying : BlockGraph :=
  ⟨[⟨[],.branch (.constant true) 1 6⟩,⟨[],.branch (.constant true) 2 7⟩,
    ⟨[],.switch (.literal (.int 0)) [(1,1),(2,3)] 5⟩,⟨[],.branch (.constant true) 3 4⟩,⟨[],.ret none⟩,⟨[],.goto 6⟩,
    ⟨[],.ret none⟩,⟨[],.ret none⟩,⟨[],.ret none⟩],[⟨2,3,8,none⟩],by decide⟩

def strayed : Survey :=
  ⟨straying,.default,straying.dominance,straying.postDominance,straying.order,straying.live,
    [⟨1,[2],[1,2]⟩,⟨3,[3],[3]⟩],[⟨2,3,[⟨8,[],true⟩]⟩]⟩

theorem straying_made : Survey.make straying .default = .ok strayed := by cbv

theorem strayed_absorbs : strayed.absorb ⟨straying.ids,[]⟩ [0,1] ⟨1,[2],[1,2]⟩ (some 7) = [1,2,3,4,8] := by cbv

theorem straying_greatest : Survey.make straying .default = .ok strayed ∧
    ∃ side : Set BlockId, IsGreatest {side | strayed.Belongs ⟨straying.ids,[]⟩ [0,1] ⟨1,[2],[1,2]⟩ (some 7) side} side ∧
      ∀ block, block ∈ [1,2,3,4,8] ↔ block ∈ [1,2] ∨ block ∈ side := by
  have known : (⟨1,[2],[1,2]⟩ : NaturalLoop) ∈ strayed.loops := List.mem_cons_self
  have greatest := absorb_greatest straying_made known ⟨straying.ids,[]⟩ [0,1] (some 7)
  rw [strayed_absorbs] at greatest
  exact ⟨straying_made,greatest⟩

end Survey
end Untangle
