import Untangle.Proofs.Balance.Balanced
import Untangle.Proofs.Layout.Laid
import Untangle.Proofs.Layout.Orderly

namespace Untangle

structure Placing where
  around : List Guard
  block : BlockId

def Placing.inside (guard : Guard) (placing : Placing) : Placing := {placing with around:=placing.around ++ [guard]}

namespace BlockGraph

def laid (graph : BlockGraph) (block : BlockId) : Layout := .begins block :: (graph.content block).map (.plain block)

def placed (graph : BlockGraph) (placing : Placing) : List Item :=
  ⟨placing.around,.begins placing.block⟩ ::
    (graph.content placing.block).map fun statement => ⟨placing.around,.plain placing.block statement⟩

theorem placed_inside (graph : BlockGraph) (guard : Guard) (placing : Placing) :
    graph.placed (placing.inside guard) = (graph.placed placing).map (·.inside guard) := by
  simp [placed,Placing.inside,Item.inside]

theorem items_laid (graph : BlockGraph) (block : BlockId) : items (graph.laid block) = graph.placed ⟨[],block⟩ := by
  rw [laid,items,items_plain]
  rfl

theorem erased_laid (graph : BlockGraph) (block : BlockId) : erased (graph.laid block) = graph.content block := by
  rw [laid,erased,erased_plain]
  rfl

end BlockGraph

namespace Item

def placing? (item : Item) : Option Placing :=
  match item.part with
  | .begins block => some ⟨item.around,block⟩
  | _ => none

def written? (item : Item) : Option (Placing × Statement) :=
  match item.part with
  | .plain block statement => some (⟨item.around,block⟩,statement)
  | _ => none

def guard? (item : Item) : Option Guard :=
  match item.part with
  | .guard guard => some guard
  | _ => none

def range? (item : Item) : Option (BlockId × BlockId) := item.guard?.map (·.range)

end Item

def BlockGraph.contents (graph : BlockGraph) (placings : List Placing) : List (Placing × Statement) :=
  placings.flatMap fun placing => (graph.content placing.block).map (placing,·)

-- The statements come in the order of the text, each block's behind the place where it begins.
def BlockGraph.Tidy (graph : BlockGraph) (all : List Item) : Prop :=
  all.filterMap Item.written? = graph.contents (all.filterMap Item.placing?)

structure Rearranged (one two : List Item) : Prop where
  perm : one.Perm two
  blocks : one.filterMap Item.placing? = two.filterMap Item.placing?
  statements : one.filterMap Item.written? = two.filterMap Item.written?

namespace Rearranged
variable {one two three four : List Item}

theorem refl (all : List Item) : Rearranged all all := ⟨.refl _,rfl,rfl⟩

theorem symm (same : Rearranged one two) : Rearranged two one := ⟨same.perm.symm,same.blocks.symm,same.statements.symm⟩

theorem append (first : Rearranged one two) (second : Rearranged three four) : Rearranged (one ++ three) (two ++ four) := by
  refine ⟨first.perm.append second.perm,?_,?_⟩
  · rw [List.filterMap_append,List.filterMap_append,first.blocks,second.blocks]
  · rw [List.filterMap_append,List.filterMap_append,first.statements,second.statements]

theorem tidy {graph : BlockGraph} (same : Rearranged one two) (tidy : graph.Tidy two) : graph.Tidy one := by
  unfold BlockGraph.Tidy
  rw [same.statements,same.blocks]
  exact tidy

end Rearranged

namespace BlockGraph
variable {graph : BlockGraph} {one two : List Item} {guard : Guard}

theorem tidy_nil (graph : BlockGraph) : graph.Tidy [] := rfl

theorem tidy_append (first : graph.Tidy one) (second : graph.Tidy two) : graph.Tidy (one ++ two) := by
  unfold Tidy contents at *
  rw [List.filterMap_append,List.filterMap_append,List.flatMap_append,first,second]

theorem placed_begins (graph : BlockGraph) (placing : Placing) :
    (graph.placed placing).filterMap Item.placing? = [placing] := by
  have bare : ((graph.content placing.block).map fun statement =>
      (⟨placing.around,.plain placing.block statement⟩ : Item)).filterMap Item.placing? = [] := by
    rw [List.filterMap_map]
    exact List.filterMap_eq_nil_iff.mpr fun _ _ => rfl
  exact congrArg (placing :: ·) bare

theorem placed_written (graph : BlockGraph) (placing : Placing) :
    (graph.placed placing).filterMap Item.written? = (graph.content placing.block).map (placing,·) := by
  unfold placed
  rw [List.filterMap_cons_none rfl,List.filterMap_map,← List.filterMap_eq_map]
  rfl

theorem placed_unguarded (graph : BlockGraph) (placing : Placing) :
    (graph.placed placing).filterMap Item.guard? = [] := by
  refine List.filterMap_eq_nil_iff.mpr (List.forall_mem_cons.mpr ⟨rfl,fun item member => ?_⟩)
  obtain ⟨statement,_,rfl⟩ := List.mem_map.mp member
  rfl

theorem tidy_placed (graph : BlockGraph) (placing : Placing) : graph.Tidy (graph.placed placing) := by
  unfold Tidy contents
  rw [placed_begins,placed_written,List.flatMap_singleton]

theorem tidy_inside (tidy : graph.Tidy one) (guard : Guard) : graph.Tidy (one.map (·.inside guard)) := by
  have blocks : (one.map (·.inside guard)).filterMap Item.placing? =
      (one.filterMap Item.placing?).map (·.inside guard) := by
    rw [List.filterMap_map,List.map_filterMap]
    refine List.filterMap_congr fun item _ => ?_
    cases part : item.part <;> simp [Item.placing?,Item.inside,Placing.inside,part]
  have statements : (one.map (·.inside guard)).filterMap Item.written? =
      (one.filterMap Item.written?).map fun written => (written.1.inside guard,written.2) := by
    rw [List.filterMap_map,List.map_filterMap]
    refine List.filterMap_congr fun item _ => ?_
    cases part : item.part <;> simp [Item.written?,Item.inside,Placing.inside,part]
  unfold Tidy contents at *
  rw [blocks,statements,tidy,List.map_flatMap,List.flatMap_map]
  refine List.flatMap_congr fun placing _ => ?_
  rw [List.map_map]
  rfl

end BlockGraph

-- A `try` made for a range: its clauses are those of the range, and each starts with its handler.
structure Guard.Of (guard : Guard) (region : TryRegion) : Prop where
  range : guard.range = region.range
  clauses : guard.clauses.map (fun clause => (clause.types,clause.handler)) =
    region.clauses.map fun group => (group.caught,group.handler)
  opens : ∀ clause ∈ guard.clauses, Opens clause.handler clause.body

abbrev LatchFacts := BreakableId → BlockId → BlockId → Block → Prop

namespace Survey

-- Within the ranges that are open, a block is guarded by the ranges `inner`.
structure Places (survey : Survey) (around : List TryRegion) (placing : Placing) (inner : List TryRegion) : Prop where
  ranges : placing.around.map (·.range) = inner.map (·.range)
  known : ∀ region ∈ inner ++ around, region ∈ survey.tries
  ordered : Ordered (inner ++ around)
  level : survey.graph.Orderly → survey.Level (inner ++ around) placing.block

def Frames (survey : Survey) (quiet : LatchFacts) : Part → Prop
  | .guard guard => ∃ region ∈ survey.tries, region.first ∈ survey.graph.live ∧ guard.Of region
  | .doWhile id header latch body => (∃ loop ∈ survey.loops, loop.header = header ∧ loop.latches = [latch]) ∧
      (∃ inner, body = inner ++ survey.graph.laid latch) ∧ quiet id header latch (erased body)
  | _ => False

def rangesOf (survey : Survey) (opened : List Nat) : List (BlockId × BlockId) :=
  opened.filterMap fun index => survey.tries[index]?.map (·.range)

structure Adds (survey : Survey) (quiet : LatchFacts) (around : List TryRegion) (before after : Progress)
    (lay lay' : Layout) (placings : List Placing) (frames : List Item) : Prop where
  items : (items lay').Perm (items lay ++ (placings.flatMap survey.graph.placed ++ frames))
  taken : after.taken.Perm (placings.map (·.block) ++ before.taken)
  ranges : (survey.rangesOf after.opened).Perm (frames.filterMap Item.range? ++ survey.rangesOf before.opened)
  places : ∀ placing ∈ placings, ∃ inner, survey.Places around placing inner
  frames : ∀ frame ∈ frames, survey.Frames quiet frame.part

structure Lays (survey : Survey) (quiet : LatchFacts) (around : List TryRegion) (before after : Progress)
    (lay lay' : Layout) : Prop where
  adds : ∃ placings frames, survey.Adds quiet around before after lay lay' placings frames
  opened : ∀ index ∈ before.opened, index ∈ after.opened
  once : before.opened.Nodup → after.opened.Nodup
  closed : survey.graph.Orderly → ∀ index ∈ after.opened, index ∉ before.opened → ∀ region,
    survey.tries[index]? = some region → region.first ∈ after.taken
  front : ∀ block, Fronts block lay → Fronts block lay'
  tidy : survey.graph.Tidy (items lay) → survey.graph.Tidy (items lay')

variable {survey : Survey} {quiet : LatchFacts} {around : List TryRegion} {before middle after : Progress}
  {lay lay' last code : Layout} {placings placings' : List Placing} {frames frames' : List Item} {block : BlockId}
  {region : TryRegion} {index : Nat} {scope : Scope} {entered : List BlockId} {registry : Registry} {events : List Event}

theorem regroup (one two three four : List α) :
    (one ++ two ++ (three ++ four)).Perm (three ++ one ++ (two ++ four)) := by
  rw [List.append_assoc,← List.append_assoc two]
  refine ((List.perm_append_comm.append_right four).append_left one).trans ?_
  rw [List.append_assoc three,← List.append_assoc one]
  exact List.perm_append_comm.append_right _

theorem Adds.trans (first : survey.Adds quiet around before middle lay lay' placings frames)
    (second : survey.Adds quiet around middle after lay' last placings' frames') :
    survey.Adds quiet around before after lay last (placings' ++ placings) (frames ++ frames') := by
  refine ⟨?_,?_,?_,List.forall_mem_append.mpr ⟨second.places,first.places⟩,
    List.forall_mem_append.mpr ⟨first.frames,second.frames⟩⟩
  · refine second.items.trans ((first.items.append_right _).trans ?_)
    rw [List.append_assoc,List.flatMap_append]
    exact (regroup _ _ _ _).append_left _
  · rw [List.map_append,List.append_assoc]
    exact second.taken.trans (first.taken.append_left _)
  · refine second.ranges.trans ((first.ranges.append_left _).trans ?_)
    rw [List.filterMap_append,← List.append_assoc]
    exact List.perm_append_comm.append_right _

theorem Places.outer {placing : Placing} {inner : List TryRegion} (places : survey.Places (region :: around) placing inner)
    (clauses : List LaidClause) : survey.Places around (placing.inside ⟨region.range,clauses⟩) (inner ++ [region]) := by
  have whole : inner ++ [region] ++ around = inner ++ region :: around := by simp
  refine ⟨?_,whole ▸ places.known,whole ▸ places.ordered,whole ▸ places.level⟩
  simp [Placing.inside,places.ranges]

theorem Adds.tryCatch {body : Layout} {clauses : List LaidClause} (at_ : survey.tries[index]? = some region)
    (inner : survey.Adds quiet (region :: around) {before with opened:=index :: before.opened,events} middle [] body
      placings frames)
    (catches : survey.Adds quiet around middle after [] (clauses.flatMap (·.body)) placings' frames')
    (live : region.first ∈ survey.graph.live) (made : Guard.Of ⟨region.range,clauses⟩ region) :
    survey.Adds quiet around before after [] [.tryCatch region.range body clauses]
      (placings' ++ placings.map (·.inside ⟨region.range,clauses⟩))
      (⟨[],.guard ⟨region.range,clauses⟩⟩ :: (frames.map (·.inside ⟨region.range,clauses⟩) ++ frames')) := by
  refine ⟨?_,?_,?_,?_,?_⟩
  · have body_ := inner.items.map (·.inside ⟨region.range,clauses⟩)
    have shifted : (placings.flatMap survey.graph.placed).map (·.inside ⟨region.range,clauses⟩) =
        (placings.map (·.inside ⟨region.range,clauses⟩)).flatMap survey.graph.placed := by
      simp only [List.map_flatMap,List.flatMap_map,BlockGraph.placed_inside]
    rw [Untangle.items,List.nil_append,List.map_append,shifted] at body_
    have catches_ := catches.items
    rw [Untangle.items,List.nil_append] at catches_
    rw [items_single,Laid.items,clauseItems_bodies,List.flatMap_append,Untangle.items,List.nil_append]
    exact (((body_.append catches_).trans (regroup _ _ _ _)).cons _).trans List.perm_middle.symm
  · have blocks : (placings.map (·.inside ⟨region.range,clauses⟩)).map (·.block) = placings.map (·.block) := by
      simp [Placing.inside]
    rw [List.map_append,blocks,List.append_assoc]
    exact catches.taken.trans (inner.taken.append_left _)
  · have ranges : (frames.map (·.inside ⟨region.range,clauses⟩)).filterMap Item.range? =
        frames.filterMap Item.range? := by
      rw [List.filterMap_map]
      rfl
    have opening : survey.rangesOf (index :: before.opened) = region.range :: survey.rangesOf before.opened := by
      simp [rangesOf,at_]
    have first := inner.ranges
    rw [opening] at first
    rw [List.filterMap_cons]
    dsimp only [Item.range?]
    rw [List.filterMap_append,ranges]
    refine catches.ranges.trans ((first.append_left _).trans ?_)
    rw [← List.append_assoc]
    exact List.perm_middle.trans ((List.perm_append_comm.append_right _).cons _)
  · refine List.forall_mem_append.mpr ⟨catches.places,fun placing member => ?_⟩
    obtain ⟨held,listed,rfl⟩ := List.mem_map.mp member
    obtain ⟨around,places⟩ := inner.places held listed
    exact ⟨_,places.outer clauses⟩
  · have own : survey.Frames quiet (.guard ⟨region.range,clauses⟩) := ⟨region,List.mem_of_getElem? at_,live,made⟩
    refine List.forall_mem_cons.mpr ⟨own,List.forall_mem_append.mpr ⟨fun frame member => ?_,catches.frames⟩⟩
    obtain ⟨held,listed,rfl⟩ := List.mem_map.mp member
    exact inner.frames held listed

namespace Lays

theorem taken (lays : survey.Lays quiet around before after lay lay') : ∀ block ∈ before.taken, block ∈ after.taken := by
  obtain ⟨placings,frames,adds⟩ := lays.adds
  exact fun block member => adds.taken.symm.subset (List.mem_append_right _ member)

theorem refl (survey : Survey) (quiet : LatchFacts) (around : List TryRegion) (lay : Layout) :
    survey.Lays quiet around before {before with entered,registry,events} lay lay :=
  ⟨⟨[],[],by simp,by simp,by simp,by simp,by simp⟩,fun _ known => known,fun once => once,
    fun _ _ known fresh => absurd known fresh,fun _ fronts => fronts,fun tidy => tidy⟩

theorem since (lays : survey.Lays quiet around {before with entered,registry,events} after lay lay') :
    survey.Lays quiet around before after lay lay' := by
  obtain ⟨placings,frames,adds⟩ := lays.adds
  exact ⟨⟨placings,frames,adds.items,adds.taken,adds.ranges,adds.places,adds.frames⟩,lays.opened,lays.once,lays.closed,
    lays.front,lays.tidy⟩

theorem trans (first : survey.Lays quiet around before middle lay lay')
    (second : survey.Lays quiet around middle after lay' last) : survey.Lays quiet around before after lay last := by
  obtain ⟨placings,frames,one⟩ := first.adds
  obtain ⟨placings',frames',two⟩ := second.adds
  refine ⟨⟨_,_,one.trans two⟩,fun index known => second.opened index (first.opened index known),
    fun once => second.once (first.once once),?_,fun block fronts => second.front block (first.front block fronts),
    fun tidy => second.tidy (first.tidy tidy)⟩
  intro orderly index known fresh region at_
  by_cases early : index ∈ middle.opened
  · exact second.taken _ (first.closed orderly index early fresh region at_)
  · exact second.closed orderly index known early region at_

theorem congr (lays : survey.Lays quiet around before after lay lay') (same : (items last).Perm (items lay'))
    (tidy : survey.graph.Tidy (items lay') → survey.graph.Tidy (items last))
    (front : ∀ block, Fronts block lay → Fronts block last) : survey.Lays quiet around before after lay last := by
  obtain ⟨placings,frames,adds⟩ := lays.adds
  exact ⟨⟨placings,frames,same.trans adds.items,adds.taken,adds.ranges,adds.places,adds.frames⟩,lays.opened,lays.once,
    lays.closed,front,fun given => tidy (lays.tidy given)⟩

theorem rearranged (lays : survey.Lays quiet around before after lay lay') (same : Rearranged (items last) (items lay'))
    (front : ∀ block, Fronts block lay → Fronts block last) : survey.Lays quiet around before after lay last :=
  lays.congr same.perm same.tidy front

theorem tidy_page (lays : survey.Lays quiet around before after [] lay) : survey.graph.Tidy (items lay) :=
  lays.tidy survey.graph.tidy_nil

theorem wrap (lays : survey.Lays quiet around before after [] lay') (same : items last = items lay') :
    survey.Lays quiet around before after [] last :=
  lays.congr (same ▸ .refl _) (fun tidy => same ▸ tidy) fun _ fronts => absurd fronts fronts_nil

theorem behind (lays : survey.Lays quiet around before after [] code) :
    survey.Lays quiet around before after lay (lay ++ code) := by
  obtain ⟨placings,frames,adds⟩ := lays.adds
  refine ⟨⟨placings,frames,?_,adds.taken,adds.ranges,adds.places,adds.frames⟩,lays.opened,lays.once,lays.closed,
    fun _ fronts => fronts.append code,fun tidy => ?_⟩
  · rw [items_append]
    exact adds.items.append_left _
  · rw [items_append]
    exact BlockGraph.tidy_append tidy lays.tidy_page

theorem both (first : survey.Lays quiet around before middle [] lay') (second : survey.Lays quiet around middle after [] code) :
    survey.Lays quiet around before after [] (lay' ++ code) := first.trans second.behind

theorem take {inner : List TryRegion} (places : survey.Places around ⟨[],block⟩ inner) :
    survey.Lays quiet around before {before with taken:=block :: before.taken,registry} [] (survey.graph.laid block) := by
  refine ⟨⟨[⟨[],block⟩],[],?_,by simp,by simp,?_,by simp⟩,fun _ known => known,fun once => once,
    fun _ _ known fresh => absurd known fresh,?_,fun _ => ?_⟩
  · rw [BlockGraph.items_laid]
    simp [items]
  · intro placing member
    cases List.mem_singleton.mp member
    exact ⟨inner,places⟩
  · exact fun _ fronts => absurd fronts fronts_nil
  · rw [BlockGraph.items_laid]
    exact BlockGraph.tidy_placed _ _

theorem doWhile {id : BreakableId} {header latch : BlockId} {condition : Condition} {body : Layout}
    (lays : survey.Lays quiet around before after [] body) (made : survey.Frames quiet (.doWhile id header latch body)) :
    survey.Lays quiet around before after [] [.doWhile id header latch condition body] := by
  obtain ⟨placings,frames,adds⟩ := lays.adds
  refine ⟨⟨placings,⟨[],.doWhile id header latch body⟩ :: frames,?_,adds.taken,adds.ranges,adds.places,
    List.forall_mem_cons.mpr ⟨made,adds.frames⟩⟩,lays.opened,lays.once,lays.closed,?_,fun _ => ?_⟩
  · have added := adds.items
    rw [items,List.nil_append] at added
    rw [items_single,Laid.items,items,List.nil_append]
    exact (added.cons _).trans List.perm_middle.symm
  · exact fun _ fronts => absurd fronts fronts_nil
  · rw [items_single]
    exact lays.tidy_page

-- A range has been left behind with the others that were opened since, once its first block has been taken.
theorem closes {body : Layout} (at_ : survey.tries[index]? = some region)
    (inner : survey.Lays quiet (region :: around) {before with opened:=index :: before.opened,events} after [] body)
    (first : survey.graph.Orderly → region.first ∈ after.taken) (orderly : survey.graph.Orderly) :
    ∀ other ∈ after.opened, other ∉ before.opened → ∀ range, survey.tries[other]? = some range →
      range.first ∈ after.taken := by
  intro other known new range listed
  by_cases same : other = index
  · subst same
    cases at_.symm.trans listed
    exact first orderly
  · refine inner.closed orderly other known (fun member => ?_) range listed
    rcases List.mem_cons.mp member with equal | old
    · exact same equal
    · exact new old

theorem tryCatch {body : Layout} {clauses : List LaidClause}
    (at_ : survey.tries[index]? = some region) (fresh : index ∉ before.opened)
    (inner : survey.Lays quiet (region :: around) {before with opened:=index :: before.opened,events} middle [] body)
    (catches : survey.Lays quiet around middle after [] (clauses.flatMap (·.body)))
    (live : region.first ∈ survey.graph.live) (made : Guard.Of ⟨region.range,clauses⟩ region)
    (first : survey.graph.Orderly → region.first ∈ middle.taken) :
    survey.Lays quiet around before after [] [.tryCatch region.range body clauses] := by
  obtain ⟨placings,frames,one⟩ := inner.adds
  obtain ⟨placings',frames',two⟩ := catches.adds
  refine ⟨⟨_,_,one.tryCatch at_ two live made⟩,?_,?_,?_,fun _ fronts => absurd fronts fronts_nil,fun _ => ?_⟩
  · exact fun other known => catches.opened other (inner.opened other (List.mem_cons_of_mem _ known))
  · exact fun once => catches.once (inner.once (List.nodup_cons.mpr ⟨fresh,once⟩))
  · intro orderly other known new range listed
    by_cases early : other ∈ middle.opened
    · exact catches.taken _ (inner.closes at_ first orderly other early new range listed)
    · exact catches.closed orderly other known early range listed
  · rw [items_single,Laid.items,clauseItems_bodies]
    exact BlockGraph.tidy_append (BlockGraph.tidy_inside inner.tidy_page _) catches.tidy_page

end Lays

theorem Encloses.recorded (encloses : survey.Encloses around scope before) :
    survey.Encloses around scope {before with entered,registry,events} :=
  ⟨encloses.known,encloses.widest,encloses.ordered,encloses.live,encloses.region,encloses.closed⟩

theorem Encloses.onward (encloses : survey.Encloses around scope before)
    (opened : ∀ index ∈ before.opened, index ∈ after.opened) (taken : ∀ block ∈ before.taken, block ∈ after.taken)
    (closed : survey.graph.Orderly → ∀ index ∈ after.opened, index ∉ before.opened → ∀ region,
      survey.tries[index]? = some region → region.first ∈ after.taken) : survey.Encloses around scope after := by
  refine ⟨?_,?_,encloses.ordered,encloses.live,encloses.region,?_⟩
  · intro region member
    obtain ⟨index,known,at_⟩ := encloses.known region member
    exact ⟨index,opened index known,at_⟩
  · intro region member index other at_ starts past
    exact opened index (encloses.widest region member index other at_ starts past)
  · intro orderly index known region at_
    by_cases old : index ∈ before.opened
    · exact (encloses.closed orderly index old region at_).imp_right (taken _)
    · exact Or.inr (closed orderly index known old region at_)

theorem Encloses.later (encloses : survey.Encloses around scope before)
    (lays : survey.Lays quiet around before after lay lay') : survey.Encloses around scope after :=
  encloses.onward lays.opened lays.taken lays.closed

theorem Encloses.closing {body : Layout} (encloses : survey.Encloses around scope before)
    (at_ : survey.tries[index]? = some region)
    (lays : survey.Lays quiet (region :: around) {before with opened:=index :: before.opened,events} after [] body)
    (first : survey.graph.Orderly → region.first ∈ after.taken) : survey.Encloses around scope after :=
  encloses.onward (fun index known => lays.opened index (List.mem_cons_of_mem _ known)) lays.taken (lays.closes at_ first)

end Survey
end Untangle
