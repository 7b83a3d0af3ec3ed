import Mathlib
import Untangle.Proofs.Balance.Conservation
import Untangle.Proofs.Breaks.Targets
import Untangle.Proofs.Layout.Emitters

namespace Untangle
open Emission

namespace Layout

def placings (layout : Layout) : List Placing := (items layout).filterMap Item.placing?

def written (layout : Layout) : List (Placing × Statement) := (items layout).filterMap Item.written?

def guards (layout : Layout) : List Guard := (items layout).filterMap Item.guard?

-- A layout of the body that a graph is structured to. Every live block begins at one place, and its statements are
-- written behind that, but perhaps for a bare return at the very end. No range has more than one `try`.
structure Of (graph : BlockGraph) (regions : List TryRegion) (body : Block) (layout : Layout) : Prop where
  tree : body = withoutTrailingReturn (erased layout)
  blocks : (layout.placings.map (·.block)).Perm (graph.ids.filter graph.isLive)
  statements : layout.written = graph.contents layout.placings
  ranges : (layout.guards.map (·.range)).Nodup
  guards : ∀ guard ∈ layout.guards, ∃ region ∈ regions, region.first ∈ graph.live ∧ guard.Of region
  narrower : ∀ placing ∈ layout.placings, placing.around.Pairwise fun inner outer =>
    inner.range.1 = outer.range.1 → inner.range.2 ≤ outer.range.2

-- A block is written in the bodies of the tries for those ranges that cover it, and of no others.
def Exact (layout : Layout) (graph : BlockGraph) (block : BlockId) : Prop :=
  ∀ placing ∈ layout.placings, placing.block = block → ∀ row ∈ graph.table,
    row.range ∈ placing.around.map (·.range) ↔ row.covers block = true

variable {layout : Layout} {graph : BlockGraph} {regions : List TryRegion} {body : Block} {placing : Placing}
  {guard other : Guard} {outer outer' : List Guard}

theorem mem_placings : placing ∈ layout.placings ↔ ⟨placing.around,.begins placing.block⟩ ∈ items layout := by
  unfold placings
  rw [List.mem_filterMap]
  constructor
  · rintro ⟨⟨around,part⟩,member,begins⟩
    cases part <;> cases begins
    exact member
  · exact fun member => ⟨_,member,rfl⟩

theorem guard_listed (member : ⟨outer,.guard guard⟩ ∈ items layout) : guard ∈ layout.guards :=
  List.mem_filterMap.mpr ⟨_,member,rfl⟩

theorem enclosing (listed : placing ∈ layout.placings) (within : guard :: outer <:+ placing.around) :
    ⟨outer,.guard guard⟩ ∈ items layout := enclosed layout _ (mem_placings.mp listed) guard outer within

theorem around_listed (listed : placing ∈ layout.placings) (member : guard ∈ placing.around) :
    guard ∈ layout.guards := by
  obtain ⟨front,outer,same⟩ := List.append_of_mem member
  exact guard_listed (enclosing listed ⟨front,same.symm⟩)

theorem Of.same_outer (of : layout.Of graph regions body) (one : ⟨outer,.guard guard⟩ ∈ items layout)
    (two : ⟨outer',.guard other⟩ ∈ items layout) (same : guard.range = other.range) : outer = outer' := by
  have ranges : (items layout).filterMap Item.range? = layout.guards.map (·.range) := List.map_filterMap.symm
  have here : (⟨outer,.guard guard⟩ : Item).range? = some guard.range := rfl
  exact congrArg Item.around (same_of_once (ranges ▸ of.ranges) one two here (congrArg some same.symm))

end Layout

namespace Survey
variable {survey : Survey} {quiet : LatchFacts} {placings : List Placing} {frames : List Item} {layout : Layout}
  {after : Progress} {emitted : Block}

theorem emitFrom_lays (formed : survey.Formed) (fuel : Nat) :
    Emitter.Lays (survey.emitFrom fuel) survey fun _ _ _ _ => True := by
  induction fuel with
  | zero =>
    intro around scope block stop out before out' after lay gives
    exact absurd gives emitFrom_zero
  | succ fuel ih =>
    intro around scope block stop out before last after lay gives same encloses fits claimed
    obtain ⟨out',next,middle,emitted,rest⟩ := emitFrom_succ gives
    have quietly : Emitter.Quietly (survey.emitFrom fuel) survey (fun _ _ _ _ => True) scope block before := by
      unfold Emitter.Quietly
      intros
      trivial
    exact following_lays ih quietly formed fits claimed emitted rest same encloses

theorem Frames.bare {frame : Item} (made : survey.Frames quiet frame.part) :
    frame.placing? = none ∧ frame.written? = none := by
  obtain ⟨around,part⟩ := frame
  cases part <;> first | exact ⟨rfl,rfl⟩ | cases made

theorem frames_begins (made : ∀ frame ∈ frames, survey.Frames quiet frame.part) :
    (placings.flatMap survey.graph.placed ++ frames).filterMap Item.placing? = placings := by
  have bare : frames.filterMap Item.placing? = [] :=
    List.filterMap_eq_nil_iff.mpr fun frame member => (Frames.bare (made frame member)).1
  rw [List.filterMap_append,bare,List.append_nil,List.filterMap_flatMap]
  simp [BlockGraph.placed_begins]

theorem frames_guards :
    (placings.flatMap survey.graph.placed ++ frames).filterMap Item.guard? = frames.filterMap Item.guard? := by
  rw [List.filterMap_append,List.filterMap_flatMap]
  simp [BlockGraph.placed_unguarded]

theorem frames_ranges :
    (placings.flatMap survey.graph.placed ++ frames).filterMap Item.range? = frames.filterMap Item.range? := by
  have same (all : List Item) : all.filterMap Item.range? = (all.filterMap Item.guard?).map (·.range) :=
    List.map_filterMap.symm
  rw [same,same,frames_guards]

theorem rangesOf_nodup (formed : survey.Formed) {opened : List Nat} (once : opened.Nodup) :
    (survey.rangesOf opened).Nodup := by
  unfold rangesOf
  rw [List.nodup_iff_pairwise_ne,List.pairwise_filterMap]
  refine once.imp fun {one two} apart range first range' second same => apart ?_
  obtain ⟨region,at_,rfl⟩ := Option.map_eq_some_iff.mp first
  obtain ⟨other,at',rfl⟩ := Option.map_eq_some_iff.mp second
  exact formed.same_index at_ at' same

theorem frames_loops {item : Item} {id : BreakableId} {header latch : BlockId} {body : Layout}
    (made : ∀ frame ∈ frames, survey.Frames quiet frame.part)
    (member : item ∈ placings.flatMap survey.graph.placed ++ frames) (same : item.part = .doWhile id header latch body) :
    survey.Frames quiet (.doWhile id header latch body) := by
  rcases List.mem_append.mp member with placed | framed
  · obtain ⟨placing,_,inside⟩ := List.mem_flatMap.mp placed
    rcases List.mem_cons.mp inside with rfl | written
    · cases same
    · obtain ⟨statement,_,rfl⟩ := List.mem_map.mp written
      cases same
  · exact same ▸ made item framed

section
variable {placing : Placing} {inner : List TryRegion}

theorem Places.narrower (places : survey.Places [] placing inner) : placing.around.Pairwise fun inner outer =>
    inner.range.1 = outer.range.1 → inner.range.2 ≤ outer.range.2 := by
  have ordered := places.ordered
  rw [List.append_nil] at ordered
  have ranges : (placing.around.map (·.range)).Pairwise fun one two => one.1 = two.1 → one.2 ≤ two.2 := by
    rw [places.ranges]
    exact List.pairwise_map.mpr ordered
  exact List.pairwise_map.mp ranges

theorem Places.exact (places : survey.Places [] placing inner) (formed : survey.Formed) (orderly : survey.graph.Orderly)
    {row : ProtectedRange} (listed : row ∈ survey.graph.table) :
    row.range ∈ placing.around.map (·.range) ↔ row.covers placing.block = true := by
  have level := places.level orderly
  have known := places.known
  rw [List.append_nil] at level known
  obtain ⟨region,grouped,same⟩ := (TryRegion.groups_of_group formed.tries).covered row listed
  have range : row.range = region.range := Prod.ext same.1.symm same.2.symm
  rw [places.ranges,range,← same.covers,level region grouped]
  constructor
  · intro found
    obtain ⟨other,within,equal⟩ := List.mem_map.mp found
    exact formed.same (known other within) grouped equal ▸ within
  · exact fun within => List.mem_map.mpr ⟨region,within,rfl⟩

end

theorem Lays.whole (formed : survey.Formed) {events : List Event}
    (lays : survey.Lays quiet [] {Progress.start with events} after [] layout)
    (taken : after.taken.Perm (survey.graph.ids.filter survey.graph.isLive)) :
    layout.Of survey.graph survey.tries (withoutTrailingReturn (erased layout)) ∧
      (survey.graph.Orderly → ∀ block, layout.Exact survey.graph block) ∧
      ∀ item ∈ items layout, ∀ id header latch body, item.part = .doWhile id header latch body →
        survey.Frames quiet (.doWhile id header latch body) := by
  obtain ⟨placings,frames,adds⟩ := lays.adds
  have all : (items layout).Perm (placings.flatMap survey.graph.placed ++ frames) := by
    simpa [items] using adds.items
  have blocks : layout.placings.Perm placings := by
    have perm := all.filterMap Item.placing?
    rwa [frames_begins adds.frames] at perm
  have places : ∀ placing ∈ layout.placings, ∃ inner, survey.Places [] placing inner := fun placing member =>
    adds.places placing (blocks.subset member)
  refine ⟨⟨rfl,?_,lays.tidy_page,?_,?_,?_⟩,?_,?_⟩
  · have same : after.taken.Perm (placings.map (·.block)) := by simpa [Progress.start] using adds.taken
    exact (blocks.map _).trans (same.symm.trans taken)
  · have ranges : layout.guards.map (·.range) = (items layout).filterMap Item.range? := List.map_filterMap
    rw [ranges,(all.filterMap Item.range?).nodup_iff,frames_ranges]
    have opened : (survey.rangesOf after.opened).Perm (frames.filterMap Item.range?) := by
      simpa [Progress.start,rangesOf] using adds.ranges
    exact opened.nodup_iff.mp (rangesOf_nodup formed (lays.once List.nodup_nil))
  · intro guard member
    have perm := all.filterMap Item.guard?
    rw [frames_guards] at perm
    obtain ⟨frame,listed,shown⟩ := List.mem_filterMap.mp (perm.subset member)
    obtain ⟨around,part⟩ := frame
    cases part <;> cases shown
    exact adds.frames _ listed
  · intro placing member
    obtain ⟨inner,places⟩ := places placing member
    exact places.narrower
  · rintro orderly _ placing member rfl row listed
    obtain ⟨inner,places⟩ := places placing member
    exact places.exact formed orderly listed
  · exact fun item member id header latch body same => frames_loops adds.frames (all.subset member) same

theorem whole_encloses (formed : survey.Formed) (events : List Event) :
    survey.Encloses [] ⟨survey.graph.ids.filter survey.isLive,[]⟩ {Progress.start with events} := by
  refine ⟨by simp,by simp,.nil,fun block member => ?_,fun _ _ => by simp [CoveredBy],fun _ index opened => ?_⟩
  · exact formed.live ▸ of_decide_eq_true (List.mem_filter.mp member).2
  · cases opened

theorem whole_fits (survey : Survey) (events : List Event) :
    survey.Fits [] {Progress.start with events} survey.graph.entry := by
  refine ⟨survey.graph.live_entry,by simp [Progress.start],fun _ => by simp [CoveredBy],fun _ region known covers => ?_⟩
  exact Or.inr (Nat.eq_zero_of_le_zero (TryRegion.covers_iff.mp covers).1).symm

end Survey

theorem structured_laid {graph : BlockGraph} {settings : StructuringSettings} {result : Structured}
    (done : graph.structured settings = .ok result) :
    ∃ regions layout, TryRegion.group graph.table = .ok regions ∧ Layout.Of graph regions result.body layout ∧
      (graph.Orderly → ∀ block, Layout.Exact layout graph block) := by
  obtain ⟨survey,events,emitted,progress,made,gives,body,taken,_⟩ := BlockGraph.structured_takes done
  obtain ⟨rfl,formed⟩ := Survey.formed_of_make made
  obtain ⟨layout,same,lays,_⟩ := Survey.emitFrom_lays formed survey.fuel _ _ _ _ _ _ _ _ [] gives rfl
    (Survey.whole_encloses formed events) (survey.whole_fits events) fun _ ends => absurd ends (by simp)
  obtain ⟨of,exact_,_⟩ := lays.whole formed taken
  exact ⟨survey.tries,layout,formed.tries,body ▸ same ▸ of,exact_⟩

end Untangle
