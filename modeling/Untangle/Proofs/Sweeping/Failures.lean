import Untangle.Proofs.Flow.Reducible
import Untangle.Proofs.Sweeping.Branches
import Untangle.Proofs.Sweeping.Loops

namespace Untangle
open Emission BlockGraph Relation

variable {survey : Survey} {emit : Emitter} {scope : Scope} {stop : Option BlockId} {before after : Progress}
  {block : BlockId} {out : Block} {fuel : Nat}

namespace Survey

theorem remaining_take (inside : block < survey.graph.size) (fresh : block ∉ before.taken) :
    survey.remaining {before with taken:=block :: before.taken} < survey.remaining before :=
  Nat.add_lt_add_right (unseen_cons_lt inside fresh) _

theorem emitPlain_ends (sound : survey.Unguarded) (safe : emit.Safe survey fuel) (tracks : emit.Tracks)
    (starts : Starts survey (fuel + 1) scope block stop before) :
    Ends (survey.emitPlain emit scope block stop out) before (fun onward after => block ∈ after.taken ∧
      Continues survey scope stop (fun other => other ≠ block ∧ scope.isJumpTarget other = true) before onward after)
      survey.graph.Admits := by
  obtain ⟨placed,fresh,ready,enough⟩ := starts
  unfold emitPlain
  rw [ends_bind]
  refine (take_ends fresh).mono ?_
  rintro _ _ _ rfl
  dsimp only
  have fuelled : survey.remaining {before with taken:=block :: before.taken} ≤ fuel :=
    Nat.le_of_lt_succ (Nat.lt_of_lt_of_le (remaining_take (mem_order.mp ready.1).inside fresh) enough)
  have start : Placed survey scope stop {before with taken:=block :: before.taken} :=
    ⟨placed.rooted.take ready,placed.known,fun target leaves =>
      (placed.outside target leaves).more (fun _ => List.mem_cons_of_mem _) fun _ known => known⟩
  have still (ends : BlockId → Prop) : Sweeps survey.graph ends (fun other => scope.isJumpTarget other = true)
      {before with taken:=block :: before.taken} {before with taken:=block :: before.taken} := .refl start.rooted
  -- What comes after the block goes with it.
  have whole {onward : Onward} {after : Progress} (continues : Continues survey scope stop
        (fun other => scope.isJumpTarget other = true) {before with taken:=block :: before.taken} onward after)
      (served : ∀ target ∈ survey.graph.successors block,
        Meanwhile {before with taken:=block :: before.taken} after target ∨ Proceeds scope stop onward.2 target) :
      block ∈ after.taken ∧ Continues survey scope stop
        (fun other => other ≠ block ∧ scope.isJumpTarget other = true) before onward after :=
    ⟨continues.sweeps.taken block List.mem_cons_self,
      continues.sweeps.behind fun target edge => (served target edge).imp_left .behind,continues.known,continues.next⟩
  -- A block that leaves the unit leads nowhere.
  have leaves (code : Block) (exits : survey.graph.successors block = []) :
      block ∈ block :: before.taken ∧ Continues survey scope stop
        (fun other => other ≠ block ∧ scope.isJumpTarget other = true) before (code,none)
        {before with taken:=block :: before.taken} :=
    whole ⟨still _,start.known,by simp⟩ (by simp [exits])
  cases at_ : survey.graph.terminator block with
  | goto target =>
    have leads := successors_goto at_
    have next := start.rooted.edge List.mem_cons_self (by simp [leads] : target ∈ survey.graph.successors block)
    refine (flowTo_continues (still _) start.known fun _ => next).mono ?_
    rintro onward after _ ⟨continues,_,proceeds⟩
    refine whole continues fun other edge => Or.inr ?_
    rw [leads,List.mem_singleton] at edge
    exact edge ▸ proceeds
  | branch condition thenTarget elseTarget =>
    refine (emitBranch_ends sound safe start List.mem_cons_self at_ fuelled).mono ?_
    exact fun onward after _ both => whole both.1 both.2
  | switch discriminant cases default =>
    refine (emitSwitch_ends sound safe tracks start List.mem_cons_self at_ fuelled).mono ?_
    exact fun onward after _ both => whole both.1 both.2
  | ret value =>
    refine leaves _ ?_
    unfold BlockGraph.successors
    rw [at_]
    rfl
  | throw exception =>
    dsimp only
    rw [ends_bind]
    refine (demand_ends (sound.ordered block ready.1) fun cause failed => at_ ▸ throw_misfit failed).mono ?_
    rintro _ _ _ ⟨rfl,rfl⟩
    refine leaves _ ?_
    unfold BlockGraph.successors
    rw [at_]
    rfl

theorem emitBlock_ends (sound : survey.Unguarded) (safe : emit.Safe survey fuel) (tracks : emit.Tracks)
    (starts : Starts survey (fuel + 1) scope block stop before) :
    Ends (survey.emitBlock emit scope block stop out) before (fun onward after => block ∈ after.taken ∧
      Continues survey scope stop (fun other => other ≠ block ∧ scope.isJumpTarget other = true) before onward after)
      survey.graph.Admits := by
  unfold emitBlock
  rw [ends_get]
  have none : survey.pendingTry? before.opened block = none := by
    unfold pendingTry?
    rw [sound.tries]
    rfl
  rw [none]
  dsimp only [Option.filter]
  split
  · rename_i loop found
    obtain ⟨found,unentered⟩ := Option.filter_eq_some_iff.mp found
    have member := List.mem_of_find?_eq_some found
    obtain rfl : loop.header = block := by
      have holds := List.find?_some (show survey.loops.find? (·.header == block) = some loop from found)
      exact eq_of_beq holds
    exact emitLoop_ends sound safe tracks starts member (of_decide_eq_true unentered)
  · exact emitPlain_ends sound safe tracks starts

-- What comes next in a sequence may be emitted from there.
theorem next_starts {out : Block} {next : Option BlockId} {kept : BlockId → Prop} {middle : Progress}
    (continues : Continues survey scope stop kept before (out,next) middle)
    (first : Starts survey (fuel + 1) scope block stop before) (here : block ∈ middle.taken) {target : BlockId}
    (found : next = some target) : Starts survey fuel scope target stop middle := by
  obtain ⟨ready,fresh,_⟩ := continues.next target found
  refine ⟨first.placed.later continues.known continues.sweeps,fresh,ready,?_⟩
  have one : survey.remaining {before with taken:=block :: before.taken} < survey.remaining before :=
    remaining_take (mem_order.mp first.ready.1).inside first.fresh
  have two : survey.remaining middle ≤ survey.remaining {before with taken:=block :: before.taken} :=
    remaining_mono (List.forall_mem_cons.mpr ⟨here,continues.sweeps.taken⟩) continues.sweeps.entered
  have enough := first.enough
  omega

theorem emitFrom_safe (sound : survey.Unguarded) (fuel : Nat) : (survey.emitFrom fuel).Safe survey fuel := by
  induction fuel with
  | zero =>
    intro scope block stop out before starts
    have less := remaining_take (mem_order.mp starts.ready.1).inside starts.fresh
    exact absurd (Nat.lt_of_lt_of_le less starts.enough) (Nat.not_lt_zero _)
  | succ fuel ih =>
    intro scope block stop out before starts
    unfold emitFrom
    rw [ends_bind]
    refine (emitBlock_ends sound ih (emitFrom_tracks sound.plain fuel) starts).mono ?_
    rintro ⟨front,next⟩ middle _ ⟨here,continues⟩
    have sweeps := continues.sweeps
    unfold Emission.sequence
    cases next with
    | none =>
      exact ⟨here,sweeps.mono (fun _ ended => ended.resolve_right (by simp)) fun _ keep => keep,continues.known⟩
    | some target =>
      dsimp only
      split
      · rename_i stops
        refine ⟨here,sweeps.mono (fun other ended => ?_) fun _ keep => keep,continues.known⟩
        rcases ended with leaves | same
        · exact leaves
        · exact Or.inl (same ▸ stops)
      · have second := next_starts continues starts here rfl
        refine (ih _ _ _ _ _ second).mono ?_
        rintro _ after _ ⟨there,more,known⟩
        have rest : Sweeps survey.graph (Leaves scope stop)
            (fun other => other ≠ block ∧ scope.isJumpTarget other = true) middle after :=
          (more.spare (by simp [(continues.next target rfl).2.2])).mono (fun _ ended => ended) fun _ keep => keep.2
        refine ⟨more.taken _ here,sweeps.trans rest fun other ended => ?_,known⟩
        rcases ended with leaves | same
        · exact Or.inr leaves
        · exact Or.inl (Option.some.inj same ▸ ⟨there,second.fresh⟩)

theorem make_unguarded {graph : BlockGraph} {settings : StructuringSettings} (empty : graph.table = [])
    (plain : graph.Plain) (made : Survey.make graph settings = .ok survey) :
    survey.graph = graph ∧ survey.Unguarded := by
  have entries : graph.handlerEntries = [] := handlerEntries_unprotected empty
  have rejoins : graph.Rejoins := ⟨by simp [entries],by simp [entries]⟩
  unfold Survey.make at made
  dsimp only at made
  rcases LoopForest.compute_cases graph with ⟨_,_,_,_,computed⟩ | ⟨forest,computed,complete⟩
  · rw [computed] at made
    cases made
  · rw [computed,empty] at made
    cases made
    exact ⟨rfl,rfl,complete,rfl,rfl,rfl,fun block listed => order_live rejoins listed,plain⟩

theorem whole_starts (empty : survey.graph.table = []) (events : List Event) :
    Starts survey survey.fuel ⟨survey.graph.ids.filter survey.isLive,[]⟩ survey.graph.entry none
      {Progress.start with events} := by
  have roots := roots_unprotected empty
  refine ⟨⟨by simp [Rooted,Progress.start],.outside _ _,fun _ leaves => absurd leaves never_leaves⟩,
    by simp [Progress.start],?_,?_⟩
  · have known : survey.graph.entry ∈ survey.graph.roots := by simp [roots]
    refine ⟨mem_order.mpr (.root survey.graph.entry_inside known),fun above dominates apart => ?_⟩
    exact absurd (.stay apart.symm) (dominates.never _ known survey.graph.entry_inside)
  · unfold remaining fuel
    refine Nat.add_le_add ?_ (List.length_filter_le _ _)
    exact Nat.le_trans (List.length_filter_le _ _) (by simp)

theorem emitAll_ends (sound : survey.Unguarded) (empty : survey.graph.table = []) (events : List Event) :
    Ends survey.emitAll {Progress.start with events} (fun _ after => ∀ block ∈ survey.live, block ∈ after.taken)
      survey.graph.Admits := by
  have roots := roots_unprotected empty
  refine (emitFrom_safe sound survey.fuel _ _ _ _ _ (whole_starts empty events)).mono ?_
  rintro _ after _ ⟨entry,sweeps,_⟩ block lives
  rw [sound.live] at lives
  obtain ⟨root,known,_,walk⟩ := Reaches.iff_walk.mp (mem_live.mp lives)
  cases List.mem_singleton.mp known
  clear lives
  induction walk with
  | refl => exact entry
  | @tail middle target earlier step taken =>
    have leads : target ∈ survey.graph.successors middle := by
      simpa [handlersOf,empty] using step.2
    exact ((sweeps.onward middle taken (by simp [Progress.start]) target leads).resolve_right never_leaves).1

theorem complete_fine {progress : Progress} {emitted : Block} (covered : ∀ block ∈ survey.live, block ∈ progress.taken)
    (tracks : Registry.empty.Tracks (blockMarks [] emitted) progress.registry) :
    ∃ result, survey.complete progress emitted = .ok result := by
  have all : survey.untaken? progress.taken = none := by
    refine List.find?_eq_none.mpr fun block _ left => ?_
    simp only [Bool.and_eq_true,decide_eq_true_eq] at left
    exact left.2 (covered block (of_decide_eq_true left.1))
  unfold complete
  rw [all]
  dsimp only
  rw [← withoutTrailingReturn_marks] at tracks
  rw [validateBreaks_ok tracks]
  split <;> exact ⟨_,rfl⟩

theorem structured_admits (sound : survey.Unguarded) (empty : survey.graph.table = []) {cause : StructureError}
    (failed : survey.structured.1 = .error cause) : survey.graph.Admits cause := by
  obtain admitted | ⟨_,_,_,gives,covered,unfinished⟩ := structured_fails (emitAll_ends sound empty _) failed
  · exact admitted
  · have tracked := emitFrom_tracks sound.plain _ _ _ _ _ _ _ _ gives (.outside _ _)
    obtain ⟨result,finished⟩ := complete_fine covered tracked.whole
    cases unfinished.symm.trans finished

end Survey

-- Without an exception table there are just three ways to fail: a cycle with two ways in, an edge that
-- no construct stands for, and a thrown value or a discriminant that is known not to suit.
theorem BlockGraph.structured_failures (graph : BlockGraph) (settings : StructuringSettings) (empty : graph.table = [])
    (plain : graph.Plain) :
    (∃ result, graph.structured settings = .ok result) ∨
      (∃ block, graph.structured settings = .error (.irreducible block)) ∨
      (∃ source target, graph.structured settings = .error (.unresolvedJump source target)) ∨
      ∃ block cause, graph.structured settings = .error (.constraint block cause) ∧ block ∈ graph.live ∧
        (graph.terminator block).Misfit := by
  have admits {cause : StructureError} (failed : graph.structured settings = .error cause) : graph.Admits cause := by
    unfold structured structureLogged at failed
    split at failed
    · rename_i fault made
      cases failed
      rcases Survey.make_error made with ⟨_,_,_,_,rfl⟩ | ⟨grouped,_⟩
      · trivial
      · rw [empty] at grouped
        cases grouped
    · rename_i survey made
      obtain ⟨rfl,sound⟩ := Survey.make_unguarded empty plain made
      exact Survey.structured_admits sound empty failed
  cases outcome : graph.structured settings with
  | ok result => exact Or.inl ⟨result,rfl⟩
  | error cause =>
    have allowed := admits outcome
    cases cause with
    | irreducible block => exact Or.inr (Or.inl ⟨block,rfl⟩)
    | unresolvedJump source target => exact Or.inr (Or.inr (Or.inl ⟨source,target,rfl⟩))
    | constraint block cause => exact Or.inr (Or.inr (Or.inr ⟨block,cause,rfl,allowed⟩))
    | _ => exact allowed.elim

def misthrown : BlockGraph :=
  ⟨[⟨[],.branch (.constant true) 1 2⟩,⟨[advance 1],.goto 0⟩,⟨[],.throw (.plain (.literal (.int 7)))⟩],[],by decide⟩

theorem misthrown_plain : misthrown.Plain :=
  BlockGraph.plain_of_blocks (by simp [misthrown,advance,Statement.isPlain])

theorem misthrown_refused :
    misthrown.structured .default = .error (.constraint 2 (.category "exception" .reference .int)) := by cbv

theorem misthrown_fails : misthrown.table = [] ∧ misthrown.Plain ∧
    misthrown.structured .default = .error (.constraint 2 (.category "exception" .reference .int)) ∧
    2 ∈ misthrown.live ∧ (misthrown.terminator 2).Misfit := by
  have outcomes := misthrown.structured_failures .default rfl misthrown_plain
  rw [misthrown_refused] at outcomes
  rcases outcomes with ⟨_,done⟩ | ⟨_,same⟩ | ⟨_,_,same⟩ | ⟨block,cause,same,reached,misfit⟩
  · cases done
  · cases same
  · cases same
  · cases same
    exact ⟨rfl,misthrown_plain,misthrown_refused,reached,misfit⟩

end Untangle
