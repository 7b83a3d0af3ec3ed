import Untangle.Proofs.Sweeping.Sweeps
import Untangle.Proofs.Switching.Labels

namespace Untangle
open Emission

theorem expect_misfit {param : String} {constraint : Constraint} {expr : Expr} {cause : ConstraintError}
    (failed : expect param constraint expr = .error cause) : constraint.accepts expr.type.category = false := by
  unfold expect expectType at failed
  split at failed
  · cases failed
  · rename_i refused
    simpa using refused

theorem switch_misfit {id : BreakableId} {discriminant : Expr} {cases : List (Int32 × BlockId)} {default : BlockId}
    {arms : List SwitchArm} {cause : ConstraintError} (passes : checkArms [] false arms = .ok ())
    (failed : (Statement.switch id discriminant arms).check = .error cause) :
    (Terminator.switch discriminant cases default).Misfit := by
  change expectBoth _ _ = _ at failed
  unfold expectBoth at failed
  split at failed
  · rename_i refused
    have misfit := expect_misfit refused
    change discriminant.type.category ≠ .unknown ∧ discriminant.type.category ≠ .numeric
    revert misfit
    cases discriminant.type.category <;> decide
  · rw [passes] at failed
    cases failed

theorem throw_misfit {exception : Expr} {cause : ConstraintError}
    (failed : (Statement.throw exception).check = .error cause) : (Terminator.throw exception).Misfit := by
  have misfit := expect_misfit (show expect _ _ exception = .error cause from failed)
  change exception.type.category ≠ .unknown ∧ exception.type.category ≠ .reference
  revert misfit
  cases exception.type.category <;> decide

variable {survey : Survey} {emit : Emitter} {scope : Scope} {stop merge : Option BlockId} {before after : Progress}
  {block thenTarget elseTarget default : BlockId} {condition : Condition} {out : Block} {fuel : Nat}

theorem demand_ends {statement : Statement} (lives : block ∈ survey.graph.live)
    (misfit : ∀ cause, statement.check = .error cause → (survey.graph.terminator block).Misfit) :
    Ends (demand block statement) before (fun built after => built = statement ∧ after = before)
      survey.graph.Admits := by
  unfold demand
  split
  · rename_i cause failed
    exact ⟨lives,misfit cause failed⟩
  · exact ⟨rfl,rfl⟩

namespace Survey

theorem mergePoint_ready (sound : survey.Unguarded) (rooted : survey.graph.Rooted before.taken)
    (here : block ∈ before.taken) (scope : Scope) (stop : Option BlockId) (target : BlockId)
    (found : survey.mergePoint scope before.taken block stop = some target) (apart : some target ≠ stop) :
    survey.graph.Ready before.taken target := by
  rcases mergePoint_cases found with same | ⟨_,behind | below⟩
  · exact absurd same apart
  · exact rooted.post here (sound.postDoms ▸ behind)
  · rw [sound.doms] at below
    exact rooted.child here (Dominance.mem_children.mp below).2

theorem merge_outside (sound : survey.Unguarded) (placed : Placed survey scope stop before)
    (ready : ∀ target, merge = some target → some target ≠ stop → survey.graph.Ready before.taken target)
    (target : BlockId) (found : merge = some target) :
    Outside survey.loops before.taken before.entered target := by
  by_cases same : some target = stop
  · exact placed.outside target (Or.inl same)
  · exact (ready target found same).outside sound.complete _

theorem emitBranch_ends (sound : survey.Unguarded) (safe : emit.Safe survey fuel)
    (placed : Placed survey scope stop before) (here : block ∈ before.taken)
    (at_ : survey.graph.terminator block = .branch condition thenTarget elseTarget)
    (enough : survey.remaining before ≤ fuel) :
    Ends (survey.emitBranch emit scope block condition thenTarget elseTarget stop out) before
      (fun onward after => Continues survey scope stop (fun other => scope.isJumpTarget other = true)
          before onward after ∧
        ∀ target ∈ survey.graph.successors block, Meanwhile before after target ∨ Proceeds scope stop onward.2 target)
      survey.graph.Admits := by
  have leads (target : BlockId) : target ∈ survey.graph.successors block ↔ target = thenTarget ∨ target = elseTarget :=
    BlockGraph.successors_branch at_
  unfold emitBranch
  rw [ends_get,ends_bind]
  dsimp only
  have ready := mergePoint_ready sound placed.rooted here scope stop
  generalize survey.mergePoint scope before.taken block stop = merge at ready
  refine (log_ends _).mono ?_
  rintro _ _ _ rfl
  generalize before.events ++ _ = events
  have start : Placed survey scope (merge.or stop) {before with events} :=
    (placed.stopping merge (merge_outside sound placed ready)).recorded placed.known
  rw [ends_bind]
  refine (arm_ends safe start (placed.rooted.edge here ((leads _).mpr (Or.inl rfl))) enough).mono ?_
  rintro thenBlock middle _ ⟨first,thenServed,known⟩
  rw [ends_bind]
  have second := (placed.rooted.edge here ((leads _).mpr (Or.inr rfl))).more first.taken
  refine (arm_ends safe (start.later known first) second
    (Nat.le_trans (remaining_mono first.taken first.entered) enough)).mono ?_
  rintro elseBlock later _ ⟨more,elseServed,known⟩
  have both := first.trans more fun _ ended => Or.inr ended
  refine (follow_continues (both.mono (fun _ => Leaves.or) fun _ keep => keep) known fun target found apart =>
    (ready target found apart).more both.taken).mono ?_
  rintro onward after _ ⟨continues,same,proceeds⟩
  refine ⟨⟨continues.sweeps.since,continues.known,continues.next⟩,?_⟩
  have served {target : BlockId} (there : Meanwhile before later target ∨ Leaves scope (merge.or stop) target) :
      Meanwhile before after target ∨ Proceeds scope stop onward.2 target := by
    rcases there with taken | leaves
    · exact Or.inl ⟨same ▸ taken.1,taken.2⟩
    · exact Or.inr (leaves.or.elim Or.inl (proceeds target))
  intro target edge
  rcases (leads target).mp edge with rfl | rfl
  · exact served (thenServed.imp_left fun there => there.until more.taken)
  · exact served (elseServed.imp_left fun there => there.since first.taken)

theorem emitArms_ends {pendings : List PendingArm} (sound : survey.Unguarded) (safe : emit.Safe survey fuel)
    (placed : Placed survey scope stop before)
    (ready : ∀ arm ∈ pendings, survey.graph.Ready before.taken arm.entry) (enough : survey.remaining before ≤ fuel) :
    Ends (emitArms emit scope block stop pendings) before (fun built after =>
      Sweeps survey.graph (Leaves scope stop) (fun other => scope.isJumpTarget other = true) before after ∧
        (∀ arm ∈ pendings, Meanwhile before after arm.entry ∨ Leaves scope stop arm.entry) ∧
        built.map (·.labels) = pendings.map (·.emitted)) survey.graph.Admits := by
  -- One arm of a list, up to the entry of the next one.
  induction pendings generalizing before with
  | nil => exact ⟨.refl placed.rooted,by simp,rfl⟩
  | cons current rest ih =>
    cases rest with
    | nil =>
      unfold emitArms
      rw [ends_bind]
      refine (arm_ends safe placed (ready current List.mem_cons_self) enough).mono ?_
      rintro body after _ ⟨sweeps,served,_⟩
      exact ⟨sweeps,by simpa using served,rfl⟩
    | cons next rest =>
      unfold emitArms
      rw [ends_bind]
      have following := ready next (List.mem_cons_of_mem _ List.mem_cons_self)
      have start : Placed survey scope (some next.entry) before := by
        refine placed.stopping (some next.entry) fun target same => ?_
        cases same
        exact following.outside sound.complete _
      refine (arm_ends safe start (ready current List.mem_cons_self) enough).mono ?_
      rintro body middle _ ⟨first,served,known⟩
      rw [ends_bind]
      refine (ih (placed.later known first) (fun arm member =>
        (ready arm (List.mem_cons_of_mem _ member)).more first.taken)
        (Nat.le_trans (remaining_mono first.taken first.entered) enough)).mono ?_
      rintro built after _ ⟨second,others,labels⟩
      -- Where an arm falls into the next one, that one has been emitted or its entry is an end.
      have closes (target : BlockId) (leaves : Leaves scope (some next.entry) target) :
          Meanwhile middle after target ∨ Leaves scope stop target := by
        rcases leaves with stops | jumps
        · cases stops
          exact others next List.mem_cons_self
        · exact Or.inr (Or.inr jumps)
      refine ⟨first.trans second closes,?_,congrArg (current.emitted :: ·) labels⟩
      intro arm member
      rcases List.mem_cons.mp member with rfl | member
      · rcases served with taken | leaves
        · exact Or.inl (taken.until second.taken)
        · exact (closes _ leaves).imp_left fun there => there.since first.taken
      · exact (others arm member).imp_left fun there => there.since first.taken

theorem inside_switch {id : BreakableId} {target : BlockId}
    (leaves : Leaves (scope.inside ⟨id,.switch,merge,none⟩) (merge.or stop) target) :
    Leaves scope stop target ∨ merge = some target := by
  rcases leaves with stops | jumps
  · exact Leaves.or (Or.inl stops)
  · rcases Scope.inside_jumps.mp jumps with breaks | continues | jumps
    · exact Or.inr breaks
    · cases continues
    · exact Or.inl (Or.inr jumps)

theorem emitSwitch_ends {discriminant : Expr} {cases : List (Int32 × BlockId)} (sound : survey.Unguarded)
    (safe : emit.Safe survey fuel) (tracks : emit.Tracks) (placed : Placed survey scope stop before)
    (here : block ∈ before.taken) (at_ : survey.graph.terminator block = .switch discriminant cases default)
    (enough : survey.remaining before ≤ fuel) :
    Ends (survey.emitSwitch emit scope block discriminant cases default stop out) before
      (fun onward after => Continues survey scope stop (fun other => scope.isJumpTarget other = true)
          before onward after ∧
        ∀ target ∈ survey.graph.successors block, Meanwhile before after target ∨ Proceeds scope stop onward.2 target)
      survey.graph.Admits := by
  have leads := BlockGraph.successors_switch at_
  unfold emitSwitch
  rw [ends_get]
  dsimp only
  rw [ends_bind]
  have ready := mergePoint_ready sound placed.rooted here scope stop
  generalize survey.mergePoint scope before.taken block stop = merge at ready
  refine (log_ends _).mono ?_
  rintro _ _ _ rfl
  rw [ends_bind]
  refine (declare_ends .switch).mono ?_
  rintro id _ _ ⟨rfl,rfl⟩
  dsimp only
  generalize before.events ++ _ = events
  have perm := ordered_perm survey.graph survey.doms.dominates block (PendingArm.group cases default merge)
  have passes (built : List SwitchArm) := switch_arms_ok survey.graph survey.doms.dominates block default merge built
    (BlockGraph.distinct_cases at_)
  generalize (armOrder survey.graph survey.doms.dominates block (PendingArm.group cases default merge)).filterMap _ =
    ordered at perm passes
  have start :
      Placed survey (scope.inside ⟨before.registry.breakables.length,.switch,merge,none⟩) (merge.or stop)
        {before with registry:=(before.registry.declare .switch).2,events} := by
    refine ⟨placed.rooted,placed.known.inside .switch merge none (by simp),fun target leaves => ?_⟩
    exact (inside_switch leaves).elim (placed.outside target) (merge_outside sound placed ready target)
  have entries (arm : PendingArm) (member : arm ∈ ordered) : survey.graph.Ready before.taken arm.entry := by
    refine placed.rooted.edge here ?_
    rw [leads]
    exact PendingArm.group_entry (perm.mem_iff.mp member)
  rw [ends_bind]
  refine ((emitArms_ends sound safe start entries enough).and fun built middle gives =>
    emitArms_tracked tracks gives start.known).mono ?_
  rintro built middle _ ⟨⟨sweeps,served,labels⟩,inner⟩
  have tracked := switch_tracked discriminant inner
  have known := placed.known.grown tracked
  rw [ends_bind]
  have lives := sound.ordered block (placed.rooted block here).1
  refine (demand_ends lives fun cause failed => ?_).mono ?_
  · rw [at_]
    exact switch_misfit (passes built labels) failed
  rintro _ middle _ ⟨rfl,rfl⟩
  rw [ends_bind]
  refine (checkConstruct_ends placed.known tracked).mono ?_
  rintro _ middle _ rfl
  have whole : Sweeps survey.graph (fun other => Leaves scope stop other ∨ merge = some other)
      (fun other => scope.isJumpTarget other = true) before middle :=
    (sweeps.mono (fun _ => inside_switch) fun _ jumps => Scope.inside_jumps.mpr (Or.inr (Or.inr jumps))).since
  refine (follow_continues whole known fun target found apart => (ready target found apart).more whole.taken).mono ?_
  rintro onward after _ ⟨continues,same,proceeds⟩
  refine ⟨continues,fun target edge => ?_⟩
  rw [leads] at edge
  have ends (leaves : Leaves scope stop target ∨ merge = some target) :
      Meanwhile before after target ∨ Proceeds scope stop onward.2 target :=
    Or.inr (leaves.elim Or.inl (proceeds target))
  rcases PendingArm.group_reaches merge edge with same | ⟨arm,member,rfl⟩
  · exact ends (Or.inr same)
  · rcases served arm (perm.mem_iff.mpr member) with taken | leaves
    · exact Or.inl ⟨same ▸ taken.1,taken.2⟩
    · exact ends (inside_switch leaves)

end Survey
end Untangle
