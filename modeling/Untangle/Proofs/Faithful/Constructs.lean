import Untangle.Proofs.Emission.Inversion
import Untangle.Proofs.Faithful.Written
import Untangle.Proofs.Flow.Sound
import Untangle.Proofs.Running.Loops
import Untangle.Proofs.Running.Switches
import Untangle.Proofs.Switching.Dispatch
import Untangle.Proofs.Switching.Order

namespace Untangle
namespace Survey
open Emission Meaning
variable {σ : Type u} {ν : Type v} {survey : Survey} {meaning : Meaning σ ν} {emit : Emitter} {scope : Scope}
  {block : BlockId} {stop : Option BlockId} {out out' : Block} {before after : Progress}
  {next : Option BlockId} {default : BlockId}

theorem declared_inside (kind : BreakableKind) (context : Context)
    (declared : scope.Declared before.registry) (fresh : context.id = before.registry.breakables.length) :
    (∀ outer ∈ scope.contexts, outer.id ≠ context.id) ∧
      (scope.inside context).Declared (before.registry.declare kind).2 := by
  refine ⟨?_,?_⟩
  · intro outer member same
    have lower := declared outer member
    rw [same,fresh] at lower
    exact Nat.lt_irrefl _ lower
  · intro inner member
    simp only [Registry.declare,List.length_append,List.length_singleton]
    rcases List.mem_cons.mp member with rfl | member
    · exact fresh ▸ Nat.lt_succ_self _
    · exact Nat.lt_succ_of_lt (declared inner member)

theorem emitBranch_written (faithful : emit.Faithful survey.graph meaning)
    (gives : Gives (survey.emitBranch emit scope block condition thenTarget elseTarget stop out) before
      (out',next) after) (declared : scope.Declared before.registry) :
    Written survey.graph meaning scope (next.or stop) 0
      (fun store => meaning.goes store (.branch condition thenTarget elseTarget)) before.registry out out'
      after.registry := by
  obtain ⟨merge,events,thenBlock,elseBlock,middle,later,openEnded,_,thenArm,elseArm,rest⟩ :=
    emitBranch_gives gives
  obtain ⟨thenGrown,thenFollows⟩ := arm_written faithful thenArm declared
  obtain ⟨elseGrown,elseFollows⟩ := arm_written faithful elseArm (declared.later thenGrown)
  have grown := Registry.extends_trans thenGrown elseGrown
  exact follow_written (.behind grown (.branch (thenFollows.mono elseGrown.continues) elseFollows)) rest

-- Arms stop where the next one starts, so they hang together.
theorem emitArms_chained {pendings : List PendingArm} (faithful : emit.Faithful survey.graph meaning)
    (gives : Gives (emitArms emit scope block stop pendings) before arms after)
    (declared : scope.Declared before.registry) :
    before.registry.Extends after.registry ∧
      Chained survey.graph meaning (after.registry.hasContinue · = true) scope.contexts stop pendings arms := by
  induction pendings generalizing before arms with
  | nil =>
    obtain ⟨rfl,rfl⟩ := emitArms_nil gives
    exact ⟨Registry.extends_refl _,.nil⟩
  | cons current rest ih =>
    obtain ⟨body,middle,others,first,second,rfl⟩ := emitArms_cons gives
    obtain ⟨grown,follows⟩ := arm_written faithful first declared
    obtain ⟨later,chained⟩ := ih second (declared.later grown)
    refine ⟨Registry.extends_trans grown later,.cons rfl ?_ chained⟩
    have follows := follows.mono later.continues
    cases chained with
    | nil => simpa using follows
    | cons _ behind _ => exact follows.append behind

theorem emitSwitch_written (faithful : emit.Faithful survey.graph meaning)
    (at_ : survey.graph.terminator block = .switch discriminant cases default)
    (gives : Gives (survey.emitSwitch emit scope block discriminant cases default stop out) before
      (out',next) after) (declared : scope.Declared before.registry) :
    Written survey.graph meaning scope (next.or stop) 0
      (fun store => meaning.goes store (.switch discriminant cases default)) before.registry out out'
      after.registry := by
  obtain ⟨merge,arms,id,events,built,middle,statement,_,rfl,fresh,rfl,emitted,_,rest⟩ := emitSwitch_gives gives
  obtain ⟨apart,inner⟩ := declared_inside .switch ⟨id,.switch,merge,none⟩ declared fresh
  obtain ⟨grown,chained⟩ := emitArms_chained faithful emitted inner
  have grown := Registry.extends_trans (Registry.declare_extends before.registry .switch) grown
  have listed (arm : PendingArm) :
      arm ∈ (armOrder survey.graph survey.doms.dominates block (PendingArm.group cases default merge)).filterMap
        ((PendingArm.group cases default merge)[·]?) ↔ arm ∈ PendingArm.group cases default merge := by
    rw [List.mem_filterMap]
    constructor
    · rintro ⟨index,_,at_⟩
      exact List.mem_of_getElem? at_
    · intro member
      obtain ⟨index,inside,rfl⟩ := List.mem_iff_getElem.mp member
      exact ⟨index,mem_armOrder inside,List.getElem?_eq_getElem inside⟩
  have distinct := BlockGraph.distinct_cases at_
  refine follow_written (.behind grown (.switch apart chained ?_ ?_)) rest
  · simpa only [listed] using fun value => (PendingArm.group_dispatches distinct value).1
  · simpa only [listed] using fun value => (PendingArm.group_dispatches distinct value).2

end Survey
end Untangle
