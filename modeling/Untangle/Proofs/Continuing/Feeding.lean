import Untangle.Proofs.Breaks.Consistency
import Untangle.Proofs.Continuing.Narrow
import Untangle.Proofs.Sweeping.Careful
import Untangle.Proofs.Switching.Dispatch

namespace Untangle
open Emission

namespace Registry
variable {before after registry changed : Registry} {marks : List Mark} {id target : BreakableId} {kind : BreakableKind}

-- A jump is listed for the breakable that is not known to be a break.
def MayContinue (registry : Registry) (id : BreakableId) : Prop :=
  ∃ brk ∈ registry.breaks id, ∀ kind, registry.kinds[brk]? = some kind → kind = .continue

theorem mayContinue_of (continued : registry.hasContinue id = true) : registry.MayContinue id := by
  obtain ⟨brk,listed,continues⟩ := hasContinue_iff.mp continued
  exact ⟨brk,listed,fun kind known => Option.some.inj (known.symm.trans continues)⟩

theorem Tracks.mayContinue (tracks : before.Tracks marks after) (may : after.MayContinue id) :
    before.MayContinue id ∨ ∃ jump ∈ jumpsOf marks, jump.target = some id ∧ jump.kind = .continue := by
  obtain ⟨brk,listed,continues⟩ := may
  rcases List.mem_append.mp ((tracks.listed id).symm.subset listed) with early | aimed
  · refine Or.inl ⟨brk,early,fun kind known => continues kind ?_⟩
    obtain ⟨more,same⟩ := tracks.labels
    rw [← same,List.getElem?_append_left (List.getElem?_eq_some_iff.mp known).1,known]
  · obtain ⟨jump,member,aims,rfl⟩ := Tracks.mem_aimedAt.mp aimed
    exact Or.inr ⟨jump,member,aims,continues _ (tracks.labelled jump member)⟩

theorem mayContinue_declare (may : (registry.declare kind).2.MayContinue id) : registry.MayContinue id := by
  obtain ⟨brk,listed,continues⟩ := may
  exact ⟨brk,breaks_declare registry kind id ▸ listed,continues⟩

theorem mayContinue_setKind (done : registry.setKind target kind = .ok changed) (may : changed.MayContinue id) :
    registry.MayContinue id := by
  unfold setKind at done
  split at done
  · cases done
  · split at done <;> cases done
    obtain ⟨brk,listed,continues⟩ := may
    refine ⟨brk,?_,continues⟩
    rw [breaks_modifyEntry] at listed
    split at listed
    · unfold breaks
      cases at_ : registry.breakables[id]? with
      | none => simp [at_] at listed
      | some entry => simpa [at_] using listed
    · exact listed

theorem mayContinue_fresh (fresh : registry.breakables.length ≤ id) : ¬registry.MayContinue id := by
  rintro ⟨brk,listed,_⟩
  rw [breaks_fresh fresh] at listed
  cases listed

end Registry

namespace DoLoop

-- From inside a `do` loop, and up to a block of it or to its latch.
structure Inside (doing : DoLoop) (survey : Survey) (scope : Scope) (stop : Option BlockId) (before : Progress) :
    Prop where
  context : doing.context ∈ scope.contexts
  stops : ∃ place, stop = some place ∧ (place = doing.latch ∨ doing.Between place)
  entered : doing.loop.header ∈ before.entered
  known : scope.Known before.registry
  rooted : survey.graph.Rooted before.taken

def Exposed (doing : DoLoop) (scope : Scope) : Prop :=
  ∃ resolved, resolveJump? doing.latch scope.contexts = some resolved ∧ resolved.context.id = doing.id

-- Where the latch has been continued meanwhile, it has been so from the block that feeds it, and a block of the
-- loop is still to come.
def Fed (doing : DoLoop) (scope : Scope) (ends : BlockId → Prop) (before after : Progress) : Prop :=
  after.registry.MayContinue doing.id → before.registry.MayContinue doing.id ∨
    doing.Exposed scope ∧ doing.feeder ∈ after.taken ∧ ∃ target, doing.Between target ∧ ends target

def FedPast (doing : DoLoop) (scope : Scope) (exit : Option BlockId) (before after : Progress) : Prop :=
  after.registry.MayContinue doing.id → before.registry.MayContinue doing.id ∨
    doing.Exposed scope ∧ doing.feeder ∈ after.taken ∧ exit ≠ some doing.latch

variable {doing : DoLoop} {survey : Survey} {scope : Scope} {context : Context} {stop merge : Option BlockId}
  {block source target : BlockId} {before middle after : Progress} {ends other kept : BlockId → Prop}
  {out body : Block} {onward : Onward} {registry : Registry} {events : List Event} {fuel : Nat}

namespace Inside

theorem later (inside : doing.Inside survey scope stop before) (sweeps : Sweeps survey.graph ends kept before after)
    (known : scope.Known after.registry) : doing.Inside survey scope stop after :=
  ⟨inside.context,inside.stops,sweeps.entered _ inside.entered,known,sweeps.rooted⟩

theorem recorded (inside : doing.Inside survey scope stop before) (known : scope.Known registry) :
    doing.Inside survey scope stop {before with registry,events} :=
  ⟨inside.context,inside.stops,inside.entered,known,inside.rooted⟩

theorem stopping (inside : doing.Inside survey scope stop before)
    (places : ∀ target, merge = some target → some target ≠ stop → target = doing.latch ∨ doing.Between target) :
    doing.Inside survey scope (merge.or stop) before := by
  refine ⟨inside.context,?_,inside.entered,inside.known,inside.rooted⟩
  cases merge with
  | none => exact inside.stops
  | some target =>
    by_cases same : some target = stop
    · exact same ▸ inside.stops
    · exact ⟨target,rfl,places target rfl same⟩

theorem jumps (inside : doing.Inside survey scope stop before) :
    scope.isJumpTarget doing.exit = true ∧ scope.isJumpTarget doing.latch = true :=
  ⟨List.any_eq_true.mpr ⟨_,inside.context,by simp [DoLoop.context]⟩,
    List.any_eq_true.mpr ⟨_,inside.context,by simp [DoLoop.context]⟩⟩

theorem free (inside : doing.Inside survey scope stop before)
    (ways : target = doing.exit ∨ target = doing.latch ∨ doing.Between target)
    (free : scope.isJumpTarget target = false) : doing.Between target := by
  rcases ways with rfl | rfl | between
  · cases free.symm.trans inside.jumps.1
  · cases free.symm.trans inside.jumps.2
  · exact between

theorem taking (inside : doing.Inside survey scope stop before) (ready : survey.graph.Ready before.taken block) :
    doing.Inside survey scope stop {before with taken:=block :: before.taken} :=
  ⟨inside.context,inside.stops,inside.entered,inside.known,inside.rooted.take ready⟩

theorem looping {again : BlockId} (inside : doing.Inside survey scope stop before) (kind : BreakableKind)
    (loops : kind.isLoop = true) (region : List BlockId) (exit : Option BlockId) (turning : doing.Between again) :
    doing.Inside survey (scope.looping region before.registry.breakables.length kind exit again) (some again)
      {before with registry:=(before.registry.declare kind).2} :=
  ⟨List.mem_cons_of_mem _ inside.context,⟨again,rfl,Or.inr turning⟩,inside.entered,
    (inside.known.narrow region).inside kind _ _ fun _ _ => loops,inside.rooted⟩

end Inside

theorem Exposed.outer (exposed : doing.Exposed (scope.inside context)) (known : (scope.inside context).Known registry)
    (within : doing.context ∈ scope.contexts) : doing.Exposed scope ∧ context.breakTarget ≠ some doing.latch := by
  obtain ⟨resolved,found,same⟩ := exposed
  have apart : context.id ≠ doing.id := by
    have distinct := known.distinct
    intro equal
    refine (List.nodup_cons.mp distinct).1 (List.mem_map.mpr ⟨_,within,equal.symm⟩)
  change resolveJump? doing.latch (context :: scope.contexts) = some resolved at found
  unfold resolveJump? at found
  split at found
  · cases found
    exact absurd same apart
  · rename_i passes
    obtain ⟨inner,further,rfl⟩ := Option.map_eq_some_iff.mp found
    refine ⟨⟨inner,further,same⟩,fun breaks => ?_⟩
    unfold Context.jumpKind? at passes
    split at passes <;> cases passes

namespace Fed

theorem still (ends : BlockId → Prop) (may : after.registry.MayContinue doing.id → before.registry.MayContinue doing.id) :
    doing.Fed scope ends before after := fun later => Or.inl (may later)

theorem mono (fed : doing.Fed scope ends before after) (more : ∀ target, ends target → other target) :
    doing.Fed scope other before after := by
  intro may
  rcases fed may with earlier | ⟨exposed,taken,target,between,ended⟩
  · exact Or.inl earlier
  · exact Or.inr ⟨exposed,taken,target,between,more target ended⟩

theorem next (first : doing.Fed scope ends before middle) (second : doing.Fed scope other middle after)
    (taken : ∀ block ∈ middle.taken, block ∈ after.taken)
    (closes : doing.feeder ∈ middle.taken → ∀ target, doing.Between target → ends target →
      ∃ further, doing.Between further ∧ other further) : doing.Fed scope other before after := by
  intro may
  rcases second may with earlier | late
  · rcases first earlier with earliest | ⟨exposed,fed,target,between,ended⟩
    · exact Or.inl earliest
    · exact Or.inr ⟨exposed,taken _ fed,closes fed target between ended⟩
  · exact Or.inr late

theorem trans (narrow : doing.Narrow survey) (sound : survey.Unguarded) (first : doing.Fed scope ends before middle)
    (second : doing.Fed scope other middle after) (sweeps : Sweeps survey.graph other kept middle after)
    (closes : ∀ target, ends target → Meanwhile middle after target ∨ other target) :
    doing.Fed scope other before after := by
  refine first.next second sweeps.taken fun fed target between ended => ?_
  rcases closes target ended with new | ended
  · exact narrow.escapes sound between new fed sweeps
  · exact ⟨target,between,ended⟩

theorem past {again : BlockId} {id : BreakableId} {kind : BreakableKind} {region : List BlockId} {exit : Option BlockId}
    (fed : doing.Fed (scope.looping region id kind exit again) ends middle after)
    (known : (scope.looping region id kind exit again).Known middle.registry) (within : doing.context ∈ scope.contexts)
    (may : middle.registry.MayContinue doing.id → before.registry.MayContinue doing.id) :
    doing.FedPast scope exit before after := by
  intro later
  rcases fed later with earlier | ⟨exposed,taken,_⟩
  · exact Or.inl (may earlier)
  · obtain ⟨outer,apart⟩ := exposed.outer known within
    exact Or.inr ⟨outer,taken,apart⟩

end Fed

def FedBy (doing : DoLoop) (survey : Survey) (emit : Emitter) : Prop :=
  ∀ scope block stop out before out' after, Gives (emit scope block stop out) before out' after →
    doing.Inside survey scope stop before → block ∈ doing.loop.body → block ≠ doing.latch →
    doing.Fed scope (Leaves scope stop) before after

theorem flowTo_feeds (gives : Gives (flowTo scope source target stop out) before onward after)
    (inside : doing.Inside survey scope stop before)
    (fed : some target ≠ stop → target = doing.latch → doing.feeder ∈ before.taken) :
    doing.Fed scope (Leaves scope stop) before after ∧ (∃ registry events, after = {before with registry,events}) ∧
      scope.Known after.registry ∧ Goes scope stop before.taken target onward.2 := by
  obtain ⟨⟨registry,events,same,known⟩,goes⟩ :=
    (show Ends _ before _ survey.graph.Admits from flowTo_ends inside.known).holds gives
  refine ⟨?_,⟨registry,events,same⟩,same ▸ known,goes⟩
  rcases gives_flowTo gives with ⟨_,_,rfl⟩ | ⟨apart,resolved,result,found,jumped,_⟩ | ⟨_,_,_,_,_,rfl⟩
  · exact .still _ fun may => may
  · obtain ⟨changed,brk,_,registered,_,rfl⟩ := gives_jump jumped
    obtain ⟨_,_,fits⟩ := resolveJump_fits before.registry.kinds.length found inside.known.distinct inside.known.loops
    intro may
    rcases (Registry.Tracks.jump registered fits).2.mayContinue may with earlier | ⟨jump,listed,aims,continues⟩
    · exact Or.inl earlier
    · cases List.mem_singleton.mp listed
      obtain ⟨member,leads⟩ := resolveJump_sound found
      have own : resolved.context = doing.context :=
        List.inj_on_of_nodup_map inside.known.distinct member inside.context (Option.some.inj aims)
      rw [show resolved.kind = .continue from continues,own] at leads
      obtain rfl : doing.latch = target := Option.some.inj leads
      obtain ⟨place,rfl,between⟩ := inside.stops
      have further := between.resolve_left fun latch => apart (congrArg some latch.symm)
      exact Or.inr ⟨⟨resolved,found,Option.some.inj aims⟩,fed apart rfl,place,further,Or.inl rfl⟩
  · exact .still _ fun may => may

theorem follow_feeds (gives : Gives (follow scope source merge stop out) before onward after)
    (inside : doing.Inside survey scope stop before)
    (fed : ∀ target, merge = some target → some target ≠ stop → target = doing.latch → doing.feeder ∈ before.taken)
    (ways : ∀ target, merge = some target → some target ≠ stop →
      target = doing.exit ∨ target = doing.latch ∨ doing.Between target) :
    doing.Fed scope (Leaves scope stop) before after ∧ after.taken = before.taken ∧
      (∀ target, merge = some target → Proceeds scope stop onward.2 target) ∧
      ∀ target, onward.2 = some target → doing.Between target := by
  unfold follow at gives
  cases merge with
  | none =>
    obtain ⟨rfl,rfl⟩ := gives_pure.mp gives
    exact ⟨.still _ fun may => may,rfl,by simp,by simp⟩
  | some place =>
    obtain ⟨feeds,⟨registry,events,rfl⟩,_,goes⟩ := flowTo_feeds gives inside (fed place rfl)
    refine ⟨feeds,rfl,fun target same => ?_,fun target same => ?_⟩
    · cases same
      cases next : onward.2 with
      | none =>
        rw [next] at goes
        exact Or.inl goes
      | some block =>
        rw [next] at goes
        exact Or.inr (congrArg some goes.1)
    · rw [same] at goes
      obtain ⟨rfl,_,free,apart⟩ := goes
      exact inside.free (ways target rfl apart) free

theorem merge_feeds (gives : Gives (follow scope source merge stop out) before onward after)
    (inside : doing.Inside survey scope stop before)
    (merges : ∀ target, merge = some target → some target ≠ stop → doing.Between target) :
    doing.Fed scope (Leaves scope stop) before after ∧ after.taken = before.taken ∧
      (∀ target, merge = some target → Proceeds scope stop onward.2 target) ∧
      ∀ target, onward.2 = some target → doing.Between target :=
  follow_feeds gives inside (fun target same goes latch => absurd latch (merges target same goes).2.2)
    fun target same goes => Or.inr (Or.inr (merges target same goes))

section Emitters
variable (narrow : doing.Narrow survey) (sound : survey.Unguarded) (feeds : doing.FedBy survey (survey.carefulFrom fuel))
include sound feeds

theorem arm_feeds (gives : Gives (arm (survey.carefulFrom fuel) scope source target stop) before body after)
    (inside : doing.Inside survey scope stop before)
    (ways : target = doing.exit ∨ target = doing.latch ∨ doing.Between target)
    (fed : target = doing.latch → doing.feeder ∈ before.taken) :
    doing.Fed scope (Leaves scope stop) before after ∧
      Sweeps survey.graph (Leaves scope stop) (fun _ => False) before after ∧ scope.Known after.registry ∧
      (Meanwhile before after target ∨ Leaves scope stop target) := by
  obtain ⟨start,next,middle,flows,rest⟩ := gives_arm gives
  obtain ⟨first,⟨registry,events,rfl⟩,known,goes⟩ := flowTo_feeds flows inside fun _ => fed
  unfold Emission.sequence at rest
  cases next with
  | none =>
    obtain ⟨rfl,rfl⟩ := gives_pure.mp rest
    exact ⟨first,.refl inside.rooted,known,Or.inr goes⟩
  | some block =>
    obtain ⟨rfl,fresh,free,apart⟩ := goes
    dsimp only at rest
    rw [if_neg apart] at rest
    have between := inside.free ways free
    have further := feeds _ _ _ _ _ _ _ rest (inside.recorded known) between.1 between.2.2
    obtain ⟨_,here,sweeps,known'⟩ := Survey.carefulFrom_gives sound rest
    refine ⟨first.next further sweeps.taken fun _ target between ended => ⟨target,between,ended⟩,?_,known',
      Or.inl ⟨here,fresh⟩⟩
    exact (sweeps.mono (fun _ ended => ended) fun _ never => never.elim).since

theorem emitPostTested_feeds {inner : NaturalLoop} {region : List BlockId} {condition : Condition}
    {latch leaving : BlockId} {statement : Statement}
    (gives : Gives (survey.emitPostTested (survey.carefulFrom fuel) scope inner region latch condition leaving) before
      statement after) (only : inner.latches = [latch]) (entered : Entered survey scope stop inner before)
    (inside : doing.Inside survey scope stop before) (own : ∀ source ∈ inner.body, doing.Between source) :
    scope.Known after.registry ∧ doing.FedPast scope (some leaving) before after := by
  refine ⟨inside.known.grown (Survey.emitPostTested_tracked (Survey.carefulFrom_tracks sound fuel) sound.plain gives
    inside.known),?_⟩
  obtain ⟨id,body,middle,rfl,_,built,_,rfl⟩ := Survey.emitPostTested_gives gives
  have natural := entered.natural sound
  rcases built with ⟨_,_,rfl⟩ | ⟨_,emitted⟩
  · exact fun may => Or.inl (Registry.mayContinue_declare may)
  · have start := inside.looping .doWhile rfl region (some leaving) (own latch (natural.latch_mem (by simp [only])))
    have header := own _ natural.header_mem
    have fed := feeds _ _ _ _ _ _ _ emitted start header.1 header.2.2
    intro may
    refine (fed.past start.known inside.context Registry.mayContinue_declare may).imp_right ?_
    exact fun ⟨exposed,taken,apart⟩ => ⟨exposed,List.mem_cons_of_mem _ taken,apart⟩

theorem emitEndless_feeds {inner : NaturalLoop} {region : List BlockId} {exit : Option BlockId} {statement : Statement}
    (gives : Gives (Survey.emitEndless (survey.carefulFrom fuel) scope inner region exit) before statement after)
    (entered : Entered survey scope stop inner before) (inside : doing.Inside survey scope stop before)
    (own : ∀ source ∈ inner.body, doing.Between source) :
    scope.Known after.registry ∧ doing.FedPast scope exit before after := by
  refine ⟨inside.known.grown (Survey.emitEndless_tracked (Survey.carefulFrom_tracks sound fuel) gives inside.known),?_⟩
  obtain ⟨id,body,rfl,_,emitted⟩ := Survey.emitEndless_gives gives
  have header := own _ (entered.natural sound).header_mem
  have start := inside.looping .whileLoop rfl region exit header
  have fed := feeds _ _ _ _ _ _ _ emitted start header.1 header.2.2
  exact fed.past start.known inside.context Registry.mayContinue_declare

include narrow

theorem emitBranch_feeds {condition : Condition} {thenTarget elseTarget : BlockId}
    (gives : Gives (survey.emitBranch (survey.carefulFrom fuel) scope block condition thenTarget elseTarget stop out)
      before onward after)
    (at_ : survey.graph.terminator block = .branch condition thenTarget elseTarget)
    (inside : doing.Inside survey scope stop before) (within : block ∈ doing.loop.body) (apart : block ≠ doing.latch)
    (here : block ∈ before.taken) (header : doing.loop.header ∈ before.taken) :
    doing.Fed scope (Proceeds scope stop onward.2) before after ∧
      ∀ target, onward.2 = some target → doing.Between target := by
  obtain ⟨merge,events,thenBlock,elseBlock,middle,later,openEnded,found,thenArm,elseArm,rest⟩ :=
    Survey.emitBranch_gives gives
  have merges (target : BlockId) (same : merge = some target) (goes : some target ≠ stop) : doing.Between target :=
    narrow.merge_between sound within header inside.context (found ▸ same) goes
  have start : doing.Inside survey scope (merge.or stop) {before with events} :=
    (inside.recorded inside.known).stopping fun target same goes => Or.inr (merges target same goes)
  have edge {target : BlockId} (leads : target = thenTarget ∨ target = elseTarget) :
      target ∈ survey.graph.successors block := (BlockGraph.successors_branch at_).mpr leads
  have feeder {target : BlockId} (leads : target = thenTarget ∨ target = elseTarget) (same : target = doing.latch) :
      doing.feeder ∈ before.taken := narrow.single block (same ▸ edge leads) ▸ here
  obtain ⟨one,first,known,_⟩ := arm_feeds sound feeds thenArm start (narrow.leads sound within apart (edge (Or.inl rfl)))
    (feeder (Or.inl rfl))
  obtain ⟨two,second,known,_⟩ := arm_feeds sound feeds elseArm (start.later first known)
    (narrow.leads sound within apart (edge (Or.inr rfl))) fun same => first.taken _ (feeder (Or.inr rfl) same)
  have both := one.trans narrow sound two second fun _ ended => Or.inr ended
  have sweeps := first.trans second fun _ ended => Or.inr ended
  obtain ⟨behind,taken,proceeds,next⟩ := merge_feeds rest ((inside.recorded inside.known).later sweeps known) merges
  refine ⟨Fed.next both (behind.mono fun _ => Or.inl) (by simp [taken]) fun _ target between ended => ?_,next⟩
  exact ⟨target,between,ended.or.elim Or.inl (proceeds target)⟩

theorem emitArms_feeds {pendings : List PendingArm} {arms : List SwitchArm}
    (gives : Gives (Survey.emitArms (survey.carefulFrom fuel) scope source stop pendings) before arms after)
    (inside : doing.Inside survey scope stop before)
    (entries : ∀ arm ∈ pendings, arm.entry = doing.latch ∨ doing.Between arm.entry)
    (fed : ∀ arm ∈ pendings, arm.entry = doing.latch → doing.feeder ∈ before.taken) :
    doing.Fed scope (Leaves scope stop) before after ∧
      Sweeps survey.graph (Leaves scope stop) (fun _ => False) before after ∧ scope.Known after.registry ∧
      ∀ arm ∈ pendings, Meanwhile before after arm.entry ∨ Leaves scope stop arm.entry := by
  induction pendings generalizing before arms with
  | nil =>
    obtain ⟨rfl,rfl⟩ := Survey.emitArms_nil gives
    exact ⟨.still _ fun may => may,.refl inside.rooted,inside.known,by simp⟩
  | cons current rest ih =>
    obtain ⟨body,middle,others,emitted,further,rfl⟩ := Survey.emitArms_cons gives
    obtain ⟨own,entries⟩ := List.forall_mem_cons.mp entries
    obtain ⟨lone,fed⟩ := List.forall_mem_cons.mp fed
    have follows {target : BlockId} (same : rest.head?.map (·.entry) = some target) :
        ∃ next ∈ rest, next.entry = target := by
      obtain ⟨next,first,entry⟩ := Option.map_eq_some_iff.mp same
      exact ⟨next,List.mem_of_head? first,entry⟩
    have start : doing.Inside survey scope ((rest.head?.map (·.entry)).or stop) before := by
      refine inside.stopping fun target same _ => ?_
      obtain ⟨next,member,rfl⟩ := follows same
      exact entries next member
    obtain ⟨one,first,known,served⟩ := arm_feeds sound feeds emitted start (Or.inr own) lone
    obtain ⟨two,second,known,others⟩ := ih further (inside.later first known) entries fun arm member same =>
      first.taken _ (fed arm member same)
    -- Where an arm falls into the next one, that one is served by what comes behind it.
    have closes (target : BlockId) (leaves : Leaves scope ((rest.head?.map (·.entry)).or stop) target) :
        Meanwhile middle after target ∨ Leaves scope stop target := by
      rcases leaves.or with leaves | same
      · exact Or.inr leaves
      · obtain ⟨next,member,rfl⟩ := follows same
        exact others next member
    refine ⟨one.trans narrow sound two second closes,first.trans second closes,known,?_⟩
    intro arm member
    rcases List.mem_cons.mp member with rfl | member
    · rcases served with taken | leaves
      · exact Or.inl (taken.until second.taken)
      · exact (closes _ leaves).imp_left fun there => there.since first.taken
    · exact (others arm member).imp_left fun there => there.since first.taken

theorem emitSwitch_feeds {discriminant : Expr} {cases : List (Int32 × BlockId)} {default : BlockId}
    (gives : Gives (survey.emitSwitch (survey.carefulFrom fuel) scope block discriminant cases default stop out)
      before onward after)
    (at_ : survey.graph.terminator block = .switch discriminant cases default)
    (inside : doing.Inside survey scope stop before) (within : block ∈ doing.loop.body) (apart : block ≠ doing.latch)
    (here : block ∈ before.taken) (header : doing.loop.header ∈ before.taken) :
    doing.Fed scope (Proceeds scope stop onward.2) before after ∧
      ∀ target, onward.2 = some target → doing.Between target := by
  obtain ⟨merge,arms,id,events,built,middle,statement,found,grouped,rfl,rfl,emitted,_,rest⟩ :=
    Survey.emitSwitch_gives gives
  have merges (target : BlockId) (same : merge = some target) (goes : some target ≠ stop) : doing.Between target :=
    narrow.merge_between sound within header inside.context (found ▸ same) goes
  have edges : ∀ arm ∈ (armOrder survey.graph survey.doms.dominates block arms).filterMap (arms[·]?),
      arm.entry ∈ survey.graph.successors block := by
    subst grouped
    exact fun arm member => PendingArm.ordered_entry at_ member
  have entries : ∀ arm ∈ (armOrder survey.graph survey.doms.dominates block arms).filterMap (arms[·]?),
      arm.entry = doing.latch ∨ doing.Between arm.entry := by
    intro arm member
    have stays := narrow.leaves.switches block within _ _ _ at_ _ (edges arm member)
    exact (narrow.leads sound within apart (edges arm member)).resolve_left (narrow.within_apart stays)
  have start : doing.Inside survey (scope.inside ⟨before.registry.breakables.length,.switch,merge,none⟩)
      (merge.or stop) {before with registry:=(before.registry.declare .switch).2,events} := by
    have along := inside.stopping fun target same goes => Or.inr (merges target same goes)
    exact ⟨List.mem_cons_of_mem _ inside.context,along.stops,inside.entered,inside.known.inside .switch merge none (by simp),
      inside.rooted⟩
  obtain ⟨first,sweeps,known,_⟩ := emitArms_feeds narrow sound feeds emitted start entries fun arm member same =>
    narrow.single block (same ▸ edges arm member) ▸ here
  have tracked := Survey.switch_tracked discriminant (Survey.emitArms_tracked (Survey.carefulFrom_tracks sound fuel) emitted start.known)
  obtain ⟨behind,taken,proceeds,next⟩ := merge_feeds rest (inside.later sweeps.since (inside.known.grown tracked)) merges
  refine ⟨?_,next⟩
  have around : doing.Fed scope (fun target => Leaves scope stop target ∨ merge = some target) before middle := by
    intro may
    rcases first may with earlier | ⟨exposed,fed,target,between,ended⟩
    · exact Or.inl (Registry.mayContinue_declare earlier)
    · exact Or.inr ⟨(exposed.outer start.known inside.context).1,fed,target,between,Survey.inside_switch ended⟩
  refine around.next (behind.mono fun _ => Or.inl) (by simp [taken]) fun _ target between ended => ?_
  exact ⟨target,between,ended.elim Or.inl (proceeds target)⟩

theorem emitPreTested_feeds {inner : NaturalLoop} {region : List BlockId} {condition : Condition}
    {bodyEntry leaving : BlockId} {statement : Statement} {front : Block}
    (gives : Gives (survey.emitPreTested (survey.carefulFrom fuel) scope inner region condition bodyEntry leaving out)
      before (statement,front) after) (tests : survey.headerTest? inner = some (.preTested condition bodyEntry leaving))
    (entered : Entered survey scope stop inner before) (inside : doing.Inside survey scope stop before)
    (own : ∀ source ∈ inner.body, doing.Between source) :
    scope.Known after.registry ∧ doing.FedPast scope (some leaving) before after := by
  refine ⟨inside.known.grown (Survey.emitPreTested_tracked (Survey.carefulFrom_tracks sound fuel) sound.plain gives
    inside.known).2,?_⟩
  obtain ⟨id,body,middle,rfl,_,emitted,built⟩ := Survey.emitPreTested_gives gives
  have natural := entered.natural sound
  have header := own _ natural.header_mem
  have turning : doing.Between ((survey.updateBlock? inner bodyEntry).getD inner.header) := by
    cases found : survey.updateBlock? inner bodyEntry with
    | none => exact header
    | some latch => exact own latch (Survey.updateBlock_turns natural none bodyEntry latch found).2.1
  have edge : bodyEntry ∈ survey.graph.successors inner.header := ((Survey.headerTest_leads tests).2 _).mpr (Or.inl rfl)
  have start := (inside.looping .whileLoop rfl region (some leaving) turning).taking entered.ready
  have fed := (arm_feeds sound feeds emitted start (narrow.leads sound header.1 header.2.2 edge) fun same =>
    List.mem_cons.mpr (Or.inl (narrow.single _ (same ▸ edge)).symm)).1
  have past := fed.past start.known inside.context fun may => Registry.mayContinue_declare may
  rcases built with ⟨latch,registry,begins,_,_,marked,_,_,rfl⟩ | ⟨_,registry,parts,_,_,_,marked,_,_,rfl⟩ | ⟨_,_,_,rfl⟩
  · intro may
    refine (past (Registry.mayContinue_setKind marked may)).imp_right fun ⟨exposed,taken,apart⟩ => ?_
    exact ⟨exposed,List.mem_cons_of_mem _ taken,apart⟩
  · exact fun may => past (Registry.mayContinue_setKind marked may)
  · exact past

theorem emitLoop_feeds {inner : NaturalLoop}
    (gives : Gives (survey.emitLoop (survey.carefulFrom fuel) scope inner stop out) before onward after)
    (starts : Starts survey (fuel + 1) scope inner.header stop before) (member : inner ∈ survey.loops)
    (unentered : inner.header ∉ before.entered) (inside : doing.Inside survey scope stop before)
    (between : doing.Between inner.header) :
    doing.Fed scope (Proceeds scope stop onward.2) before after ∧
      ∀ target, onward.2 = some target → doing.Between target := by
  have natural := sound.complete.natural inner member
  have away : doing.latch ∉ inner.body := fun within =>
    between.2.2 (starts.placed.outside _ (Or.inr inside.jumps.2) inner member starts.fresh unentered within).symm
  have own : ∀ source ∈ inner.body, doing.Between source := fun _ => narrow.inner_between sound member between away
  obtain ⟨exit,leads,ways⟩ := narrow.inner_exit sound member between away before.opened
  have left := leads ▸ Survey.classify_left natural before.opened
  obtain ⟨shape,region,events,statement,front,middle,rfl,_,built,rest⟩ := Survey.emitLoop_gives gives
  obtain ⟨entered,enough⟩ : Entered survey scope stop inner
      {before with entered:=inner.header :: before.entered,events} ∧ _ := Survey.loop_entered starts member unentered
  have begun : doing.Inside survey scope stop {before with entered:=inner.header :: before.entered,events} :=
    ⟨inside.context,inside.stops,List.mem_cons_of_mem _ inside.entered,inside.known,inside.rooted⟩
  have safe := Survey.carefulFrom_safe sound fuel
  rw [leads] at rest
  obtain ⟨looped,known,past⟩ : Looped survey scope stop inner (some exit)
      {before with entered:=inner.header :: before.entered,events} middle ∧ scope.Known middle.registry ∧
        doing.FedPast scope (some exit) before middle := by
    rcases built with ⟨condition,bodyEntry,leaving,shape,built⟩ | ⟨latch,condition,leaving,shape,rfl,built⟩ |
      ⟨leaving,shape,rfl,built⟩
    · rw [shape] at leads
      obtain rfl : leaving = exit := Option.some.inj leads
      have tests := Survey.classify_preTested shape
      obtain ⟨known,past⟩ := emitPreTested_feeds narrow sound feeds built tests entered begun own
      exact ⟨(Survey.emitPreTested_ends sound safe entered tests enough).holds built,known,past⟩
    · rw [shape] at leads
      obtain rfl : leaving = exit := Option.some.inj leads
      obtain ⟨only,tests⟩ := Survey.classify_postTested shape
      obtain ⟨known,past⟩ := emitPostTested_feeds sound feeds built only entered begun own
      exact ⟨(Survey.emitPostTested_ends sound safe entered only tests enough).holds built,known,past⟩
    · rw [shape] at leads
      obtain rfl : leaving = some exit := leads
      obtain ⟨known,past⟩ := emitEndless_feeds sound feeds built entered begun own
      exact ⟨(Survey.emitEndless_ends sound safe entered left enough).holds built,known,past⟩
  have source : exit = doing.latch → doing.feeder ∈ middle.taken := by
    rintro rfl
    obtain ⟨_,source,within,edge⟩ := left _ rfl
    exact entered.whole sound left looped _ (narrow.single source edge ▸ within)
  have later : doing.Inside survey scope stop middle :=
    ⟨inside.context,inside.stops,looped.sweeps.entered _ begun.entered,known,looped.sweeps.rooted⟩
  obtain ⟨behind,taken,proceeds,next⟩ := follow_feeds rest later
    (fun target same _ latch => source ((Option.some.inj same).trans latch))
    fun target same _ => Or.inr (Option.some.inj same ▸ ways)
  refine ⟨fun may => ?_,next⟩
  rcases behind may with earlier | ⟨exposed,fed,target,between,ended⟩
  · refine (past earlier).imp_right fun ⟨exposed,fed,apart⟩ => ?_
    have further := ways.resolve_left fun same => apart (congrArg some same)
    exact ⟨exposed,taken ▸ fed,exit,further,proceeds exit rfl⟩
  · exact Or.inr ⟨exposed,fed,target,between,Or.inl ended⟩

theorem emitPlain_feeds
    (gives : Gives (survey.emitPlain (survey.carefulFrom fuel) scope block stop out) before onward after)
    (starts : Starts survey (fuel + 1) scope block stop before) (inside : doing.Inside survey scope stop before)
    (within : block ∈ doing.loop.body) (apart : block ≠ doing.latch) :
    doing.Fed scope (Proceeds scope stop onward.2) before after ∧
      ∀ target, onward.2 = some target → doing.Between target := by
  have begun := inside.taking starts.ready
  have header : doing.loop.header ∈ block :: before.taken := by
    have dominates := (sound.complete.natural _ narrow.member).header_dom within
    by_cases same : doing.loop.header = block
    · exact List.mem_cons.mpr (Or.inl same)
    · exact List.mem_cons_of_mem _ (starts.ready.2 _ dominates same)
  obtain ⟨_,gives⟩ := Survey.emitPlain_gives gives
  cases at_ : survey.graph.terminator block with
  | goto target =>
    simp only [at_] at gives
    have edge : target ∈ survey.graph.successors block := by simp [BlockGraph.successors_goto at_]
    obtain ⟨fed,_,_,goes⟩ := flowTo_feeds gives begun fun _ same =>
      List.mem_cons.mpr (Or.inl (narrow.single block (same ▸ edge)).symm)
    refine ⟨fed.mono fun _ => Or.inl,fun next same => ?_⟩
    rw [same] at goes
    obtain ⟨rfl,_,free,_⟩ := goes
    exact inside.free (narrow.leads sound within apart edge) free
  | branch condition thenTarget elseTarget =>
    simp only [at_] at gives
    obtain ⟨fed,next⟩ := emitBranch_feeds narrow sound feeds gives at_ begun within apart List.mem_cons_self header
    exact ⟨fun may => fed may,next⟩
  | switch discriminant cases default =>
    simp only [at_] at gives
    obtain ⟨fed,next⟩ := emitSwitch_feeds narrow sound feeds gives at_ begun within apart List.mem_cons_self header
    exact ⟨fun may => fed may,next⟩
  | ret value =>
    simp only [at_] at gives
    obtain ⟨rfl,rfl⟩ := gives
    exact ⟨.still _ fun may => may,by simp⟩
  | throw exception =>
    simp only [at_] at gives
    obtain ⟨_,rfl,rfl⟩ := gives
    exact ⟨.still _ fun may => may,by simp⟩

theorem emitBlock_feeds
    (gives : Gives (survey.emitBlock (survey.carefulFrom fuel) scope block stop out) before onward after)
    (starts : Starts survey (fuel + 1) scope block stop before) (inside : doing.Inside survey scope stop before)
    (within : block ∈ doing.loop.body) (apart : block ≠ doing.latch) :
    doing.Fed scope (Proceeds scope stop onward.2) before after ∧
      ∀ target, onward.2 = some target → doing.Between target := by
  rcases Survey.emitBlock_gives gives with ⟨range,index,pending,_⟩ | ⟨inner,found,unentered,_,built⟩ | ⟨_,built⟩
  · simp [Survey.pendingTry?,sound.tries,latestBy] at pending
  · have header : inner.header = block := by simpa using List.find?_some found
    subst header
    refine emitLoop_feeds narrow sound feeds built starts (List.mem_of_find?_eq_some found) unentered inside ?_
    exact ⟨within,fun same => unentered (same ▸ inside.entered),apart⟩
  · exact emitPlain_feeds narrow sound feeds built starts inside within apart

end Emitters

section Whole
variable (narrow : doing.Narrow survey) (sound : survey.Unguarded)
include narrow sound

theorem carefulFrom_feeds (fuel : Nat) : doing.FedBy survey (survey.carefulFrom fuel) := by
  induction fuel with
  | zero => exact fun _ _ _ _ _ _ _ gives => (Survey.carefulFrom_zero gives).elim
  | succ fuel ih =>
    intro scope block stop out before result after gives inside within apart
    obtain ⟨starts,out',next,middle,emitted,continues,rest⟩ := Survey.carefulFrom_succ sound gives
    obtain ⟨first,between⟩ := emitBlock_feeds narrow sound ih emitted starts inside within apart
    unfold Emission.sequence at rest
    cases next with
    | none =>
      obtain ⟨rfl,rfl⟩ := gives_pure.mp rest
      exact first.mono fun _ ended => ended.resolve_right (by simp)
    | some target =>
      dsimp only at rest
      split at rest
      · rename_i stops
        obtain ⟨rfl,rfl⟩ := gives_pure.mp rest
        refine first.mono fun _ ended => ?_
        rcases ended with leaves | same
        · exact leaves
        · exact Or.inl (same ▸ stops)
      · obtain ⟨_,here,sweeps,_⟩ := Survey.carefulFrom_gives sound rest
        have further := between target rfl
        have second := ih _ _ _ _ _ _ _ rest (inside.later continues.sweeps continues.known) further.1 further.2.2
        refine first.trans narrow sound second sweeps fun other ended => ?_
        rcases ended with leaves | same
        · exact Or.inr leaves
        · cases same
          exact Or.inl ⟨here,(continues.next _ rfl).2.1⟩

-- A `do` loop that is left once is not continued: its latch is fallen into from the only block that leads there.
theorem Narrow.never_continued {region : List BlockId} {condition : Condition} {statement : Statement}
    (gives : Gives (survey.emitPostTested (survey.carefulFrom fuel) scope doing.loop region doing.latch condition
      doing.exit) before statement after) (entered : Entered survey scope stop doing.loop before)
    (own : doing.id = before.registry.breakables.length) : ¬after.registry.MayContinue doing.id := by
  obtain ⟨id,body,middle,rfl,_,⟨same,_⟩ | ⟨_,emitted⟩,_,rfl⟩ := Survey.emitPostTested_gives gives
  · exact absurd same narrow.apart
  · have natural := entered.natural sound
    have inside : doing.Inside survey (scope.looping region before.registry.breakables.length .doWhile (some doing.exit)
        doing.latch) (some doing.latch) {before with registry:=(before.registry.declare .doWhile).2} := by
      refine ⟨?_,⟨doing.latch,rfl,Or.inl rfl⟩,entered.known,?_,entered.placed.rooted⟩
      · rw [← own]
        exact List.mem_cons_self
      · exact (entered.placed.known.narrow region).inside .doWhile _ _ fun _ _ => rfl
    have fed := carefulFrom_feeds narrow sound fuel _ _ _ _ _ _ _ emitted inside natural.header_mem narrow.apart.symm
    intro may
    rcases fed may with earlier | ⟨_,_,target,⟨within,header,latch⟩,leaves⟩
    · exact Registry.mayContinue_fresh (Nat.le_of_eq own.symm) (Registry.mayContinue_declare earlier)
    · rcases looping_leaves leaves with same | left | jumps
      · exact latch same
      · cases left
        exact narrow.outside within
      · exact header (entered.aside target (Or.inr jumps) within)

end Whole
end DoLoop

def Survey.LeavesOnce (survey : Survey) : Prop :=
  ∀ loop ∈ survey.loops, loop.WorksBehindOne survey.graph → loop.LeavesOnce survey.graph survey.loops

-- Whatever a `do` loop works in a latch of its own, it is not continued.
def Emitter.Quiet (emit : Emitter) (survey : Survey) (scope : Scope) (loop : NaturalLoop) (before : Progress) : Prop :=
  ∀ region latch condition exit events statement after, survey.classify before.opened loop = .postTested latch condition exit →
    latch ≠ loop.header → survey.graph.statements latch ≠ [] →
    Gives (survey.emitPostTested emit scope loop region latch condition exit)
      {before with entered:=loop.header :: before.entered,events} statement after →
    ¬after.registry.MayContinue before.registry.breakables.length

variable {survey : Survey} {scope : Scope} {stop : Option BlockId} {before after : Progress} {loop : NaturalLoop}
  {region : List BlockId} {latch exit : BlockId} {condition : Condition} {opened : List Nat} {statement : Statement} {fuel : Nat}

theorem Survey.LeavesOnce.never_continued (once : survey.LeavesOnce) (sound : survey.Unguarded)
    (entered : Entered survey scope stop loop before)
    (shape : survey.classify opened loop = .postTested latch condition exit) (apart : latch ≠ loop.header)
    (works : survey.graph.statements latch ≠ [])
    (gives : Gives (survey.emitPostTested (survey.carefulFrom fuel) scope loop region latch condition exit) before
      statement after) : ¬after.registry.MayContinue before.registry.breakables.length := by
  obtain ⟨only,tests⟩ := Survey.classify_postTested shape
  obtain ⟨outside,turns⟩ := Survey.latchTest_leads tests
  have fed : ∃ feeder, survey.graph.predecessors latch = [feeder] := by
    have allowed := Survey.classify_allowed shape
    unfold Survey.latchAllowed at allowed
    rw [if_neg apart,Bool.or_eq_true,List.isEmpty_iff,beq_iff_eq] at allowed
    exact List.length_eq_one_iff.mp (allowed.resolve_left works)
  obtain ⟨feeder,single⟩ := fed
  have behind : loop.WorksBehindOne survey.graph := by
    refine ⟨?_,by simp [only,single]⟩
    obtain ⟨_,thenTarget,elseTarget,at_,sides⟩ := Survey.latchTest_some tests
    exact ⟨latch,_,thenTarget,elseTarget,only,apart,works,at_,sides.imp (·.1) (·.1)⟩
  have narrow : DoLoop.Narrow ⟨loop,latch,exit,feeder,before.registry.breakables.length⟩ survey := by
    refine ⟨entered.member,only,apart,outside,turns,fun source edge => ?_,once loop entered.member behind⟩
    have listed := BlockGraph.mem_predecessors.mpr edge
    rw [single] at listed
    exact List.mem_singleton.mp listed
  exact narrow.never_continued sound gives entered rfl

theorem Survey.LeavesOnce.quiet (once : survey.LeavesOnce) (sound : survey.Unguarded)
    (starts : Starts survey (fuel + 1) scope loop.header stop before) (member : loop ∈ survey.loops)
    (unentered : loop.header ∉ before.entered) : (survey.carefulFrom fuel).Quiet survey scope loop before := by
  intro region latch condition exit events statement after shape apart works gives
  have silent := once.never_continued sound (Survey.loop_entered starts member unentered).1 shape apart works gives
  exact silent

end Untangle
