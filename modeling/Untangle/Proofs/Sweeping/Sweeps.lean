import Untangle.Proofs.Breaks.Agreement
import Untangle.Proofs.Emission.Ending
import Untangle.Proofs.Sweeping.Ready

namespace Untangle
open Emission

-- A terminator whose operand is known not to suit it: a thrown value that is no reference, or a
-- discriminant that is no number.
def Terminator.Misfit : Terminator → Prop
  | .throw exception => exception.type.category ≠ .unknown ∧ exception.type.category ≠ .reference
  | .switch discriminant _ _ => discriminant.type.category ≠ .unknown ∧ discriminant.type.category ≠ .numeric
  | _ => False

-- The failures that a graph without exception table may come to.
def BlockGraph.Admits (graph : BlockGraph) : StructureError → Prop
  | .irreducible _ => True
  | .unresolvedJump _ _ => True
  | .constraint block _ => block ∈ graph.live ∧ (graph.terminator block).Misfit
  | _ => False

def Leaves (scope : Scope) (stop : Option BlockId) (target : BlockId) : Prop :=
  some target = stop ∨ scope.isJumpTarget target = true

theorem never_leaves {region : List BlockId} {target : BlockId} : ¬Leaves ⟨region,[]⟩ none target := by
  rintro (stops | jumps)
  · cases stops
  · cases jumps

theorem Scope.inside_jumps {scope : Scope} {context : Context} {target : BlockId} :
    (scope.inside context).isJumpTarget target = true ↔ context.breakTarget = some target ∨
      context.continueTarget = some target ∨ scope.isJumpTarget target = true := by
  unfold isJumpTarget inside
  simp only [List.any_cons,Bool.or_eq_true,beq_iff_eq,or_assoc]

def Meanwhile (before after : Progress) (block : BlockId) : Prop := block ∈ after.taken ∧ block ∉ before.taken

theorem Meanwhile.behind {before after : Progress} {first block : BlockId}
    (later : Meanwhile {before with taken:=first :: before.taken} after block) : Meanwhile before after block :=
  ⟨later.1,fun early => later.2 (List.mem_cons_of_mem _ early)⟩

theorem Meanwhile.since {before middle after : Progress} {block : BlockId} (later : Meanwhile middle after block)
    (taken : ∀ block ∈ before.taken, block ∈ middle.taken) : Meanwhile before after block :=
  ⟨later.1,fun early => later.2 (taken block early)⟩

theorem Meanwhile.until {before middle after : Progress} {block : BlockId} (earlier : Meanwhile before middle block)
    (taken : ∀ block ∈ middle.taken, block ∈ after.taken) : Meanwhile before after block :=
  ⟨taken block earlier.1,earlier.2⟩

-- What has been taken meanwhile leads to what has been so too or to an end, and none of it was to be kept.
structure Sweeps (graph : BlockGraph) (ends kept : BlockId → Prop) (before after : Progress) : Prop where
  taken : ∀ block ∈ before.taken, block ∈ after.taken
  entered : ∀ header ∈ before.entered, header ∈ after.entered
  rooted : graph.Rooted after.taken
  apart : ∀ block ∈ after.taken, block ∉ before.taken → ¬kept block
  onward : ∀ block ∈ after.taken, block ∉ before.taken → ∀ target ∈ graph.successors block,
    Meanwhile before after target ∨ ends target

namespace Sweeps
variable {graph : BlockGraph} {ends kept fewer other : BlockId → Prop} {before middle after : Progress}
  {registry : Registry} {events : List Event} {block : BlockId}

theorem refl (rooted : graph.Rooted before.taken) : Sweeps graph ends kept before {before with registry,events} :=
  ⟨fun _ known => known,fun _ known => known,rooted,fun _ known fresh => absurd known fresh,
    fun _ known fresh => absurd known fresh⟩

theorem since (sweeps : Sweeps graph ends kept {before with registry,events} after) :
    Sweeps graph ends kept before after :=
  ⟨sweeps.taken,sweeps.entered,sweeps.rooted,sweeps.apart,sweeps.onward⟩

theorem trans (first : Sweeps graph ends kept before middle) (second : Sweeps graph other kept middle after)
    (closes : ∀ target, ends target → Meanwhile middle after target ∨ other target) :
    Sweeps graph other kept before after := by
  refine ⟨fun block known => second.taken block (first.taken block known),
    fun header known => second.entered header (first.entered header known),second.rooted,?_,?_⟩
  · intro block known fresh
    by_cases early : block ∈ middle.taken
    · exact first.apart block early fresh
    · exact second.apart block known early
  · intro block known fresh target leads
    by_cases early : block ∈ middle.taken
    · rcases first.onward block early fresh target leads with there | ended
      · exact Or.inl (there.until second.taken)
      · exact (closes target ended).imp_left (·.since first.taken)
    · exact (second.onward block known early target leads).imp_left (·.since first.taken)

theorem round (sweeps : Sweeps graph ends kept before after)
    (closes : ∀ target, ends target → Meanwhile before after target ∨ other target) :
    Sweeps graph other kept before after :=
  ⟨sweeps.taken,sweeps.entered,sweeps.rooted,sweeps.apart,fun block known fresh target leads =>
    (sweeps.onward block known fresh target leads).elim Or.inl (closes target)⟩

theorem mono (sweeps : Sweeps graph ends kept before after) (more : ∀ target, ends target → other target)
    (less : ∀ block, fewer block → kept block) : Sweeps graph other fewer before after :=
  ⟨sweeps.taken,sweeps.entered,sweeps.rooted,fun block known fresh keep => sweeps.apart block known fresh (less block keep),
    fun block known fresh target leads => (sweeps.onward block known fresh target leads).imp_right (more target)⟩

theorem last (sweeps : Sweeps graph ends kept before middle) (ready : graph.Ready middle.taken block) (free : ¬kept block)
    (served : ∀ target ∈ graph.successors block,
      Meanwhile before {middle with taken:=block :: middle.taken} target ∨ ends target) :
    Sweeps graph ends kept before {middle with taken:=block :: middle.taken,registry} := by
  refine ⟨fun other known => List.mem_cons_of_mem _ (sweeps.taken other known),sweeps.entered,
    sweeps.rooted.take ready,?_,?_⟩
  · intro other known new
    rcases List.mem_cons.mp known with rfl | known
    · exact free
    · exact sweeps.apart other known new
  · intro other known new target leads
    rcases List.mem_cons.mp known with rfl | known
    · exact served target leads
    · exact (sweeps.onward other known new target leads).imp_left fun there => ⟨List.mem_cons_of_mem _ there.1,there.2⟩

theorem behind (rest : Sweeps graph ends kept {before with taken:=block :: before.taken,registry} after)
    (served : ∀ target ∈ graph.successors block, Meanwhile before after target ∨ ends target) :
    Sweeps graph ends (fun other => other ≠ block ∧ kept other) before after := by
  have later {other : BlockId} (fresh : other ∉ before.taken) (apart : other ≠ block) :
      other ∉ block :: before.taken := by simp [fresh,apart]
  refine ⟨fun other known => rest.taken other (List.mem_cons_of_mem _ known),rest.entered,rest.rooted,?_,?_⟩
  · intro other known fresh keep
    exact rest.apart other known (later fresh keep.1) keep.2
  · intro other known fresh target leads
    by_cases same : other = block
    · exact served target (same ▸ leads)
    · exact (rest.onward other known (later fresh same) target leads).imp_left Meanwhile.behind

theorem spare (sweeps : Sweeps graph ends (fun other => other ≠ block ∧ kept other) before after)
    (free : ¬kept block) : Sweeps graph ends kept before after := by
  refine sweeps.mono (fun _ ended => ended) fun other keep => ⟨?_,keep⟩
  rintro rfl
  exact free keep

end Sweeps

structure Survey.Unguarded (survey : Survey) : Prop where
  tries : survey.tries = []
  complete : LoopForest.Complete survey.graph survey.loops
  doms : survey.doms = survey.graph.dominance
  postDoms : survey.postDoms = survey.graph.postDominance
  live : survey.live = survey.graph.live
  ordered : ∀ block ∈ survey.graph.order, block ∈ survey.graph.live
  plain : survey.graph.Plain

def Survey.remaining (survey : Survey) (progress : Progress) : Nat :=
  unseen survey.graph.size progress.taken +
    (survey.loops.filter fun loop => loop.header ∉ progress.entered).length

-- Emission may go on here: the contexts are declared, and no loop still to be entered reaches over a place
-- that the sequence may end at.
structure Placed (survey : Survey) (scope : Scope) (stop : Option BlockId) (before : Progress) : Prop where
  rooted : survey.graph.Rooted before.taken
  known : scope.Known before.registry
  outside : ∀ target, Leaves scope stop target → Outside survey.loops before.taken before.entered target

variable {survey : Survey} {scope : Scope} {stop merge : Option BlockId} {before middle after : Progress}
  {source target block : BlockId} {out : Block} {excuse : StructureError → Prop} {registry : Registry}
  {events : List Event} {emit : Emitter} {fuel : Nat} {ends kept : BlockId → Prop}

theorem unseen_mono {size : Nat} {seen later : List Nat} (sub : ∀ node ∈ seen, node ∈ later) :
    unseen size later ≤ unseen size seen := by
  unfold unseen
  refine List.Sublist.length_le (List.monotone_filter_right _ fun node fresh => ?_)
  simp only [decide_eq_true_eq] at fresh ⊢
  exact fun known => fresh (sub node known)

theorem Survey.remaining_mono (taken : ∀ block ∈ before.taken, block ∈ after.taken)
    (entered : ∀ header ∈ before.entered, header ∈ after.entered) :
    survey.remaining after ≤ survey.remaining before := by
  refine Nat.add_le_add (unseen_mono taken) (List.Sublist.length_le (List.monotone_filter_right _ fun loop fresh => ?_))
  simp only [decide_eq_true_eq] at fresh ⊢
  exact fun known => fresh (entered _ known)

theorem Placed.recorded (placed : Placed survey scope stop before) (known : scope.Known registry) :
    Placed survey scope stop {before with registry,events} := ⟨placed.rooted,known,placed.outside⟩

theorem Placed.later (placed : Placed survey scope stop before) (known : scope.Known after.registry)
    (sweeps : Sweeps survey.graph ends kept before after) : Placed survey scope stop after :=
  ⟨sweeps.rooted,known,fun target leaves => (placed.outside target leaves).more sweeps.taken sweeps.entered⟩

theorem Placed.stopping (placed : Placed survey scope stop before) (merge : Option BlockId)
    (outside : ∀ target, merge = some target → Outside survey.loops before.taken before.entered target) :
    Placed survey scope (merge.or stop) before := by
  refine ⟨placed.rooted,placed.known,fun target leaves => ?_⟩
  rcases leaves with stops | jumps
  · cases merge with
    | none => exact placed.outside target (Or.inl stops)
    | some place => exact outside target stops.symm
  · exact placed.outside target (Or.inr jumps)

namespace Emission

theorem Ends.and {emission : Emission α} {done other : α → Progress → Prop}
    (ends : Ends emission before done excuse)
    (also : ∀ result after, Gives emission before result after → other result after) :
    Ends emission before (fun result after => done result after ∧ other result after) excuse :=
  ends.mono fun result after gives here => ⟨here,also result after gives⟩

theorem resolveJump_target (target : BlockId) (region : List BlockId) (contexts : List Context) :
    (resolveJump? target contexts).isSome = Scope.isJumpTarget ⟨region,contexts⟩ target := by
  induction contexts with
  | nil => rfl
  | cons context outer ih =>
    unfold resolveJump?
    change _ = (context.breakTarget == some target || context.continueTarget == some target ||
      Scope.isJumpTarget ⟨region,outer⟩ target)
    rw [← ih]
    cases meant : context.jumpKind? target with
    | some kind =>
      unfold Context.jumpKind? at meant
      split at meant
      · rename_i continues
        simp [continues]
      · split at meant
        · rename_i breaks
          simp [breaks]
        · cases meant
    | none =>
      unfold Context.jumpKind? at meant
      split at meant
      · cases meant
      · rename_i continues
        split at meant
        · cases meant
        · rename_i breaks
          simp [continues,breaks]

theorem jump_ends {resolved : ResolvedJump} (found : resolveJump? target scope.contexts = some resolved)
    (known : scope.Known before.registry) : Ends (jump source resolved out) before
      (fun _ after => ∃ registry events, after = {before with registry,events}) excuse := by
  obtain ⟨member,continues,_⟩ := resolveJump_fits 0 found known.distinct known.loops
  have declared := known.declared _ member
  have allowed : (before.registry.newBreak resolved.kind).2.checkTarget resolved.context.id
      (before.registry.newBreak resolved.kind).1 = .ok () := by
    unfold Registry.checkTarget
    rw [show (before.registry.newBreak resolved.kind).2.kind? resolved.context.id = some resolved.context.kind from
      declared]
    dsimp only
    rw [if_neg]
    rintro ⟨continue_,switch⟩
    exact switch (continues continue_)
  unfold jump
  rw [ends_get]
  dsimp only
  have registered : ∃ changed brk, (before.registry.newBreak resolved.kind).2.register resolved.context.id
      (before.registry.newBreak resolved.kind).1 = .ok (changed,brk) := by
    unfold Registry.register
    rw [allowed]
    exact ⟨_,_,rfl⟩
  obtain ⟨changed,brk,registered⟩ := registered
  rw [registered]
  simp only [ends_bind,ends_set]
  exact ⟨_,_,rfl⟩

def Goes (scope : Scope) (stop : Option BlockId) (taken : List BlockId) (target : BlockId) :
    Option BlockId → Prop
  | none => Leaves scope stop target
  | some next => next = target ∧ next ∉ taken ∧ scope.isJumpTarget next = false ∧ some next ≠ stop

theorem flowTo_ends (known : scope.Known before.registry) :
    Ends (flowTo scope source target stop out) before (fun onward after =>
      (∃ registry events, after = {before with registry,events} ∧ scope.Known registry) ∧
        Goes scope stop before.taken target onward.2) survey.graph.Admits := by
  unfold flowTo
  split
  · rename_i stops
    exact ⟨⟨_,_,rfl,known⟩,Or.inl stops⟩
  · rename_i goes
    have same := resolveJump_target target scope.region scope.contexts
    split
    · rename_i resolved found
      rw [found] at same
      rw [ends_bind]
      refine ((jump_ends found known).and fun _ _ gives => jump_tracked gives found known).mono ?_
      rintro result _ _ ⟨⟨registry,events,rfl⟩,tracked⟩
      exact ⟨⟨_,_,rfl,tracked.known known⟩,Or.inr same.symm⟩
    · rename_i unresolved
      rw [unresolved] at same
      rw [ends_get]
      split
      · rename_i within
        exact ⟨⟨_,_,rfl,known⟩,rfl,within.2,same.symm,goes⟩
      · exact trivial

theorem take_ends (fresh : block ∉ before.taken) : Ends (take block) before
    (fun _ after => after = {before with taken:=block :: before.taken}) excuse := by
  unfold take
  rw [ends_get,if_neg fresh]
  exact rfl

theorem declare_ends (kind : BreakableKind) : Ends (declare kind) before (fun id after =>
    id = before.registry.breakables.length ∧ after = {before with registry:=(before.registry.declare kind).2})
    excuse := ⟨rfl,rfl⟩

theorem markFor_ends {id : BreakableId} {kind : BreakableKind} (declared : before.registry.kind? id = some kind) :
    Ends (markFor id block) before (fun _ after => ∃ registry, after = {before with registry}) excuse := by
  obtain ⟨entry,at_,_⟩ := Option.map_eq_some_iff.mp declared
  have marked : ∃ registry, before.registry.setKind id .forLoop = .ok registry := by
    unfold Registry.setKind
    rw [at_]
    exact ⟨_,rfl⟩
  obtain ⟨registry,marked⟩ := marked
  unfold markFor
  rw [ends_get,marked]
  exact ⟨_,rfl⟩

theorem log_ends (event : Event) : Ends (log event) before
    (fun _ after => after = {before with events:=before.events ++ [event]}) excuse := rfl

theorem checkConstruct_ends {settings : StructuringSettings} {statement : Statement}
    (known : scope.Known registry) (tracks : registry.Tracks (statement.marks scope.around) before.registry) :
    Ends (checkConstruct settings scope statement) before (fun _ after => after = before) excuse := by
  unfold checkConstruct
  rw [ends_get,validateConstruct_ok known tracks]
  split <;> exact rfl

end Emission

structure Starts (survey : Survey) (fuel : Nat) (scope : Scope) (block : BlockId) (stop : Option BlockId)
    (before : Progress) : Prop where
  placed : Placed survey scope stop before
  fresh : block ∉ before.taken
  ready : survey.graph.Ready before.taken block
  enough : survey.remaining before ≤ fuel

def Emitter.Safe (emit : Emitter) (survey : Survey) (fuel : Nat) : Prop :=
  ∀ scope block stop out before, Starts survey fuel scope block stop before →
    Ends (emit scope block stop out) before (fun _ after => block ∈ after.taken ∧
      Sweeps survey.graph (Leaves scope stop) (fun other => other ≠ block ∧ scope.isJumpTarget other = true)
        before after ∧ scope.Known after.registry) survey.graph.Admits

theorem arm_ends (safe : emit.Safe survey fuel) (placed : Placed survey scope stop before)
    (ready : survey.graph.Ready before.taken target) (enough : survey.remaining before ≤ fuel) :
    Ends (arm emit scope source target stop) before (fun _ after =>
      Sweeps survey.graph (Leaves scope stop) (fun other => scope.isJumpTarget other = true) before after ∧
        (Meanwhile before after target ∨ Leaves scope stop target) ∧ scope.Known after.registry) survey.graph.Admits := by
  unfold arm
  rw [ends_bind]
  refine (flowTo_ends placed.known).mono ?_
  rintro ⟨body,next⟩ _ _ ⟨⟨registry,events,rfl,known⟩,goes⟩
  unfold Emission.sequence
  cases next with
  | none => exact ⟨.refl placed.rooted,Or.inr goes,known⟩
  | some block =>
    obtain ⟨rfl,fresh,free,goes⟩ := goes
    dsimp only
    rw [if_neg goes]
    refine (safe _ _ _ _ _ ⟨placed.recorded known,fresh,ready,enough⟩).mono ?_
    rintro _ after _ ⟨here,sweeps,known⟩
    exact ⟨(sweeps.spare (by simp [free])).since,Or.inl ⟨here,fresh⟩,known⟩

def Proceeds (scope : Scope) (stop next : Option BlockId) (target : BlockId) : Prop :=
  Leaves scope stop target ∨ next = some target

-- A sequence so far: whatever has been taken leads to what has been taken, to the block that comes next
-- or to an end, and the next block is one to take.
structure Continues (survey : Survey) (scope : Scope) (stop : Option BlockId) (kept : BlockId → Prop)
    (before : Progress) (onward : Onward) (after : Progress) : Prop where
  sweeps : Sweeps survey.graph (Proceeds scope stop onward.2) kept before after
  known : scope.Known after.registry
  next : ∀ target, onward.2 = some target → survey.graph.Ready after.taken target ∧ target ∉ after.taken ∧
    scope.isJumpTarget target = false

theorem Leaves.or (leaves : Leaves scope (merge.or stop) target) : Leaves scope stop target ∨ merge = some target := by
  rcases leaves with stops | jumps
  · cases merge with
    | none => exact Or.inl (Or.inl stops)
    | some place => exact Or.inr stops.symm
  · exact Or.inl (Or.inr jumps)

theorem flowTo_continues (sweeps : Sweeps survey.graph (fun other => Leaves scope stop other ∨ other = target) kept
      before middle) (known : scope.Known middle.registry)
    (ready : some target ≠ stop → survey.graph.Ready middle.taken target) :
    Ends (flowTo scope source target stop out) middle (fun onward after =>
      Continues survey scope stop kept before onward after ∧ after.taken = middle.taken ∧
        Proceeds scope stop onward.2 target) survey.graph.Admits := by
  refine (flowTo_ends known).mono ?_
  rintro ⟨_,next⟩ _ _ ⟨⟨registry,events,rfl,known⟩,goes⟩
  have onward : Proceeds scope stop next target := by
    cases next with
    | none => exact Or.inl goes
    | some block => exact Or.inr (congrArg some goes.1)
  refine ⟨⟨?_,known,?_⟩,rfl,onward⟩
  · refine sweeps.trans (.refl sweeps.rooted) fun other ended => Or.inr ?_
    rcases ended with leaves | rfl
    · exact Or.inl leaves
    · exact onward
  · rintro _ rfl
    obtain ⟨rfl,fresh,free,goes⟩ := goes
    exact ⟨ready goes,fresh,free⟩

theorem follow_continues (sweeps : Sweeps survey.graph (fun other => Leaves scope stop other ∨ merge = some other) kept
      before middle) (known : scope.Known middle.registry)
    (ready : ∀ target, merge = some target → some target ≠ stop → survey.graph.Ready middle.taken target) :
    Ends (follow scope source merge stop out) middle (fun onward after =>
      Continues survey scope stop kept before onward after ∧ after.taken = middle.taken ∧
        ∀ target, merge = some target → Proceeds scope stop onward.2 target) survey.graph.Admits := by
  unfold follow
  cases merge with
  | none =>
    refine ⟨⟨sweeps.mono ?_ fun _ keep => keep,known,by simp⟩,rfl,by simp⟩
    exact fun other ended => Or.inl (ended.resolve_right (by simp))
  | some place =>
    refine (flowTo_continues (sweeps.mono ?_ fun _ keep => keep) known (ready place rfl)).mono ?_
    · exact fun other ended => ended.imp_right fun same => (Option.some.inj same).symm
    · rintro onward after _ ⟨continues,same,proceeds⟩
      exact ⟨continues,same,fun target found => Option.some.inj found ▸ proceeds⟩

end Untangle
