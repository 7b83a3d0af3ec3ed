import Untangle.Proofs.Sweeping.Sweeps

namespace Untangle
open Emission BlockGraph LoopForest

structure Entered (survey : Survey) (scope : Scope) (stop : Option BlockId) (loop : NaturalLoop)
    (before : Progress) : Prop where
  member : loop ∈ survey.loops
  placed : Placed survey scope stop before
  ready : survey.graph.Ready before.taken loop.header
  fresh : loop.header ∉ before.taken
  known : loop.header ∈ before.entered
  aside : ∀ target, Leaves scope stop target → target ∈ loop.body → target = loop.header

structure Looped (survey : Survey) (scope : Scope) (stop : Option BlockId) (loop : NaturalLoop)
    (exit : Option BlockId) (before after : Progress) : Prop where
  header : loop.header ∈ after.taken
  sweeps : Sweeps survey.graph (fun other => Leaves scope stop other ∨ exit = some other)
    (fun other => other ≠ loop.header ∧ scope.isJumpTarget other = true) before after

variable {survey : Survey} {emit : Emitter} {scope : Scope} {stop exit : Option BlockId} {loop : NaturalLoop}
  {before middle after : Progress} {region : List BlockId} {id : BreakableId} {kind : BreakableKind}
  {again latch target bodyEntry block leaving : BlockId} {condition : Condition} {out : Block} {fuel : Nat}
  {registry : Registry} {events : List Event}

abbrev Scope.looping (scope : Scope) (region : List BlockId) (id : BreakableId) (kind : BreakableKind)
    (exit : Option BlockId) (again : BlockId) : Scope :=
  (scope.narrow region).inside ⟨id,kind,exit,some again⟩

theorem looping_jumps : (scope.looping region id kind exit again).isJumpTarget target = true ↔
    exit = some target ∨ again = target ∨ scope.isJumpTarget target = true := by
  rw [Scope.inside_jumps,Option.some.injEq]
  exact Iff.rfl

theorem looping_leaves (leaves : Leaves (scope.looping region id kind exit again) (some again) target) :
    target = again ∨ exit = some target ∨ scope.isJumpTarget target = true := by
  rcases leaves with stops | jumps
  · exact Or.inl (Option.some.inj stops)
  · rcases looping_jumps.mp jumps with leaves | same | jumps
    · exact Or.inr (Or.inl leaves)
    · exact Or.inl same.symm
    · exact Or.inr (Or.inr jumps)

theorem looping_spares {graph : BlockGraph} {ends : BlockId → Prop} {header : BlockId}
    (sweeps : Sweeps graph ends (fun other => other ≠ header ∧
      (scope.looping region id kind exit again).isJumpTarget other = true) before after) :
    Sweeps graph ends (fun other => other ≠ header ∧ scope.isJumpTarget other = true) before after :=
  sweeps.mono (fun _ ended => ended) fun _ keep => ⟨keep.1,looping_jumps.mpr (Or.inr (Or.inr keep.2))⟩

theorem Looped.of_round (header : loop.header ∈ after.taken) (ended : Meanwhile before after again)
    (sweeps : Sweeps survey.graph (Leaves (scope.looping region id kind exit again) (some again))
      (fun other => other ≠ loop.header ∧ scope.isJumpTarget other = true) before after) :
    Looped survey scope stop loop exit before after := by
  refine ⟨header,sweeps.round fun target leaves => ?_⟩
  rcases looping_leaves leaves with rfl | left | jumps
  · exact Or.inl ended
  · exact Or.inr (Or.inr left)
  · exact Or.inr (Or.inl (Or.inr jumps))

namespace Entered

theorem natural (entered : Entered survey scope stop loop before) (sound : survey.Unguarded) :
    Natural survey.graph loop := sound.complete.natural loop entered.member

theorem inner (entered : Entered survey scope stop loop before) (sound : survey.Unguarded) (kind : BreakableKind)
    (loops : kind.isLoop = true) (region : List BlockId) (leaves : loop.LeftFor survey.graph exit)
    (turns : again = loop.header ∨ loop.Turns survey.graph exit again) :
    Placed survey (scope.looping region before.registry.breakables.length kind exit again) (some again)
      {before with registry:=(before.registry.declare kind).2} := by
  refine ⟨entered.placed.rooted,(entered.placed.known.narrow region).inside kind _ _ fun _ _ => loops,?_⟩
  intro target ends
  rcases looping_leaves ends with rfl | left | jumps
  · rcases turns with rfl | ⟨within,only⟩
    · exact entered.ready.outside sound.complete _
    · exact outside_latch sound.complete entered.member entered.ready entered.known within fun next edge =>
        (only next edge).imp_right fun left => (leaves next left).1
  · obtain ⟨outside,source,within,leads⟩ := leaves target left
    exact outside_exit sound.complete entered.member entered.ready entered.known within leads outside
  · exact entered.placed.outside target (Or.inr jumps)

theorem begun {inner : Scope} {end_ : Option BlockId} (entered : Entered survey scope stop loop before)
    (placed : Placed survey inner end_ {before with registry}) :
    Placed survey inner end_ {before with taken:=loop.header :: before.taken,registry} :=
  ⟨placed.rooted.take entered.ready,placed.known,fun target leaves =>
    (placed.outside target leaves).more (fun _ => List.mem_cons_of_mem _) fun _ known => known⟩

-- Once the header is taken the whole body is, but for an end that lies in it.
theorem body (entered : Entered survey scope stop loop before) (sound : survey.Unguarded) {ends kept : BlockId → Prop}
    {taken : List BlockId} (header : loop.header ∈ taken)
    (sweeps : Sweeps survey.graph ends kept before middle) (sub : ∀ block ∈ middle.taken, block ∈ taken)
    (last : ∀ block ∈ taken, block ∉ middle.taken → ∀ target ∈ survey.graph.successors block, target ∈ loop.body →
      target ∈ taken)
    (closes : ∀ target, ends target → target ∈ loop.body → target ∈ taken) (block : BlockId)
    (within : block ∈ loop.body) : block ∈ taken := by
  refine body_taken (entered.natural sound) header (fun source known inside target leads there => ?_) within
  by_cases early : source ∈ middle.taken
  · have fresh := entered.placed.rooted.fresh_body (entered.natural sound) entered.fresh inside
    rcases sweeps.onward source early fresh target leads with done | ended
    · exact sub target done.1
    · exact closes target ended there
  · exact last source known early target leads there

theorem closing (entered : Entered survey scope stop loop before) (sound : survey.Unguarded)
    (leaves : loop.LeftFor survey.graph exit) (turns : loop.Turns survey.graph exit latch) (apart : latch ≠ loop.header)
    (header : loop.header ∈ middle.taken)
    (sweeps : Sweeps survey.graph (Leaves (scope.looping region id kind exit latch) (some latch))
      (fun other => other ≠ loop.header ∧ (scope.looping region id kind exit latch).isJumpTarget other = true)
      before middle) :
    latch ∉ middle.taken ∧ survey.graph.Ready middle.taken latch := by
  have natural := entered.natural sound
  have dominates := natural.header_dom turns.1
  have fresh := entered.placed.rooted.fresh_body natural entered.fresh turns.1
  refine ⟨fun known => ?_,mem_order.mpr dominates.below,fun above higher other => ?_⟩
  · exact sweeps.apart latch known fresh ⟨apart,looping_jumps.mpr (Or.inr (Or.inl rfl))⟩
  · rcases higher.linear dominates with upper | under
    · by_cases same : above = loop.header
      · exact same ▸ header
      · exact sweeps.taken above (entered.ready.2 above upper same)
    · have within := natural.between under higher turns.1
      have all := entered.body sound (List.mem_cons_of_mem latch header) sweeps (fun _ => List.mem_cons_of_mem latch)
        ?_ ?_ above within
      · exact (List.mem_cons.mp all).resolve_left other
      · intro source known late target leads there
        obtain rfl := (List.mem_cons.mp known).resolve_right late
        rcases turns.2 target leads with rfl | left
        · exact List.mem_cons_of_mem _ header
        · exact absurd there (leaves target left).1
      · intro target ends there
        rcases looping_leaves ends with rfl | left | jumps
        · exact List.mem_cons_self
        · exact absurd there (leaves target left).1
        · exact entered.aside target (Or.inr jumps) there ▸ List.mem_cons_of_mem _ header

theorem closed (entered : Entered survey scope stop loop before) (sound : survey.Unguarded)
    (turns : loop.Turns survey.graph exit latch) (ready : survey.graph.Ready middle.taken latch) (header : loop.header ∈ middle.taken)
    (sweeps : Sweeps survey.graph (Leaves (scope.looping region id kind exit latch) (some latch))
      (fun other => other ≠ loop.header ∧ scope.isJumpTarget other = true) before middle) :
    Looped survey scope stop loop exit before {middle with taken:=latch :: middle.taken,registry} := by
  have fresh := entered.placed.rooted.fresh_body (entered.natural sound) entered.fresh turns.1
  refine .of_round (List.mem_cons_of_mem _ header) ⟨List.mem_cons_self,fresh⟩ (sweeps.last ready ?_ ?_)
  · rintro ⟨apart,jumps⟩
    exact apart (entered.aside latch (Or.inr jumps) turns.1)
  · intro target leads
    rcases turns.2 target leads with rfl | left
    · exact Or.inl ⟨List.mem_cons_of_mem _ header,entered.fresh⟩
    · exact Or.inr (Or.inr (looping_jumps.mpr (Or.inl left)))

theorem whole (entered : Entered survey scope stop loop before) (sound : survey.Unguarded)
    (left : loop.LeftFor survey.graph exit) (looped : Looped survey scope stop loop exit before middle) :
    ∀ source ∈ loop.body, source ∈ middle.taken := by
  refine entered.body sound looped.header looped.sweeps (fun _ known => known)
    (fun _ known late => absurd known late) fun other ended inside => ?_
  rcases ended with leaves | same
  · exact entered.aside other leaves inside ▸ looped.header
  · exact absurd inside (left other same).1

end Entered

namespace Survey

theorem emitPreTested_ends (sound : survey.Unguarded) (safe : emit.Safe survey fuel)
    (entered : Entered survey scope stop loop before)
    (tests : survey.headerTest? loop = some (.preTested condition bodyEntry leaving))
    (enough : survey.remaining before ≤ fuel) :
    Ends (survey.emitPreTested emit scope loop region condition bodyEntry leaving out) before
      (fun _ after => Looped survey scope stop loop (some leaving) before after) survey.graph.Admits := by
  have left := headerTest_left (entered.natural sound) tests
  obtain ⟨_,leads⟩ := headerTest_leads tests
  unfold emitPreTested
  rw [ends_bind]
  refine (take_ends entered.fresh).mono ?_
  rintro _ _ _ rfl
  dsimp only
  have turns := updateBlock_turns (entered.natural sound) (some leaving) bodyEntry
  generalize survey.updateBlock? loop bodyEntry = update at turns
  have again : update.getD loop.header = loop.header ∨
      loop.Turns survey.graph (some leaving) (update.getD loop.header) := by
    cases update with
    | none => exact Or.inl rfl
    | some latch => exact Or.inr (turns latch rfl).2
  rw [ends_bind]
  refine (declare_ends .whileLoop).mono ?_
  rintro id _ _ ⟨rfl,rfl⟩
  have inner := entered.begun (entered.inner sound .whileLoop rfl region left again)
  rw [ends_bind]
  refine (arm_ends safe inner (inner.rooted.edge List.mem_cons_self ((leads _).mpr (Or.inl rfl)))
    (Nat.le_trans (remaining_mono (fun _ => List.mem_cons_of_mem _) fun _ known => known) enough)).mono ?_
  rintro body middle _ ⟨rest,served,known⟩
  have header := rest.taken loop.header List.mem_cons_self
  have sweeps := rest.behind fun target edge => by
    rcases (leads target).mp edge with rfl | rfl
    · exact served.imp_left .behind
    · exact Or.inr (Or.inr (looping_jumps.mpr (Or.inl rfl)))
  have declared : middle.registry.kind? before.registry.breakables.length = some .whileLoop :=
    known.declared _ List.mem_cons_self
  cases update with
  | some latch =>
    obtain ⟨apart,turning⟩ := turns latch rfl
    obtain ⟨fresh,ready⟩ := entered.closing sound left turning apart header sweeps
    rw [ends_bind]
    refine (take_ends fresh).mono ?_
    rintro _ _ _ rfl
    dsimp only
    -- Whether or not a statement before the loop becomes its start, the latch is all that is taken.
    have marked (statement : Statement) (out : Block) :
        Ends (do markFor before.registry.breakables.length loop.header; pure (statement,out))
          {middle with taken:=latch :: middle.taken}
          (fun _ after => Looped survey scope stop loop (some leaving) before after) survey.graph.Admits := by
      rw [ends_bind]
      refine Ends.mono (markFor_ends declared) ?_
      rintro _ _ _ ⟨registry,rfl⟩
      exact entered.closed sound turning ready header (looping_spares sweeps)
    split <;> exact marked _ _
  | none =>
    rw [ends_get]
    have done : Looped survey scope stop loop (some leaving) before middle :=
      .of_round header ⟨header,entered.fresh⟩ (looping_spares sweeps)
    split
    · rw [ends_bind]
      refine (markFor_ends declared).mono ?_
      rintro _ _ _ ⟨registry,rfl⟩
      exact ⟨done.header,done.sweeps.trans (.refl done.sweeps.rooted) fun _ ended => Or.inr ended⟩
    · exact done

theorem emitPostTested_ends (sound : survey.Unguarded) (safe : emit.Safe survey fuel)
    (entered : Entered survey scope stop loop before) (only : loop.latches = [latch])
    (tests : survey.latchTest? loop latch = some (.postTested latch condition leaving))
    (enough : survey.remaining before ≤ fuel) :
    Ends (survey.emitPostTested emit scope loop region latch condition leaving) before
      (fun _ after => Looped survey scope stop loop (some leaving) before after) survey.graph.Admits := by
  have left := latchTest_left (entered.natural sound) only tests
  have turns : loop.Turns survey.graph (some leaving) latch :=
    ⟨(entered.natural sound).latch_mem (by simp [only]),fun target edge =>
      (((latchTest_leads tests).2 target).mp edge).imp_right fun same => congrArg some same.symm⟩
  unfold emitPostTested
  rw [ends_bind]
  refine (declare_ends .doWhile).mono ?_
  rintro id _ _ ⟨rfl,rfl⟩
  dsimp only
  split
  · rename_i same
    rw [pure_bind,ends_bind]
    refine (take_ends (same ▸ entered.fresh)).mono ?_
    rintro _ _ _ rfl
    refine ⟨same ▸ List.mem_cons_self,Sweeps.last (.refl entered.placed.rooted) (same ▸ entered.ready) ?_ ?_⟩
    · exact fun keep => keep.1 same
    · intro target edge
      rcases turns.2 target edge with rfl | left
      · exact Or.inl ⟨same ▸ List.mem_cons_self,entered.fresh⟩
      · exact Or.inr (Or.inr left)
  · rename_i apart
    have inner := entered.inner sound .doWhile rfl region left (Or.inr turns)
    rw [ends_bind]
    refine (safe _ _ _ _ _ ⟨inner,entered.fresh,entered.ready,enough⟩).mono ?_
    rintro body middle _ ⟨header,sweeps,_⟩
    obtain ⟨fresh,ready⟩ := entered.closing sound left turns apart header sweeps.since
    rw [ends_bind]
    refine (take_ends fresh).mono ?_
    rintro _ _ _ rfl
    exact entered.closed sound turns ready header (looping_spares sweeps.since)

theorem emitEndless_ends (sound : survey.Unguarded) (safe : emit.Safe survey fuel)
    (entered : Entered survey scope stop loop before) (left : loop.LeftFor survey.graph exit)
    (enough : survey.remaining before ≤ fuel) :
    Ends (emitEndless emit scope loop region exit) before
      (fun _ after => Looped survey scope stop loop exit before after) survey.graph.Admits := by
  unfold emitEndless
  rw [ends_bind]
  refine (declare_ends .whileLoop).mono ?_
  rintro id _ _ ⟨rfl,rfl⟩
  have inner := entered.inner sound .whileLoop rfl region left (Or.inl rfl)
  rw [ends_bind]
  refine (safe _ _ _ _ _ ⟨inner,entered.fresh,entered.ready,enough⟩).mono ?_
  rintro body middle _ ⟨header,sweeps,_⟩
  exact .of_round header ⟨header,entered.fresh⟩ (looping_spares sweeps.since)

theorem remaining_enter (member : loop ∈ survey.loops) (unentered : loop.header ∉ before.entered) :
    survey.remaining {before with entered:=loop.header :: before.entered,events} < survey.remaining before := by
  unfold remaining
  refine Nat.add_lt_add_left ?_ _
  have sub : survey.loops.filter (fun other => other.header ∉ loop.header :: before.entered) =
      (survey.loops.filter fun other => other.header ∉ before.entered).filter (·.header ≠ loop.header) := by
    rw [List.filter_filter]
    congr 1
    funext other
    simp
  rw [sub]
  have listed : loop ∈ survey.loops.filter fun other => other.header ∉ before.entered := by
    simp [member,unentered]
  exact List.length_filter_lt_length_iff_exists.2 ⟨loop,listed,by simp⟩

theorem behindLoop_ends {statement : Statement} (sound : survey.Unguarded) (entered : Entered survey scope stop loop before)
    (left : loop.LeftFor survey.graph exit) (looped : Looped survey scope stop loop exit before middle)
    (tracked : before.registry.Tracks (statement.marks scope.around) middle.registry) :
    Ends (do checkConstruct survey.settings scope statement; follow scope loop.header exit stop out) middle
      (fun onward after => loop.header ∈ after.taken ∧ Continues survey scope stop
        (fun other => other ≠ loop.header ∧ scope.isJumpTarget other = true) before onward after)
      survey.graph.Admits := by
  rw [ends_bind]
  refine (checkConstruct_ends entered.placed.known tracked).mono ?_
  rintro _ middle _ rfl
  have known := entered.placed.known.grown tracked
  have ready (target : BlockId) (found : exit = some target) (_ : some target ≠ stop) :
      survey.graph.Ready middle.taken target := by
    obtain ⟨_,source,within,leads⟩ := left target found
    exact looped.sweeps.rooted.edge (entered.whole sound left looped source within) leads
  refine (follow_continues looped.sweeps known ready).mono ?_
  rintro onward after _ ⟨continues,same,_⟩
  exact ⟨same ▸ looped.header,continues⟩

theorem loop_entered (starts : Starts survey (fuel + 1) scope loop.header stop before) (member : loop ∈ survey.loops)
    (unentered : loop.header ∉ before.entered) :
    Entered survey scope stop loop {before with entered:=loop.header :: before.entered,events} ∧
      survey.remaining {before with entered:=loop.header :: before.entered,events} ≤ fuel := by
  refine ⟨⟨member,⟨starts.placed.rooted,starts.placed.known,fun target leaves => ?_⟩,starts.ready,starts.fresh,
    List.mem_cons_self,?_⟩,?_⟩
  · exact (starts.placed.outside target leaves).more (fun _ known => known) fun _ => List.mem_cons_of_mem _
  · exact fun target leaves => starts.placed.outside target leaves loop member starts.fresh unentered
  · exact Nat.le_of_lt_succ (Nat.lt_of_lt_of_le (remaining_enter member unentered) starts.enough)

theorem emitLoop_ends (sound : survey.Unguarded) (safe : emit.Safe survey fuel) (tracks : emit.Tracks)
    (starts : Starts survey (fuel + 1) scope loop.header stop before) (member : loop ∈ survey.loops)
    (unentered : loop.header ∉ before.entered) :
    Ends (survey.emitLoop emit scope loop stop out) before (fun onward after => loop.header ∈ after.taken ∧
      Continues survey scope stop (fun other => other ≠ loop.header ∧ scope.isJumpTarget other = true)
        before onward after) survey.graph.Admits := by
  unfold emitLoop
  rw [ends_bind]
  refine Ends.mono (show Ends (enter loop.header) before
    (fun _ after => after = {before with entered:=loop.header :: before.entered}) _ from rfl) ?_
  rintro _ _ _ rfl
  rw [ends_get]
  dsimp only
  rw [ends_bind]
  refine (log_ends _).mono ?_
  rintro _ _ _ rfl
  generalize found : survey.classify before.opened loop = shape
  generalize survey.absorb scope before.taken loop _ = region
  generalize before.events ++ _ = events
  have ⟨entered,fuelled⟩ : Entered survey scope stop loop
      {before with entered:=loop.header :: before.entered,events} ∧ _ := loop_entered starts member unentered
  -- Once the loop is built, what follows it is the same for every shape.
  have behind {exit : Option BlockId} {statement : Statement} {front : Block} {middle : Progress}
      (looped : Looped survey scope stop loop exit {before with entered:=loop.header :: before.entered,events} middle)
      (left : loop.LeftFor survey.graph exit)
      (tracked : before.registry.Tracks (statement.marks scope.around) middle.registry) :
      Ends (do checkConstruct survey.settings scope statement; follow scope loop.header exit stop front) middle
        (fun onward after => loop.header ∈ after.taken ∧ Continues survey scope stop
          (fun other => other ≠ loop.header ∧ scope.isJumpTarget other = true) before onward after)
        survey.graph.Admits := by
    refine (behindLoop_ends sound entered left looped tracked).mono ?_
    rintro onward after _ ⟨header,sweeps,known,next⟩
    exact ⟨header,⟨sweeps.taken,fun _ early => sweeps.entered _ (List.mem_cons_of_mem _ early),sweeps.rooted,
      sweeps.apart,sweeps.onward⟩,known,next⟩
  cases shape with
  | preTested condition bodyEntry leaving =>
    have tests := classify_preTested found
    rw [ends_bind]
    refine ((emitPreTested_ends sound safe entered tests fuelled).and fun _ _ gives =>
      emitPreTested_tracked tracks sound.plain gives starts.placed.known).mono ?_
    rintro ⟨statement,front⟩ middle _ ⟨looped,_,tracked⟩
    exact behind looped (headerTest_left (entered.natural sound) tests) tracked
  | postTested latch condition leaving =>
    obtain ⟨only,tests⟩ := classify_postTested found
    rw [ends_bind]
    refine ((emitPostTested_ends sound safe entered only tests fuelled).and fun _ _ gives =>
      emitPostTested_tracked tracks sound.plain gives starts.placed.known).mono ?_
    rintro statement middle _ ⟨looped,tracked⟩
    rw [pure_bind]
    exact behind looped (latchTest_left (entered.natural sound) only tests) tracked
  | endless exit =>
    have left := classify_endless found ▸ survey.endlessExit_left loop
    rw [ends_bind]
    refine ((emitEndless_ends sound safe entered left fuelled).and fun _ _ gives =>
      emitEndless_tracked tracks gives starts.placed.known).mono ?_
    rintro statement middle _ ⟨looped,tracked⟩
    rw [pure_bind]
    exact behind looped left tracked

end Survey
end Untangle
