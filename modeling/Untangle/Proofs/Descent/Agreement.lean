import Untangle.Proofs.Descent.Outstanding

namespace Untangle
open Emission

def Survey.Leads (survey : Survey) (onward : Onward) : Prop :=
  ∀ block, onward.2 = some block → block < survey.graph.size

structure Survey.Lessens (survey : Survey) (before : Progress) (onward : Onward) (after : Progress) : Prop where
  later : before.Later after
  less : survey.outstanding after < survey.outstanding before
  leads : survey.Leads onward

namespace Emission
variable {survey : Survey} {bound : Nat} {before middle : Progress}

-- From here two emissions come to the same, and `done` holds of what they give, if they give anything.
structure Alike (before : Progress) (done : α → Progress → Prop) (one two : Emission α) : Prop where
  same : one.from before = two.from before
  gives : ∀ result after, Gives one before result after → done result after

def Agree (survey : Survey) (bound : Nat) (sure : α → Prop) (one two : Emission α) : Prop :=
  ∀ before, survey.outstanding before < bound →
    Alike before (fun result after => before.Later after ∧ sure result) one two

theorem alike_bind {done : α → Progress → Prop} {done' : β → Progress → Prop} {one two : Emission α}
    {rest rest' : α → Emission β} (first : Alike before done one two)
    (next : ∀ value middle, done value middle → Alike middle done' (rest value) (rest' value)) :
    Alike before done' (one >>= rest) (two >>= rest') := by
  constructor
  · rw [from_bind,from_bind,← first.same]
    rcases ran : one.from before with ⟨cause | value,middle⟩
    · rfl
    · exact (next value middle (first.gives value middle ran)).same
  · intro result after gives
    obtain ⟨value,middle,ran,rest⟩ := gives_bind.mp gives
    exact (next value middle (first.gives value middle ran)).gives result after rest

theorem Alike.mono {done done' : α → Progress → Prop} {one two : Emission α} (alike : Alike before done one two)
    (more : ∀ result after, done result after → done' result after) : Alike before done' one two :=
  ⟨alike.same,fun result after gives => more result after (alike.gives result after gives)⟩

theorem Grows.alike {sure : α → Prop} {emission : Emission α} (grows : Grows sure emission) (before : Progress) :
    Alike before (fun result after => before.Later after ∧ sure result) emission emission :=
  ⟨rfl,grows before⟩

theorem Grows.agree {sure : α → Prop} {emission : Emission α} (grows : Grows sure emission) :
    Agree survey bound sure emission emission := fun before _ => grows.alike before

theorem agree_bind {sure : α → Prop} {sure' : β → Prop} {one two : Emission α} {rest rest' : α → Emission β}
    (first : Agree survey bound sure one two)
    (next : ∀ value, sure value → Agree survey bound sure' (rest value) (rest' value)) :
    Agree survey bound sure' (one >>= rest) (two >>= rest') := by
  intro before less
  refine alike_bind (first before less) fun value middle ⟨later,holds⟩ => ?_
  refine (next value holds middle (Nat.lt_of_le_of_lt (Survey.outstanding_later later) less)).mono ?_
  exact fun result after ⟨onward,known⟩ => ⟨later.trans onward,known⟩

theorem alike_get {done : α → Progress → Prop} {rest rest' : Progress → Emission α}
    (next : Alike before done (rest before) (rest' before)) : Alike before done (get >>= rest) (get >>= rest') :=
  ⟨next.same,next.gives⟩

theorem agree_get {sure : α → Prop} {rest rest' : Progress → Emission α}
    (next : ∀ progress, Agree survey bound sure (rest progress) (rest' progress)) :
    Agree survey bound sure (get >>= rest) (get >>= rest') := fun before less =>
  alike_get (next before before less)

theorem alike_step {first : Emission Unit} {rest rest' : Unit → Emission Onward}
    (ran : Gives first before () middle) (later : before.Later middle)
    (less : survey.outstanding middle < survey.outstanding before) (enough : survey.outstanding before ≤ bound)
    (next : Agree survey bound survey.Leads (rest ()) (rest' ())) :
    Alike before (survey.Lessens before) (first >>= rest) (first >>= rest') := by
  have step : Alike before (fun _ after => after = middle) first first := by
    refine ⟨rfl,fun result after gives => ?_⟩
    cases ran.symm.trans gives
    rfl
  refine alike_bind step fun _ after there => ?_
  rw [there]
  refine (next middle (Nat.lt_of_lt_of_le less enough)).mono fun result after ⟨onward,known⟩ => ?_
  exact ⟨later.trans onward,Nat.lt_of_le_of_lt (Survey.outstanding_later onward) less,known⟩

theorem take_taken {block : BlockId} (known : block ∈ before.taken) (rest : Unit → Emission α) :
    (take block >>= rest).from before = (.error (.structuredTwice block),before) := by
  have refused : (take block).from before = (.error (.structuredTwice block),before) := by
    unfold take
    rw [from_get,if_pos known]
    rfl
  rw [from_bind,refused]

end Emission

def Scope.Within (scope : Scope) (survey : Survey) : Prop := ∀ block ∈ scope.region, block < survey.graph.size

theorem Scope.Within.narrow {scope : Scope} {survey : Survey} (within : scope.Within survey) (region : List BlockId) :
    (scope.narrow region).Within survey := fun block member =>
  within block (of_decide_eq_true (List.mem_filter.mp member).2)

theorem Scope.Within.inside {scope : Scope} {survey : Survey} (within : scope.Within survey) (context : Context) :
    (scope.inside context).Within survey := within

def Emitter.Agree (survey : Survey) (bound : Nat) (one two : Emitter) : Prop :=
  ∀ scope block stop out, scope.Within survey → block < survey.graph.size →
    Emission.Agree survey bound (fun _ => True) (one scope block stop out) (two scope block stop out)

def Survey.Handled (survey : Survey) : Prop :=
  ∀ range ∈ survey.tries, ∀ clause ∈ range.clauses, clause.handler < survey.graph.size

section Emitters
variable {survey : Survey} {bound : Nat} {one two : Emitter} {scope : Scope} {block source target : BlockId}
  {stop merge : Option BlockId} {out : Block} {before : Progress} {loop : NaturalLoop} {region : List BlockId}
  {exit : Option BlockId} (agree : Emitter.Agree survey bound one two) (within : scope.Within survey)
include within

theorem onward_agree {emission : Emission Onward} (grows : Grows (Stays scope) emission) :
    Emission.Agree survey bound survey.Leads emission emission := fun before _ =>
  (grows.alike before).mono fun _ _ ⟨later,stays⟩ => ⟨later,fun block next => within block (stays block next)⟩

include agree

theorem sequence_agree {next : Option BlockId} (leads : ∀ block, next = some block → block < survey.graph.size) :
    Emission.Agree survey bound (fun _ => True) (sequence one scope next stop out) (sequence two scope next stop out) := by
  unfold Emission.sequence
  cases next with
  | none => exact (pure_grows trivial).agree
  | some block =>
    dsimp only
    split
    · exact (pure_grows trivial).agree
    · exact agree _ _ _ _ within (leads block rfl)

theorem arm_agree : Emission.Agree survey bound (fun _ => True) (arm one scope source target stop)
    (arm two scope source target stop) := by
  unfold arm
  refine agree_bind (onward_agree within (flowTo_grows _ _ _ _ _)) ?_
  rintro ⟨body,next⟩ leads
  exact sequence_agree agree within leads

theorem emitBranch_agree {condition : Condition} {thenTarget elseTarget : BlockId} :
    Emission.Agree survey bound survey.Leads (survey.emitBranch one scope block condition thenTarget elseTarget stop out)
      (survey.emitBranch two scope block condition thenTarget elseTarget stop out) := by
  unfold Survey.emitBranch
  refine agree_get fun progress => ?_
  refine agree_bind (log_grows _).agree fun _ _ => ?_
  refine agree_bind (arm_agree agree within) fun thenBlock _ => ?_
  refine agree_bind (arm_agree agree within) fun elseBlock _ => ?_
  exact onward_agree within (follow_grows _ _ _ _ _)

theorem emitArms_agree (arms : List PendingArm) : Emission.Agree survey bound (fun _ => True)
    (Survey.emitArms one scope block stop arms) (Survey.emitArms two scope block stop arms) := by
  induction arms with
  | nil => exact (pure_grows trivial).agree
  | cons current rest ih =>
    cases rest with
    | nil =>
      refine agree_bind (arm_agree agree within) fun body _ => ?_
      exact (pure_grows trivial).agree
    | cons next rest =>
      refine agree_bind (arm_agree agree within) fun body _ => ?_
      refine agree_bind ih fun arms _ => ?_
      exact (pure_grows trivial).agree

theorem emitSwitch_agree {discriminant : Expr} {cases : List (Int32 × BlockId)} {default : BlockId} :
    Emission.Agree survey bound survey.Leads (survey.emitSwitch one scope block discriminant cases default stop out)
      (survey.emitSwitch two scope block discriminant cases default stop out) := by
  unfold Survey.emitSwitch
  refine agree_get fun progress => ?_
  refine agree_bind (log_grows _).agree fun _ _ => ?_
  refine agree_bind (declare_grows _).agree fun id _ => ?_
  refine agree_bind (emitArms_agree agree (within.inside _) _) fun built _ => ?_
  refine agree_bind (demand_grows _ _).agree fun statement _ => ?_
  refine agree_bind (checkConstruct_grows _ _ _).agree fun _ _ => ?_
  exact onward_agree within (follow_grows _ _ _ _ _)

theorem emitPreTested_agree {condition : Condition} {bodyEntry exit : BlockId} :
    Emission.Agree survey bound (fun _ => True)
      (survey.emitPreTested one scope loop region condition bodyEntry exit out)
      (survey.emitPreTested two scope loop region condition bodyEntry exit out) := by
  unfold Survey.emitPreTested
  refine agree_bind (take_grows _).agree fun _ _ => ?_
  refine agree_bind (declare_grows _).agree fun id _ => ?_
  refine agree_bind (arm_agree agree ((within.narrow region).inside _)) fun body _ => ?_
  -- The rest asks neither emitter.
  refine Grows.agree ?_
  split
  · refine grows_bind (take_grows _) fun _ _ => ?_
    dsimp only
    split <;> exact grows_bind (markFor_grows _ _) fun _ _ => pure_grows trivial
  · refine grows_get fun progress => ?_
    dsimp only
    split
    · exact grows_bind (markFor_grows _ _) fun _ _ => pure_grows trivial
    · exact pure_grows trivial

theorem emitPostTested_agree (inside : loop.header < survey.graph.size) {latch exit : BlockId} {condition : Condition} :
    Emission.Agree survey bound (fun _ => True)
      (survey.emitPostTested one scope loop region latch condition exit)
      (survey.emitPostTested two scope loop region latch condition exit) := by
  unfold Survey.emitPostTested
  refine agree_bind (declare_grows _).agree fun id _ => ?_
  dsimp only
  by_cases same : latch = loop.header
  · simp only [if_pos same]
    refine agree_bind (pure_grows trivial).agree fun body (_ : True) => ?_
    exact (grows_bind (take_grows _) fun _ _ => pure_grows trivial).agree
  · simp only [if_neg same]
    refine agree_bind (agree _ _ _ _ ((within.narrow region).inside _) inside) fun body _ => ?_
    exact (grows_bind (take_grows _) fun _ _ => pure_grows trivial).agree

theorem emitEndless_agree (inside : loop.header < survey.graph.size) :
    Emission.Agree survey bound (fun _ => True) (Survey.emitEndless one scope loop region exit)
      (Survey.emitEndless two scope loop region exit) := by
  unfold Survey.emitEndless
  refine agree_bind (declare_grows _).agree fun id _ => ?_
  refine agree_bind (agree _ _ _ _ ((within.narrow region).inside _) inside) fun body _ => ?_
  exact (pure_grows trivial).agree

theorem emitCatches_agree {clauses : List CatchGroup} (handlers : ∀ clause ∈ clauses, clause.handler < survey.graph.size) :
    Emission.Agree survey bound (fun _ => True) (Survey.emitCatches one scope stop clauses)
      (Survey.emitCatches two scope stop clauses) := by
  induction clauses with
  | nil => exact (pure_grows trivial).agree
  | cons clause rest ih =>
    unfold Survey.emitCatches
    refine agree_get fun progress => ?_
    by_cases known : clause.handler ∈ progress.taken
    · simp only [if_pos known]
      exact agree_bind (throw_grows _).agree fun _ (never : False) => never.elim
    · simp only [if_neg known]
      have handler (block : BlockId) (same : some clause.handler = some block) : block < survey.graph.size :=
        Option.some.inj same ▸ handlers clause List.mem_cons_self
      refine agree_bind (sequence_agree agree within handler) fun body _ => ?_
      refine agree_bind (ih fun other later => handlers other (List.mem_cons_of_mem _ later)) fun catches _ => ?_
      exact (pure_grows trivial).agree

theorem emitTry_alike {range : TryRegion} {index : Nat} (known : survey.tries[index]? = some range)
    (fresh : index ∉ before.opened) (first : range.first < survey.graph.size)
    (handlers : ∀ clause ∈ range.clauses, clause.handler < survey.graph.size)
    (enough : survey.outstanding before ≤ bound) :
    Alike before (survey.Lessens before)
      (survey.emitTry one scope range index stop out) (survey.emitTry two scope range index stop out) := by
  unfold Survey.emitTry
  refine alike_step (gives_openRange.mpr rfl) before.later_opened (Survey.outstanding_opened known fresh) enough ?_
  dsimp only
  refine agree_bind (log_grows _).agree fun _ _ => ?_
  have start (block : BlockId) (same : some range.first = some block) : block < survey.graph.size :=
    Option.some.inj same ▸ first
  refine agree_bind (sequence_agree agree (within.narrow _) start) fun body _ => ?_
  refine agree_bind (emitCatches_agree agree within handlers) fun catches _ => ?_
  exact onward_agree within (follow_grows _ _ _ _ _)

theorem emitLoop_alike (member : loop ∈ survey.loops) (fresh : loop.header ∉ before.entered)
    (inside : loop.header < survey.graph.size) (enough : survey.outstanding before ≤ bound) :
    Alike before (survey.Lessens before)
      (survey.emitLoop one scope loop stop out) (survey.emitLoop two scope loop stop out) := by
  unfold Survey.emitLoop
  refine alike_step (gives_enter.mpr rfl) before.later_entered (Survey.outstanding_entered member fresh) enough ?_
  refine agree_get fun progress => ?_
  dsimp only
  refine agree_bind (log_grows _).agree fun _ _ => ?_
  have behind (exit : Option BlockId) (statement : Statement) (front : Block) :
      Emission.Agree survey bound survey.Leads
        (do checkConstruct survey.settings scope statement; follow scope loop.header exit stop front)
        (do checkConstruct survey.settings scope statement; follow scope loop.header exit stop front) :=
    agree_bind (checkConstruct_grows _ _ _).agree fun _ _ => onward_agree within (follow_grows _ _ _ _ _)
  cases shape : survey.classify progress.opened loop with
  | preTested condition bodyEntry exit =>
    refine agree_bind (emitPreTested_agree agree within) ?_
    rintro ⟨statement,front⟩ _
    exact behind _ statement _
  | postTested latch condition exit =>
    refine agree_bind (emitPostTested_agree agree within inside) fun statement _ => ?_
    exact behind _ statement _
  | endless exit =>
    refine agree_bind (emitEndless_agree agree within inside) fun statement _ => ?_
    exact behind _ statement _

theorem emitPlain_alike (inside : block < survey.graph.size) (enough : survey.outstanding before ≤ bound) :
    Alike before (survey.Lessens before)
      (survey.emitPlain one scope block stop out) (survey.emitPlain two scope block stop out) := by
  unfold Survey.emitPlain
  by_cases known : block ∈ before.taken
  · have refused (rest : Unit → Emission Onward) :
        (take block >>= rest).from before = (.error (.structuredTwice block),before) := take_taken known rest
    refine ⟨(refused _).trans (refused _).symm,fun onward after gives => ?_⟩
    cases gives.symm.trans (refused _)
  · refine alike_step (gives_take.mpr ⟨known,rfl⟩) before.later_taken (Survey.outstanding_taken inside known) enough ?_
    dsimp only
    split
    · exact onward_agree within (flowTo_grows _ _ _ _ _)
    · exact emitBranch_agree agree within
    · exact emitSwitch_agree agree within
    · exact (pure_grows fun _ none => nomatch none).agree
    · refine agree_bind (demand_grows _ _).agree fun statement _ => ?_
      exact (pure_grows fun _ none => nomatch none).agree

theorem emitBlock_alike (handled : survey.Handled) (inside : block < survey.graph.size) (enough : survey.outstanding before ≤ bound) :
    Alike before (survey.Lessens before)
      (survey.emitBlock one scope block stop out) (survey.emitBlock two scope block stop out) := by
  unfold Survey.emitBlock
  refine alike_get ?_
  dsimp only
  split
  · rename_i range index found
    obtain ⟨pending,_⟩ := Option.filter_eq_some_iff.mp found
    obtain ⟨known,rfl,fresh⟩ := Survey.pendingTry_some pending
    exact emitTry_alike agree within known fresh inside (handled range (List.mem_of_getElem? known)) enough
  · split
    · rename_i loop found
      obtain ⟨found,fresh⟩ := Option.filter_eq_some_iff.mp found
      obtain ⟨member,rfl⟩ := LoopForest.get_some found
      exact emitLoop_alike agree within member (of_decide_eq_true fresh) inside enough
    · exact emitPlain_alike agree within inside enough

end Emitters
end Untangle
