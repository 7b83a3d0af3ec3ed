import Untangle.Proofs.Layout.Lays
import Untangle.Proofs.Switching.Dispatch

namespace Untangle
open Emission

variable {survey : Survey} {quiet : LatchFacts} {scope : Scope} {around : List TryRegion} {stop merge next : Option BlockId}
  {progress before after : Progress} {out out' last : Block} {target source : BlockId} {lay : Layout}

def Survey.Writes (survey : Survey) (quiet : LatchFacts) (around : List TryRegion) (before after : Progress)
    (lay : Layout) (out : Block) : Prop :=
  ∃ lay', erased lay' = out ∧ survey.Lays quiet around before after lay lay'

theorem flowTo_lays (gives : Gives (flowTo scope source target stop out) before (out',next) after)
    (same : erased lay = out) (encloses : survey.Encloses around scope before)
    (reached : some target ≠ stop → survey.graph.Orderly → survey.Reached around target) :
    survey.Writes quiet around before after lay out' ∧ ∀ block, next = some block → survey.Fits around after block := by
  rcases gives_flowTo gives with ⟨_,equal,rfl⟩ | ⟨_,resolved,result,_,jumps,equal⟩ | ⟨goes,_,within,fresh,equal,rfl⟩
  · cases equal
    exact ⟨⟨lay,same,.refl _ _ _ _⟩,by simp⟩
  · cases equal
    obtain ⟨registry,brk,events,_,rfl,rfl⟩ := gives_jump jumps
    refine ⟨⟨lay ++ [.jump {brk with nested:=resolved.nested}],?_,(Survey.Lays.refl _ _ _ lay).congr ?_ ?_ ?_⟩,by simp⟩
    · rw [erased_append,same]
      rfl
    · simp [items_append,items,Laid.items]
    · simp [items_append,items,Laid.items]
    · exact fun _ fronts => fronts.append _
  · cases equal
    refine ⟨⟨lay,same,.refl _ _ _ _⟩,?_⟩
    intro block equal
    cases equal
    exact encloses.fits within fresh (reached goes)

theorem follow_lays (gives : Gives (follow scope source merge stop out') before (last,next) after)
    (writes : survey.Writes quiet around progress before lay out') (encloses : survey.Encloses around scope before)
    (reached : ∀ target, merge = some target → some target ≠ stop → survey.graph.Orderly →
      survey.Reached around target) :
    survey.Writes quiet around progress after lay last ∧ ∀ block, next = some block → survey.Fits around after block := by
  unfold follow at gives
  cases merge with
  | none =>
    obtain ⟨same,rfl⟩ := gives_pure.mp gives
    cases same
    exact ⟨writes,by simp⟩
  | some target =>
    obtain ⟨lay',same,lays⟩ := writes
    obtain ⟨⟨last',same',rest⟩,onward⟩ := flowTo_lays gives same encloses (reached target rfl)
    exact ⟨⟨last',same',lays.trans rest⟩,onward⟩

-- An emitter goes on with a layout, takes the block that it is given, and starts a new page with it. Where that
-- block ends the sequence as well, no range may be left to start with it.
def Emitter.Lays (emit : Emitter) (survey : Survey) (quiet : LatchFacts) : Prop :=
  ∀ around scope block stop out before out' after lay, Gives (emit scope block stop out) before out' after →
    erased lay = out → survey.Encloses around scope before → survey.Fits around before block →
    (survey.graph.Orderly → some block = stop → survey.pendingTry? before.opened block = none) →
    ∃ lay', erased lay' = out' ∧ survey.Lays quiet around before after lay lay' ∧
      (survey.graph.Orderly → block ∈ after.taken) ∧ (lay = [] → Fronts block lay')

def Survey.WritesFrom (survey : Survey) (quiet : LatchFacts) (around : List TryRegion) (block : BlockId)
    (before after : Progress) (lay : Layout) (out : Block) : Prop :=
  ∃ lay', erased lay' = out ∧ survey.Lays quiet around before after lay lay' ∧
    (survey.graph.Orderly → block ∈ after.taken) ∧ (lay = [] → Fronts block lay')

theorem Survey.WritesFrom.further {block : BlockId} {middle : Progress} {lay' : Layout}
    (lays : survey.Lays quiet around before middle lay lay') (taken : survey.graph.Orderly → block ∈ middle.taken)
    (fronts : lay = [] → Fronts block lay') (writes : survey.Writes quiet around middle after lay' last) :
    survey.WritesFrom quiet around block before after lay last := by
  obtain ⟨page,same,rest⟩ := writes
  exact ⟨page,same,lays.trans rest,fun orderly => rest.taken _ (taken orderly),fun empty => rest.front _ (fronts empty)⟩

-- What is to hold of a `do` loop holds of the one that is made at a block, if one is.
def Emitter.Quietly (emit : Emitter) (survey : Survey) (quiet : LatchFacts) (scope : Scope) (block : BlockId)
    (before : Progress) : Prop :=
  ∀ loop region latch condition exit events id body after, loop ∈ survey.loops → loop.header = block →
    block ∉ before.entered → survey.classify before.opened loop = .postTested latch condition exit →
    Gives (survey.emitPostTested emit scope loop region latch condition exit)
      {before with entered:=block :: before.entered,events} (.doWhile id condition body) after → quiet id block latch body

variable {emit : Emitter}

theorem sequence_lays (emits : emit.Lays survey quiet)
    (gives : Gives (Emission.sequence emit scope next stop out') before last after)
    (writes : survey.Writes quiet around progress before lay out') (encloses : survey.Encloses around scope before)
    (onward : ∀ block, next = some block → survey.Fits around before block) :
    survey.Writes quiet around progress after lay last := by
  unfold Emission.sequence at gives
  cases next with
  | none =>
    obtain ⟨rfl,rfl⟩ := gives_pure.mp gives
    exact writes
  | some block =>
    dsimp only at gives
    split at gives
    · obtain ⟨rfl,rfl⟩ := gives_pure.mp gives
      exact writes
    · rename_i goes
      obtain ⟨lay',same,lays⟩ := writes
      obtain ⟨last',same',rest,_⟩ := emits _ _ _ _ _ _ _ _ _ gives same encloses (onward block rfl)
        fun _ ends => absurd ends goes
      exact ⟨last',same',lays.trans rest⟩

theorem arm_lays (emits : emit.Lays survey quiet) (gives : Gives (arm emit scope source target stop) before out' after)
    (encloses : survey.Encloses around scope before) (reached : survey.graph.Orderly → survey.Reached around target) :
    survey.Writes quiet around before after [] out' := by
  obtain ⟨start,next,middle,flows,rest⟩ := gives_arm gives
  obtain ⟨⟨page,same,lays⟩,onward⟩ := flowTo_lays flows (show erased [] = [] from rfl) encloses fun _ => reached
  exact sequence_lays emits rest ⟨page,same,lays⟩ (encloses.later lays) onward

theorem page_lays {block : BlockId} (emits : emit.Lays survey quiet)
    (gives : Gives (Emission.sequence emit scope (some block) stop []) before out' after)
    (encloses : survey.Encloses around scope before) (fits : survey.Fits around before block) :
    ∃ body, erased body = out' ∧ survey.Lays quiet around before after [] body ∧ Opens block body ∧
      (survey.graph.Orderly → some block ≠ stop → block ∈ after.taken) := by
  unfold Emission.sequence at gives
  dsimp only at gives
  split at gives
  · rename_i ends
    obtain ⟨rfl,rfl⟩ := gives_pure.mp gives
    exact ⟨[],rfl,.refl _ _ _ _,trivial,fun _ goes => absurd ends goes⟩
  · rename_i goes
    obtain ⟨body,same,lays,taken,fronts⟩ := emits _ _ _ _ _ _ _ _ [] gives rfl encloses fits
      fun _ ends => absurd ends goes
    exact ⟨body,same,lays,(fronts rfl).opens,fun orderly _ => taken orderly⟩

theorem branchForm_laid {graph : BlockGraph} {one two : Layout} (first : graph.Tidy (items one))
    (second : graph.Tidy (items two)) (condition : Condition) (openEnded : Bool) :
    ∃ lay, erased lay = branchForm condition (erased one) (erased two) openEnded ∧
      (items lay).Perm (items (one ++ two)) ∧ graph.Tidy (items lay) := by
  have tidy := BlockGraph.tidy_append first second
  have turned := BlockGraph.tidy_append second first
  unfold branchForm
  rw [items_append]
  split
  · rename_i absent
    refine ⟨.branch condition one none :: two,?_,.refl _,tidy⟩
    rw [erased,List.isEmpty_iff.mp absent]
    rfl
  · split
    · rename_i absent
      refine ⟨.branch condition.negate two none :: one,?_,List.perm_append_comm,turned⟩
      rw [erased,List.isEmpty_iff.mp absent]
      rfl
    · split
      · exact ⟨.branch condition one none :: two,rfl,.refl _,tidy⟩
      · split
        · exact ⟨.branch condition.negate two none :: one,rfl,List.perm_append_comm,turned⟩
        · refine ⟨[.branch condition one (some two)],rfl,?_,?_⟩
          · rw [items_single,Laid.items]
          · rw [items_single,Laid.items]
            exact tidy

theorem erased_none {marks : Layout} (none : erased marks = []) : (items marks).filterMap Item.written? = [] := by
  induction marks with
  | nil => rfl
  | cons part rest ih =>
    obtain ⟨own,others⟩ := List.append_eq_nil_iff.mp none
    cases part with
    | begins block => simpa [items,Laid.items,Item.written?] using ih others
    | branch condition thenPart elsePart => cases elsePart <;> cases own
    | _ => cases own

theorem layout_splits {slot : Option Statement} (same : erased lay = out ++ slot.toList)
    (plain : ∀ statement ∈ slot.toList, statement.isPlain = true) :
    ∃ early taken, erased early = out ∧ taken.map (·.2) = slot ∧ Rearranged (items lay) (items early ++ slotItems taken) ∧
      (lay = [] → early = [] ∧ taken = none) ∧ ∀ block more, Fronts block lay → Fronts block (early ++ more) := by
  cases slot with
  | none => exact ⟨lay,none,by simpa using same,rfl,by simpa [slotItems] using Rearranged.refl _,fun empty => ⟨empty,rfl⟩,
      fun _ more fronts => fronts.append more⟩
  | some statement =>
    obtain ⟨early,block,marks,rfl,front,none⟩ := erased_last same (plain statement List.mem_cons_self)
    have written := erased_none none
    refine ⟨early ++ marks,some (block,statement),by rw [erased_append,front,none,List.append_nil],rfl,⟨?_,?_,?_⟩,
      by simp,?_⟩
    · rw [items_append,items_append,List.append_assoc,items,slotItems]
      exact List.perm_append_comm.append_left _
    · simp only [items_append,items,Laid.items,slotItems,List.filterMap_append,List.append_assoc]
      exact congrArg _ (List.append_nil _).symm
    · simp only [items_append,items,Laid.items,slotItems,List.filterMap_append,written,List.append_nil]
    · intro block more fronts
      rw [List.append_assoc]
      exact fronts.early _

namespace Survey
variable {loop : NaturalLoop} {region : List BlockId} {block bodyEntry exit latch thenTarget elseTarget default : BlockId}
  {condition : Condition} {statement : Statement}

section Level
variable (formed : survey.Formed) (live : block ∈ survey.graph.live)
  (level : survey.graph.Orderly → survey.Level around block)
include formed live level

theorem emitBranch_lays (emits : emit.Lays survey quiet)
    (at_ : survey.graph.terminator block = .branch condition thenTarget elseTarget)
    (gives : Gives (survey.emitBranch emit scope block condition thenTarget elseTarget stop out) before
      (out',next) after) (same : erased lay = out) (encloses : survey.Encloses around scope before) :
    survey.Writes quiet around before after lay out' ∧ ∀ block, next = some block → survey.Fits around after block := by
  obtain ⟨merge,events,thenBlock,elseBlock,middle,later,openEnded,found,thenArm,elseArm,rest⟩ :=
    emitBranch_gives gives
  have leads (target : BlockId) (known : target = thenTarget ∨ target = elseTarget) :
      survey.graph.Orderly → survey.Reached around target := by
    exact fun orderly => (level orderly).edge formed orderly live ((BlockGraph.successors_branch at_).mpr known)
  obtain ⟨one,rfl,first⟩ := arm_lays emits thenArm encloses.recorded (leads thenTarget (Or.inl rfl))
  have first := first.since
  obtain ⟨two,rfl,second⟩ := arm_lays emits elseArm (encloses.later first) (leads elseTarget (Or.inr rfl))
  have both := first.both second
  obtain ⟨code,erases,kept,tidy⟩ := branchForm_laid first.tidy_page second.tidy_page condition openEnded
  have page := both.congr kept (fun _ => tidy) fun _ fronts => absurd fronts fronts_nil
  refine follow_lays rest ⟨lay ++ code,by rw [erased_append,same,erases],page.behind⟩ (encloses.later both) ?_
  intro target merges goes orderly
  exact (level orderly).merge formed orderly live (found.symm.trans merges) goes

theorem emitArms_lays {pendings : List PendingArm} (emits : emit.Lays survey quiet)
    (leads : ∀ arm ∈ pendings, arm.entry ∈ survey.graph.successors block)
    (gives : Gives (emitArms emit scope block stop pendings) before arms after)
    (encloses : survey.Encloses around scope before) :
    ∃ built, erasedArms built = arms ∧ survey.Lays quiet around before after [] (built.flatMap (·.body)) := by
  induction pendings generalizing before arms with
  | nil =>
    obtain ⟨rfl,rfl⟩ := emitArms_nil gives
    exact ⟨[],rfl,.refl _ _ _ _⟩
  | cons current rest ih =>
    obtain ⟨own,others⟩ := List.forall_mem_cons.mp leads
    obtain ⟨body,middle,arms',first,second,rfl⟩ := emitArms_cons gives
    obtain ⟨one,rfl,lays⟩ := arm_lays emits first encloses fun orderly => (level orderly).edge formed orderly live own
    obtain ⟨built,rfl,rest⟩ := ih others second (encloses.later lays)
    exact ⟨⟨current.emitted,one⟩ :: built,rfl,lays.both rest⟩

theorem emitSwitch_lays (emits : emit.Lays survey quiet)
    (at_ : survey.graph.terminator block = .switch discriminant cases default)
    (gives : Gives (survey.emitSwitch emit scope block discriminant cases default stop out) before
      (out',next) after) (same : erased lay = out) (encloses : survey.Encloses around scope before) :
    survey.Writes quiet around before after lay out' ∧ ∀ block, next = some block → survey.Fits around after block := by
  obtain ⟨merge,arms,id,events,built,middle,statement,found,grouped,_,rfl,emitted,_,rest⟩ := emitSwitch_gives gives
  have leads : ∀ arm ∈ (armOrder survey.graph survey.doms.dominates block arms).filterMap (arms[·]?),
      arm.entry ∈ survey.graph.successors block := by
    subst grouped
    exact fun arm member => PendingArm.ordered_entry at_ member
  obtain ⟨laid,rfl,lays⟩ := emitArms_lays formed live level emits leads emitted (encloses.recorded.inside _)
  have whole : survey.Lays quiet around before middle [] [.switch id discriminant laid] :=
    lays.since.wrap (by rw [items_single,Laid.items,armItems_bodies])
  refine follow_lays rest ⟨lay ++ [.switch id discriminant laid],?_,whole.behind⟩ (encloses.later whole) ?_
  · rw [erased_append,same]
    rfl
  · intro target merges goes orderly
    exact (level orderly).merge formed orderly live (found.symm.trans merges) goes

end Level

theorem header_laid (found : survey.headerTest? loop = some (.preTested condition bodyEntry exit)) :
    survey.graph.laid loop.header = [.begins loop.header] := by
  obtain ⟨bare,_,_,_,tests,_⟩ := headerTest_some found
  simp [BlockGraph.laid,BlockGraph.content,bare,tests,Terminator.exit?]

theorem update_laid {update : Statement} (holds : survey.graph.statements latch = [update])
    (back : survey.graph.terminator latch = .goto target) :
    survey.graph.laid latch = [.begins latch,.plain latch update] := by
  simp [BlockGraph.laid,BlockGraph.content,holds,back,Terminator.exit?]

theorem Encloses.places (encloses : survey.Encloses around scope before)
    (level : survey.graph.Orderly → survey.Level around block) : survey.Places around ⟨[],block⟩ [] :=
  ⟨rfl,encloses.tries,encloses.ordered,level⟩

theorem emitEndless_lays {exit : Option BlockId} (emits : emit.Lays survey quiet)
    (fits : survey.Fits around before loop.header)
    (unclaimed : survey.graph.Orderly → survey.pendingTry? before.opened loop.header = none)
    (gives : Gives (emitEndless emit scope loop region exit) before statement after)
    (encloses : survey.Encloses around scope before) :
    ∃ lay, erased lay = [statement] ∧ survey.Lays quiet around before after [] lay ∧
      (survey.graph.Orderly → loop.header ∈ after.taken) ∧ Fronts loop.header lay := by
  obtain ⟨id,body,_,rfl,emitted⟩ := emitEndless_gives gives
  obtain ⟨page,rfl,lays,taken,fronts⟩ := emits _ _ _ _ _ _ _ _ [] emitted rfl
    ((encloses.recorded.narrow region).inside _) ⟨fits.live,fits.fresh,fits.covered,fits.reached⟩
    fun orderly _ => unclaimed orderly
  refine ⟨[.whileLoop id (.constant true) page],rfl,lays.since.wrap ?_,taken,⟨_,[],rfl,rfl,(fronts rfl).opens⟩⟩
  rw [items_single,Laid.items]

section Loop
variable (formed : survey.Formed) (member : loop ∈ survey.loops) (live : loop.header ∈ survey.graph.live)
  (level : survey.graph.Orderly → survey.Level around loop.header)
include formed member live level

theorem emitPreTested_lays (emits : emit.Lays survey quiet)
    (found : survey.headerTest? loop = some (.preTested condition bodyEntry exit))
    (gives : Gives (survey.emitPreTested emit scope loop region condition bodyEntry exit out) before
      (statement,out') after) (same : erased lay = out) (encloses : survey.Encloses around scope before) :
    ∃ lay', erased lay' = out' ++ [statement] ∧ survey.Lays quiet around before after lay lay' ∧
      loop.header ∈ after.taken ∧ (lay = [] → Fronts loop.header lay') := by
  obtain ⟨id,body,middle,_,fresh,emitted,built⟩ := emitPreTested_gives gives
  have taken : survey.Lays quiet around before
      {before with taken:=loop.header :: before.taken,registry:=(before.registry.declare .whileLoop).2} []
      [.begins loop.header] := header_laid found ▸ .take (encloses.places level)
  have entry : survey.graph.Orderly → survey.Reached around bodyEntry := fun orderly =>
    (level orderly).edge formed orderly live (((headerTest_leads found).2 _).mpr (Or.inl rfl))
  obtain ⟨page,rfl,arm⟩ := arm_lays emits emitted (((encloses.later taken).narrow region).inside _) entry
  have inner := taken.both arm
  have header : loop.header ∈ middle.taken := arm.taken _ List.mem_cons_self
  have opens (rest : Layout) : Opens loop.header ([.begins loop.header] ++ page ++ rest) := rfl
  rcases built with ⟨latch,registry,start,shared,untaken,_,rfl,started,rfl⟩ |
    ⟨_,registry,parts,recovered,_,_,_,rfl,rfl,rfl⟩ | ⟨_,rfl,rfl,rfl⟩
  · obtain ⟨single,apart,_,back,update,holds⟩ := updateBlock_some shared
    have ends : loop.EndsWith survey.graph latch := ⟨single,apart,Or.inr ⟨back,update,holds⟩⟩
    have latched : survey.Lays quiet around middle {middle with taken:=latch :: middle.taken,registry} []
        [.begins latch,.plain latch update] :=
      update_laid holds back ▸ .take (encloses.places fun orderly =>
        (level orderly).latch formed orderly member live ends)
    have parts : out = out' ++ start.toList ∧ ∀ statement ∈ start.toList, statement.isPlain = true := by
      rcases started with ⟨rfl,rfl⟩ | ⟨index,_,taken⟩
      · simp
      · exact ⟨takeStart_splits taken.symm,takeStart_plain taken.symm⟩
    obtain ⟨early,slot,front,rfl,kept,empty,fronts⟩ := layout_splits (same.trans parts.1) parts.2
    refine ⟨early ++ [.forLoop id slot condition (some (latch,update)) ([.begins loop.header] ++ page ++ [.begins latch])],
      ?_,(inner.both latched).behind.rearranged ?_ fun _ => fronts _ _,List.mem_cons_of_mem _ header,?_⟩
    · rw [erased_append,front,erased_single,Laid.erase,holds]
      simp [erased_append,erased,Laid.erase]
    · have whole := kept.symm.append (.refl (items ([.begins loop.header] ++ page ++ [.begins latch,.plain latch update])))
      rw [items_append lay]
      simpa [items_append,items,Laid.items,slotItems] using whole
    · intro none
      obtain ⟨rfl,rfl⟩ := empty none
      exact ⟨_,[],rfl,rfl,opens [.begins latch]⟩
  · obtain ⟨rfl,split,_⟩ := recoverInduction_splits recovered
    obtain ⟨startPlain,updatePlain⟩ := recoverInduction_plain recovered
    have outer : erased lay = parts.out ++ (some parts.start).toList := same
    have round : erased ([.begins loop.header] ++ page) = parts.body ++ (some parts.update).toList := split
    obtain ⟨early,slot,before_,starts,kept,empty,fronts⟩ := layout_splits outer (by simpa using startPlain)
    obtain ⟨front,last,body_,updates,held,_⟩ := layout_splits round (by simpa using updatePlain)
    refine ⟨early ++ [.forLoop id slot condition last front],?_,(inner.trans (.refl _ _ _ _)).behind.rearranged ?_
      fun _ => fronts _ _,header,?_⟩
    · rw [erased_append,erased_single,Laid.erase,before_,starts,updates,body_]
    · rw [items_append,items_append,items_single,Laid.items,← List.append_assoc]
      exact kept.symm.append held.symm
    · intro none
      cases starts.symm.trans (congrArg (Option.map (·.2)) (empty none).2)
  · refine ⟨lay ++ [.whileLoop id condition ([.begins loop.header] ++ page)],?_,(inner.wrap ?_).behind,header,?_⟩
    · rw [erased_append,same]
      rfl
    · rw [items_single,Laid.items]
    · rintro rfl
      exact ⟨_,[],rfl,rfl,rfl⟩

theorem emitPostTested_lays (emits : emit.Lays survey quiet) (single : loop.latches = [latch])
    (found : survey.latchTest? loop latch = some (.postTested latch condition exit))
    (fits : survey.Fits around before loop.header)
    (quietly : ∀ id body, statement = .doWhile id condition body → quiet id loop.header latch body)
    (gives : Gives (survey.emitPostTested emit scope loop region latch condition exit) before statement after)
    (encloses : survey.Encloses around scope before) :
    ∃ lay, erased lay = [statement] ∧ survey.Lays quiet around before after [] lay ∧
      (survey.graph.Orderly → loop.header ∈ after.taken) ∧ Fronts loop.header lay := by
  obtain ⟨id,body,middle,_,rfl,built,untaken,rfl⟩ := emitPostTested_gives gives
  obtain ⟨_,thenTarget,elseTarget,tests,sides⟩ := latchTest_some found
  have content : survey.graph.content latch = survey.graph.statements latch := by
    simp [BlockGraph.content,tests,Terminator.exit?]
  have inner : ∃ page, erased page = body ∧ survey.Lays quiet around before middle [] page ∧
      (latch ≠ loop.header → (survey.graph.Orderly → loop.header ∈ middle.taken) ∧ Fronts loop.header page) ∧
      (latch = loop.header → page = []) := by
    rcases built with ⟨same,rfl,rfl⟩ | ⟨apart,emitted⟩
    · exact ⟨[],rfl,.refl _ _ _ _,fun apart => absurd same apart,fun _ => rfl⟩
    · obtain ⟨page,same,lays,taken,fronts⟩ := emits _ _ _ _ _ _ _ _ [] emitted rfl
        ((encloses.recorded.narrow region).inside _) ⟨fits.live,fits.fresh,fits.covered,fits.reached⟩
        fun _ ends => absurd (Option.some.inj ends).symm apart
      exact ⟨page,same,lays.since,fun _ => ⟨taken,fronts rfl⟩,fun same => absurd same apart⟩
  obtain ⟨page,rfl,lays,round,alone⟩ := inner
  have leveled : survey.graph.Orderly → survey.Level around latch := by
    intro orderly
    by_cases same : latch = loop.header
    · exact same ▸ level orderly
    · refine (level orderly).latch formed orderly member live ⟨single,same,Or.inl ⟨_,_,_,tests,?_⟩⟩
      simp only [NaturalLoop.contains,decide_eq_false_iff_not] at sides
      exact sides.symm.imp (·.2.1) (·.2.1)
  have closing : survey.Lays quiet around middle {middle with taken:=latch :: middle.taken} []
      (survey.graph.laid latch) := .take ((encloses.later lays).places leveled)
  have whole := lays.both closing
  have erases : erased (page ++ survey.graph.laid latch) = erased page ++ survey.graph.statements latch := by
    rw [erased_append,BlockGraph.erased_laid,content]
  refine ⟨[.doWhile id loop.header latch condition (page ++ survey.graph.laid latch)],?_,whole.doWhile ?_,?_,?_⟩
  · rw [erased_single,Laid.erase,erases]
  · exact ⟨⟨loop,member,rfl,single⟩,⟨page,rfl⟩,quietly _ _ (by rw [erases])⟩
  · intro orderly
    by_cases same : latch = loop.header
    · exact same ▸ List.mem_cons_self
    · exact List.mem_cons_of_mem _ ((round same).1 orderly)
  · refine ⟨_,[],rfl,rfl,?_⟩
    by_cases same : latch = loop.header
    · rw [alone same]
      exact same
    · exact ((round same).2.append _).opens

theorem emitLoop_lays (emits : emit.Lays survey quiet) (quietly : emit.Quietly survey quiet scope loop.header before)
    (unentered : loop.header ∉ before.entered)
    (fits : survey.Fits around before loop.header)
    (unclaimed : survey.graph.Orderly → survey.pendingTry? before.opened loop.header = none)
    (gives : Gives (survey.emitLoop emit scope loop stop out) before (out',next) after) (same : erased lay = out)
    (encloses : survey.Encloses around scope before) :
    survey.WritesFrom quiet around loop.header before after lay out' ∧
      ∀ block, next = some block → survey.Fits around after block := by
  obtain ⟨shape,region,events,statement,front,middle,classified,_,built,rest⟩ := emitLoop_gives gives
  have natural := formed.complete.natural loop member
  have built : survey.WritesFrom quiet around loop.header before middle lay (front ++ [statement]) := by
    have start : survey.Encloses around scope {before with entered:=loop.header :: before.entered,events} :=
      encloses.recorded
    have ready : survey.Fits around {before with entered:=loop.header :: before.entered,events} loop.header :=
      ⟨fits.live,fits.fresh,fits.covered,fits.reached⟩
    rcases built with ⟨condition,bodyEntry,exit,rfl,built⟩ | ⟨latch,condition,exit,rfl,rfl,built⟩ |
      ⟨exit,rfl,rfl,built⟩
    · obtain ⟨lay',written,lays,header,fronts⟩ :=
        emitPreTested_lays formed member live level emits (classify_preTested classified.symm) built same start
      exact ⟨lay',written,lays.since,fun _ => header,fronts⟩
    · obtain ⟨single,tests⟩ := classify_postTested classified.symm
      obtain ⟨page,written,lays,header,fronts⟩ := emitPostTested_lays formed member live level emits single tests ready
        (fun id body equal => quietly _ _ _ _ _ _ _ _ _ member rfl unentered classified.symm (equal ▸ built)) built start
      refine ⟨lay ++ page,by rw [erased_append,same,written],lays.since.behind,header,?_⟩
      rintro rfl
      exact fronts
    · obtain ⟨page,written,lays,header,fronts⟩ := emitEndless_lays emits ready unclaimed built start
      refine ⟨lay ++ page,by rw [erased_append,same,written],lays.since.behind,header,?_⟩
      rintro rfl
      exact fronts
  obtain ⟨lay',written,lays,header,fronts⟩ := built
  obtain ⟨writes,onward⟩ := follow_lays rest ⟨lay',written,.refl _ _ _ _⟩ (encloses.later lays) fun target exits _ orderly => by
    obtain ⟨outside,source,within,leads⟩ := classify_left natural _ target (classified ▸ exits)
    exact (level orderly).leave formed orderly member live within leads outside
  exact ⟨.further lays header fronts writes,onward⟩

end Loop

theorem emitCatches_lays {clauses : List CatchGroup} (emits : emit.Lays survey quiet)
    (gives : Gives (emitCatches emit scope stop clauses) before catches after)
    (encloses : survey.Encloses around scope before)
    (handlers : ∀ clause ∈ clauses, clause.handler ∈ survey.graph.live ∧ (survey.graph.Orderly →
      CoveredBy around clause.handler ∧ survey.Reached around clause.handler)) :
    ∃ built : List LaidClause, erasedClauses built = catches ∧
      built.map (fun clause => (clause.types,clause.handler)) = clauses.map (fun group => (group.caught,group.handler)) ∧
      (∀ clause ∈ built, Opens clause.handler clause.body) ∧
      survey.Lays quiet around before after [] (built.flatMap (·.body)) := by
  induction clauses generalizing before catches with
  | nil =>
    obtain ⟨rfl,rfl⟩ := emitCatches_nil gives
    exact ⟨[],rfl,rfl,by simp,.refl _ _ _ _⟩
  | cons clause rest ih =>
    obtain ⟨body,middle,others,fresh,first,second,rfl⟩ := emitCatches_cons gives
    obtain ⟨⟨live,fine⟩,further⟩ := List.forall_mem_cons.mp handlers
    obtain ⟨page,rfl,lays,opens,_⟩ := page_lays emits first encloses
      ⟨live,fresh,fun orderly => (fine orderly).1,fun orderly => (fine orderly).2⟩
    obtain ⟨built,rfl,same,starts,more⟩ := ih second (encloses.later lays) further
    refine ⟨⟨clause.caught,clause.handler,page⟩ :: built,rfl,?_,List.forall_mem_cons.mpr ⟨opens,starts⟩,lays.both more⟩
    rw [List.map_cons,List.map_cons,same]

theorem emitTry_lays {range : TryRegion} {index : Nat} (emits : emit.Lays survey quiet) (formed : survey.Formed)
    (pending : survey.pendingTry? before.opened block = some (range,index))
    (fits : survey.Fits around before block)
    (claimed : survey.graph.Orderly → some block = stop → survey.pendingTry? before.opened block = none)
    (gives : Gives (survey.emitTry emit scope range index stop out) before (out',next) after) (same : erased lay = out)
    (encloses : survey.Encloses around scope before) :
    survey.WritesFrom quiet around block before after lay out' ∧
      ∀ block, next = some block → survey.Fits around after block := by
  obtain ⟨merge,events,body,middle,catches,later,found,protected_,caught,rest⟩ := emitTry_gives gives
  obtain ⟨at_,starts,unopened⟩ := pendingTry_some pending
  have known := List.mem_of_getElem? at_
  subst starts
  have here := formed.first_covered known
  obtain ⟨page,rfl,lays,opens,taken⟩ := page_lays emits protected_ (encloses.opening formed pending)
    ⟨fits.live,fits.fresh,fun orderly => List.forall_mem_cons.mpr ⟨here,fits.covered orderly⟩,
      fun orderly region listed covers => (fits.reached orderly region listed covers).imp_left (List.mem_cons_of_mem _)⟩
  have first : survey.graph.Orderly → range.first ∈ middle.taken := by
    intro orderly
    refine taken orderly fun ends => ?_
    cases merges : merge with
    | none =>
      rw [merges] at ends
      cases pending.symm.trans (claimed orderly ends)
    | some target =>
      rw [merges] at ends
      cases ends
      exact tryMerge_outside formed fits.live known (found.symm.trans merges)
  have outside := encloses.closing at_ lays first
  have handlers : ∀ clause ∈ range.clauses, clause.handler ∈ survey.graph.live ∧ (survey.graph.Orderly →
      CoveredBy around clause.handler ∧ survey.Reached around clause.handler) := by
    intro clause listed
    obtain ⟨row,rowed,same,handles⟩ := (TryRegion.groups_of_group formed.tries).handlers range known clause listed
    rw [same.covers] at here
    exact ⟨handles ▸ BlockGraph.live_handler fits.live rowed here,fun orderly =>
      encloses.handler_fits formed orderly fits pending listed⟩
  obtain ⟨clauses,rfl,kinds,starts,more⟩ := emitCatches_lays emits caught outside handlers
  have whole := lays.tryCatch at_ unopened more fits.live ⟨rfl,kinds,starts⟩ first
  obtain ⟨writes,onward⟩ := follow_lays rest
    ⟨lay ++ [.tryCatch range.range page clauses],by rw [erased_append,same]; rfl,.refl _ _ _ _⟩ (encloses.later whole)
    fun target merges _ orderly => encloses.merge_reached formed orderly fits pending (found.symm.trans merges)
  refine ⟨.further whole.behind (fun orderly => more.taken _ (first orderly)) ?_ writes,onward⟩
  rintro rfl
  exact ⟨_,[],rfl,rfl,rfl,opens⟩

theorem emitPlain_lays (emits : emit.Lays survey quiet) (formed : survey.Formed)
    (fits : survey.Fits around before block) (none : survey.pendingTry? before.opened block = none)
    (gives : Gives (survey.emitPlain emit scope block stop out) before (out',next) after) (same : erased lay = out)
    (encloses : survey.Encloses around scope before) :
    survey.WritesFrom quiet around block before after lay out' ∧
      ∀ block, next = some block → survey.Fits around after block := by
  obtain ⟨_,gives⟩ := emitPlain_gives gives
  have level : survey.graph.Orderly → survey.Level around block := fun orderly => encloses.level orderly fits none
  have taken : survey.Lays quiet around before {before with taken:=block :: before.taken} []
      (survey.graph.laid block) := .take (encloses.places level)
  have start : survey.Lays quiet around before {before with taken:=block :: before.taken} lay
      (lay ++ survey.graph.laid block) := taken.behind
  have further := encloses.later start
  have written : erased (lay ++ survey.graph.laid block) = out ++ survey.graph.content block := by
    rw [erased_append,same,BlockGraph.erased_laid]
  have fronts : lay = [] → Fronts block (lay ++ survey.graph.laid block) := by
    rintro rfl
    exact ⟨_,_,rfl,rfl,rfl⟩
  -- What the terminator adds comes behind the block.
  have done (writes : survey.Writes quiet around {before with taken:=block :: before.taken} after
      (lay ++ survey.graph.laid block) out') : survey.WritesFrom quiet around block before after lay out' :=
    .further start (fun _ => List.mem_cons_self) fronts writes
  unfold BlockGraph.content at written
  cases at_ : survey.graph.terminator block with
  | goto target =>
    simp only [at_,Terminator.exit?,Option.toList_none,List.append_nil] at gives written
    obtain ⟨writes,onward⟩ := flowTo_lays gives written further fun _ orderly =>
      (level orderly).edge formed orderly fits.live (by simp [BlockGraph.successors_goto at_])
    exact ⟨done writes,onward⟩
  | branch condition thenTarget elseTarget =>
    simp only [at_,Terminator.exit?,Option.toList_none,List.append_nil] at gives written
    obtain ⟨writes,onward⟩ := emitBranch_lays formed fits.live level emits at_ gives written further
    exact ⟨done writes,onward⟩
  | switch discriminant cases default =>
    simp only [at_,Terminator.exit?,Option.toList_none,List.append_nil] at gives written
    obtain ⟨writes,onward⟩ := emitSwitch_lays formed fits.live level emits at_ gives written further
    exact ⟨done writes,onward⟩
  | ret value =>
    simp only [at_,Terminator.exit?] at gives written
    obtain ⟨equal,rfl⟩ := gives
    cases equal
    exact ⟨done ⟨_,by simpa using written,.refl _ _ _ _⟩,by simp⟩
  | throw exception =>
    simp only [at_,Terminator.exit?] at gives written
    obtain ⟨_,equal,rfl⟩ := gives
    cases equal
    exact ⟨done ⟨_,by simpa using written,.refl _ _ _ _⟩,by simp⟩

theorem emitBlock_lays (emits : emit.Lays survey quiet) (quietly : emit.Quietly survey quiet scope block before)
    (formed : survey.Formed) (fits : survey.Fits around before block)
    (claimed : survey.graph.Orderly → some block = stop → survey.pendingTry? before.opened block = none)
    (gives : Gives (survey.emitBlock emit scope block stop out) before (out',next) after) (same : erased lay = out)
    (encloses : survey.Encloses around scope before) :
    survey.WritesFrom quiet around block before after lay out' ∧
      ∀ block, next = some block → survey.Fits around after block := by
  rcases emitBlock_gives gives with ⟨range,index,pending,_,emitted⟩ | ⟨loop,found,unentered,held,emitted⟩ | ⟨none,emitted⟩
  · exact emitTry_lays emits formed pending fits claimed emitted same encloses
  · have member := List.mem_of_find?_eq_some found
    obtain rfl : loop.header = block := by simpa using List.find?_some found
    have unclaimed : survey.graph.Orderly → survey.pendingTry? before.opened loop.header = none := by
      intro orderly
      cases pending : survey.pendingTry? before.opened loop.header with
      | none => rfl
      | some range =>
        have enclosed := held _ _ pending
        rw [header_unclaimed formed orderly fits.live pending] at enclosed
        cases enclosed
    exact emitLoop_lays formed member fits.live (fun orderly => encloses.level orderly fits (unclaimed orderly)) emits
      quietly unentered fits unclaimed emitted same encloses
  · exact emitPlain_lays emits formed fits none emitted same encloses

theorem following_lays (emits : emit.Lays survey quiet) (quietly : emit.Quietly survey quiet scope block before)
    (formed : survey.Formed) {middle : Progress}
    (fits : survey.Fits around before block)
    (claimed : survey.graph.Orderly → some block = stop → survey.pendingTry? before.opened block = none)
    (gives : Gives (survey.emitBlock emit scope block stop out) before (out',next) middle)
    (rest : Gives (sequence emit scope next stop out') middle last after) (same : erased lay = out)
    (encloses : survey.Encloses around scope before) :
    survey.WritesFrom quiet around block before after lay last := by
  obtain ⟨⟨front,written,lays,taken,fronts⟩,onward⟩ := emitBlock_lays emits quietly formed fits claimed gives same encloses
  exact .further lays taken fronts (sequence_lays emits rest ⟨front,written,.refl _ _ _ _⟩ (encloses.later lays) onward)

end Survey
end Untangle
