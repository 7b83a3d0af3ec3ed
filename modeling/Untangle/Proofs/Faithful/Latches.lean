import Untangle.Proofs.Faithful.Preservation
import Untangle.Proofs.Layout.Loops
import Untangle.Proofs.Running.Resuming

namespace Untangle
open Emission Meaning
variable {σ : Type u} {ν : Type v}

-- No jump in a tree continues a construct.
def Uncontinued (tree : Block) (id : BreakableId) : Prop :=
  ∀ brk ∈ jumpsAt (Block.sites [] tree), brk.target = some id → brk.kind ≠ .continue

-- A round of a `do` loop comes to its test with a store.
def Meaning.ComesToTest (meaning : Meaning σ ν) (id : BreakableId) (body : Block) (store last : σ) : Prop :=
  ∃ flow, meaning.Runs body store flow ∧ flow.round id = .inl last

-- What is known of a `do` loop as soon as it is built.
structure BlockGraph.Closes (graph : BlockGraph) (id : BreakableId) (header latch : BlockId) (body : Block) : Prop where
  headers : ∃ around, PlainHeaders (blockMarks around body)
  tests : (graph.terminator latch).exit? = none
  silent : latch ≠ header → graph.statements latch ≠ [] → Uncontinued body id

namespace Survey
variable {survey : Survey} {emit : Emitter} {scope : Scope} {block : BlockId} {stop : Option BlockId} {before : Progress}
  {fuel : Nat}

theorem carefulFrom_quietly (sound : survey.Unguarded) (once : survey.LeavesOnce)
    (starts : Starts survey (fuel + 1) scope block stop before) :
    (survey.carefulFrom fuel).Quietly survey survey.graph.Closes scope block before := by
  intro loop region latch condition exit events id body after member header unentered shape gives
  subst header
  have tracked := emitPostTested_tracked (carefulFrom_tracks sound fuel) sound.plain gives starts.placed.known
  obtain ⟨_,_,_,at_,_⟩ := latchTest_some (classify_postTested shape).2
  refine ⟨⟨_,fun plain member => tracked.fits _ (List.mem_cons_of_mem _ member)⟩,by rw [at_]; rfl,?_⟩
  intro apart works brk listed aims continues
  have never := once.quiet sound starts member unentered _ _ _ _ _ _ _ shape apart works gives
  obtain ⟨_,_,_,own,made,_⟩ := emitPostTested_gives gives
  obtain rfl : id = before.registry.breakables.length := (Statement.doWhile.inj made).1.trans own
  have jump : brk ∈ jumpsOf ((Statement.doWhile before.registry.breakables.length condition body).marks scope.around) := by
    rw [Statement.marks,jumpsOf_construct,jumpsOf_block]
    exact listed
  refine never ⟨brk.id,(tracked.listed _).subset (List.mem_append_right _ ?_),fun kind known => ?_⟩
  · exact Registry.Tracks.mem_aimedAt.mpr ⟨brk,jump,aims,rfl⟩
  · exact (Option.some.inj ((tracked.labelled brk jump).symm.trans known)).symm.trans continues

theorem carefulFrom_lays (sound : survey.Unguarded) (formed : survey.Formed) (once : survey.LeavesOnce) (fuel : Nat) :
    (survey.carefulFrom fuel).Lays survey survey.graph.Closes := by
  induction fuel with
  | zero =>
    intro around scope block stop out before out' after lay gives
    exact (carefulFrom_zero gives).elim
  | succ fuel ih =>
    intro around scope block stop out before last after lay gives same encloses fits claimed
    obtain ⟨starts,out',next,middle,emitted,_,rest⟩ := carefulFrom_succ sound gives
    exact following_lays ih (carefulFrom_quietly sound once starts) formed fits claimed emitted rest same encloses

end Survey

variable {graph : BlockGraph} {id : BreakableId} {header latch : BlockId} {inner : Layout} {tree : Block}

theorem latch_runs {meaning : Meaning σ ν} {store last : σ} (plain : graph.Plain)
    (closes : graph.Closes id header latch (erased (inner ++ graph.laid latch))) (apart : latch ≠ header)
    (works : graph.statements latch ≠ []) (comes : meaning.ComesToTest id (erased (inner ++ graph.laid latch)) store last) :
    ∃ middle, meaning.Runs (erased inner) store (.normal middle) ∧
      last = meaning.effects (graph.statements latch) middle := by
  obtain ⟨flow,ran,turned⟩ := comes
  rcases Flow.round_inl.mp turned with rfl | rfl
  · rw [erased_append,BlockGraph.erased_laid,BlockGraph.content,closes.tests,Option.toList_none,List.append_nil] at ran
    obtain ⟨middle,first,second⟩ := runs_append.mp ran
    cases middle with
    | normal middle => exact ⟨middle,first,Flow.normal.inj ((runs_plain (plain latch)).mp second)⟩
    | _ => cases second
  · obtain ⟨around,headers⟩ := closes.headers
    obtain ⟨brk,listed,aims,continues⟩ := continues_block around _ headers ⟨_,_,ran⟩
    rw [jumpsOf_block] at listed
    exact absurd continues (closes.silent apart works brk listed aims)

-- What nothing in a `do` loop continues, nothing else in the tree does.
theorem uncontinued_outside {before registry : Registry} {body : Block} (tracks : before.Tracks (blockMarks [] tree) registry)
    (here : (id,body) ∈ doSites (Block.sites [] tree)) (silent : Uncontinued body id) : Uncontinued tree id := by
  intro brk listed aims
  obtain ⟨⟨back,statement⟩,target,found⟩ := List.mem_filterMap.mp here
  obtain ⟨site,member,jump⟩ := List.mem_filterMap.mp listed
  have jumps : site.statement = .jump brk := by
    revert jump
    cases site.statement <;> simp [Statement.jump?]
  cases statement with
  | doWhile own condition inner =>
    cases found
    obtain ⟨block,held,deep⟩ := tracks.targets_within member jumps aims target rfl
    cases List.mem_singleton.mp held
    refine silent brk ?_ aims
    rw [Block.jumps_around [] (.doWhile id condition body :: back)]
    exact List.mem_filterMap.mpr ⟨site,deep,jump⟩
  | _ => cases found

-- A `do` loop that holds statements in a latch of its own is not continued, and a round of it comes to the test by
-- way of these statements only.
structure Meaning.RunsLatch (meaning : Meaning σ ν) (graph : BlockGraph) (tree : Block) (id : BreakableId) (latch : BlockId)
    (body : Layout) : Prop where
  uncontinued : Uncontinued tree id
  behind : ∃ inner, body = inner ++ graph.laid latch ∧ ∀ store last, meaning.ComesToTest id (erased body) store last →
    ∃ middle, meaning.Runs (erased inner) store (.normal middle) ∧ last = meaning.effects (graph.statements latch) middle

-- Where each loop that works behind one block before its test is left once, the latches of a tree run on every way to a
-- test, and the tree ends as the graph does.
theorem structured_runs_latches {settings : StructuringSettings} {result : Structured}
    (done : graph.structured settings = .ok result) (unprotected : graph.table = []) (plain : graph.Plain)
    (once : ∀ forest, LoopForest.compute graph graph.dominance graph.order = .ok forest →
      ∀ loop ∈ forest, loop.WorksBehindOne graph → loop.LeavesOnce graph forest) (meaning : Meaning σ ν) :
    (∃ forest layout, LoopForest.compute graph graph.dominance graph.order = .ok forest ∧
      Layout.Of graph [] result.body layout ∧ doItems (items layout) = doSites (Block.sites [] result.body) ∧
      ∀ around id header latch body, ⟨around,.doWhile id header latch body⟩ ∈ items layout →
        (∃ loop ∈ forest, loop.header = header ∧ loop.latches = [latch]) ∧
        (latch ≠ header → graph.statements latch ≠ [] → meaning.RunsLatch graph result.body id latch body)) ∧
    ∀ store, (∀ outcome, meaning.Ends result.body store outcome ↔
        graph.Finishes meaning (.before graph.entry store) outcome) ∧
      (meaning.Diverges result.body store ↔
        ∀ outcome, ¬graph.Finishes meaning (.before graph.entry store) outcome) := by
  refine ⟨?_,structured_alike done unprotected plain once meaning⟩
  obtain ⟨survey,events,emitted,progress,made,gives,body,taken,_⟩ := BlockGraph.structured_takes done
  obtain ⟨rfl,_,_,_,loops,_⟩ := Survey.make_ok made
  obtain ⟨_,sound⟩ := Survey.make_unguarded unprotected plain made
  obtain ⟨_,formed⟩ := Survey.formed_of_make made
  have careful := careful_gives.mpr ⟨Survey.whole_starts unprotected events,gives⟩
  obtain ⟨layout,rfl,lays,_⟩ := Survey.carefulFrom_lays sound formed (once _ loops) _ _ _ _ _ _ _ _ _ [] careful rfl
    (Survey.whole_encloses formed events) (survey.whole_fits events) fun _ ends => absurd ends (by simp)
  obtain ⟨of,_,frames⟩ := lays.whole formed taken
  rw [sound.tries,← body] at of
  refine ⟨survey.loops,layout,loops,of,of.loops plain,fun around id header latch page member => ?_⟩
  obtain ⟨known,⟨inner,rfl⟩,closes⟩ := frames _ member id header latch _ rfl
  refine ⟨known,fun apart works => ⟨?_,inner,rfl,fun store last => latch_runs plain closes apart works⟩⟩
  refine uncontinued_outside (structured_tracks done plain) ?_ (closes.silent apart works)
  rw [← of.loops plain]
  exact List.mem_filterMap.mpr ⟨_,member,rfl⟩

def passesTen : Condition := .test counter false

-- The latch adds two to what the body adds, which may leave before.
def stepping : BlockGraph :=
  ⟨[⟨[advance 1],.branch passesTen 1 5⟩,⟨[],.branch (.constant true) 2 3⟩,⟨[advance 1],.goto 3⟩,⟨[],.goto 4⟩,
    ⟨[advance 2],.branch passesTen 0 5⟩,⟨[],.ret (some counter)⟩],[],by decide⟩

def steppedTree : Structured :=
  ⟨[.doWhile 0 passesTen [advance 1,.branch passesTen.negate [.jump ⟨0,.break,some 0,false⟩] none,
      .branch (.constant true) [advance 1] none,advance 2],.ret (some counter)],
    ⟨[⟨.doWhile,[0]⟩],[.break],[(0,0)]⟩,[]⟩

theorem stepping_structured : stepping.structured .default = .ok steppedTree := by cbv

theorem stepping_plain : stepping.Plain :=
  BlockGraph.plain_of_blocks (by simp [stepping,advance,Statement.isPlain])

theorem stepping_loops : LoopForest.compute stepping stepping.dominance stepping.order = .ok [⟨0,[4],[0,1,2,3,4]⟩] := by
  cbv

theorem stepping_works : NaturalLoop.WorksBehindOne ⟨0,[4],[0,1,2,3,4]⟩ stepping := by
  refine ⟨⟨4,passesTen,0,5,rfl,by decide,List.cons_ne_nil _ _,rfl,Or.inl rfl⟩,fun latch member => ⟨3,?_⟩⟩
  cases List.mem_singleton.mp member
  rfl

theorem stepping_leaves : NaturalLoop.LeavesOnce ⟨0,[4],[0,1,2,3,4]⟩ stepping [⟨0,[4],[0,1,2,3,4]⟩] := by
  refine ⟨by decide,?_,?_⟩
  · intro other member _ apart
    cases List.mem_singleton.mp member
    exact absurd rfl apart
  · intro block member discriminant cases default at_
    fin_cases member <;> cases at_

theorem stepping_runs_latches : stepping.structured .default = .ok steppedTree ∧ stepping.table = [] ∧ stepping.Plain ∧
    NaturalLoop.WorksBehindOne ⟨0,[4],[0,1,2,3,4]⟩ stepping ∧
    NaturalLoop.LeavesOnce ⟨0,[4],[0,1,2,3,4]⟩ stepping [⟨0,[4],[0,1,2,3,4]⟩] ∧ Uncontinued steppedTree.body 0 ∧
    countingUp.Ends steppedTree.body 0 (.returned 12 (some 12)) ∧ ¬countingUp.Diverges steppedTree.body 0 := by
  obtain ⟨⟨forest,layout,computed,_,loops,latches⟩,alike⟩ := structured_runs_latches stepping_structured rfl stepping_plain
    (fun forest computed loop member _ => by
      cases stepping_loops.symm.trans computed
      cases List.mem_singleton.mp member
      exact stepping_leaves) countingUp
  cases stepping_loops.symm.trans computed
  obtain ⟨body,listed⟩ : ∃ body, (0,body) ∈ doSites (Block.sites [] steppedTree.body) :=
    ⟨_,List.mem_filterMap.mpr ⟨_,Block.head_site _ _,rfl⟩⟩
  rw [← loops] at listed
  obtain ⟨⟨around,part⟩,member,found⟩ := List.mem_filterMap.mp listed
  have finishes : stepping.Finishes countingUp (.before stepping.entry 0) (.returned 12 (some 12)) := ⟨20,rfl⟩
  refine ⟨stepping_structured,rfl,stepping_plain,stepping_works,stepping_leaves,?_,((alike 0).1 _).mpr finishes,
    fun never => (alike 0).2.mp never _ finishes⟩
  cases part with
  | doWhile id header latch page =>
    cases found
    obtain ⟨⟨loop,known,rfl,single⟩,runs⟩ := latches _ _ _ _ _ member
    cases List.mem_singleton.mp known
    cases single
    exact (runs (by decide) (List.cons_ne_nil _ _)).uncontinued
  | _ => cases found

-- The latch has one way in, from a branch whose other way does not come back, inside another one.
def skipping : BlockGraph :=
  ⟨[⟨[advance 1],.branch (.constant true) 1 3⟩,⟨[],.branch (.constant true) 2 3⟩,
    ⟨[advance 2],.branch passesTen 0 4⟩,⟨[advance 3],.ret none⟩,⟨[],.ret none⟩],[],by decide⟩

def skippedTree : Structured :=
  ⟨[.doWhile 0 passesTen [advance 1,
      .branch (.constant true) [.branch (.constant true) [.jump ⟨0,.continue,some 0,false⟩] none] none,
      advance 3,.ret none,advance 2]],
    ⟨[⟨.doWhile,[0]⟩],[.continue],[(0,0)]⟩,[]⟩

theorem skipping_loses_latch : skipping.structured .default = .ok skippedTree ∧ skipping.table = [] ∧
    skipping.Plain ∧
    LoopForest.compute skipping skipping.dominance skipping.order = .ok [⟨0,[2],[0,1,2]⟩] ∧
    NaturalLoop.WorksBehindOne ⟨0,[2],[0,1,2]⟩ skipping ∧
    ¬NaturalLoop.LeavesOnce ⟨0,[2],[0,1,2]⟩ skipping [⟨0,[2],[0,1,2]⟩] ∧ ¬Uncontinued skippedTree.body 0 ∧
    countingUp.Ends skippedTree.body 0 (.returned 10 none) ∧
    skipping.Finishes countingUp (.before skipping.entry 0) (.returned 12 none) := by
  refine ⟨by cbv,rfl,?_,by cbv,?_,?_,?_,⟨.normal 10,⟨30,by cbv⟩,rfl⟩,⟨13,rfl⟩⟩
  · exact BlockGraph.plain_of_blocks (by simp [skipping,advance,Statement.isPlain])
  · refine ⟨⟨2,passesTen,0,4,rfl,by decide,List.cons_ne_nil _ _,rfl,Or.inl rfl⟩,fun latch member => ⟨1,?_⟩⟩
    cases List.mem_singleton.mp member
    rfl
  · intro once
    exact absurd (once.exits 0 (by decide) 3 (by decide) (by decide) 2 (by decide)) (by decide)
  · intro uncontinued
    refine uncontinued ⟨0,.continue,some 0,false⟩ ?_ rfl rfl
    rw [← jumpsOf_block []]
    simp [skippedTree,blockMarks,Statement.marks,advance]

end Untangle
