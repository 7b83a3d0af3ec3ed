import Untangle.Flow.Loops
import Untangle.Report.Event
import Untangle.Settings.Basic
import Untangle.Structuring.Protection

namespace Untangle

structure Survey where
  graph : BlockGraph
  settings : StructuringSettings
  doms : Dominance
  postDoms : Dominance
  order : List BlockId
  live : List BlockId
  loops : LoopForest
  tries : List TryRegion

-- An enclosing loop or switch whose body is being emitted, with the blocks that a `break` and a
-- `continue` lead to. A switch has no place to continue at.
structure Context where
  id : BreakableId
  kind : BreakableKind
  breakTarget : Option BlockId
  continueTarget : Option BlockId
deriving DecidableEq

structure Scope where
  region : List BlockId
  contexts : List Context

-- What has been emitted so far: blocks taken, loops entered, protected ranges opened by position.
structure Progress where
  taken : List BlockId
  entered : List BlockId
  opened : List Nat
  registry : Registry
  events : List Event

def Progress.start : Progress := ⟨[],[],[],.empty,[]⟩

def latestBy (key : α → Nat) (items : List α) : Option α :=
  items.foldl (fun best item =>
    match best with
    | none => some item
    | some other => if key other ≤ key item then some item else best) none

def earliestBy (key : α → Nat) (items : List α) : Option α :=
  items.foldl (fun best item =>
    match best with
    | none => some item
    | some other => if key item < key other then some item else best) none

structure ResolvedJump where
  context : Context
  kind : BreakKind
  nested : Bool

namespace Context

def jumpKind? (context : Context) (target : BlockId) : Option BreakKind :=
  if context.continueTarget = some target then some .continue
  else if context.breakTarget = some target then some .break
  else none

end Context

def resolveJump? (target : BlockId) : List Context → Option ResolvedJump
  | [] => none
  | context :: outer =>
    match context.jumpKind? target with
    | some kind => some ⟨context,kind,false⟩
    | none =>
      (resolveJump? target outer).map fun jump =>
        {jump with nested:=jump.nested || jump.kind == .break || context.kind.isLoop}

namespace Scope

def inRegion (scope : Scope) (block : BlockId) : Bool := block ∈ scope.region

def isJumpTarget (scope : Scope) (block : BlockId) : Bool :=
  scope.contexts.any fun context =>
    context.breakTarget == some block || context.continueTarget == some block

def narrow (scope : Scope) (region : List BlockId) : Scope :=
  {scope with region:=region.filter (· ∈ scope.region)}

def inside (scope : Scope) (context : Context) : Scope :=
  {scope with contexts:=context :: scope.contexts}

end Scope

namespace Survey

def make (graph : BlockGraph) (settings : StructuringSettings) : Except StructureError Survey := do
  let doms := graph.dominance
  let order := graph.order
  let loops ← (LoopForest.compute graph doms order).mapError StructureError.ofFlow
  let tries ← TryRegion.group graph.table
  .ok ⟨graph,settings,doms,graph.postDominance,order,graph.live,loops,tries⟩

def isLive (survey : Survey) (block : BlockId) : Bool := block ∈ survey.live

def place (survey : Survey) (block : BlockId) : Nat := survey.order.idxOf block

def forwardPredecessors (survey : Survey) (block : BlockId) : Nat :=
  ((survey.graph.predecessors block).filter fun source => survey.place source < survey.place block).length

-- Where both ways out of a block come together again: its post-dominator if that can still be
-- emitted here, otherwise the last join it dominates, otherwise the end of the current sequence.
def mergePoint (survey : Survey) (scope : Scope) (taken : List BlockId) (block : BlockId)
    (stop : Option BlockId) : Option BlockId :=
  let usable (candidate : BlockId) : Bool :=
    candidate != block && scope.inRegion candidate && candidate ∉ taken && !scope.isJumpTarget candidate
  let joins := (survey.doms.children block).filter fun child =>
    usable child && 2 ≤ survey.forwardPredecessors child
  match survey.postDoms.immediate? block with
  | some post => if usable post then some post else (latestBy survey.place joins).or stop
  | none => (latestBy survey.place joins).or stop

-- The widest region starting at a block that has not been opened yet, with its position.
def pendingTry? (survey : Survey) (opened : List Nat) (block : BlockId) : Option (TryRegion × Nat) :=
  latestBy (fun entry => entry.1.past) <|
    survey.tries.zipIdx.filter fun (region,index) => region.first == block && index ∉ opened

def protectedBlocks (survey : Survey) (region : TryRegion) : List BlockId :=
  region.blocks.filter survey.isLive

-- Whether a loop that has yet to be entered holds a whole range and more, and so goes around it.
def loopEnclosesTry (survey : Survey) (entered : List BlockId) (block : BlockId) (region : TryRegion) :
    Bool :=
  match LoopForest.get? survey.loops block with
  | none => false
  | some loop =>
    let range := survey.protectedBlocks region
    block ∉ entered && range.all (· ∈ loop.body) && !loop.body.all (· ∈ range)

def tryMerge (survey : Survey) (scope : Scope) (region : TryRegion) : Option BlockId :=
  let range := survey.protectedBlocks region
  earliestBy survey.place <| (range.flatMap survey.graph.successors).filter fun target =>
    target ∉ range && target ∉ region.handlers && !scope.isJumpTarget target && survey.isLive target

end Survey
end Untangle
