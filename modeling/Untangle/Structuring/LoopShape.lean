import Untangle.Structuring.Survey

namespace Untangle

-- How a loop tests its condition: in a header that holds nothing else, in its only latch, or nowhere.
inductive LoopShape where
  | preTested (condition : Condition) (bodyEntry exit : BlockId)
  | postTested (latch : BlockId) (condition : Condition) (exit : BlockId)
  | endless (exit : Option BlockId)

namespace LoopShape

def exit? : LoopShape → Option BlockId
  | preTested _ _ exit => some exit
  | postTested _ _ exit => some exit
  | endless exit => exit

def name : LoopShape → String
  | preTested _ _ _ => "pre-tested"
  | postTested _ _ _ => "post-tested"
  | endless _ => "endless"

end LoopShape

namespace Survey

def headerTest? (survey : Survey) (loop : NaturalLoop) : Option LoopShape :=
  match survey.graph.statements loop.header, survey.graph.terminator loop.header with
  | [], .branch condition thenTarget elseTarget =>
    match loop.contains thenTarget, loop.contains elseTarget with
    | true, false => some (.preTested condition thenTarget elseTarget)
    | false, true => some (.preTested condition.negate elseTarget thenTarget)
    | _, _ => none
  | _, _ => none

def latchTest? (survey : Survey) (loop : NaturalLoop) (latch : BlockId) : Option LoopShape :=
  match survey.graph.terminator latch with
  | .branch condition thenTarget elseTarget =>
    if thenTarget = loop.header ∧ ¬loop.contains elseTarget then
      some (.postTested latch condition elseTarget)
    else if elseTarget = loop.header ∧ ¬loop.contains thenTarget then
      some (.postTested latch condition.negate thenTarget)
    else none
  | _ => none

-- Statements of a latch would be skipped by a `continue`, so they need a single way in.
def latchAllowed (survey : Survey) (loop : NaturalLoop) (latch : BlockId) (tryAtHeader : Bool) : Bool :=
  if latch = loop.header then !tryAtHeader
  else (survey.graph.statements latch).isEmpty || (survey.graph.predecessors latch).length == 1

def onlyLatchTest? (survey : Survey) (loop : NaturalLoop) (tryAtHeader : Bool) : Option LoopShape :=
  match loop.latches with
  | [latch] => if survey.latchAllowed loop latch tryAtHeader then survey.latchTest? loop latch else none
  | _ => none

def endlessExit? (survey : Survey) (loop : NaturalLoop) : Option BlockId :=
  latestBy survey.place ((loop.exits survey.graph).filter survey.isLive)

def classify (survey : Survey) (opened : List Nat) (loop : NaturalLoop) : LoopShape :=
  let tryAtHeader := (survey.pendingTry? opened loop.header).isSome
  let atHeader := if tryAtHeader then none else survey.headerTest? loop
  (atHeader.or (survey.onlyLatchTest? loop tryAtHeader)).getD (.endless (survey.endlessExit? loop))

def above? (survey : Survey) (block : BlockId) : Option BlockId :=
  (survey.doms.immediate? block).or
    ((survey.graph.table.find? fun row => row.handler == block).map (·.first))

def climbsTo (survey : Survey) (header block : BlockId) : Nat → Bool
  | 0 => false
  | steps + 1 =>
    block == header || match survey.above? block with
      | none => false
      | some next => survey.climbsTo header next steps

def effectivelyDominates (survey : Survey) (header block : BlockId) : Bool :=
  survey.climbsTo header block (survey.graph.size + 1)

def staying (stays : List BlockId → BlockId → Bool) (kept : List BlockId) : List BlockId :=
  kept.filter (stays kept)

def settle (stays : List BlockId → BlockId → Bool) (kept : List BlockId) : List BlockId :=
  if _shrinks : (staying stays kept).length < kept.length then settle stays (staying stays kept) else kept
termination_by kept.length

def sideBlocks (survey : Survey) (scope : Scope) (taken : List BlockId) (loop : NaturalLoop)
    (exit : Option BlockId) : List BlockId :=
  survey.graph.ids.filter fun block =>
    !loop.contains block && some block != exit && survey.isLive block && block ∉ taken &&
      scope.inRegion block && !scope.isJumpTarget block && survey.effectivelyDominates loop.header block

-- The body of a loop with the side blocks that lead nowhere but back into it, to its exit, to an open
-- jump target or out of the unit.
def absorb (survey : Survey) (scope : Scope) (taken : List BlockId) (loop : NaturalLoop)
    (exit : Option BlockId) : List BlockId :=
  let stays (kept : List BlockId) (block : BlockId) : Bool :=
    (survey.graph.successors block).all fun target =>
      loop.contains target || target ∈ kept || some target == exit || scope.isJumpTarget target
  let kept := settle stays (survey.sideBlocks scope taken loop exit)
  let seeds := kept.filter fun block =>
    (survey.graph.predecessors block).any loop.contains ||
      survey.graph.table.any fun row => row.handler == block && loop.body.any row.covers
  let found := reach survey.graph.size (fun block => (survey.graph.successors block).filter (· ∈ kept))
    seeds loop.body
  survey.graph.ids.filter (· ∈ found)

def updateBlock? (survey : Survey) (loop : NaturalLoop) (bodyEntry : BlockId) : Option BlockId :=
  match loop.latches with
  | [latch] =>
    let plain := match survey.graph.statements latch with
      | [.expr _] => true
      | [.assign _ _] => true
      | [.increment _ _] => true
      | _ => false
    let goesBack := match survey.graph.terminator latch with
      | .goto target => target == loop.header
      | _ => false
    let shared := latch != loop.header && latch != bodyEntry && plain && goesBack &&
      2 ≤ (survey.graph.predecessors latch).length
    if shared then some latch else none
  | _ => none

end Survey
end Untangle
