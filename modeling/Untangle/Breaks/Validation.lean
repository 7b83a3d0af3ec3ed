import Untangle.Breaks.Registry
import Untangle.Tree.Node

namespace Untangle

structure BreakWalk where
  seen : List BreakId
  declared : List BreakableId

def BreakWalk.meet (walk : BreakWalk) (registry : Registry) (enclosing : List BreakableId) (brk : Break) :
    Except RegistryError BreakWalk :=
  if brk.id ∈ walk.seen then .error (.duplicateBreak brk.id) else
  match brk.target with
  | none => .error (.unregistered brk.id)
  | some target =>
    let recorded := registry.targetOf? brk.id
    if recorded ≠ some target ∨ brk.id ∉ registry.breaks target then
      .error (.inconsistent brk.id (some target) recorded)
    else if target ∉ enclosing then .error (.notEnclosing brk.id target)
    else if brk.kind = .continue ∧ registry.kind? target = some .switch then
      .error (.continueTargetsSwitch brk.id target)
    else .ok {walk with seen:=brk.id :: walk.seen}

def BreakWalk.enter (walk : BreakWalk) (id : BreakableId) : BreakWalk :=
  {walk with declared:=walk.declared ++ [id]}

inductive BreakStep where
  | enter (statement : Statement)
  | leave

def Block.steps (block : Block) : List BreakStep := block.map .enter

-- The way through the child blocks of a statement. Only blocks are entered, not the header of a `for`.
def Statement.steps (statement : Statement) : List BreakStep := statement.childBlocks.flatMap Block.steps

noncomputable def BreakStep.weight : BreakStep → Nat
  | enter statement => 2 * sizeOf statement
  | leave => 1

noncomputable def stepsWeight : List BreakStep → Nat
  | [] => 0
  | step :: rest => step.weight + stepsWeight rest

theorem stepsWeight_append (left right : List BreakStep) :
    stepsWeight (left ++ right) = stepsWeight left + stepsWeight right := by
  induction left with
  | nil => simp [stepsWeight]
  | cons step rest ih => simp [stepsWeight,ih]; omega

theorem stepsWeight_block (block : Block) : stepsWeight block.steps = 2 * weight (block.map .ofStatement) := by
  induction block with
  | nil => rfl
  | cons statement rest ih =>
    rw [Block.steps] at ih
    rw [Block.steps,List.map_cons,List.map_cons,stepsWeight,weight_cons,ih]
    simp only [BreakStep.weight,Node.weight]
    omega

theorem stepsWeight_blocks (blocks : List Block) :
    stepsWeight (blocks.flatMap Block.steps) = 2 * weight (blocks.flatMap (·.map .ofStatement)) := by
  induction blocks with
  | nil => rfl
  | cons block rest ih =>
    rw [List.flatMap_cons,List.flatMap_cons,stepsWeight_append,weight_append,stepsWeight_block,ih]
    omega

theorem weight_bodies (statement : Statement) :
    weight (statement.childBlocks.flatMap (·.map .ofStatement)) ≤ weight statement.children := by
  cases statement with
  | branch condition thenBlock elseBlock =>
    cases elseBlock <;> simp [Statement.childBlocks,Statement.children,weight_cons,weight_append]
  | switch id discriminant arms =>
    simp [Statement.childBlocks,Statement.children,weight_cons,List.flatMap_map]
  | tryCatch body catches =>
    simp [Statement.childBlocks,Statement.children,weight_append,List.flatMap_map]
  | forLoop id start condition update body =>
    simp [Statement.childBlocks,Statement.children,weight_cons,weight_append]
    omega
  | _ => simp [Statement.childBlocks,Statement.children,weight_cons,weight]

theorem Statement.steps_smaller (statement : Statement) : stepsWeight statement.steps + 1 < 2 * sizeOf statement := by
  have inner := weight_bodies statement
  have outer := weight_statement statement
  rw [steps,stepsWeight_blocks]
  omega

-- Meets the breaks of a tree in source order. The way is an explicit stack; on its way back out of a
-- breakable it comes by a step that closes it.
def walkSteps (registry : Registry) (enclosing : List BreakableId) (walk : BreakWalk) :
    List BreakStep → Except RegistryError BreakWalk
  | [] => .ok walk
  | .leave :: rest => walkSteps registry enclosing.tail walk rest
  | .enter statement :: rest =>
    match statement with
    | .jump brk =>
      match walk.meet registry enclosing brk with
      | .error cause => .error cause
      | .ok walk => walkSteps registry enclosing walk rest
    | other =>
      match other.breakable? with
      | some (id,_) => walkSteps registry (id :: enclosing) (walk.enter id) (other.steps ++ .leave :: rest)
      | none => walkSteps registry enclosing walk (other.steps ++ rest)
termination_by steps => stepsWeight steps
decreasing_by
  · simp [stepsWeight,BreakStep.weight]
  · simp +arith [stepsWeight,BreakStep.weight]
  · simp only [stepsWeight_append,stepsWeight,BreakStep.weight]
    have := other.steps_smaller
    omega
  · simp only [stepsWeight_append,stepsWeight,BreakStep.weight]
    have := other.steps_smaller
    omega

def checkListed (seen : List BreakId) (target : BreakableId) : List BreakId → Except RegistryError Unit
  | [] => .ok ()
  | brk :: rest =>
    if brk ∈ seen then checkListed seen target rest else .error (.staleBreak brk target)

def checkRecorded (registry : Registry) (seen : List BreakId) (target : BreakableId) :
    List BreakId → Except RegistryError Unit
  | [] => .ok ()
  | brk :: rest =>
    if brk ∉ seen then .error (.staleBreak brk target)
    else if registry.targetOf? brk ≠ some target then
      .error (.inconsistent brk (some target) (registry.targetOf? brk))
    else checkRecorded registry seen target rest

def validateBreaks (body : Block) (registry : Registry) : Except RegistryError Unit := do
  let walk ← walkSteps registry [] ⟨[],[]⟩ body.steps
  (List.range registry.breakables.length).forM fun target =>
    checkRecorded registry walk.seen target (registry.breaks target)

-- One construct whose enclosing breakables are still being built: its breaks may target those too,
-- and what it declares itself has to be complete.
def validateConstruct (statement : Statement) (registry : Registry) (enclosing : List BreakableId) :
    Except RegistryError Unit := do
  let walk ← walkSteps registry enclosing ⟨[],[]⟩ [.enter statement]
  walk.declared.forM fun target => checkListed walk.seen target (registry.breaks target)

end Untangle
