import Untangle.Breaks.Validation

namespace Untangle

mutual
def Statement.walkBreaks (registry : Registry) (enclosing : List BreakableId) (walk : BreakWalk) :
    Statement → Except RegistryError BreakWalk
  | .jump brk => walk.meet registry enclosing brk
  | .branch _ thenBlock elseBlock => do
    let walk ← walkBlockBreaks registry enclosing walk thenBlock
    match elseBlock with
    | none => .ok walk
    | some elseBlock => walkBlockBreaks registry enclosing walk elseBlock
  | .whileLoop id _ body => walkBlockBreaks registry (id :: enclosing) (walk.enter id) body
  | .doWhile id _ body => walkBlockBreaks registry (id :: enclosing) (walk.enter id) body
  | .forLoop id _ _ _ body => walkBlockBreaks registry (id :: enclosing) (walk.enter id) body
  | .switch id _ arms => walkArmBreaks registry (id :: enclosing) (walk.enter id) arms
  | .tryCatch body catches => do
    let walk ← walkBlockBreaks registry enclosing walk body
    walkCatchBreaks registry enclosing walk catches
  | .expr _ => .ok walk
  | .assign _ _ => .ok walk
  | .increment _ _ => .ok walk
  | .ret _ => .ok walk
  | .throw _ => .ok walk
def walkBlockBreaks (registry : Registry) (enclosing : List BreakableId) (walk : BreakWalk) :
    List Statement → Except RegistryError BreakWalk
  | [] => .ok walk
  | statement :: rest => do
    let walk ← statement.walkBreaks registry enclosing walk
    walkBlockBreaks registry enclosing walk rest
def walkArmBreaks (registry : Registry) (enclosing : List BreakableId) (walk : BreakWalk) :
    List SwitchArm → Except RegistryError BreakWalk
  | [] => .ok walk
  | ⟨_,body⟩ :: rest => do
    let walk ← walkBlockBreaks registry enclosing walk body
    walkArmBreaks registry enclosing walk rest
def walkCatchBreaks (registry : Registry) (enclosing : List BreakableId) (walk : BreakWalk) :
    List CatchClause → Except RegistryError BreakWalk
  | [] => .ok walk
  | ⟨_,body⟩ :: rest => do
    let walk ← walkBlockBreaks registry enclosing walk body
    walkCatchBreaks registry enclosing walk rest
end

section
variable {registry : Registry} {enclosing : List BreakableId} {walk : BreakWalk} {rest : List BreakStep}
  {statement : Statement} {id : BreakableId}

theorem walkSteps_flat (apart : ∀ brk, statement ≠ .jump brk) (flat : statement.breakable? = none) :
    walkSteps registry enclosing walk (.enter statement :: rest) =
      walkSteps registry enclosing walk (statement.steps ++ rest) := by
  rw [walkSteps,flat]
  exact fun brk same => apart brk same

theorem walkSteps_breakable (declares : statement.breakable? = some (id,kind)) :
    walkSteps registry enclosing walk (.enter statement :: rest) =
      walkSteps registry (id :: enclosing) (walk.enter id) (statement.steps ++ .leave :: rest) := by
  rw [walkSteps,declares]
  rintro brk rfl
  cases declares

theorem walkSteps_leave : walkSteps registry (id :: enclosing) walk (.leave :: rest) =
    walkSteps registry enclosing walk rest := by
  rw [walkSteps]
  rfl

theorem steps_single (body : Block) : [body].flatMap Block.steps = body.steps := List.append_nil _

end

mutual
theorem walkSteps_enter (registry : Registry) (enclosing : List BreakableId) (walk : BreakWalk)
    (rest : List BreakStep) : (statement : Statement) → walkSteps registry enclosing walk (.enter statement :: rest) =
      statement.walkBreaks registry enclosing walk >>= fun walk => walkSteps registry enclosing walk rest
  | .jump brk => by
    rw [walkSteps,Statement.walkBreaks]
    cases walk.meet registry enclosing brk <;> rfl
  | .branch _ thenBlock none => by
    rw [walkSteps_flat (by simp) rfl,Statement.walkBreaks,Statement.steps,Statement.childBlocks,bind_assoc]
    exact (congrArg (fun steps => walkSteps registry enclosing walk (steps ++ rest)) (steps_single thenBlock)).trans
      (walkSteps_block registry enclosing walk rest thenBlock)
  | .branch _ thenBlock (some elseBlock) => by
    rw [walkSteps_flat (by simp) rfl,Statement.walkBreaks,Statement.steps,Statement.childBlocks,Option.toList,
      List.flatMap_cons,steps_single,List.append_assoc,walkSteps_block,bind_assoc]
    exact congrArg _ (funext fun walk => walkSteps_block registry enclosing walk rest elseBlock)
  | .whileLoop id _ body => by
    rw [walkSteps_breakable rfl,Statement.walkBreaks,Statement.steps,Statement.childBlocks,steps_single,walkSteps_block]
    simp only [walkSteps_leave]
  | .doWhile id _ body => by
    rw [walkSteps_breakable rfl,Statement.walkBreaks,Statement.steps,Statement.childBlocks,steps_single,walkSteps_block]
    simp only [walkSteps_leave]
  | .forLoop id _ _ _ body => by
    rw [walkSteps_breakable rfl,Statement.walkBreaks,Statement.steps,Statement.childBlocks,steps_single,walkSteps_block]
    simp only [walkSteps_leave]
  | .switch id _ arms => by
    rw [walkSteps_breakable rfl,Statement.walkBreaks,Statement.steps,Statement.childBlocks,walkSteps_arms]
    simp only [walkSteps_leave]
  | .tryCatch body catches => by
    rw [walkSteps_flat (by simp) rfl,Statement.walkBreaks,Statement.steps,Statement.childBlocks,List.flatMap_cons,
      List.append_assoc,walkSteps_block,bind_assoc]
    exact congrArg _ (funext fun walk => walkSteps_catches registry enclosing walk rest catches)
  | .expr _ => walkSteps_flat (by simp) rfl
  | .assign _ _ => walkSteps_flat (by simp) rfl
  | .increment _ _ => walkSteps_flat (by simp) rfl
  | .ret _ => walkSteps_flat (by simp) rfl
  | .throw _ => walkSteps_flat (by simp) rfl
theorem walkSteps_block (registry : Registry) (enclosing : List BreakableId) (walk : BreakWalk)
    (rest : List BreakStep) : (block : List Statement) → walkSteps registry enclosing walk (Block.steps block ++ rest) =
      walkBlockBreaks registry enclosing walk block >>= fun walk => walkSteps registry enclosing walk rest
  | [] => rfl
  | statement :: others => by
    rw [Block.steps,List.map_cons,List.cons_append,walkSteps_enter,walkBlockBreaks,bind_assoc]
    exact congrArg _ (funext fun walk => walkSteps_block registry enclosing walk rest others)
theorem walkSteps_arms (registry : Registry) (enclosing : List BreakableId) (walk : BreakWalk)
    (rest : List BreakStep) : (arms : List SwitchArm) →
      walkSteps registry enclosing walk ((arms.map (·.body)).flatMap Block.steps ++ rest) =
        walkArmBreaks registry enclosing walk arms >>= fun walk => walkSteps registry enclosing walk rest
  | [] => rfl
  | ⟨_,body⟩ :: others => by
    rw [List.map_cons,List.flatMap_cons,List.append_assoc,walkSteps_block,walkArmBreaks,bind_assoc]
    exact congrArg _ (funext fun walk => walkSteps_arms registry enclosing walk rest others)
theorem walkSteps_catches (registry : Registry) (enclosing : List BreakableId) (walk : BreakWalk)
    (rest : List BreakStep) : (catches : List CatchClause) →
      walkSteps registry enclosing walk ((catches.map (·.body)).flatMap Block.steps ++ rest) =
        walkCatchBreaks registry enclosing walk catches >>= fun walk => walkSteps registry enclosing walk rest
  | [] => rfl
  | ⟨_,body⟩ :: others => by
    rw [List.map_cons,List.flatMap_cons,List.append_assoc,walkSteps_block,walkCatchBreaks,bind_assoc]
    exact congrArg _ (funext fun walk => walkSteps_catches registry enclosing walk rest others)
end

theorem walkSteps_statement (registry : Registry) (enclosing : List BreakableId) (walk : BreakWalk)
    (statement : Statement) : walkSteps registry enclosing walk [.enter statement] =
      statement.walkBreaks registry enclosing walk := by
  rw [walkSteps_enter]
  simp only [walkSteps]
  exact bind_pure _

theorem walkSteps_body (registry : Registry) (enclosing : List BreakableId) (walk : BreakWalk) (body : Block) :
    walkSteps registry enclosing walk body.steps = walkBlockBreaks registry enclosing walk body := by
  rw [← List.append_nil body.steps,walkSteps_block]
  simp only [walkSteps]
  exact bind_pure _

end Untangle
