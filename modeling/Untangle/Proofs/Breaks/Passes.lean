import Untangle.Decompile
import Untangle.Proofs.Breaks.Marks

namespace Untangle

namespace Rebuild
variable {σ : Type} {pass : Rebuild σ α} {good : α → Prop}

def Yields (pass : Rebuild σ α) (good : α → Prop) : Prop :=
  ∀ state result final, Rebuild.from state pass = (.ok result,final) → good result

theorem yields_pure {value : α} (here : good value) : Yields (σ := σ) (pure value) good := by
  intro state result final same
  cases same
  exact here

theorem yields_throw {cause : ConstraintError} : Yields (σ := σ) (throw cause) good := by
  intro state result final same
  cases same

theorem yields_bind {first : Rebuild σ α} {next : α → Rebuild σ β} {good : β → Prop} {middle : α → Prop}
    (start : Yields first middle) (further : ∀ value, middle value → Yields (next value) good) :
    Yields (first >>= next) good := by
  intro state result final same
  unfold Rebuild.from at same
  rw [ExceptT.run_bind,StateT.run_bind] at same
  change (match StateT.run (ExceptT.run first) state with
    | (outcome,middle) => _) = _ at same
  rcases run : StateT.run (ExceptT.run first) state with ⟨cause | value,later⟩
  · rw [run] at same
    cases same
  · rw [run] at same
    exact further value (start state value later run) later result final same

theorem yields_any (pass : Rebuild σ α) : Yields pass fun _ => True := fun _ _ _ _ => trivial

theorem yields_after {first : Rebuild σ α} {next : α → Rebuild σ β} {good : β → Prop}
    (further : ∀ value, Yields (next value) good) : Yields (first >>= next) good :=
  yields_bind (yields_any first) fun value _ => further value

theorem yields_known {value : α} {next : α → Rebuild σ β} {good : β → Prop} (here : Yields (next value) good) :
    Yields (pure value >>= next) good := here

theorem yields_recheck {demand : Except ConstraintError Unit} {node : α} (here : good node) :
    Yields (σ := σ) (recheck demand node) good := by
  unfold recheck
  split
  · exact yields_throw
  · exact yields_pure here

end Rebuild
open Rebuild

def SameMarks (old new : Block) : Prop := ∀ around, blockMarks around new = blockMarks around old

def SameStatement (old new : Statement) : Prop :=
  (∀ around, new.marks around = old.marks around) ∧ new.isPlain = old.isPlain

theorem headerMarks_same {old new : Statement} (same : SameStatement old new) :
    headerMarks (some new) = headerMarks (some old) := by
  simp [headerMarks,same.2]

def Hooks.Keeps {σ : Type} (hooks : Hooks σ) : Prop := ∀ block, Yields (hooks.block block) (SameMarks block)

section
variable {σ : Type} {hooks : Hooks σ}

theorem forBody_keeps {id : BreakableId} {start start' update update' : Option Statement}
    {condition condition' : Condition} {body : Block} (keeps : hooks.Keeps)
    (statements : Yields (rebuildStatements hooks body) (SameMarks body))
    (first : headerMarks start' = headerMarks start) (last : headerMarks update' = headerMarks update) :
    Yields (do
      let body ← hooks.block (← rebuildStatements hooks body)
      pure (Statement.forLoop id start' condition' update' body))
      (SameStatement (.forLoop id start condition update body)) := by
  refine yields_bind statements fun rebuilt kept => yields_bind (keeps rebuilt) fun final same => ?_
  exact yields_pure ⟨fun around => by simp [Statement.marks,first,last,same _,kept _],rfl⟩

mutual
theorem Statement.rebuild_keeps (keeps : hooks.Keeps) :
    (statement : Statement) → Yields (statement.rebuild hooks) (SameStatement statement)
  | .expr value => by
    unfold Statement.rebuild
    exact yields_after fun _ => yields_pure ⟨fun _ => rfl,rfl⟩
  | .assign target value => by
    unfold Statement.rebuild
    exact yields_after fun _ => yields_after fun _ => yields_recheck ⟨fun _ => rfl,rfl⟩
  | .increment var amount => by
    unfold Statement.rebuild
    exact yields_pure ⟨fun _ => rfl,rfl⟩
  | .branch condition thenBlock none => by
    unfold Statement.rebuild
    refine yields_after fun _ => yields_bind (rebuildStatements_keeps keeps thenBlock) fun first kept => ?_
    refine yields_bind (keeps first) fun second same => yields_pure ⟨fun around => ?_,rfl⟩
    simp [Statement.marks,same around,kept around]
  | .branch condition thenBlock (some elseBlock) => by
    unfold Statement.rebuild
    refine yields_after fun _ => yields_bind (rebuildStatements_keeps keeps thenBlock) fun first kept => ?_
    refine yields_bind (keeps first) fun second same => ?_
    refine yields_bind (rebuildStatements_keeps keeps elseBlock) fun third also => ?_
    refine yields_bind (keeps third) fun fourth last => yields_pure ⟨fun around => ?_,rfl⟩
    simp [Statement.marks,same around,kept around,last around,also around]
  | .whileLoop id condition body => by
    unfold Statement.rebuild
    refine yields_after fun _ => yields_bind (rebuildStatements_keeps keeps body) fun first kept => ?_
    refine yields_bind (keeps first) fun second same => yields_pure ⟨fun around => ?_,rfl⟩
    simp [Statement.marks,same _,kept _]
  | .doWhile id condition body => by
    unfold Statement.rebuild
    refine yields_after fun _ => yields_bind (rebuildStatements_keeps keeps body) fun first kept => ?_
    refine yields_bind (keeps first) fun second same => yields_pure ⟨fun around => ?_,rfl⟩
    simp [Statement.marks,same _,kept _]
  | .forLoop id none condition none body => by
    unfold Statement.rebuild
    refine yields_known (yields_after fun _ => yields_known ?_)
    exact forBody_keeps keeps (rebuildStatements_keeps keeps body) rfl rfl
  | .forLoop id (some start) condition none body => by
    unfold Statement.rebuild
    refine yields_bind (start.rebuild_keeps keeps) fun first kept => yields_known ?_
    refine yields_after fun _ => yields_known ?_
    exact forBody_keeps keeps (rebuildStatements_keeps keeps body) (headerMarks_same kept) rfl
  | .forLoop id none condition (some update) body => by
    unfold Statement.rebuild
    refine yields_known (yields_after fun _ => yields_bind (update.rebuild_keeps keeps) fun last kept => ?_)
    refine yields_known ?_
    exact forBody_keeps keeps (rebuildStatements_keeps keeps body) rfl (headerMarks_same kept)
  | .forLoop id (some start) condition (some update) body => by
    unfold Statement.rebuild
    refine yields_bind (start.rebuild_keeps keeps) fun first kept => yields_known ?_
    refine yields_after fun _ => yields_bind (update.rebuild_keeps keeps) fun last also => yields_known ?_
    exact forBody_keeps keeps (rebuildStatements_keeps keeps body) (headerMarks_same kept) (headerMarks_same also)
  | .switch id discriminant arms => by
    unfold Statement.rebuild
    refine yields_after fun _ => yields_after fun _ => yields_bind (rebuildArms_keeps keeps arms) fun rebuilt same => ?_
    exact yields_pure ⟨fun around => by simp [Statement.marks,same _],rfl⟩
  | .jump brk => by
    unfold Statement.rebuild
    exact yields_pure ⟨fun _ => rfl,rfl⟩
  | .ret none => by
    unfold Statement.rebuild
    exact yields_pure ⟨fun _ => rfl,rfl⟩
  | .ret (some value) => by
    unfold Statement.rebuild
    exact yields_after fun _ => yields_pure ⟨fun _ => rfl,rfl⟩
  | .throw exception => by
    unfold Statement.rebuild
    exact yields_after fun _ => yields_recheck ⟨fun _ => rfl,rfl⟩
  | .tryCatch body catches => by
    unfold Statement.rebuild
    refine yields_bind (rebuildStatements_keeps keeps body) fun first kept => ?_
    refine yields_bind (keeps first) fun second same => ?_
    refine yields_bind (rebuildCatches_keeps keeps catches) fun rebuilt last => yields_pure ⟨fun around => ?_,rfl⟩
    simp [Statement.marks,same around,kept around,last around]
theorem rebuildStatements_keeps (keeps : hooks.Keeps) :
    (block : List Statement) → Yields (rebuildStatements hooks block) (SameMarks block)
  | [] => by
    unfold rebuildStatements
    exact yields_pure fun _ => rfl
  | statement :: rest => by
    unfold rebuildStatements
    refine yields_bind (statement.rebuild_keeps keeps) fun first same => ?_
    refine yields_bind (rebuildStatements_keeps keeps rest) fun others kept => yields_pure fun around => ?_
    simp [blockMarks,same.1 around,kept around]
theorem rebuildArms_keeps (keeps : hooks.Keeps) : (arms : List SwitchArm) →
    Yields (rebuildArms hooks arms) fun rebuilt => ∀ around, armMarks around rebuilt = armMarks around arms
  | [] => by
    unfold rebuildArms
    exact yields_pure fun _ => rfl
  | ⟨labels,body⟩ :: rest => by
    unfold rebuildArms
    refine yields_bind (rebuildStatements_keeps keeps body) fun first kept => ?_
    refine yields_bind (keeps first) fun second same => ?_
    refine yields_bind (rebuildArms_keeps keeps rest) fun others last => yields_pure fun around => ?_
    simp [armMarks,same around,kept around,last around]
theorem rebuildCatches_keeps (keeps : hooks.Keeps) : (catches : List CatchClause) →
    Yields (rebuildCatches hooks catches) fun rebuilt => ∀ around, catchMarks around rebuilt = catchMarks around catches
  | [] => by
    unfold rebuildCatches
    exact yields_pure fun _ => rfl
  | ⟨types,body⟩ :: rest => by
    unfold rebuildCatches
    refine yields_bind (rebuildStatements_keeps keeps body) fun first kept => ?_
    refine yields_bind (keeps first) fun second same => ?_
    refine yields_bind (rebuildCatches_keeps keeps rest) fun others last => yields_pure fun around => ?_
    simp [catchMarks,same around,kept around,last around]
end

theorem Block.rebuild_keeps (keeps : hooks.Keeps) (block : Block) :
    Yields (block.rebuild hooks) (SameMarks block) := by
  unfold Block.rebuild
  refine yields_bind (rebuildStatements_keeps keeps block) fun rebuilt first => ?_
  intro state result final same around
  rw [keeps rebuilt state result final same around,first around]

end

theorem conditionalAssignment_marks {statement folded : Statement}
    (found : statement.conditionalAssignment? = some folded) (around : Enclosing) :
    folded.marks around = statement.marks around := by
  unfold Statement.conditionalAssignment? at found
  split at found
  · dsimp only at found
    split at found
    · split at found
      · cases found
        rfl
      · cases found
    · cases found
  · cases found

theorem nestedBranch_marks {statement folded : Statement} (found : statement.nestedBranch? = some folded)
    (around : Enclosing) : folded.marks around = statement.marks around := by
  unfold Statement.nestedBranch? at found
  split at found
  · cases found
    simp [Statement.marks,blockMarks]
  · cases found

theorem counted_keeps {node : Statement} {found : Option Statement}
    (same : ∀ folded, found = some folded → ∀ around, folded.marks around = node.marks around) :
    Yields (counted node found) fun folded => ∀ around, folded.marks around = node.marks around := by
  unfold counted
  split
  · exact yields_pure fun _ => rfl
  · rename_i folded
    exact yields_after fun _ => yields_pure (same folded rfl)

namespace FoldingSettings

theorem foldStatement_keeps (settings : FoldingSettings) (statement : Statement) :
    Yields (settings.foldStatement statement) fun folded =>
      ∀ around, folded.marks around = statement.marks around := by
  unfold foldStatement
  have second {chosen : Statement} (same : ∀ around, chosen.marks around = statement.marks around) :
      Yields (if settings.nestedConditions then counted chosen chosen.nestedBranch? else pure chosen) fun folded =>
        ∀ around, folded.marks around = statement.marks around := by
    split
    · intro state result final run around
      rw [counted_keeps (fun folded found around => nestedBranch_marks found around) state result final run around,
        same around]
    · exact yields_pure same
  dsimp only
  split
  · exact yields_bind (counted_keeps fun folded found around => conditionalAssignment_marks found around)
      fun chosen same => second same
  · exact yields_known (second fun _ => rfl)

theorem hooks_keep (settings : FoldingSettings) : settings.hooks.Keeps := by
  intro block
  change Yields (block.mapM settings.foldStatement) (SameMarks block)
  induction block with
  | nil => exact yields_pure fun _ => rfl
  | cons statement rest ih =>
    rw [List.mapM_cons]
    refine yields_bind (settings.foldStatement_keeps statement) fun first same => ?_
    refine yields_bind ih fun others kept => yields_pure fun around => ?_
    simp [blockMarks,same around,kept around]

end FoldingSettings

-- What holds of a tree and is kept by every pass holds of the folded tree, however folding ends.
theorem foldFrom_keeps {settings : FoldingSettings} {good : Block → Prop}
    (keeps : ∀ old, good old → Yields (old.rebuild settings.hooks) good) {unfolded current : Block}
    (left passed : Nat) (events : List Event) (start : good unfolded) (here : good current) :
    good (foldFrom settings unfolded left passed events current).body := by
  induction left generalizing passed events current with
  | zero => exact start
  | succ left ih =>
    have kept := keeps current here 0
    unfold foldFrom
    dsimp only
    split
    · exact start
    · rename_i next run
      exact kept next 0 run
    · rename_i next folds _ run
      exact ih _ _ (kept next folds run)

theorem fold_keeps {settings : FoldingSettings} {good : Block → Prop}
    (keeps : ∀ old, good old → Yields (old.rebuild settings.hooks) good) {body : Block} (start : good body) :
    good (body.fold settings).body := by
  unfold Block.fold
  split
  · exact foldFrom_keeps keeps _ _ _ start start
  · exact start

theorem fold_marks (body : Block) (settings : FoldingSettings) : SameMarks body (body.fold settings).body := by
  have keeps (old : Block) (same : SameMarks body old) : Yields (old.rebuild settings.hooks) (SameMarks body) := by
    intro state result final run around
    rw [Block.rebuild_keeps settings.hooks_keep old state result final run,same]
  exact fold_keeps keeps fun _ => rfl

theorem inferTypes_marks (body : Block) (resolver : Resolver) : SameMarks body (body.inferTypes resolver).body := by
  have keeps : resolver.hooks.Keeps := fun block => yields_pure fun _ => rfl
  have kept := Block.rebuild_keeps keeps body []
  unfold Block.inferTypes
  rcases run : Rebuild.from [] (Block.rebuild resolver.hooks body) with ⟨cause | annotated,found⟩
  · exact fun _ => rfl
  · exact kept annotated found run

end Untangle
