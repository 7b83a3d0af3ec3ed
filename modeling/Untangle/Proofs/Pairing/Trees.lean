import Untangle.Proofs.Breaks.Walking
import Untangle.Proofs.Emission.Shapes
import Untangle.Proofs.Pairing.Registries
import Untangle.Proofs.Pairing.Unfolded
import Untangle.Structuring

namespace Untangle

structure Twin (equal : Prop) (one two : Block) : Prop where
  unfolds : unfoldBlock one = unfoldBlock two
  walks : ∀ registry enclosing walk,
    walkBlockBreaks registry enclosing walk one = walkBlockBreaks registry enclosing walk two
  eq : equal → one = two

variable {equal : Prop} {one two one' two' body body' : Block} {statement last : Statement} {id : BreakableId}
  {condition : Condition} {registry registry' : Registry} {enclosing : List BreakableId}

theorem walkBlock_append (registry : Registry) (enclosing : List BreakableId) (walk : BreakWalk)
    (first second : Block) : walkBlockBreaks registry enclosing walk (first ++ second) =
      walkBlockBreaks registry enclosing walk first >>= fun walk =>
        walkBlockBreaks registry enclosing walk second := by
  induction first generalizing walk with
  | nil => rfl
  | cons statement rest ih =>
    rw [List.cons_append,walkBlockBreaks,walkBlockBreaks,bind_assoc]
    exact congrArg _ (funext fun walk => ih walk)

theorem walkBlock_single (registry : Registry) (enclosing : List BreakableId) (walk : BreakWalk)
    (statement : Statement) :
    walkBlockBreaks registry enclosing walk [statement] = statement.walkBreaks registry enclosing walk := by
  rw [walkBlockBreaks]
  exact bind_pure _

theorem walk_plain (plain : statement.isPlain = true) (registry : Registry) (enclosing : List BreakableId)
    (walk : BreakWalk) : statement.walkBreaks registry enclosing walk = .ok walk := by
  cases statement <;> first | rfl | cases plain

def Statement.SameBreaks (one two : Statement) : Prop :=
  ∀ registry enclosing walk, one.walkBreaks registry enclosing walk = two.walkBreaks registry enclosing walk

namespace Twin

theorem refl (equal : Prop) (block : Block) : Twin equal block block :=
  ⟨rfl,fun _ _ _ => rfl,fun _ => rfl⟩

theorem append (first : Twin equal one two) (second : Twin equal one' two') :
    Twin equal (one ++ one') (two ++ two') := by
  refine ⟨?_,fun registry enclosing walk => ?_,fun has => ?_⟩
  · rw [unfoldBlock_append,unfoldBlock_append,first.unfolds,second.unfolds]
  · rw [walkBlock_append,walkBlock_append,first.walks]
    exact congrArg _ (funext fun walk => second.walks registry enclosing walk)
  · rw [first.eq has,second.eq has]

theorem branch (thens : Twin equal one two) (elses : Twin equal one' two') :
    Twin equal [.branch condition one (some one')] [.branch condition two (some two')] := by
  refine ⟨?_,fun registry enclosing walk => ?_,fun has => ?_⟩
  · simp only [unfoldBlock_single,Statement.unfolded,unfoldElse,thens.unfolds,elses.unfolds]
  · simp only [walkBlock_single,Statement.walkBreaks,thens.walks,elses.walks]
  · rw [thens.eq has,elses.eq has]

theorem branchOnly (thens : Twin equal one two) :
    Twin equal [.branch condition one none] [.branch condition two none] := by
  refine ⟨?_,fun registry enclosing walk => ?_,fun has => ?_⟩
  · simp only [unfoldBlock_single,Statement.unfolded,unfoldElse,thens.unfolds]
  · simp only [walkBlock_single,Statement.walkBreaks,thens.walks]
  · rw [thens.eq has]

theorem whileLoop (bodies : Twin equal one two) :
    Twin equal [.whileLoop id condition one] [.whileLoop id condition two] := by
  refine ⟨?_,fun registry enclosing walk => ?_,fun has => ?_⟩
  · simp only [unfoldBlock_single,Statement.unfolded,bodies.unfolds]
  · simp only [walkBlock_single,Statement.walkBreaks,bodies.walks]
  · rw [bodies.eq has]

theorem doWhile (bodies : Twin equal one two) :
    Twin equal [.doWhile id condition one] [.doWhile id condition two] := by
  refine ⟨?_,fun registry enclosing walk => ?_,fun has => ?_⟩
  · simp only [unfoldBlock_single,Statement.unfolded,bodies.unfolds]
  · simp only [walkBlock_single,Statement.walkBreaks,bodies.walks]
  · rw [bodies.eq has]

theorem forLoop {start update : Option Statement} (bodies : Twin equal one two) :
    Twin equal [.forLoop id start condition update one] [.forLoop id start condition update two] := by
  refine ⟨?_,fun registry enclosing walk => ?_,fun has => ?_⟩
  · simp only [unfoldBlock_single,Statement.unfolded,bodies.unfolds]
  · simp only [walkBlock_single,Statement.walkBreaks,bodies.walks]
  · rw [bodies.eq has]

theorem isEmpty_eq (twin : Twin equal one two) : one.isEmpty = two.isEmpty := by
  rw [← unfoldBlock_isEmpty one,← unfoldBlock_isEmpty two,twin.unfolds]

theorem last_iff (twin : Twin equal one two) (flat : last.isFlat = true) :
    one.getLast? = some last ↔ two.getLast? = some last := by
  have first : (unfoldBlock one).getLast? = some last ↔ one.getLast? = some last := unfoldBlock_getLast flat
  rw [twin.unfolds] at first
  exact first.symm.trans (unfoldBlock_getLast flat)

theorem dropLast (twin : Twin equal one two) (flat : last.isFlat = true)
    (quiet : ∀ registry enclosing walk, last.walkBreaks registry enclosing walk = .ok walk)
    (ends : one.getLast? = some last) : Twin equal one.dropLast two.dropLast := by
  have ends' := (twin.last_iff flat).mp ends
  refine ⟨?_,fun registry enclosing walk => ?_,fun has => by rw [twin.eq has]⟩
  · rw [unfoldBlock_dropLast flat ends,unfoldBlock_dropLast flat ends',twin.unfolds]
  · have walks := twin.walks registry enclosing walk
    obtain ⟨front,rfl⟩ := List.getLast?_eq_some_iff.mp ends
    obtain ⟨front',rfl⟩ := List.getLast?_eq_some_iff.mp ends'
    simp only [walkBlock_append,walkBlock_single,quiet] at walks
    rw [List.dropLast_concat,List.dropLast_concat]
    exact (bind_pure _).symm.trans (walks.trans (bind_pure _))

theorem isLoneJump_eq (twin : Twin equal one two) : isLoneJump one = isLoneJump two := by
  have lone {block : Block} : isLoneJump block = true ↔ ∃ last, last.isTerminal = true ∧ block = [last] := by
    unfold isLoneJump
    split
    · simp
    · rename_i other
      simp only [Bool.false_eq_true,false_iff,not_exists,not_and]
      rintro last _ rfl
      exact other last rfl
  rw [Bool.eq_iff_iff,lone,lone]
  refine exists_congr fun last => and_congr_right fun jumps => ?_
  have flat : last.isFlat = true := by simp [Statement.isFlat,jumps]
  have first : unfoldBlock one = [last] ↔ one = [last] := unfoldBlock_singleton flat
  rw [twin.unfolds] at first
  exact first.symm.trans (unfoldBlock_singleton flat)

theorem branchForm (thens : Twin equal one two) (elses : Twin equal one' two') (openEnded : Bool) :
    Twin equal (branchForm condition one one' openEnded) (branchForm condition two two' openEnded) := by
  unfold Untangle.branchForm
  rw [thens.isEmpty_eq,elses.isEmpty_eq,thens.isLoneJump_eq,elses.isLoneJump_eq]
  split
  · exact thens.branchOnly
  split
  · exact elses.branchOnly
  split
  · exact append thens.branchOnly elses
  split
  · exact append elses.branchOnly thens
  · exact thens.branch elses

theorem trailing (twin : Twin equal one two) : Twin equal (withoutTrailingReturn one) (withoutTrailingReturn two) := by
  have ends : one.getLast? = some (.ret none) ↔ two.getLast? = some (.ret none) := twin.last_iff rfl
  unfold withoutTrailingReturn
  split
  · rename_i at_
    rw [ends.mp at_]
    exact twin.dropLast rfl (fun _ _ _ => rfl) at_
  · rename_i other
    split
    · rename_i at_
      exact absurd (ends.mpr at_) other
    · exact twin

theorem trans {three : Block} (first : Twin equal one two) (second : Twin equal two three) : Twin equal one three :=
  ⟨first.unfolds.trans second.unfolds,
    fun registry enclosing walk => (first.walks registry enclosing walk).trans (second.walks registry enclosing walk),
    fun has => (first.eq has).trans (second.eq has)⟩

theorem symm (twin : Twin equal one two) : Twin equal two one :=
  ⟨twin.unfolds.symm,fun registry enclosing walk => (twin.walks registry enclosing walk).symm,
    fun has => (twin.eq has).symm⟩

theorem plain_flat {statement : Statement} (plain : statement.isPlain = true) : statement.isFlat = true := by
  simp [Statement.isFlat,plain]

theorem takeStart (twin : Twin equal one two) (index : UInt16) :
    (takeStart one index).1 = (takeStart two index).1 ∧
      Twin equal (takeStart one index).2 (takeStart two index).2 := by
  have none_left {block : Block} (other : ∀ last, block.getLast? = some last → assignedLocal? last ≠ some index) :
      Untangle.takeStart block index = (none,block) := by
    unfold Untangle.takeStart
    split
    · rename_i last at_
      rw [if_neg (other last at_)]
    · rfl
  have some_left {block : Block} {last : Statement} (at_ : block.getLast? = some last)
      (assigns : assignedLocal? last = some index) :
      Untangle.takeStart block index = (some last,block.dropLast) := by
    unfold Untangle.takeStart
    rw [at_]
    exact if_pos assigns
  by_cases found : ∃ last, one.getLast? = some last ∧ assignedLocal? last = some index
  · obtain ⟨last,at_,assigns⟩ := found
    have plain := assignedLocal_plain assigns
    have at' := (twin.last_iff (plain_flat plain)).mp at_
    rw [some_left at_ assigns,some_left at' assigns]
    exact ⟨rfl,twin.dropLast (plain_flat plain) (walk_plain plain) at_⟩
  · have other (last : Statement) (at_ : one.getLast? = some last) : assignedLocal? last ≠ some index :=
      fun assigns => found ⟨last,at_,assigns⟩
    have other' (last : Statement) (at_ : two.getLast? = some last) : assignedLocal? last ≠ some index :=
      fun assigns => found ⟨last,(twin.last_iff (plain_flat (assignedLocal_plain assigns))).mpr at_,assigns⟩
    rw [none_left other,none_left other']
    exact ⟨rfl,twin⟩

theorem recovers {out out' : Block} {parts : Recovered} (bodies : Twin equal body body') (outs : Twin equal out out')
    (recovered : recoverInduction? condition body out = some parts) :
    ∃ parts', recoverInduction? condition body' out' = some parts' ∧ parts.start = parts'.start ∧
      parts.update = parts'.update ∧ Twin equal parts.body parts'.body ∧ Twin equal parts.out parts'.out := by
  obtain ⟨startPlain,updatePlain⟩ := recoverInduction_plain recovered
  unfold recoverInduction? at recovered
  simp only [Option.bind_eq_bind,Option.bind_eq_some_iff] at recovered
  obtain ⟨update,lastOfBody,index,advances,start,lastOfOut,recovered⟩ := recovered
  split at recovered
  · rename_i reads
    cases recovered
    have ofBody := (bodies.last_iff (plain_flat updatePlain)).mp lastOfBody
    have ofOut := (outs.last_iff (plain_flat startPlain)).mp lastOfOut
    refine ⟨⟨start,update,body'.dropLast,out'.dropLast⟩,?_,rfl,rfl,
      bodies.dropLast (plain_flat updatePlain) (walk_plain updatePlain) lastOfBody,
      outs.dropLast (plain_flat startPlain) (walk_plain startPlain) lastOfOut⟩
    unfold recoverInduction?
    simp only [Option.bind_eq_bind,ofBody,Option.bind_some,advances,ofOut,reads]
    exact if_pos ⟨trivial,trivial⟩
  · cases recovered

theorem recovers_both {out out' : Block} (bodies : Twin equal body body') (outs : Twin equal out out')
    (condition : Condition) :
    (recoverInduction? condition body out = none ∧ recoverInduction? condition body' out' = none) ∨
      ∃ parts parts', recoverInduction? condition body out = some parts ∧
        recoverInduction? condition body' out' = some parts' ∧ parts.start = parts'.start ∧
        parts.update = parts'.update ∧ Twin equal parts.body parts'.body ∧ Twin equal parts.out parts'.out := by
  cases first : recoverInduction? condition body out with
  | some parts =>
    obtain ⟨parts',second,rest⟩ := bodies.recovers outs first
    exact Or.inr ⟨parts,parts',rfl,second,rest⟩
  | none =>
    cases second : recoverInduction? condition body' out' with
    | none => exact Or.inl ⟨rfl,rfl⟩
    | some parts =>
      obtain ⟨_,impossible,_⟩ := bodies.symm.recovers outs.symm second
      cases first.symm.trans impossible

theorem recovered {out : Block} {parts : Recovered} (id : BreakableId) (free : ¬equal)
    (recovered : recoverInduction? condition body out = some parts) :
    Statement.SameBreaks (.forLoop id (some parts.start) condition (some parts.update) parts.body)
        (.whileLoop id condition body) ∧
      Twin equal (parts.out ++ [.forLoop id (some parts.start) condition (some parts.update) parts.body])
        (out ++ [.whileLoop id condition body]) := by
  obtain ⟨startPlain,updatePlain⟩ := recoverInduction_plain recovered
  obtain ⟨outSplits,bodySplits,_⟩ := recoverInduction_splits recovered
  have breaks : Statement.SameBreaks (.forLoop id (some parts.start) condition (some parts.update) parts.body)
      (.whileLoop id condition body) := by
    intro registry enclosing walk
    rw [bodySplits,Statement.walkBreaks,Statement.walkBreaks,walkBlock_append]
    simp only [walkBlock_single,walk_plain updatePlain]
    exact (bind_pure _).symm
  refine ⟨breaks,?_,fun registry enclosing walk => ?_,fun has => absurd has free⟩
  · rw [outSplits,bodySplits]
    simp only [unfoldBlock_append,unfoldBlock_single,Statement.unfolded,unfoldPart,
      Statement.unfolded_flat (plain_flat startPlain),Statement.unfolded_flat (plain_flat updatePlain),
      List.append_assoc]
  · rw [outSplits,walkBlock_append,walkBlock_append,walkBlock_append]
    simp only [walkBlock_single,walk_plain startPlain,breaks registry enclosing]
    exact congrArg (· >>= _) (bind_pure _).symm

theorem sameBreaks {statement' : Statement} (trees : Twin equal [statement] [statement']) :
    statement.SameBreaks statement' := by
  intro registry enclosing walk
  rw [← walkBlock_single,← walkBlock_single,trees.walks]

end Twin

def SwitchArm.Twin (equal : Prop) (one two : SwitchArm) : Prop :=
  one.labels = two.labels ∧ Untangle.Twin equal one.body two.body

def CatchClause.Twin (equal : Prop) (one two : CatchClause) : Prop :=
  one.types = two.types ∧ Untangle.Twin equal one.body two.body

namespace Twin

theorem switch {discriminant : Expr} {arms arms' : List SwitchArm}
    (twins : List.Forall₂ (SwitchArm.Twin equal) arms arms') :
    Twin equal [.switch id discriminant arms] [.switch id discriminant arms'] := by
  have all : unfoldArms arms = unfoldArms arms' ∧
      (∀ registry enclosing walk, walkArmBreaks registry enclosing walk arms =
        walkArmBreaks registry enclosing walk arms') ∧ (equal → arms = arms') := by
    induction twins with
    | nil => exact ⟨rfl,fun _ _ _ => rfl,fun _ => rfl⟩
    | @cons arm arm' rest rest' first _ ih =>
      obtain ⟨labels,body⟩ := arm
      obtain ⟨labels',body'⟩ := arm'
      obtain ⟨same,bodies⟩ : labels = labels' ∧ Twin equal body body' := first
      obtain ⟨unfolds,walks,eq⟩ := ih
      refine ⟨?_,fun registry enclosing walk => ?_,fun has => ?_⟩
      · simp only [unfoldArms,same,bodies.unfolds,unfolds]
      · simp only [walkArmBreaks,bodies.walks,walks]
      · rw [same,bodies.eq has,eq has]
  obtain ⟨unfolds,walks,eq⟩ := all
  refine ⟨?_,fun registry enclosing walk => ?_,fun has => by rw [eq has]⟩
  · simp only [unfoldBlock_single,Statement.unfolded,unfolds]
  · simp only [walkBlock_single,Statement.walkBreaks,walks]

theorem tryCatch {catches catches' : List CatchClause} (bodies : Twin equal one two)
    (twins : List.Forall₂ (CatchClause.Twin equal) catches catches') :
    Twin equal [.tryCatch one catches] [.tryCatch two catches'] := by
  have all : unfoldCatches catches = unfoldCatches catches' ∧
      (∀ registry enclosing walk, walkCatchBreaks registry enclosing walk catches =
        walkCatchBreaks registry enclosing walk catches') ∧ (equal → catches = catches') := by
    induction twins with
    | nil => exact ⟨rfl,fun _ _ _ => rfl,fun _ => rfl⟩
    | @cons clause clause' rest rest' first _ ih =>
      obtain ⟨types,body⟩ := clause
      obtain ⟨types',body'⟩ := clause'
      obtain ⟨same,bodies⟩ : types = types' ∧ Twin equal body body' := first
      obtain ⟨unfolds,walks,eq⟩ := ih
      refine ⟨?_,fun registry enclosing walk => ?_,fun has => ?_⟩
      · simp only [unfoldCatches,same,bodies.unfolds,unfolds]
      · simp only [walkCatchBreaks,bodies.walks,walks]
      · rw [same,bodies.eq has,eq has]
  obtain ⟨unfolds,walks,eq⟩ := all
  refine ⟨?_,fun registry enclosing walk => ?_,fun has => by rw [bodies.eq has,eq has]⟩
  · simp only [unfoldBlock_single,Statement.unfolded,bodies.unfolds,unfolds]
  · simp only [walkBlock_single,Statement.walkBreaks,bodies.walks,walks]

end Twin

theorem checkArms_eq {arms arms' : List SwitchArm} (twins : List.Forall₂ (SwitchArm.Twin equal) arms arms')
    (seen : List Int32) (hasDefault : Bool) : checkArms seen hasDefault arms = checkArms seen hasDefault arms' := by
  induction twins generalizing seen hasDefault with
  | nil => rfl
  | @cons arm arm' _ _ first _ ih =>
    obtain ⟨labels,body⟩ := arm
    obtain ⟨labels',body'⟩ := arm'
    cases (first.1 : labels = labels')
    simp only [checkArms,ih]
    rfl

mutual
theorem Registry.Twin.walk_eq (twin : Registry.Twin equal registry registry') (enclosing : List BreakableId)
    (walk : BreakWalk) : (statement : Statement) → statement.walkBreaks registry enclosing walk =
      statement.walkBreaks registry' enclosing walk
  | .jump brk => twin.meet_eq walk enclosing brk
  | .branch _ thenBlock none => by
    simp only [Statement.walkBreaks,twin.walkBlock_eq enclosing walk thenBlock]
  | .branch _ thenBlock (some elseBlock) => by
    simp only [Statement.walkBreaks,twin.walkBlock_eq enclosing walk thenBlock]
    exact congrArg _ (funext fun walk => twin.walkBlock_eq enclosing walk elseBlock)
  | .whileLoop id _ body => twin.walkBlock_eq (id :: enclosing) (walk.enter id) body
  | .doWhile id _ body => twin.walkBlock_eq (id :: enclosing) (walk.enter id) body
  | .forLoop id _ _ _ body => twin.walkBlock_eq (id :: enclosing) (walk.enter id) body
  | .switch id _ arms => twin.walkArms_eq (id :: enclosing) (walk.enter id) arms
  | .tryCatch body catches => by
    simp only [Statement.walkBreaks,twin.walkBlock_eq enclosing walk body]
    exact congrArg _ (funext fun walk => twin.walkCatches_eq enclosing walk catches)
  | .expr _ => rfl
  | .assign _ _ => rfl
  | .increment _ _ => rfl
  | .ret _ => rfl
  | .throw _ => rfl
theorem Registry.Twin.walkBlock_eq (twin : Registry.Twin equal registry registry') (enclosing : List BreakableId)
    (walk : BreakWalk) : (block : List Statement) → walkBlockBreaks registry enclosing walk block =
      walkBlockBreaks registry' enclosing walk block
  | [] => rfl
  | statement :: rest => by
    rw [walkBlockBreaks,walkBlockBreaks,twin.walk_eq enclosing walk statement]
    exact congrArg _ (funext fun walk => twin.walkBlock_eq enclosing walk rest)
theorem Registry.Twin.walkArms_eq (twin : Registry.Twin equal registry registry') (enclosing : List BreakableId)
    (walk : BreakWalk) : (arms : List SwitchArm) → walkArmBreaks registry enclosing walk arms =
      walkArmBreaks registry' enclosing walk arms
  | [] => rfl
  | ⟨_,body⟩ :: rest => by
    rw [walkArmBreaks,walkArmBreaks,twin.walkBlock_eq enclosing walk body]
    exact congrArg _ (funext fun walk => twin.walkArms_eq enclosing walk rest)
theorem Registry.Twin.walkCatches_eq (twin : Registry.Twin equal registry registry') (enclosing : List BreakableId)
    (walk : BreakWalk) : (catches : List CatchClause) → walkCatchBreaks registry enclosing walk catches =
      walkCatchBreaks registry' enclosing walk catches
  | [] => rfl
  | ⟨_,body⟩ :: rest => by
    rw [walkCatchBreaks,walkCatchBreaks,twin.walkBlock_eq enclosing walk body]
    exact congrArg _ (funext fun walk => twin.walkCatches_eq enclosing walk rest)
end

namespace Twin

theorem validateConstruct_eq {statement' : Statement} (breaks : statement.SameBreaks statement')
    (twin : Registry.Twin equal registry registry') :
    validateConstruct statement registry enclosing = validateConstruct statement' registry' enclosing := by
  unfold validateConstruct
  rw [walkSteps_statement,walkSteps_statement,breaks,twin.walk_eq]
  simp only [twin.breaks_eq]

theorem validateBreaks_eq (trees : Twin equal one two) (twin : Registry.Twin equal registry registry') :
    validateBreaks one registry = validateBreaks two registry' := by
  have recorded (seen : List BreakId) (target : BreakableId) (breaks : List BreakId) :
      checkRecorded registry seen target breaks = checkRecorded registry' seen target breaks := by
    induction breaks with
    | nil => rfl
    | cons brk rest ih =>
      unfold checkRecorded Registry.targetOf?
      rw [twin.targets,ih]
  unfold validateBreaks
  rw [walkSteps_body,walkSteps_body,trees.walks,twin.walkBlock_eq,twin.breakables.length_eq]
  simp only [recorded,twin.breaks_eq]

end Twin
end Untangle
