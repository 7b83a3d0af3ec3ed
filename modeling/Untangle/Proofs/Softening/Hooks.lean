import Untangle.Inference
import Untangle.Proofs.Softening.Passes

namespace Untangle
open Rebuild

section
variable {param : String} {constraint : Constraint} {exprs args later parts : List Expr}

theorem expectEach_ok : expectEach param constraint exprs = .ok () ↔
    ∀ expr ∈ exprs, expect param constraint expr = .ok () := by
  induction exprs with
  | nil => simp [expectEach]
  | cons expr rest ih => rw [expectEach_cons,ih,List.forall_mem_cons]

theorem paramConstraint_void (declared : FieldType) : (paramConstraint declared).accepts .void = false := by
  cases declared with
  | base letter => cases letter <;> rfl
  | object name => rfl
  | array component => rfl

theorem expect_value {expr : Expr} : expect param .value expr = .ok () ↔ expr.category ≠ .void := by
  rw [expect_ok]
  unfold Expr.category
  cases expr.type.category <;> simp [Constraint.accepts]

theorem expectParams_present {types : List FieldType} (long : types.length = args.length)
    (held : expectParams param types args = .ok ()) : ∀ arg ∈ args, arg.category ≠ .void := by
  induction args generalizing types with
  | nil => simp
  | cons arg rest ih =>
    obtain ⟨declared,types,rfl⟩ := List.exists_cons_of_length_eq_add_one long
    obtain ⟨first,others⟩ := expectParams_cons.mp held
    refine List.forall_mem_cons.mpr ⟨fun void => ?_,ih (Nat.succ.inj long) others⟩
    have accepted := expect_ok.mp first
    have missing : arg.type.category = .void := void
    rw [missing,paramConstraint_void] at accepted
    cases accepted

theorem expectArgs_present {signature : MethodDescriptor} (held : expectArgs param signature args = .ok ()) :
    ∀ arg ∈ args, arg.category ≠ .void := by
  obtain ⟨long,each⟩ := expectArgs_ok.mp held
  exact expectParams_present long each

theorem Expr.builderParts_present {expr : Expr} (collected : expr.Collects later parts)
    (formed : (Node.ofExpr expr).Built Valid) (behind : ∀ part ∈ later, part.category ≠ .void) :
    ∀ part ∈ parts, part.category ≠ .void := by
  induction collected with
  | append appends _ ih =>
    obtain ⟨held,_,operands⟩ := built_operands.mp formed
    have given := expectArgs_present (expectBoth_ok.mp held).2 _ List.mem_cons_self
    exact ih (operands _ List.mem_cons_self) (List.forall_mem_cons.mpr ⟨given,behind⟩)
  | start seeds =>
    have given := expectArgs_present (built_operands.mp formed).1
    exact List.forall_mem_append.mpr
      ⟨fun part member => given part ((ConstructorRef.seed_sublist seeds).subset member),behind⟩

theorem leadWithText_present (present : ∀ part ∈ parts, part.category ≠ .void) :
    ∀ part ∈ leadWithText parts, part.category ≠ .void := by
  unfold leadWithText
  split
  · exact present
  · refine List.forall_mem_cons.mpr ⟨?_,present⟩
    simp [Expr.category,Expr.literal,Expr.plain,Expr.type_plain,ExprKind.infer,Literal.type,Ty.string,Ty.category]

theorem Expr.builderChain_held {expr folded : Expr} (found : expr.builderChain? = some folded)
    (formed : (Node.ofExpr expr).Built Valid) : folded.kind.check = .ok () := by
  obtain ⟨receiver,method,note,parts,rfl,_,collected,rfl⟩ := builderChain_some found
  have receives := (built_operands.mp formed).2.2 receiver List.mem_cons_self
  have present := leadWithText_present (builderParts_present collected receives (by simp))
  exact expectEach_ok.mpr fun part member => expect_value.mpr (present part member)

theorem expect_numeric {expr : Expr} : expect param .numeric expr = .ok () ↔
    expr.category = .numeric ∨ expr.category = .unknown := by
  rw [expect_ok]
  unfold Expr.category
  cases expr.type.category <;> simp [Constraint.accepts]

theorem Condition.compare_numbers {left right : Expr} (op : CompareOp) (first : expect "left" .numeric left = .ok ())
    (second : expect "right" .numeric right = .ok ()) : (compare op left right).check = .ok () := by
  have agree : left.category.agrees right.category = true := by
    rcases expect_numeric.mp first with here | here <;> rcases expect_numeric.mp second with there | there <;>
      rw [here,there] <;> rfl
  have present {param : String} {expr : Expr} (number : expect param .numeric expr = .ok ()) :
      expect param .value expr = .ok () := by
    rw [expect_value]
    rcases expect_numeric.mp number with here | here <;> rw [here] <;> exact nofun
  unfold check
  dsimp only
  split
  · exact expectBoth_ok.mpr ⟨present first,present second⟩
  · exact expectBoth_ok.mpr ⟨first,second⟩

theorem Condition.signTest_held {condition folded : Condition} (found : condition.signTest? = some folded)
    (formed : (Node.ofCondition condition).Built Expr.Valid) : folded.check = .ok () := by
  have swapped {op : CompareOp} {low high : Expr} {note : Option Ty}
      (formed : (Node.ofExpr ⟨.numberCompare low high,note⟩).Built Expr.Valid) :
      (compare op high low).check = .ok () := by
    obtain ⟨first,second⟩ := expectBoth_ok.mp (Expr.built_operands.mp formed).1
    exact compare_numbers op (expect_numeric.mpr (expect_numeric.mp second))
      (expect_numeric.mpr (expect_numeric.mp first))
  obtain ⟨op,low,high,zero,_,_,_,⟨rfl,rfl⟩ | ⟨rfl,rfl⟩⟩ := signTest_some found
  · exact swapped (built_compare.mp formed).2.1
  · exact swapped (built_compare.mp formed).2.2

end

section
variable {α : Type} {node : α} {found : Option α}

theorem returns_counted : Returns (fun _ => True) (counted node found) := by
  cases found with
  | none => exact returns_pure
  | some folded => exact fun count _ => ⟨folded,count + 1,rfl,trivial⟩

theorem returns_countedChecked {check : α → Except ConstraintError Unit}
    (held : ∀ folded, found = some folded → check folded = .ok ()) :
    Returns (fun _ => True) (countedChecked check node found) := by
  cases found with
  | none => exact returns_pure
  | some folded => exact returns_bind (returns_recheck (held folded rfl)) (yields_any _) fun _ _ => returns_counted

theorem returns_optional {σ : Type} {kept : σ → Prop} {pass : Rebuild σ α} {enabled : Bool}
    (applied : Returns kept pass) : Returns kept (if enabled then pass else pure node) := by
  split
  · exact applied
  · exact returns_pure

end

namespace FoldingSettings
variable (settings : FoldingSettings)

theorem hooks_soften : settings.hooks.Soften := by
  intro expr fresh
  refine yields_optional (.refl expr) (yields_countedChecked (.refl expr) fun folded found _ => ?_)
  obtain ⟨receiver,method,note,parts,rfl,reads,_,rfl⟩ := Expr.builderChain_some found
  obtain rfl : note = none := fresh.bare
  refine ⟨?_,rfl⟩
  rw [Expr.plain,Expr.type_plain,Expr.type_plain]
  exact .object stringClass (fresh.reads receiver method [] rfl reads)

theorem hooks_return : settings.hooks.Return fun _ => True where
  expr expr formed := by
    exact returns_optional (returns_countedChecked fun folded found => Expr.builderChain_held found formed)
  condition condition formed := by
    change Returns _ (settings.foldCondition condition)
    rw [foldCondition_steps]
    refine returns_bind (returns_optional returns_counted) (yields_optional formed
      (yields_counted formed fun folded found => Condition.doubleNegation_built found formed)) fun single here => ?_
    exact returns_optional (returns_countedChecked fun folded found => Condition.signTest_held found here)
  block block formed := by
    refine returns_mapM fun statement _ => ?_
    rw [foldStatement_steps]
    exact returns_bind (returns_optional returns_counted) (yields_any _) fun _ _ => returns_optional returns_counted

end FoldingSettings
def Unresolved (found : List Diagnostic) : Prop :=
  ∀ diagnostic ∈ found, diagnostic.finding = .unresolvedField ∨ diagnostic.finding = .unresolvedMethod

section
variable {finding : Finding} {answer : Except ResolveError Ty}

theorem yields_resolved : Yields (resolved finding answer) fun type => answer = .ok type ∨ type = .unknown := by
  cases answer with
  | ok type => exact yields_pure (Or.inl rfl)
  | error cause =>
    refine yields_after fun known => ?_
    split
    · exact yields_pure (Or.inr rfl)
    · exact yields_after fun _ => yields_pure (Or.inr rfl)

theorem returns_resolved (member : finding = .unresolvedField ∨ finding = .unresolvedMethod) :
    Returns Unresolved (resolved finding answer) := by
  intro found here
  cases answer with
  | ok type => exact ⟨type,found,rfl,here⟩
  | error cause =>
    unfold resolved
    dsimp only
    have known : Rebuild.from found get = (.ok found,found) := rfl
    rw [from_bind,known]
    dsimp only
    split
    · exact ⟨.unknown,found,rfl,here⟩
    · exact ⟨.unknown,_,rfl,List.forall_mem_append.mpr ⟨here,List.forall_mem_singleton.mpr member⟩⟩

end

namespace Resolver

theorem returnType_descriptors (method : MethodRef) :
    descriptors.returnType method.owner method.name method.descriptor =
      .ok (Ty.ofReturnType method.signature.returns) := by
  unfold returnType
  rw [method.reads]
  rfl

theorem chosenType_descriptors (condition : Condition) (thenValue elseValue : Expr) :
    descriptors.chosenType (.ternary condition thenValue elseValue) thenValue.type elseValue.type =
      (ExprKind.ternary condition thenValue elseValue).infer := by
  unfold chosenType
  split
  · rename_i left right first second
    split
    · rfl
    · rename_i apart
      have meet : descriptors.commonSuperclass left right = objectClass := by
        simp [commonSuperclass,meeting,chain,superclassRows,above,apart,Ne.symm apart]
      rw [meet]
      unfold ExprKind.infer
      rw [first,second]
      simp [Ty.join,apart,Ty.category]
  · rfl

theorem typeOf_descriptors (kind : ExprKind) : Yields (descriptors.typeOf kind) kind.infer.Softens := by
  have unresolved {finding : Finding} {cause : ResolveError} :
      Yields (resolved finding (.error cause)) kind.infer.Softens :=
    yields_mono yields_resolved fun type either => either.elim nofun fun same => same ▸ .unknown _
  have returned (method : MethodRef) (same : kind.infer = Ty.ofReturnType method.signature.returns) :
      Yields (resolved .unresolvedMethod (descriptors.returnType method.owner method.name method.descriptor))
        kind.infer.Softens := by
    rw [returnType_descriptors,same]
    exact yields_pure (.same _)
  cases kind with
  | staticField field => exact unresolved
  | instanceField receiver field => exact unresolved
  | freeCall call method args => exact returned method rfl
  | boundCall call receiver method args => exact returned method rfl
  | ternary condition thenValue elseValue =>
    refine yields_pure ?_
    rw [chosenType_descriptors]
    exact .same _
  | _ => exact yields_pure (.same _)

theorem descriptors_soften : descriptors.hooks.Soften := by
  intro expr fresh
  refine yields_bind (typeOf_descriptors expr.kind) fun type softer => yields_pure ⟨?_,rfl⟩
  obtain ⟨kind,note⟩ := expr
  obtain rfl : note = none := fresh.bare
  rw [Expr.annotate,Expr.type_plain,Expr.type_annotated]
  exact softer

theorem hooks_return (resolver : Resolver) : resolver.hooks.Return Unresolved where
  expr expr _ := by
    refine returns_bind ?_ (yields_any _) fun _ _ => returns_pure
    unfold typeOf
    dsimp only
    split <;> first | exact returns_pure | exact returns_resolved (by simp)
  condition _ _ := returns_pure
  block _ _ := returns_pure

end Resolver
end Untangle
