import Untangle.Proofs.Descriptors.RoundTrip
import Untangle.Proofs.WellFormed.Checked
import Untangle.Tree.Operands

namespace Untangle

section
variable {param : String} {constraint : Constraint} {new : Expr} {first second : Except ConstraintError Unit}

theorem expectBoth_first (held : second = .ok ()) : expectBoth first second = first := by
  rw [held]
  cases first <;> rfl

theorem expectBoth_second (held : first = .ok ()) : expectBoth first second = second := by
  rw [held]
  rfl

theorem expectEach_set {items : List Expr} {index : Nat} (held : expectEach param constraint items = .ok ())
    (inside : index < items.length) :
    expectEach param constraint (items.set index new) = expect param constraint new := by
  induction items generalizing index with
  | nil => cases inside
  | cons item rest ih =>
    unfold expectEach at held
    split at held
    · cases held
    · rename_i here
      cases index with
      | zero =>
        rw [List.set_cons_zero,expectEach,held]
        cases expect param constraint new <;> rfl
      | succ index =>
        rw [List.set_cons_succ,expectEach,here]
        exact ih held (Nat.lt_of_succ_lt_succ inside)

theorem expectParams_set {types : List FieldType} {args : List Expr} {index : Nat} {declared : FieldType}
    (held : expectParams param types args = .ok ()) (inside : index < args.length)
    (at_ : types[index]? = some declared) :
    expectParams param types (args.set index new) = expect param (paramConstraint declared) new := by
  induction args generalizing types index with
  | nil => cases inside
  | cons arg rest ih =>
    cases types with
    | nil => cases at_
    | cons type types =>
      unfold expectParams at held
      split at held
      · cases held
      · rename_i here
        cases index with
        | zero =>
          cases at_
          rw [List.set_cons_zero,expectParams,held]
          cases expect param (paramConstraint declared) new <;> rfl
        | succ index =>
          rw [List.set_cons_succ,expectParams,here]
          exact ih held (Nat.lt_of_succ_lt_succ inside) at_

theorem expectArgs_set {signature : MethodDescriptor} {args : List Expr} {index : Nat}
    (held : expectArgs "args" signature args = .ok ()) (inside : index < args.length) :
    expectArgs "args" signature (args.set index new) = ExprKind.expectParam signature index new := by
  obtain ⟨count,each⟩ := expectArgs_ok.mp held
  have declared := List.getElem?_eq_getElem (count ▸ inside)
  rw [expectArgs,List.length_set,if_pos count,expectParams_set each inside declared,ExprKind.expectParam,declared]

end

theorem FieldRef.make_self (field : FieldRef) :
    FieldRef.make field.owner field.name field.descriptor = .ok field := by
  unfold FieldRef.make
  split
  · rename_i cause failed
    cases field.reads.symm.trans failed
  · rename_i type reads
    cases field.reads.symm.trans reads
    rfl

theorem MethodRef.make_self (method : MethodRef) :
    MethodRef.make method.owner method.name method.descriptor = .ok method := by
  unfold MethodRef.make
  split
  · rename_i cause failed
    cases method.reads.symm.trans failed
  · rename_i signature reads
    cases method.reads.symm.trans reads
    rfl

theorem ConstructorRef.make_self (constructor : ConstructorRef) :
    ConstructorRef.make constructor.owner constructor.descriptor = .ok constructor := by
  unfold ConstructorRef.make
  split
  · rename_i cause failed
    cases constructor.reads.symm.trans failed
  · rename_i signature reads
    cases constructor.reads.symm.trans reads
    rfl

namespace Expr

def anew : ExprKind → List Expr → Option (Except ConstraintError Expr)
  | .var own, [] => some (.ok (var own))
  | .literal value, [] => some (.ok (literal value))
  | .arithmetic op _ _, [left,right] => some (make (.arithmetic op left right))
  | .negate _, [operand] => some (make (.negate operand))
  | .numberCompare _ _, [left,right] => some (make (.numberCompare left right))
  | .instanceOf _ type, [value] => some (make (.instanceOf value type))
  | .cast target _, [value] => some (make (.cast target value))
  | .staticField known, [] => some (field none known.owner known.name known.descriptor)
  | .instanceField _ known, [receiver] => some (field (some receiver) known.owner known.name known.descriptor)
  | .element _ _, [array,index] => some (make (.element array index))
  | .arrayLength _, [array] => some (make (.arrayLength array))
  | .freeCall way method _, args =>
    some (call (.free way) none method.owner method.name method.descriptor args)
  | .boundCall way _ method _, receiver :: args =>
    some (call (.bound way) (some receiver) method.owner method.name method.descriptor args)
  | .new constructor _, args => some (new constructor.owner constructor.descriptor args)
  | .newArray component _, [size] => some (newArray component size none)
  | .filledArray component _ _, size :: values => some (newArray component size (some values))
  | .ternary condition _ _, [thenValue,elseValue] => some (make (.ternary condition thenValue elseValue))
  | .concat _, parts => some (make (.concat parts))
  | _, _ => none

theorem field_again (receiver : Expr) (known : FieldRef) :
    field (some receiver) known.owner known.name known.descriptor = make (.instanceField receiver known) := by
  simp only [field,known.make_self,make,ExprKind.check]
  cases expect "receiver" .reference receiver <;> rfl

theorem call_free_again (way : FreeCall) (method : MethodRef) (args : List Expr) :
    call (.free way) none method.owner method.name method.descriptor args = make (.freeCall way method args) := by
  rw [call,method.make_self]
  rfl

theorem call_bound_again (way : BoundCall) (receiver : Expr) (method : MethodRef) (args : List Expr) :
    call (.bound way) (some receiver) method.owner method.name method.descriptor args =
      make (.boundCall way receiver method args) := by
  rw [call,method.make_self]
  rfl

theorem new_again (constructor : ConstructorRef) (args : List Expr) :
    new constructor.owner constructor.descriptor args = make (.new constructor args) := by
  rw [new,constructor.make_self]
  rfl

end Expr

namespace ExprKind

-- What a node is with an operand exchanged, next to the node built over the operands it then has.
structure Exchanged (kind : ExprKind) (index : Nat) (new : Expr) (changed : ExprKind) : Prop where
  operands : changed.operands = kind.operands.set index new
  condition : changed.condition? = kind.condition?
  built : Expr.anew kind (kind.operands.set index new) = some (Expr.make changed)
  admitted : kind.check = .ok () → kind.admits index new = changed.check

variable {kind : ExprKind} {index : Nat} {old new : Expr}

theorem swap_past (past : kind.operands.length ≤ index) : kind.swap index new = none := by
  cases kind <;> rcases index with _ | _ | index <;> simp_all [operands,swap,swapAt]

theorem swapAt_held {items : List Expr} (held : items[index]? = some old) :
    swapAt items index new = some (old,items.set index new) := by
  rw [swapAt,held]
  rfl

theorem swap_held (held : kind.operands[index]? = some old) :
    ∃ changed, kind.swap index new = some (old,changed) ∧ Exchanged kind index new changed := by
  cases kind with
  | var own => cases held
  | literal value => cases held
  | arithmetic op left right =>
    rcases index with _ | _ | index <;> cases held
    · exact ⟨_,rfl,rfl,rfl,rfl,fun _ => rfl⟩
    · exact ⟨_,rfl,rfl,rfl,rfl,fun _ => rfl⟩
  | negate operand =>
    rcases index with _ | index <;> cases held
    exact ⟨_,rfl,rfl,rfl,rfl,fun _ => rfl⟩
  | numberCompare left right =>
    rcases index with _ | _ | index <;> cases held
    · exact ⟨_,rfl,rfl,rfl,rfl,fun valid => (expectBoth_first (expectBoth_ok.mp valid).2).symm⟩
    · exact ⟨_,rfl,rfl,rfl,rfl,fun valid => (expectBoth_second (expectBoth_ok.mp valid).1).symm⟩
  | instanceOf value type =>
    rcases index with _ | index <;> cases held
    exact ⟨_,rfl,rfl,rfl,rfl,fun valid => (expectBoth_first (expectBoth_ok.mp valid).2).symm⟩
  | cast target value =>
    rcases index with _ | index <;> cases held
    exact ⟨_,rfl,rfl,rfl,rfl,fun _ => rfl⟩
  | staticField field => cases held
  | instanceField receiver field =>
    rcases index with _ | index <;> cases held
    exact ⟨_,rfl,rfl,rfl,congrArg some (Expr.field_again new field),fun _ => rfl⟩
  | element array position =>
    rcases index with _ | _ | index <;> cases held
    · exact ⟨_,rfl,rfl,rfl,rfl,fun valid => (expectBoth_first (expectBoth_ok.mp valid).2).symm⟩
    · exact ⟨_,rfl,rfl,rfl,rfl,fun valid => (expectBoth_second (expectBoth_ok.mp valid).1).symm⟩
  | arrayLength array =>
    rcases index with _ | index <;> cases held
    exact ⟨_,rfl,rfl,rfl,rfl,fun _ => rfl⟩
  | freeCall way method args =>
    have held : args[index]? = some old := held
    have inside := (List.getElem?_eq_some_iff.mp held).1
    refine ⟨.freeCall way method (args.set index new),?_,rfl,rfl,congrArg some (Expr.call_free_again ..),?_⟩
    · rw [swap,swapAt_held held]
      rfl
    · exact fun valid => (expectArgs_set valid inside).symm
  | boundCall way receiver method args =>
    rcases index with _ | index
    · cases held
      exact ⟨_,rfl,rfl,rfl,congrArg some (Expr.call_bound_again ..),
        fun valid => (expectBoth_first (expectBoth_ok.mp valid).2).symm⟩
    · have held : args[index]? = some old := held
      have inside := (List.getElem?_eq_some_iff.mp held).1
      refine ⟨.boundCall way receiver method (args.set index new),?_,rfl,rfl,
        congrArg some (Expr.call_bound_again ..),fun valid => ?_⟩
      · rw [swap,swapAt_held held]
        rfl
      · obtain ⟨first,rest⟩ := expectBoth_ok.mp valid
        exact ((expectBoth_second first).trans (expectArgs_set rest inside)).symm
  | new constructor args =>
    have held : args[index]? = some old := held
    have inside := (List.getElem?_eq_some_iff.mp held).1
    refine ⟨.new constructor (args.set index new),?_,rfl,rfl,congrArg some (Expr.new_again ..),?_⟩
    · rw [swap,swapAt_held held]
      rfl
    · exact fun valid => (expectArgs_set valid inside).symm
  | newArray component size =>
    rcases index with _ | index <;> cases held
    exact ⟨_,rfl,rfl,rfl,rfl,fun _ => rfl⟩
  | filledArray component size values =>
    rcases index with _ | index
    · cases held
      exact ⟨_,rfl,rfl,rfl,rfl,fun valid => (expectBoth_first (expectBoth_ok.mp valid).2).symm⟩
    · have held : values[index]? = some old := held
      have inside := (List.getElem?_eq_some_iff.mp held).1
      refine ⟨.filledArray component size (values.set index new),?_,rfl,rfl,rfl,fun valid => ?_⟩
      · rw [swap,swapAt_held held]
        rfl
      · obtain ⟨first,rest⟩ := expectBoth_ok.mp valid
        exact ((expectBoth_second first).trans (expectEach_set rest inside)).symm
  | ternary condition thenValue elseValue =>
    rcases index with _ | _ | index <;> cases held
    · exact ⟨_,rfl,rfl,rfl,rfl,fun _ => rfl⟩
    · exact ⟨_,rfl,rfl,rfl,rfl,fun _ => rfl⟩
  | concat parts =>
    have held : parts[index]? = some old := held
    have inside := (List.getElem?_eq_some_iff.mp held).1
    refine ⟨.concat (parts.set index new),?_,rfl,rfl,rfl,fun valid => (expectEach_set valid inside).symm⟩
    rw [swap,swapAt_held held]
    rfl

end ExprKind

namespace Expr
variable {expr old : Expr} {index : Nat}

theorem anew_own (kind : ExprKind) : anew kind kind.operands = some (make kind) := by
  cases kind with
  | staticField known => exact congrArg some (by rw [field,known.make_self]; rfl)
  | instanceField receiver known => exact congrArg some (field_again receiver known)
  | freeCall way method args => exact congrArg some (call_free_again way method args)
  | boundCall way receiver method args => exact congrArg some (call_bound_again way receiver method args)
  | new constructor args => exact congrArg some (new_again constructor args)
  | _ => rfl

theorem replaceOperand_past (past : expr.operands.length ≤ index) (new : Expr) :
    expr.replaceOperand index new = .error (.operandIndex expr.kind.name index) := by
  rw [replaceOperand,ExprKind.swap_past past]

theorem replaceOperand_held (valid : expr.Valid) (held : expr.operand? index = some old) (new : Expr) :
    ∃ changed, ExprKind.Exchanged expr.kind index new changed ∧
      expr.replaceOperand index new = (make changed).map fun built => (old,⟨built.kind,expr.note⟩) := by
  obtain ⟨changed,swapped,exchanged⟩ := ExprKind.swap_held held
  refine ⟨changed,exchanged,?_⟩
  rw [replaceOperand,swapped]
  dsimp only
  rw [exchanged.admitted valid,make]
  cases changed.check <;> rfl

-- Past its operands a node refuses a newcomer. Elsewhere it takes or refuses it as a node of the kind built over
-- the operands with the newcomer among them would be, and is that node then, with its own annotation.
theorem replaceOperand_exact (valid : expr.Valid) (index : Nat) (new : Expr) :
    anew expr.kind expr.operands = some (.ok (plain expr.kind)) ∧
      (expr.operands.length ≤ index →
        expr.replaceOperand index new = .error (.operandIndex expr.kind.name index)) ∧
      (∀ old, expr.operand? index = some old → ∃ fresh,
        anew expr.kind (expr.operands.set index new) = some fresh ∧
          expr.replaceOperand index new = fresh.map fun built => (old,⟨built.kind,expr.note⟩)) ∧
      ∀ old changed, expr.replaceOperand index new = .ok (old,changed) →
        expr.operand? index = some old ∧ changed.operand? index = some new ∧
          (∀ other, other ≠ index → changed.operand? other = expr.operand? other) ∧
          changed.kind.condition? = expr.kind.condition? ∧ changed.note = expr.note := by
  refine ⟨?_,fun past => replaceOperand_past past new,?_,?_⟩
  · rw [operands,anew_own,make,valid]
    rfl
  · intro old held
    obtain ⟨changed,exchanged,replaced⟩ := replaceOperand_held valid held new
    exact ⟨_,exchanged.built,replaced⟩
  · intro old changed replaced
    rcases Nat.lt_or_ge index expr.operands.length with within | past
    · have held := List.getElem?_eq_getElem within
      obtain ⟨kind,exchanged,again⟩ := replaceOperand_held valid held new
      rw [again,make] at replaced
      cases checked : kind.check with
      | error cause =>
        rw [checked] at replaced
        cases replaced
      | ok _ =>
        rw [checked] at replaced
        cases replaced
        refine ⟨held,?_,fun other apart => ?_,exchanged.condition,rfl⟩
        · exact (congrArg (·[index]?) exchanged.operands).trans (List.getElem?_set_self within)
        · exact (congrArg (·[other]?) exchanged.operands).trans (List.getElem?_set_ne apart.symm)
    · rw [replaceOperand_past past] at replaced
      cases replaced

namespace Offer

def offer : MethodRef := ⟨"Queue","offer","(I)V",⟨[.base .int],.void⟩,MethodDescriptor.parse_int_void⟩
def call : Expr := ⟨.boundCall .virtual (.var ⟨0,none,.object "Queue"⟩) offer [literal (.int 1)],some .unknown⟩

end Offer

-- The receiver counts as the first operand, so that a call of one argument refuses a truth value at the second.
theorem offer_operands : Offer.call.Valid ∧ Offer.call.operand? 1 = some (literal (.int 1)) ∧
    Offer.call.replaceOperand 1 (literal (.boolean true)) = .error (.category "args" .numeric .boolean) := by
  have valid : Offer.call.Valid := by cbv
  obtain ⟨_,_,inside,_⟩ := replaceOperand_exact valid 1 (literal (.boolean true))
  obtain ⟨fresh,built,replaced⟩ := inside (literal (.int 1)) rfl
  have refused : anew Offer.call.kind (Offer.call.operands.set 1 (literal (.boolean true))) =
      some (.error (.category "args" .numeric .boolean)) :=
    (congrArg some (call_bound_again ..)).trans (by cbv)
  rw [Option.some.inj (built.symm.trans refused)] at replaced
  exact ⟨valid,rfl,replaced⟩

end Expr
end Untangle
