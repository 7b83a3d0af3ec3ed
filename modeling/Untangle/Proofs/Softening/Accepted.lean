import Mathlib
import Untangle.Decompile
import Untangle.Proofs.Descriptors.RoundTrip
import Untangle.Proofs.Emission.Inversion
import Untangle.Proofs.Softening.Hooks
import Untangle.Proofs.WellFormed.Emitted

namespace Untangle
open Rebuild

section
variable {body unfolded current : Block}

theorem foldFrom_accepts (settings : FoldingSettings) {left passed : Nat} {events : List Event}
    (fresh : Block.Built Expr.Fresh current) :
    ∀ diagnostic ∈ (foldFrom settings unfolded left passed events current).diagnostics,
      diagnostic.finding = .foldCapReached := by
  induction left generalizing passed events current with
  | zero => simp [foldFrom,Folded.unfinished]
  | succ left ih =>
    obtain ⟨next,folds,run,_⟩ := Block.rebuild_returns settings.hooks_soften (settings.hooks_uphold foldable_valid)
      settings.hooks_return fresh 0 trivial
    have kept := Block.rebuild_built (settings.hooks_uphold foldable_fresh) refills_fresh fresh 0 next folds run
    unfold foldFrom
    rw [run]
    cases folds with
    | zero => simp
    | succ folds => exact ih kept

theorem fold_accepts (settings : FoldingSettings) (fresh : Block.Built Expr.Fresh body) :
    ∀ diagnostic ∈ (body.fold settings).diagnostics, diagnostic.finding = .foldCapReached := by
  unfold Block.fold
  split
  · exact foldFrom_accepts settings fresh
  · simp

theorem inferTypes_accepts (fresh : Block.Built Expr.Fresh body) :
    Unresolved (body.inferTypes .descriptors).diagnostics := by
  obtain ⟨annotated,found,run,unresolved⟩ := Block.rebuild_returns Resolver.descriptors_soften
    Resolver.descriptors.hooks_uphold Resolver.descriptors.hooks_return fresh [] (by simp [Unresolved])
  unfold Block.inferTypes
  rw [run]
  exact unresolved

end

theorem structured_diagnoses {graph : BlockGraph} {settings : StructuringSettings} {result : Structured}
    (done : graph.structured settings = .ok result) :
    ∀ diagnostic ∈ result.diagnostics, diagnostic.finding = .unreachableBlock := by
  obtain ⟨survey,_,finished⟩ := BlockGraph.structured_ok done
  obtain ⟨_,_,_,_,completed⟩ := Survey.structured_completes finished
  rw [Survey.complete_diagnostics completed,List.forall_mem_map]
  exact fun _ _ => rfl

theorem CodeUnit.decompile_diagnosed {unit : CodeUnit} {resolver : Resolver} {settings : DecompileSettings}
    {result : Decompiled} (done : (unit.decompile resolver settings).1 = .ok result) :
    ∃ structured, unit.graph.structured settings.structuring = .ok structured ∧
      result.diagnostics = structured.diagnostics ++ (structured.body.fold settings.folding).diagnostics ++
        ((structured.body.fold settings.folding).body.inferTypes resolver).diagnostics := by
  obtain ⟨structured,_,_,built,rfl,rfl,rfl⟩ := decompile_ok done
  exact ⟨structured,built,rfl⟩

-- Neither a fold nor an annotation makes a node of a fresh tree fail a check that it is held to again: with
-- descriptors alone to resolve members, no stage falls back.
theorem decompile_never_rejects {unit : CodeUnit} {settings : DecompileSettings} {result : Decompiled}
    (done : (unit.decompile .descriptors settings).1 = .ok result) (fresh : unit.graph.Built Expr.Fresh) :
    ∀ diagnostic ∈ result.diagnostics, diagnostic.finding ≠ .foldFailed ∧ diagnostic.finding ≠ .inferenceFailed := by
  obtain ⟨structured,built,same⟩ := CodeUnit.decompile_diagnosed done
  have shaped := structured_built built fresh
  have folded := fold_accepts settings.folding shaped
  have inferred := inferTypes_accepts (fold_built settings.folding foldable_fresh shaped)
  intro diagnostic member
  rw [same,List.mem_append,List.mem_append] at member
  rcases member with (dropped | capped) | unresolved
  · simp [structured_diagnoses built diagnostic dropped]
  · simp [folded diagnostic capped]
  · rcases inferred diagnostic unresolved with found | found <;> simp [found]

namespace Reading

def builder : String := "java/lang/StringBuilder"
def size : Local := ⟨0,some "n",.int⟩
def text : Local := ⟨1,some "s",.string⟩
def total : Local := ⟨2,some "t",.long⟩
def create : ConstructorRef := ⟨builder,"()V",⟨[],.void⟩,MethodDescriptor.parse_void⟩
def append : MethodRef :=
  ⟨builder,"append","(I)Ljava/lang/StringBuilder;",⟨[.base .int],.value (.object builder)⟩,by cbv⟩
def toText : MethodRef :=
  ⟨builder,"toString","()Ljava/lang/String;",⟨[],.value (.object stringClass)⟩,MethodDescriptor.parse_string⟩
def limit : FieldRef := ⟨"Config","limit","J",.base .long,by decide⟩

def written : Expr := .plain (.boundCall .virtual (.plain (.new create [])) append [.var size])
def read : Expr := .plain (.boundCall .virtual written toText [])
def more : Expr := .plain (.arithmetic .add (.plain (.staticField limit)) (.literal (.long 1)))

def unit : CodeUnit :=
  ⟨"read",⟨[⟨[.assign (.var text) read,.assign (.var total) more],.ret (some (.var text))⟩],[],by decide⟩⟩

def result : Decompiled :=
  ⟨"read",[.assign ⟨.var text,some .string⟩
      ⟨.concat [⟨.literal (.string ""),some .string⟩,⟨.var size,some .int⟩],some .string⟩,
    .assign ⟨.var total,some .long⟩
      ⟨.arithmetic .add ⟨.staticField limit,some .unknown⟩ ⟨.literal (.long 1),some .long⟩,some .unknown⟩,
    .ret (some ⟨.var text,some .string⟩)],⟨[],[],[]⟩,
    [⟨.unresolvedField,(ResolveError.fieldNotFound "Config" "limit").message,none⟩]⟩


def shape : Block := [.assign (.var text) read,.assign (.var total) more,.ret (some (.var text))]
def foldedShape : Block :=
  [.assign (.var text) (.plain (.concat [.literal (.string ""),.var size])),.assign (.var total) more,
    .ret (some (.var text))]

theorem decompiled : (unit.decompile .descriptors .default).1 = .ok result := by
  have shaped : unit.graph.structureLogged DecompileSettings.default.structuring =
      (.ok ⟨shape,⟨[],[],[]⟩,[]⟩,[.structuredGraph 1 0]) := by cbv
  have folded : shape.fold DecompileSettings.default.folding =
      ⟨foldedShape,2,[],[.foldPass 1 1,.foldConverged 2]⟩ := rfl
  have inferred : foldedShape.inferTypes .descriptors = ⟨result.body,result.diagnostics,
      [.unresolvedMember (ResolveError.fieldNotFound "Config" "limit").message,.annotatedTypes 1]⟩ := by cbv
  simp only [CodeUnit.decompile,shaped,folded,inferred]
  rfl

theorem graph_fresh : unit.graph.Built Expr.Fresh := by
  have made {kind : ExprKind} (held : kind.check = .ok ()) (bare : kind.condition? = none)
      (back : ∀ call method, kind.head = .boundCall call method →
        (Ty.ofReturnType method.signature.returns).category = .reference)
      (inside : ∀ operand ∈ kind.operands, (Node.ofExpr operand).Built Expr.Fresh) :
      (Node.ofExpr (.plain kind)).Built Expr.Fresh := by
    refine Expr.built_operands.mpr ⟨⟨held,rfl,fun receiver method args called _ => ?_⟩,by simp [bare],inside⟩
    have called : kind = .boundCall .virtual receiver method args := called
    exact back .virtual method (by rw [called]; rfl)
  have reads (place : Local) : (Node.ofExpr (.var place)).Built Expr.Fresh :=
    made rfl rfl (by simp [ExprKind.head]) (by simp [ExprKind.operands])
  have field : (Node.ofExpr (.plain (.staticField limit))).Built Expr.Fresh :=
    made rfl rfl (by simp [ExprKind.head]) (by simp [ExprKind.operands])
  have one : (Node.ofExpr (.literal (.long 1))).Built Expr.Fresh :=
    made rfl rfl (by simp [ExprKind.head]) (by simp [ExprKind.operands])
  have sum : (Node.ofExpr more).Built Expr.Fresh :=
    made (by cbv) rfl (by simp [ExprKind.head]) (by simp [ExprKind.operands,field,one])
  have created : (Node.ofExpr (.plain (.new create []))).Built Expr.Fresh :=
    made rfl rfl (by simp [ExprKind.head]) (by simp [ExprKind.operands])
  have appended : (Node.ofExpr written).Built Expr.Fresh :=
    made (by cbv) rfl (by simp [ExprKind.head,append,Ty.ofReturnType,Ty.ofFieldType,Ty.category])
      (by simp [ExprKind.operands,created,reads])
  have turned : (Node.ofExpr read).Built Expr.Fresh :=
    made (by cbv) rfl (by simp [ExprKind.head,toText,Ty.ofReturnType,Ty.ofFieldType,Ty.category])
      (by simp [ExprKind.operands,appended])
  have first : (Statement.assign (.var text) read).check = .ok () := by cbv
  have second : (Statement.assign (.var total) more).check = .ok () := by cbv
  simp [BlockGraph.Built,unit,Terminator.parts,first,second,reads,sum,turned]

end Reading

theorem reading_never_rejects : (Reading.unit.decompile .descriptors .default).1 = .ok Reading.result ∧
    Reading.unit.graph.Built Expr.Fresh ∧ ∀ diagnostic ∈ Reading.result.diagnostics,
      diagnostic.finding ≠ .foldFailed ∧ diagnostic.finding ≠ .inferenceFailed :=
  ⟨Reading.decompiled,Reading.graph_fresh,decompile_never_rejects Reading.decompiled Reading.graph_fresh⟩

-- A builder that is said to give a number back would be folded into text, which no sum takes.
example : (Block.fold [.assign (.var Reading.size) (.plain (.arithmetic .add
    (.plain (.boundCall .virtual Reading.written ⟨Reading.builder,"toString","()I",⟨[],.value (.base .int)⟩,by cbv⟩ []))
      (.literal (.int 1))))] .default).diagnostics.map (·.finding) = [.foldFailed] := rfl

end Untangle
