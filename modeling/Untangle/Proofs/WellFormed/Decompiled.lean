import Mathlib
import Untangle.Proofs.Descriptors.RoundTrip
import Untangle.Proofs.WellFormed.Emitted
import Untangle.Proofs.WellFormed.Passes

namespace Untangle

theorem CodeUnit.decompile_stages {unit : CodeUnit} {resolver : Resolver} {settings : DecompileSettings}
    {result : Decompiled} (done : (unit.decompile resolver settings).1 = .ok result) :
    ∃ structured, unit.graph.structured settings.structuring = .ok structured ∧
      result.body = ((structured.body.fold settings.folding).body.inferTypes resolver).body := by
  obtain ⟨structured,_,_,built,rfl,rfl,rfl⟩ := decompile_ok done
  exact ⟨structured,built,rfl⟩

-- Whatever a resolver says of the members that a unit uses, and however folding and annotating end, every
-- node of the result passes the check of its own constructor again, with the types its operands have there.
theorem decompiled_nodes_valid {unit : CodeUnit} {resolver : Resolver} {settings : DecompileSettings}
    {result : Decompiled} (done : (unit.decompile resolver settings).1 = .ok result) (formed : unit.graph.WellFormed) :
    ∀ node ∈ Block.walk result.body, node.check = .ok () := by
  obtain ⟨structured,built,body⟩ := CodeUnit.decompile_stages done
  rw [body]
  exact inferTypes_wellFormed resolver (fold_wellFormed settings.folding (structured_wellFormed built formed))

namespace Capping

def size : Local := ⟨0,some "n",.int⟩
def cap : Local := ⟨1,some "c",.long⟩
def limit : FieldRef := ⟨"Config","limit","I",.base .int,FieldType.parse_int⟩
def small : Condition := .compare .lt (.var size) (.literal (.int 10))

-- The field is declared as an `int`; the table takes it for a `long`.
def unit : CodeUnit :=
  ⟨"cap",⟨[⟨[],.branch small 1 2⟩,⟨[.assign (.var cap) (.plain (.staticField limit))],.goto 3⟩,
    ⟨[.assign (.var cap) (.literal (.long 0))],.goto 3⟩,⟨[],.ret (some (.var cap))⟩],[],by decide⟩⟩

def resolver : Resolver := .tables [(⟨"Config","limit"⟩,.long)] [] []

def chosen : Expr :=
  ⟨.ternary (.compare .lt ⟨.var size,some .int⟩ ⟨.literal (.int 10),some .int⟩) ⟨.staticField limit,some .long⟩
    ⟨.literal (.long 0),some .long⟩,some .long⟩

def result : Decompiled :=
  ⟨"cap",[.assign ⟨.var cap,some .long⟩ chosen,.ret (some ⟨.var cap,some .long⟩)],⟨[],[],[]⟩,[]⟩

theorem decompiled : (unit.decompile resolver .default).1 = .ok result := by cbv

theorem graph_wellFormed : unit.graph.WellFormed := by
  have leaf {kind : ExprKind} (held : kind.check = .ok ()) (bare : kind.children = []) :
      (Node.ofExpr (.plain kind)).Built Expr.Valid :=
    Node.built_children.mpr ⟨held,by simp [Node.children,Expr.plain,bare]⟩
  have read (variable_ : Local) : (Node.ofExpr (.var variable_)).Built Expr.Valid := leaf rfl rfl
  have constant (value : Literal) : (Node.ofExpr (.literal value)).Built Expr.Valid := leaf rfl rfl
  have field : (Node.ofExpr (.plain (.staticField limit))).Built Expr.Valid := leaf rfl rfl
  have fits : (Statement.assign (.var cap) (.plain (.staticField limit))).check = .ok () := by cbv
  have zero : (Statement.assign (.var cap) (.literal (.long 0))).check = .ok () := by cbv
  have tested : small.check = .ok () := by cbv
  have test : (Node.ofCondition small).Built Expr.Valid := Condition.built_compare.mpr ⟨tested,read _,constant _⟩
  simp only [BlockGraph.wellFormed_built,BlockGraph.Built,unit]
  simp [Terminator.parts,test,fits,zero,read,constant,field]

end Capping

theorem capping_nodes_valid : (Capping.unit.decompile Capping.resolver .default).1 = .ok Capping.result ∧
    Capping.unit.graph.WellFormed ∧ ∀ node ∈ Block.walk Capping.result.body, node.check = .ok () :=
  ⟨Capping.decompiled,Capping.graph_wellFormed,decompiled_nodes_valid Capping.decompiled Capping.graph_wellFormed⟩

end Untangle
