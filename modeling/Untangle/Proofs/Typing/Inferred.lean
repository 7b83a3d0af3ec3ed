import Mathlib
import Untangle.Proofs.Descriptors.RoundTrip
import Untangle.Proofs.Typing.Misses
import Untangle.Proofs.WellFormed.Passes

namespace Untangle
open Rebuild

-- The same expression with something else noted on it, or nothing.
inductive Node.Renoted : Node → Node → Prop where
  | mk (kind : ExprKind) (note note' : Option Ty) : Renoted (.ofExpr ⟨kind,note⟩) (.ofExpr ⟨kind,note'⟩)

def Block.Renoted : Block → Block → Prop := Relation.EqvGen (Block.Inside Node.Renoted)

section
variable {resolver : Resolver} {body annotated : Block} {found : List Diagnostic}

theorem Node.Renoted.sort (old new : Node) (renoted : Node.Renoted old new) : new.sort = old.sort := by
  cases renoted
  rfl

-- An annotation is written over, so a rebuild does not see what it was.
theorem Resolver.hooks_overwrite (old new : Node) (renoted : Node.Renoted old new) : resolver.hooks.Agree old new := by
  obtain ⟨kind,note,note'⟩ := renoted
  unfold Hooks.Agree
  rw [Node.rebuild,Node.rebuild,Expr.rebuild,Expr.rebuild]
  rfl

theorem Resolver.hooks_again (node : Node) : Yields (resolver.hooks.node node) (resolver.hooks.Agree node) := by
  cases node with
  | ofExpr expr =>
    obtain ⟨kind,note⟩ := expr
    refine yields_map.mpr (yields_after fun type => yields_pure ?_)
    exact hooks_overwrite _ _ (.mk kind note (some type))
  | ofCondition condition => exact yields_map.mpr (yields_pure (resolver.hooks.agree_refl _))
  | ofStatement statement => exact yields_pure (resolver.hooks.agree_refl _)

theorem Resolver.hooks_carry_agreement (resolver : Resolver) :
    resolver.hooks.Carry resolver.hooks.Agree resolver.hooks.AgreeOn where
  node fits each _ inside :=
    yields_mono (hooks_again _) fun _ same => same.trans (Node.rebuild_agrees fits each inside)
  block each := yields_pure (Block.rebuild_agrees each)

theorem inferTypes_done (run : Rebuild.from [] (body.rebuild resolver.hooks) = (.ok annotated,found)) :
    body.inferTypes resolver =
      ⟨annotated,found,(found.map fun diagnostic => .unresolvedMember diagnostic.message) ++ [.annotatedTypes found.length]⟩ := by
  unfold Block.inferTypes
  rw [run]

theorem inferTypes_agree {other : Block} (agree : resolver.hooks.AgreeOn body other)
    (run : Rebuild.from [] (body.rebuild resolver.hooks) = (.ok annotated,found)) :
    other.inferTypes resolver = body.inferTypes resolver := by
  have run' := outcome_some.mp ((congrFun agree []).trans (outcome_some.mpr run))
  rw [inferTypes_done run,inferTypes_done run']

theorem inferTypes_failed {cause : ConstraintError}
    (run : Rebuild.from [] (body.rebuild resolver.hooks) = (.error cause,found)) :
    (body.inferTypes resolver).body = body ∧
      ∃ diagnostic ∈ (body.inferTypes resolver).diagnostics, diagnostic.finding = .inferenceFailed := by
  unfold Block.inferTypes
  rw [run]
  exact ⟨rfl,_,List.mem_append_right _ (List.mem_singleton.mpr rfl),rfl⟩

theorem Diagnostic.Missing.finding {diagnostic : Diagnostic} (missing : diagnostic.Missing) :
    diagnostic.finding ≠ .inferenceFailed := by
  rcases missing with ⟨_,_,rfl⟩ | ⟨_,_,_,rfl⟩ <;> exact nofun

theorem Block.misses_remembered (resolver : Resolver) (body : Block) :
    (body.misses resolver).foldl remember [] = (body.misses resolver).eraseDups :=
  @remember_first _ [] Block.misses_missing

theorem Block.rebuild_typable (typable : ∀ node ∈ Block.walk body, node.Typable resolver) :
    ∃ annotated, Rebuild.from [] (body.rebuild resolver.hooks) = (.ok annotated,(body.misses resolver).eraseDups) ∧
      Block.Typed resolver body annotated := by
  obtain ⟨annotated,run⟩ := body.rebuild_reports typable []
  rw [body.misses_remembered resolver] at run
  exact ⟨annotated,run,(body.rebuild_carries resolver.hooks_type [] _ _ run).1⟩

theorem Block.rebuild_untypable (formed : Block.WellFormed body)
    (apart : ¬∀ node ∈ Block.walk body, node.Typable resolver) :
    ∃ cause found, Rebuild.from [] (body.rebuild resolver.hooks) = (.error cause,found) := by
  rcases run : Rebuild.from [] (body.rebuild resolver.hooks) with ⟨cause | annotated,found⟩
  · exact ⟨cause,found,rfl⟩
  · exact absurd ((body.rebuild_carries resolver.hooks_type [] annotated found run).2 formed) apart

end

-- Inference is a typing. It goes through exactly where every node passes its check with the types that its
-- operands have by reference. Then it notes these types, whatever was noted before, reports what the resolver
-- misses, each of it once and from the bottom up, and comes to the same again. Else it leaves the body alone.
theorem inference_is_typing (resolver : Resolver) {body : Block} (formed : Block.WellFormed body) :
    Block.same (body.inferTypes resolver).body body = true ∧
    ((∀ diagnostic ∈ (body.inferTypes resolver).diagnostics, diagnostic.finding ≠ .inferenceFailed) ↔
      ∀ node ∈ Block.walk body, node.Typable resolver) ∧
    ((∀ node ∈ Block.walk body, node.Typable resolver) →
      (∀ node ∈ Block.walk (body.inferTypes resolver).body, node.Noted resolver) ∧
      (∀ other, Block.Renoted body other → other.inferTypes resolver = body.inferTypes resolver) ∧
      (body.inferTypes resolver).diagnostics = (body.misses resolver).eraseDups ∧
      ((body.inferTypes resolver).diagnostics.map (·.message)).Nodup ∧
      (body.inferTypes resolver).body.inferTypes resolver = body.inferTypes resolver) ∧
    ((¬∀ node ∈ Block.walk body, node.Typable resolver) → (body.inferTypes resolver).body = body) := by
  by_cases typable : ∀ node ∈ Block.walk body, node.Typable resolver
  · obtain ⟨annotated,run,typed⟩ := Block.rebuild_typable typable
    have quiet : ∀ diagnostic ∈ (body.misses resolver).eraseDups, diagnostic.finding ≠ .inferenceFailed :=
      fun diagnostic member => (Block.misses_missing diagnostic (List.mem_eraseDups.mp member)).finding
    have agree : resolver.hooks.AgreeOn body annotated := body.rebuild_carries resolver.hooks_carry_agreement [] _ _ run
    have again := inferTypes_agree agree run
    have exchanged (other : Block) (renoted : Block.Renoted body other) :
        other.inferTypes resolver = body.inferTypes resolver :=
      inferTypes_agree (Block.rebuild_exchanged Node.Renoted.sort Resolver.hooks_overwrite renoted) run
    have distinct : ((body.misses resolver).eraseDups.map (·.message)).Nodup :=
      body.misses_remembered resolver ▸ remember_distinct _ List.nodup_nil
    rw [inferTypes_done run] at exchanged again ⊢
    exact ⟨Block.same_iff.mpr typed.erased,iff_of_true quiet typable,
      fun _ => ⟨typed.noted,exchanged,rfl,distinct,again⟩,fun apart => absurd typable apart⟩
  · obtain ⟨cause,found,run⟩ := Block.rebuild_untypable formed typable
    obtain ⟨same,diagnostic,member,failed⟩ := inferTypes_failed run
    rw [same]
    exact ⟨Block.same_equivalence.refl body,iff_of_false (fun quiet => quiet diagnostic member failed) typable,
      fun known => absurd known typable,fun _ => rfl⟩

namespace Stale

def count : Local := ⟨0,some "n",.int⟩
def limit : FieldRef := ⟨"Config","limit","I",.base .int,FieldType.parse_int⟩
def refresh : MethodRef := ⟨"Config","refresh","()V",⟨[],.void⟩,MethodDescriptor.parse_void⟩
def call : Statement := .expr (.plain (.freeCall .static refresh []))

-- The field was taken for a `long` before, and the table has it as a `short`.
def body (note : Option Ty) : Block :=
  [call,.whileLoop 0 (.compare .lt (.var count) ⟨.staticField limit,note⟩) [call,.increment count 1]]

def resolver : Resolver := .tables [(⟨"Config","limit"⟩,.primitive .short)] [] []

def refreshed : Statement := .expr ⟨.freeCall .static refresh [],some .unknown⟩
def annotated : Block :=
  [refreshed,.whileLoop 0 (.compare .lt ⟨.var count,some .int⟩ ⟨.staticField limit,some (.primitive .short)⟩)
    [refreshed,.increment count 1]]

def missing : Diagnostic := ⟨.unresolvedMethod,(ResolveError.methodNotFound "Config" "refresh" "()V").message,none⟩

theorem formed (note : Option Ty) (number : (Condition.compare .lt (.var count) ⟨.staticField limit,note⟩).check = .ok ()) :
    Block.WellFormed (body note) := by
  have leaf {kind : ExprKind} {note : Option Ty} (held : kind.check = .ok ()) (bare : kind.children = []) :
      (Node.ofExpr ⟨kind,note⟩).Built Expr.Valid := Node.built_children.mpr ⟨held,by simp [Node.children,bare]⟩
  have called : (Node.ofStatement call).Built Expr.Valid :=
    Statement.built_iff.mpr ⟨rfl,by simpa [call,Statement.parts,Expr.plain] using leaf rfl rfl,by simp [call,Statement.childBlocks]⟩
  have counted : (Node.ofStatement (.increment count 1)).Built Expr.Valid :=
    Statement.built_iff.mpr ⟨rfl,by simp [Statement.parts],by simp [Statement.childBlocks]⟩
  have tested := Condition.built_compare.mpr ⟨number,leaf rfl rfl,leaf rfl rfl⟩
  have loop : (Node.ofStatement (.whileLoop 0 (.compare .lt (.var count) ⟨.staticField limit,note⟩)
      [call,.increment count 1])).Built Expr.Valid :=
    Statement.built_iff.mpr ⟨rfl,by simpa [Statement.parts] using tested,by simp [Statement.childBlocks,called,counted]⟩
  rw [Block.wellFormed_built]
  simp [body,called,loop]

theorem renoted : Block.Renoted (body (some .long)) (body none) := by
  have field : Node.Inside Node.Renoted (.ofExpr ⟨.staticField limit,some .long⟩) (.ofExpr ⟨.staticField limit,none⟩) :=
    .here (.mk _ _ _)
  have test := @Node.Inside.part _ (.ofCondition (.compare .lt (.var count) ⟨.staticField limit,some .long⟩)) _ _
    [.ofExpr (.var count)] [] rfl field
  have loop := @Node.Inside.part _ (.ofStatement (.whileLoop 0
    (.compare .lt (.var count) ⟨.staticField limit,some .long⟩) [call,.increment count 1])) _ _ [] [] rfl test
  exact .rel _ _ (.at [call] [] loop)

end Stale

theorem stale_notes_replaced : Block.WellFormed (Stale.body (some .long)) ∧
    (∀ node ∈ Block.walk (Stale.body (some .long)), node.Typable Stale.resolver) ∧
    ((Stale.body none).inferTypes Stale.resolver).body = Stale.annotated ∧
    ((Stale.body none).inferTypes Stale.resolver).diagnostics = [Stale.missing] ∧
    Stale.annotated.inferTypes Stale.resolver = (Stale.body none).inferTypes Stale.resolver := by
  have formed := Stale.formed (some .long) (by cbv)
  have annotated : ((Stale.body (some .long)).inferTypes Stale.resolver).body = Stale.annotated := by cbv
  have found : ((Stale.body (some .long)).inferTypes Stale.resolver).diagnostics = [Stale.missing] := by cbv
  obtain ⟨_,quiet,noted,_⟩ := inference_is_typing Stale.resolver formed
  have typable : ∀ node ∈ Block.walk (Stale.body (some .long)), node.Typable Stale.resolver := by
    refine quiet.mp ?_
    rw [found]
    intro diagnostic member
    cases List.mem_singleton.mp member
    decide
  obtain ⟨_,anyNotes,_,_,again⟩ := noted typable
  have same := anyNotes _ Stale.renoted
  rw [annotated] at again
  refine ⟨formed,typable,?_,?_,again.trans same.symm⟩
  · rw [same,annotated]
  · rw [same,found]

end Untangle
