import Untangle.Proofs.Typing.Annotating

namespace Untangle
open Rebuild

def Node.missed? (resolver : Resolver) : Node → Option Diagnostic
  | ofExpr expr => resolver.missed? expr.kind
  | _ => none

def Node.misses (resolver : Resolver) (node : Node) : List Diagnostic := node.upward.filterMap (missed? resolver)
def Block.misses (resolver : Resolver) (block : Block) : List Diagnostic := block.upward.filterMap (Node.missed? resolver)

def Reports (pass : Annotation α) (found : List Diagnostic) : Prop :=
  ∀ known, ∃ result, Rebuild.from known pass = (.ok result,found.foldl remember known)

section
variable {pass : Annotation α} {found : List Diagnostic}

theorem reports_pure {value : α} : Reports (pure value) [] := fun _ => ⟨value,rfl⟩

theorem reports_bind {next : α → Annotation β} {sure : α → Prop} {later : List Diagnostic} (first : Reports pass found)
    (known : Yields pass sure) (further : ∀ value, sure value → Reports (next value) later) :
    Reports (pass >>= next) (found ++ later) := by
  intro state
  obtain ⟨value,run⟩ := first state
  rw [from_bind,run,List.foldl_append]
  exact further value (known state value _ run) _

theorem reports_map {wrap : α → β} : Reports (wrap <$> pass) found ↔ Reports pass found := by
  refine forall_congr' fun known => ?_
  rw [map_eq_pure_bind,from_bind]
  rcases Rebuild.from known pass with ⟨cause | value,final⟩
  · simp
  · constructor
    · rintro ⟨_,same⟩
      cases same
      exact ⟨value,rfl⟩
    · rintro ⟨_,same⟩
      cases same
      exact ⟨wrap value,rfl⟩

theorem reports_mapM {pass : α → Annotation β} {found : α → List Diagnostic} {items : List α}
    (each : ∀ item ∈ items, Reports (pass item) (found item)) : Reports (items.mapM pass) (items.flatMap found) := by
  induction items with
  | nil => exact reports_pure
  | cons item rest ih =>
    rw [List.mapM_cons,List.flatMap_cons]
    refine reports_bind (each item List.mem_cons_self) (yields_any _) fun first _ => ?_
    have later := ih fun other member => each other (List.mem_cons_of_mem _ member)
    rw [← List.append_nil (rest.flatMap found)]
    exact reports_bind later (yields_any _) fun others _ => reports_pure

theorem reports_recheck {demand : Except ConstraintError Unit} {value : α} (held : demand = .ok ()) :
    Reports (recheck demand value) [] := by
  rw [held]
  exact reports_pure

end

section
variable {resolver : Resolver} {node : Node} {parts : List Node} {blocks : List Block}

theorem Block.misses_statements (block : Block) :
    block.misses resolver = block.flatMap fun statement => (Node.ofStatement statement).misses resolver :=
  List.filterMap_flatMap

theorem Node.misses_parts (node : Node) : node.misses resolver =
    node.parts.flatMap (misses resolver) ++ (node.blocks.flatMap (Block.misses resolver) ++ (node.missed? resolver).toList) := by
  have blocks (block : Block) : block.misses resolver = (block.map ofStatement).flatMap (misses resolver) := by
    rw [block.misses_statements,List.flatMap_map]
  have own : [node].filterMap (missed? resolver) = (node.missed? resolver).toList := by
    cases missed : node.missed? resolver <;> simp [missed]
  rw [misses,upward_children,List.filterMap_append,own,List.filterMap_flatMap,node.children_split,List.flatMap_append,
    List.append_assoc,funext blocks]
  rw [List.flatMap_assoc]
  rfl

theorem Node.missed_filled (node : Node) (parts : List Node) (blocks : List Block) :
    ((node.withParts parts).withBlocks blocks).missed? resolver = node.missed? resolver := by
  cases node with
  | ofExpr expr =>
    obtain ⟨kind,note⟩ := expr
    change resolver.missed? (kind.withChildren parts) = resolver.missed? kind
    unfold ExprKind.withChildren
    split <;> rfl
  | _ => rfl

theorem Resolver.hooks_report (below : ∀ child ∈ node.children, child.Throughout (Node.Noted resolver)) :
    Reports (resolver.hooks.node node) (node.missed? resolver).toList := by
  cases node with
  | ofExpr expr =>
    refine reports_map.mpr fun known => ⟨expr.annotate (resolver.referenceKind expr.kind),?_⟩
    change Rebuild.from known (resolver.typeOf expr.kind >>= _) = _
    rw [from_bind,typeOf_outcome (Node.noted_operands below)]
    rfl
  | ofCondition condition => exact reports_map.mpr reports_pure
  | ofStatement statement => exact reports_pure

theorem Block.rebuild_reports_each {block : Block} (each : ∀ statement ∈ block,
    Reports ((Node.ofStatement statement).rebuild resolver.hooks) ((Node.ofStatement statement).misses resolver)) :
    Reports (block.rebuild resolver.hooks) (block.misses resolver) := by
  rw [block.rebuild_step,block.misses_statements,← List.append_nil (block.flatMap _)]
  refine reports_bind (reports_mapM fun statement member => ?_) (yields_any _) fun _ _ => reports_pure
  exact reports_map.mp (each statement member)

theorem Node.rebuild_reports (node : Node) (typable : node.Throughout (Typable resolver)) :
    Reports (node.rebuild resolver.hooks) (node.misses resolver) := by
  induction node using Node.below with
  | step node below =>
    obtain ⟨here,ownParts,ownBlocks⟩ := throughout_parts.mp typable
    rw [node.rebuild_step,node.misses_parts]
    have typed (part : Node) : Yields (part.rebuild resolver.hooks) (Node.Typed resolver part) :=
      yields_mono (part.rebuild_carries resolver.hooks_type) fun _ both => both.1
    have within (block : Block) : Yields (block.rebuild resolver.hooks) (Block.Typed resolver block) :=
      yields_mono (block.rebuild_carries resolver.hooks_type) fun _ both => both.1
    refine reports_bind (reports_mapM fun part member => below part (part_child member) (ownParts part member))
      (yields_mapM fun part _ => typed part) fun parts typed => ?_
    have fits : Fits node.parts parts := fits_forall₂ (typed.imp fun _ _ typed => typed.sort)
    change Reports _ ([] ++ (_ ++ _))
    refine reports_bind (reports_recheck (here.held fits typed)) (yields_any _) fun _ _ => ?_
    refine reports_bind (reports_mapM fun block held => ?_) (yields_mapM fun block _ => within block) fun blocks within => ?_
    · exact Block.rebuild_reports_each fun statement member =>
        below _ (inner_child held member) (Block.throughout_statements.mp (ownBlocks block held) statement member)
    · rw [← node.missed_filled parts blocks]
      exact Resolver.hooks_report (noted_filled fits typed within)

theorem Block.rebuild_reports (block : Block) (typable : Block.Throughout (Node.Typable resolver) block) :
    Reports (block.rebuild resolver.hooks) (block.misses resolver) :=
  Block.rebuild_reports_each fun statement member =>
    (Node.ofStatement statement).rebuild_reports (Block.throughout_statements.mp typable statement member)

end

-- A diagnostic of a member that a resolver may miss. Its message tells which one it is.
def Diagnostic.Missing (diagnostic : Diagnostic) : Prop :=
  (∃ owner name, diagnostic = ⟨.unresolvedField,(ResolveError.fieldNotFound owner name).message,none⟩) ∨
    ∃ owner name descriptor,
      diagnostic = ⟨.unresolvedMethod,(ResolveError.methodNotFound owner name descriptor).message,none⟩

theorem messages_apart (owner name owner' name' descriptor : String) :
    (ResolveError.fieldNotFound owner name).message ≠ (ResolveError.methodNotFound owner' name' descriptor).message := by
  intro same
  have first := congrArg (fun text => text.toList.head?) same
  simp [ResolveError.message,ticked,String.toList_append] at first

theorem missing_told {one two : Diagnostic} (first : one.Missing) (second : two.Missing) (same : one.message = two.message) :
    one = two := by
  rcases first with ⟨_,_,rfl⟩ | ⟨_,_,_,rfl⟩ <;> rcases second with ⟨_,_,rfl⟩ | ⟨_,_,_,rfl⟩
  · exact congrArg (fun message => (⟨.unresolvedField,message,none⟩ : Diagnostic)) same
  · exact absurd same (messages_apart _ _ _ _ _)
  · exact absurd same.symm (messages_apart _ _ _ _ _)
  · exact congrArg (fun message => (⟨.unresolvedMethod,message,none⟩ : Diagnostic)) same

theorem missing_found {finding : Finding} {cause : ResolveError} {answer : Option Ty} {diagnostic : Diagnostic}
    (missed : missing? finding (found cause answer) = some diagnostic) : diagnostic = ⟨finding,cause.message,none⟩ := by
  cases answer with
  | some type => cases missed
  | none => exact (Option.some.inj missed).symm

theorem missed_missing {resolver : Resolver} {kind : ExprKind} {diagnostic : Diagnostic}
    (missed : resolver.missed? kind = some diagnostic) : diagnostic.Missing := by
  have field (ref : FieldRef) (missed : missing? .unresolvedField (resolver.fieldAnswer ref) = some diagnostic) :
      diagnostic.Missing := Or.inl ⟨ref.owner,ref.name,missing_found missed⟩
  have method (ref : MethodRef) (missed : missing? .unresolvedMethod (resolver.methodAnswer ref) = some diagnostic) :
      diagnostic.Missing := Or.inr ⟨ref.owner,ref.name,ref.descriptor,missing_found missed⟩
  cases kind with
  | staticField ref => exact field ref missed
  | instanceField _ ref => exact field ref missed
  | freeCall _ ref _ => exact method ref missed
  | boundCall _ _ ref _ => exact method ref missed
  | _ => cases missed

theorem Block.misses_missing {resolver : Resolver} {block : Block} :
    ∀ diagnostic ∈ block.misses resolver, diagnostic.Missing := by
  intro diagnostic member
  obtain ⟨node,_,missed⟩ := List.mem_filterMap.mp member
  cases node with
  | ofExpr expr => exact missed_missing missed
  | _ => cases missed

-- Messages that were there are not added again, so each of them stays where it was met first.
theorem remember_distinct (found : List Diagnostic) {known : List Diagnostic} (distinct : (known.map (·.message)).Nodup) :
    ((found.foldl remember known).map (·.message)).Nodup := by
  induction found generalizing known with
  | nil => exact distinct
  | cons diagnostic rest ih =>
    refine ih ?_
    unfold remember
    split
    · exact distinct
    · rename_i new
      rw [List.map_append]
      refine List.nodup_append.mpr ⟨distinct,by simp,?_⟩
      simpa using new

theorem remember_first {found before : List Diagnostic} (missing : ∀ diagnostic ∈ before ++ found, diagnostic.Missing) :
    found.foldl remember before.eraseDups = (before ++ found).eraseDups := by
  induction found generalizing before with
  | nil => simp
  | cons diagnostic rest ih =>
    have step : remember before.eraseDups diagnostic = (before ++ [diagnostic]).eraseDups := by
      have told (other : Diagnostic) (member : other ∈ before) : other.message = diagnostic.message ↔ other = diagnostic :=
        ⟨missing_told (missing other (by simp [member])) (missing diagnostic (by simp)),congrArg _⟩
      rw [List.eraseDups_append]
      unfold remember
      by_cases there : diagnostic ∈ before
      · rw [if_pos (by simpa using ⟨diagnostic,there,rfl⟩)]
        simp [List.removeAll,there]
      · rw [if_neg (by simpa using fun other member same => there ((told other member).mp same ▸ member))]
        simp [List.removeAll,there,List.eraseDups_cons]
    rw [List.foldl_cons,step,ih (by simpa using missing),List.append_assoc]
    rfl

end Untangle
