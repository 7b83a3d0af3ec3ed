import Mathlib.Data.List.Induction
import Untangle.Proofs.Emission.Shapes

namespace Untangle

-- A tree that tells where its parts come from: where a block begins, which block a statement is taken from, the
-- header and latch of a loop that tests last, the range of a `try` and the handlers of its clauses.
mutual
inductive Laid where
  | begins (block : BlockId)
  | plain (block : BlockId) (statement : Statement)
  | jump (brk : Break)
  | branch (condition : Condition) (thenPart : List Laid) (elsePart : Option (List Laid))
  | whileLoop (id : BreakableId) (condition : Condition) (body : List Laid)
  | doWhile (id : BreakableId) (header latch : BlockId) (condition : Condition) (body : List Laid)
  | forLoop (id : BreakableId) (start : Option (BlockId × Statement)) (condition : Condition)
      (update : Option (BlockId × Statement)) (body : List Laid)
  | switch (id : BreakableId) (discriminant : Expr) (arms : List LaidArm)
  | tryCatch (range : BlockId × BlockId) (body : List Laid) (clauses : List LaidClause)
structure LaidArm where
  labels : List Int32
  body : List Laid
structure LaidClause where
  types : List String
  handler : BlockId
  body : List Laid
end

abbrev Layout := List Laid

mutual
def Laid.erase : Laid → Block
  | .begins _ => []
  | .plain _ statement => [statement]
  | .jump brk => [.jump brk]
  | .branch condition thenPart none => [.branch condition (erased thenPart) none]
  | .branch condition thenPart (some elsePart) => [.branch condition (erased thenPart) (some (erased elsePart))]
  | .whileLoop id condition body => [.whileLoop id condition (erased body)]
  | .doWhile id _ _ condition body => [.doWhile id condition (erased body)]
  | .forLoop id start condition update body =>
    [.forLoop id (start.map (·.2)) condition (update.map (·.2)) (erased body)]
  | .switch id discriminant arms => [.switch id discriminant (erasedArms arms)]
  | .tryCatch _ body clauses => [.tryCatch (erased body) (erasedClauses clauses)]
def erased : List Laid → Block
  | [] => []
  | part :: rest => part.erase ++ erased rest
def erasedArms : List LaidArm → List SwitchArm
  | [] => []
  | ⟨labels,body⟩ :: rest => ⟨labels,erased body⟩ :: erasedArms rest
def erasedClauses : List LaidClause → List CatchClause
  | [] => []
  | ⟨types,_,body⟩ :: rest => ⟨types,erased body⟩ :: erasedClauses rest
end

structure Guard where
  range : BlockId × BlockId
  clauses : List LaidClause

inductive Part where
  | begins (block : BlockId)
  | plain (block : BlockId) (statement : Statement)
  | guard (guard : Guard)
  | doWhile (id : BreakableId) (header latch : BlockId) (body : Layout)

-- A part with what guards it, innermost first. A clause is not guarded by its own `try`.
structure Item where
  around : List Guard
  part : Part

def Item.inside (guard : Guard) (item : Item) : Item := {item with around:=item.around ++ [guard]}

def slotItems : Option (BlockId × Statement) → List Item
  | none => []
  | some (block,statement) => [⟨[],.plain block statement⟩]

mutual
def Laid.items : Laid → List Item
  | .begins block => [⟨[],.begins block⟩]
  | .plain block statement => [⟨[],.plain block statement⟩]
  | .jump _ => []
  | .branch _ thenPart none => items thenPart
  | .branch _ thenPart (some elsePart) => items thenPart ++ items elsePart
  | .whileLoop _ _ body => items body
  | .doWhile id header latch _ body => ⟨[],.doWhile id header latch body⟩ :: items body
  | .forLoop _ start _ update body => slotItems start ++ (items body ++ slotItems update)
  | .switch _ _ arms => armItems arms
  | .tryCatch range body clauses =>
    ⟨[],.guard ⟨range,clauses⟩⟩ :: ((items body).map (·.inside ⟨range,clauses⟩) ++ clauseItems clauses)
def items : List Laid → List Item
  | [] => []
  | part :: rest => part.items ++ items rest
def armItems : List LaidArm → List Item
  | [] => []
  | ⟨_,body⟩ :: rest => items body ++ armItems rest
def clauseItems : List LaidClause → List Item
  | [] => []
  | ⟨_,_,body⟩ :: rest => items body ++ clauseItems rest
end

-- Whether a block comes first, on the way in from above. An empty body leads on to it.
mutual
def Laid.Opens (block : BlockId) : Laid → Prop
  | .begins first => first = block
  | .whileLoop _ _ body => Opens block body
  | .doWhile _ _ _ _ body => Opens block body
  | .forLoop _ none _ _ body => Opens block body
  | .tryCatch range body _ => range.1 = block ∧ Opens block body
  | _ => False
def Opens (block : BlockId) : List Laid → Prop
  | [] => True
  | part :: _ => part.Opens block
end

variable {block : BlockId} {statement : Statement} {first second lay : Layout} {item : Item} {guard : Guard}

theorem erased_append (first second : Layout) : erased (first ++ second) = erased first ++ erased second := by
  induction first with
  | nil => rfl
  | cons part rest ih => simp [erased,ih]

theorem items_append (first second : Layout) : items (first ++ second) = items first ++ items second := by
  induction first with
  | nil => rfl
  | cons part rest ih => simp [items,ih]

theorem erased_single (part : Laid) : erased [part] = part.erase := by simp [erased]

theorem items_single (part : Laid) : items [part] = part.items := by simp [items]

theorem armItems_bodies (arms : List LaidArm) : armItems arms = items (arms.flatMap (·.body)) := by
  induction arms with
  | nil => rfl
  | cons arm rest ih =>
    obtain ⟨labels,body⟩ := arm
    simp [armItems,ih,items_append]

theorem clauseItems_bodies (clauses : List LaidClause) : clauseItems clauses = items (clauses.flatMap (·.body)) := by
  induction clauses with
  | nil => rfl
  | cons clause rest ih =>
    obtain ⟨types,handler,body⟩ := clause
    simp [clauseItems,ih,items_append]

theorem erased_plain (block : BlockId) (statements : Block) : erased (statements.map (.plain block)) = statements := by
  induction statements with
  | nil => rfl
  | cons statement rest ih => simp [erased,Laid.erase,ih]

theorem items_plain (block : BlockId) (statements : Block) :
    items (statements.map (.plain block)) = statements.map fun statement => ⟨[],.plain block statement⟩ := by
  induction statements with
  | nil => rfl
  | cons statement rest ih => simp [items,Laid.items,ih]

def Laid.isPlain : Laid → Bool
  | .plain _ _ => true
  | _ => false

theorem erased_last {front : Block} (same : erased lay = front ++ [statement]) (plain : statement.isPlain = true) :
    ∃ early block marks, lay = early ++ .plain block statement :: marks ∧ erased early = front ∧ erased marks = [] := by
  induction lay using List.reverseRecOn generalizing front with
  | nil => simp [erased] at same
  | append_singleton lay part ih =>
    rw [erased_append,erased_single] at same
    cases part with
    | begins block =>
      obtain ⟨early,from_,marks,rfl,front_,none⟩ := ih (by simpa [Laid.erase] using same)
      exact ⟨early,from_,marks ++ [.begins block],by simp,front_,by simp [erased_append,none,erased,Laid.erase]⟩
    | plain block last =>
      obtain ⟨rfl,ends⟩ := List.append_inj' same rfl
      cases ends
      exact ⟨lay,block,[],rfl,rfl,rfl⟩
    | branch condition thenPart elsePart =>
      cases elsePart <;> cases (List.append_inj' same rfl).2 <;> cases plain
    | _ =>
      cases (List.append_inj' same rfl).2
      cases plain

def Fronts (block : BlockId) (lay : Layout) : Prop :=
  ∃ head rest, lay = head :: rest ∧ head.isPlain = false ∧ head.Opens block

theorem fronts_nil : ¬Fronts block [] := by
  rintro ⟨_,_,none,_⟩
  cases none

theorem Fronts.opens (fronts : Fronts block lay) : Opens block lay := by
  obtain ⟨head,rest,rfl,_,opens⟩ := fronts
  exact opens

theorem Fronts.append (fronts : Fronts block lay) (more : Layout) : Fronts block (lay ++ more) := by
  obtain ⟨head,rest,rfl,moves,opens⟩ := fronts
  exact ⟨head,rest ++ more,rfl,moves,opens⟩

theorem Fronts.early {from_ : BlockId} {marks : Layout} (fronts : Fronts block (first ++ .plain from_ statement :: marks))
    (more : Layout) : Fronts block (first ++ more) := by
  obtain ⟨head,rest,same,moves,opens⟩ := fronts
  cases first with
  | nil =>
    cases same
    cases moves
  | cons part others =>
    cases same
    exact ⟨head,others ++ more,rfl,moves,opens⟩

def Enclosed (all : List Item) : Prop :=
  ∀ item ∈ all, ∀ guard outer, guard :: outer <:+ item.around → ⟨outer,.guard guard⟩ ∈ all

theorem enclosed_bare {all : List Item} (bare : ∀ item ∈ all, item.around = []) : Enclosed all := by
  intro item member guard outer within
  rw [bare item member] at within
  cases List.eq_nil_of_suffix_nil within

theorem enclosed_nil : Enclosed [] := enclosed_bare (by simp)

theorem enclosed_single (part : Part) : Enclosed [⟨[],part⟩] := enclosed_bare (by simp)

theorem enclosed_slot (slot : Option (BlockId × Statement)) : Enclosed (slotItems slot) := by
  cases slot <;> exact enclosed_bare (by simp [slotItems])

theorem enclosed_append {one two : List Item} (left : Enclosed one) (right : Enclosed two) : Enclosed (one ++ two) := by
  intro item member guard outer within
  rcases List.mem_append.mp member with member | member
  · exact List.mem_append_left _ (left item member guard outer within)
  · exact List.mem_append_right _ (right item member guard outer within)

theorem enclosed_try {all : List Item} (inner : Enclosed all) (guard : Guard) :
    Enclosed (⟨[],.guard guard⟩ :: all.map (·.inside guard)) := by
  intro item member other outer within
  rcases List.mem_cons.mp member with rfl | member
  · cases List.eq_nil_of_suffix_nil within
  obtain ⟨held,listed,rfl⟩ := List.mem_map.mp member
  obtain ⟨front,same⟩ := within
  rcases List.eq_nil_or_concat outer with rfl | ⟨outer,last,rfl⟩
  · obtain ⟨_,same⟩ := List.append_inj' same rfl
    cases same
    exact List.mem_cons_self
  · rw [List.concat_eq_append,← List.cons_append,← List.append_assoc] at same
    obtain ⟨shorter,ends⟩ := List.append_inj' same rfl
    cases ends
    rw [List.concat_eq_append]
    exact List.mem_cons_of_mem _ (List.mem_map.mpr ⟨_,inner held listed other outer ⟨front,shorter⟩,rfl⟩)

mutual
theorem Laid.enclosed : ∀ laid : Laid, Enclosed laid.items
  | .begins block => enclosed_single (.begins block)
  | .plain block statement => enclosed_single (.plain block statement)
  | .jump _ => enclosed_nil
  | .branch _ thenPart none => enclosed thenPart
  | .branch _ thenPart (some elsePart) => enclosed_append (enclosed thenPart) (enclosed elsePart)
  | .whileLoop _ _ body => enclosed body
  | .doWhile id header latch _ body =>
    enclosed_append (enclosed_single (.doWhile id header latch body)) (enclosed body)
  | .forLoop _ start _ update body =>
    enclosed_append (enclosed_slot start) (enclosed_append (enclosed body) (enclosed_slot update))
  | .switch _ _ arms => enclosed_arms arms
  | .tryCatch range body clauses =>
    enclosed_append (enclosed_try (enclosed body) ⟨range,clauses⟩) (enclosed_clauses clauses)
theorem enclosed : ∀ lay : List Laid, Enclosed (items lay)
  | [] => enclosed_nil
  | part :: rest => enclosed_append part.enclosed (enclosed rest)
theorem enclosed_arms : ∀ arms : List LaidArm, Enclosed (armItems arms)
  | [] => enclosed_nil
  | ⟨_,body⟩ :: rest => enclosed_append (enclosed body) (enclosed_arms rest)
theorem enclosed_clauses : ∀ clauses : List LaidClause, Enclosed (clauseItems clauses)
  | [] => enclosed_nil
  | ⟨_,_,body⟩ :: rest => enclosed_append (enclosed body) (enclosed_clauses rest)
end

end Untangle
