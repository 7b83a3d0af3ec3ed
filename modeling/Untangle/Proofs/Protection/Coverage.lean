import Mathlib
import Untangle.Proofs.Layout.Structured

namespace Untangle

mutual
def Statement.tries : Statement → List (List CatchClause)
  | .branch _ thenBlock none => blockTries thenBlock
  | .branch _ thenBlock (some elseBlock) => blockTries thenBlock ++ blockTries elseBlock
  | .whileLoop _ _ body => blockTries body
  | .doWhile _ _ body => blockTries body
  | .forLoop _ none _ none body => blockTries body
  | .forLoop _ (some start) _ none body => start.tries ++ blockTries body
  | .forLoop _ none _ (some update) body => blockTries body ++ update.tries
  | .forLoop _ (some start) _ (some update) body => start.tries ++ (blockTries body ++ update.tries)
  | .switch _ _ arms => armTries arms
  | .tryCatch body catches => catches :: (blockTries body ++ catchTries catches)
  | .jump _ => []
  | .expr _ => []
  | .assign _ _ => []
  | .increment _ _ => []
  | .ret _ => []
  | .throw _ => []
def blockTries : List Statement → List (List CatchClause)
  | [] => []
  | statement :: rest => statement.tries ++ blockTries rest
def armTries : List SwitchArm → List (List CatchClause)
  | [] => []
  | ⟨_,body⟩ :: rest => blockTries body ++ armTries rest
def catchTries : List CatchClause → List (List CatchClause)
  | [] => []
  | ⟨_,body⟩ :: rest => blockTries body ++ catchTries rest
end

theorem blockTries_append (first second : Block) : blockTries (first ++ second) = blockTries first ++ blockTries second := by
  induction first with
  | nil => rfl
  | cons statement rest ih => simp [blockTries,ih]

def Item.tries (item : Item) : List (List CatchClause) :=
  match item.part with
  | .plain _ statement => statement.tries
  | .guard guard => [erasedClauses guard.clauses]
  | _ => []

theorem tries_inside (all : List Item) (guard : Guard) : (all.map (·.inside guard)).flatMap Item.tries = all.flatMap Item.tries := by
  rw [List.flatMap_map]
  rfl

mutual
theorem Laid.tries_erased : ∀ laid : Laid, laid.items.flatMap Item.tries = blockTries laid.erase
  | .begins _ => rfl
  | .plain _ _ => rfl
  | .jump _ => rfl
  | .branch _ thenPart none => by
    simp [Laid.items,Laid.erase,blockTries,Statement.tries,tries_erased thenPart]
  | .branch _ thenPart (some elsePart) => by
    simp [Laid.items,Laid.erase,blockTries,Statement.tries,tries_erased thenPart,tries_erased elsePart]
  | .whileLoop _ _ body => by simp [Laid.items,Laid.erase,blockTries,Statement.tries,tries_erased body]
  | .doWhile _ _ _ _ body => by simp [Laid.items,Laid.erase,blockTries,Statement.tries,tries_erased body,Item.tries]
  | .forLoop _ start _ update body => by
    cases start <;> cases update <;>
      simp [Laid.items,Laid.erase,blockTries,Statement.tries,tries_erased body,Item.tries,slotItems]
  | .switch _ _ arms => by simp [Laid.items,Laid.erase,blockTries,Statement.tries,armTries_erased arms]
  | .tryCatch _ body clauses => by
    simp [Laid.items,Laid.erase,blockTries,Statement.tries,tries_inside,tries_erased body,catchTries_erased clauses,
      Item.tries]
theorem tries_erased : ∀ lay : List Laid, (items lay).flatMap Item.tries = blockTries (erased lay)
  | [] => rfl
  | part :: rest => by simp [items,erased,blockTries_append,part.tries_erased,tries_erased rest]
theorem armTries_erased : ∀ arms : List LaidArm, (armItems arms).flatMap Item.tries = armTries (erasedArms arms)
  | [] => rfl
  | ⟨_,body⟩ :: rest => by simp [armItems,erasedArms,armTries,tries_erased body,armTries_erased rest]
theorem catchTries_erased : ∀ clauses : List LaidClause,
    (clauseItems clauses).flatMap Item.tries = catchTries (erasedClauses clauses)
  | [] => rfl
  | ⟨_,_,body⟩ :: rest => by simp [clauseItems,erasedClauses,catchTries,tries_erased body,catchTries_erased rest]
end

theorem content_tries {graph : BlockGraph} {block : BlockId} (plain : graph.Plain) :
    ∀ statement ∈ graph.content block, statement.tries = [] := by
  intro statement member
  rcases List.mem_append.mp member with held | leaves
  · have here := plain block statement held
    cases statement <;> first | rfl | cases here
  · have here := (exit_isExit (Option.mem_toList.mp leaves)).1
    cases statement <;> first | rfl | cases here

theorem Layout.Of.tries {layout : Layout} {graph : BlockGraph} {regions : List TryRegion} {body : Block}
    (of : layout.Of graph regions body) (plain : graph.Plain) :
    blockTries body = layout.guards.map fun guard => erasedClauses guard.clauses := by
  obtain ⟨trailing,shape,same⟩ := withoutTrailingReturn_splits (erased layout)
  have bare : blockTries trailing = [] := by
    rcases shape with rfl | rfl <;> rfl
  have whole : blockTries body = blockTries (erased layout) := by
    rw [same,blockTries_append,bare,List.append_nil,of.tree]
  rw [whole,← tries_erased,Layout.guards,List.map_filterMap,List.filterMap_eq_flatMap_toList]
  refine List.flatMap_congr fun item member => ?_
  obtain ⟨around,part⟩ := item
  cases part with
  | plain block statement =>
    have written : (⟨around,block⟩,statement) ∈ layout.written := List.mem_filterMap.mpr ⟨_,member,rfl⟩
    rw [of.statements] at written
    obtain ⟨placing,_,held⟩ := List.mem_flatMap.mp written
    obtain ⟨_,listed,equal⟩ := List.mem_map.mp held
    cases equal
    exact content_tries plain statement listed
  | _ => rfl

-- In an orderly graph every range that covers a live block has a `try`, one and no more, and what a block holds is
-- written in its body if and only if the range covers the block. The tree has no other tries.
theorem structured_protects_exactly {graph : BlockGraph} {settings : StructuringSettings} {result : Structured}
    (done : graph.structured settings = .ok result) (plain : graph.Plain) (orderly : graph.Orderly) :
    ∃ regions layout, TryRegion.group graph.table = .ok regions ∧ Layout.Of graph regions result.body layout ∧
      (blockTries result.body = layout.guards.map fun guard => erasedClauses guard.clauses) ∧
      (∀ row ∈ graph.table, ∀ block ∈ graph.live, row.covers block = true →
        ∃ guard ∈ layout.guards, guard.range = row.range) ∧
      ∀ written ∈ layout.written, ∀ row ∈ graph.table,
        row.range ∈ written.1.around.map (·.range) ↔ row.covers written.1.block = true := by
  obtain ⟨regions,layout,grouped,of,exact_⟩ := structured_laid done
  refine ⟨regions,layout,grouped,of,of.tries plain,?_,?_⟩
  · intro row listed block live covers
    have taken : block ∈ layout.placings.map (·.block) := of.blocks.symm.subset
      (List.mem_filter.mpr ⟨BlockGraph.mem_ids.mpr (BlockGraph.live_inside live),decide_eq_true live⟩)
    obtain ⟨placing,member,rfl⟩ := List.mem_map.mp taken
    obtain ⟨guard,within,same⟩ := List.mem_map.mp ((exact_ orderly _ placing member rfl row listed).mpr covers)
    exact ⟨guard,Layout.around_listed member within,same⟩
  · intro written member
    rw [of.statements] at member
    obtain ⟨placing,here,held⟩ := List.mem_flatMap.mp member
    obtain ⟨statement,_,rfl⟩ := List.mem_map.mp held
    exact exact_ orderly _ placing here rfl

def nesting : BlockGraph :=
  ⟨[⟨[bump 1],.goto 1⟩,⟨[],.branch (.constant true) 2 5⟩,⟨[bump 2],.goto 3⟩,⟨[bump 3],.goto 1⟩,⟨[bump 4],.goto 5⟩,
    ⟨[bump 5],.ret none⟩,⟨[bump 6],.ret none⟩],[⟨2,3,4,some "E"⟩,⟨1,6,6,none⟩],by decide⟩

def nestedTree : Structured :=
  ⟨[bump 1,.tryCatch [.whileLoop 0 (.constant true)
      [.tryCatch [bump 2] [⟨["E"],[bump 4,.jump ⟨0,.break,some 0,false⟩]⟩],bump 3],bump 5,.ret none]
    [⟨[],[bump 6,.ret none]⟩]],⟨[⟨.whileLoop,[0]⟩],[.break],[(0,0)]⟩,[]⟩

theorem nesting_structured : nesting.structured .default = .ok nestedTree := by cbv

theorem nesting_plain : nesting.Plain := BlockGraph.plain_of_blocks (by simp [nesting,bump,Statement.isPlain])

theorem nesting_live : nesting.live = [5,4,6,3,2,1,0] := by cbv

theorem nesting_loops : LoopForest.compute nesting nesting.dominance nesting.order = .ok [⟨1,[3],[1,2,3]⟩] := by cbv

theorem nesting_orderly : nesting.Orderly := by
  refine ⟨?_,by decide,by decide,?_⟩
  · rw [nesting_live]
    decide
  · intro forest computed loop member row listed block within covers
    cases nesting_loops.symm.trans computed
    cases List.mem_singleton.mp member
    rcases List.mem_pair.mp listed with rfl | rfl
    · refine Or.inr fun other _ inside => ?_
      obtain rfl : other = 2 := by
        obtain ⟨first,past⟩ := Bool.and_eq_true_iff.mp inside
        exact Nat.le_antisymm (Nat.lt_succ_iff.mp (of_decide_eq_true past)) (of_decide_eq_true first)
      refine ⟨by decide,by decide,fun ends => ?_⟩
      cases ends.1
    · exact Or.inl (by decide)

theorem nesting_protects_exactly : nesting.structured .default = .ok nestedTree ∧ nesting.Plain ∧ nesting.Orderly ∧
    ∃ regions layout, Layout.Of nesting regions nestedTree.body layout ∧
      (∃ guard ∈ layout.guards, guard.range = (2,3)) ∧ (∃ guard ∈ layout.guards, guard.range = (1,6)) ∧
      ∀ written ∈ layout.written, written.1.block = 3 →
        (1,6) ∈ written.1.around.map (·.range) ∧ (2,3) ∉ written.1.around.map (·.range) := by
  obtain ⟨regions,layout,_,of,_,present,exact_⟩ :=
    structured_protects_exactly nesting_structured nesting_plain nesting_orderly
  refine ⟨nesting_structured,nesting_plain,nesting_orderly,regions,layout,of,?_,?_,?_⟩
  · exact present ⟨2,3,4,some "E"⟩ (by decide) 2 (by rw [nesting_live]; decide) rfl
  · exact present ⟨1,6,6,none⟩ (by decide) 3 (by rw [nesting_live]; decide) rfl
  · intro written member here
    constructor
    · refine (exact_ written member ⟨1,6,6,none⟩ (by decide)).mpr ?_
      rw [here]
      rfl
    · intro inside
      have covers := (exact_ written member ⟨2,3,4,some "E"⟩ (by decide)).mp inside
      rw [here] at covers
      cases covers

-- A latch is taken for its loop, and no range is opened for it.
def unguarded : BlockGraph :=
  ⟨[⟨[bump 1],.goto 1⟩,⟨[bump 2],.branch (.constant true) 0 2⟩,⟨[bump 3],.ret none⟩],[⟨1,2,2,none⟩],by decide⟩

def unguardedTree : Structured :=
  ⟨[.doWhile 0 (.constant true) [bump 1,bump 2],bump 3],⟨[⟨.doWhile,[]⟩],[],[]⟩,[]⟩

theorem unguarded_loses_range : unguarded.structured .default = .ok unguardedTree ∧ unguarded.Plain ∧
    1 ∈ unguarded.live ∧ (∃ row ∈ unguarded.table, row.covers 1 = true) ∧ unguarded.statements 1 = [bump 2] ∧
    blockTries unguardedTree.body = [] ∧ ¬unguarded.Orderly := by
  have live : unguarded.live = [2,1,0] := by cbv
  have loops : LoopForest.compute unguarded unguarded.dominance unguarded.order = .ok [⟨0,[1],[0,1]⟩] := by cbv
  refine ⟨by cbv,?_,by rw [live]; decide,⟨_,List.mem_singleton.mpr rfl,rfl⟩,rfl,rfl,fun orderly => ?_⟩
  · exact BlockGraph.plain_of_blocks (by simp [unguarded,bump,Statement.isPlain])
  · rcases orderly.loops _ loops _ List.mem_cons_self _ List.mem_cons_self 1 (by decide) rfl with whole | parts
    · have header := whole 0 (by decide)
      cases header
    · refine (parts 1 (by rw [live]; decide) rfl).2.2 ⟨rfl,by decide,Or.inl ⟨_,0,2,rfl,?_⟩⟩
      exact Or.inr (by decide)

end Untangle
