import Untangle.Proofs.Breaks.Targets
import Untangle.Proofs.Layout.Structured

namespace Untangle

def Item.doWhile? (item : Item) : Option (BreakableId × Block) :=
  match item.part with
  | .doWhile id _ _ body => some (id,erased body)
  | _ => none

def Site.doWhile? (site : Site) : Option (BreakableId × Block) :=
  match site.statement with
  | .doWhile id _ body => some (id,body)
  | _ => none

-- What is written from the blocks of a graph holds no blocks itself.
def Flat (all : List Item) : Prop :=
  ∀ item ∈ all, ∀ block statement, item.part = .plain block statement → statement.childBlocks = []

def doItems (all : List Item) : List (BreakableId × Block) := all.filterMap Item.doWhile?
def doSites (sites : List Site) : List (BreakableId × Block) := sites.filterMap Site.doWhile?

variable {one two all : List Item} {guard : Guard}

theorem flat_append (flat : Flat (one ++ two)) : Flat one ∧ Flat two :=
  ⟨fun item member => flat item (List.mem_append_left _ member),fun item member => flat item (List.mem_append_right _ member)⟩

theorem doItems_append (one two : List Item) : doItems (one ++ two) = doItems one ++ doItems two := List.filterMap_append

theorem doItems_inside (guard : Guard) (all : List Item) : doItems (all.map (·.inside guard)) = doItems all := by
  unfold doItems
  rw [List.filterMap_map]
  rfl

theorem flat_inside (flat : Flat (all.map (·.inside guard))) : Flat all :=
  fun item member => flat (item.inside guard) (List.mem_map.mpr ⟨item,member,rfl⟩)

theorem doItems_slot (slot : Option (BlockId × Statement)) : doItems (slotItems slot) = [] := by
  cases slot <;> rfl

theorem doSites_append (around : List Statement) (one two : Block) :
    doSites (Block.sites around (one ++ two)) = doSites (Block.sites around one) ++ doSites (Block.sites around two) := by
  rw [Block.sites,List.flatMap_append]
  exact List.filterMap_append

-- A statement that is no `do` loop has those of its blocks.
theorem doSites_single {statement : Statement} (around : List Statement) (other : Site.doWhile? ⟨around,statement⟩ = none) :
    doSites (Block.sites around [statement]) =
      statement.childBlocks.flatMap fun block => doSites (Block.sites (statement :: around) block) := by
  rw [Block.sites,List.flatMap_singleton,Statement.sites_blocks,doSites,List.filterMap_cons_none other,List.filterMap_flatMap]
  rfl

mutual
theorem Laid.doItems_erase (around : List Statement) : (laid : Laid) → Flat laid.items →
    doItems laid.items = doSites (Block.sites around laid.erase)
  | .begins _, _ => rfl
  | .plain block statement, flat => by
    have bare : statement.childBlocks = [] := flat ⟨[],.plain block statement⟩ List.mem_cons_self _ _ rfl
    have other : Site.doWhile? ⟨around,statement⟩ = none := by
      cases statement <;> first | rfl | cases bare
    rw [Laid.erase,doSites_single around other,bare]
    rfl
  | .jump brk, _ => by
    rw [Laid.erase,doSites_single around rfl]
    rfl
  | .branch condition thenPart none, flat => by
    rw [Laid.erase,doSites_single around rfl]
    exact (doItems_erased _ thenPart flat).trans (List.append_nil _).symm
  | .branch condition thenPart (some elsePart), flat => by
    obtain ⟨first,second⟩ := flat_append flat
    rw [Laid.erase,doSites_single around rfl,Laid.items,doItems_append,doItems_erased _ thenPart first,
      doItems_erased _ elsePart second]
    exact congrArg _ (List.append_nil _).symm
  | .whileLoop id condition body, flat => by
    rw [Laid.erase,doSites_single around rfl]
    exact (doItems_erased _ body flat).trans (List.append_nil _).symm
  | .doWhile id header latch condition body, flat => by
    have inner : Flat (items body) := fun item member => flat item (List.mem_cons_of_mem _ member)
    rw [Laid.erase,Block.sites,List.flatMap_singleton,Statement.sites_blocks]
    have same := doItems_erased (.doWhile id condition (erased body) :: around) body inner
    exact congrArg ((id,erased body) :: ·) (same.trans (congrArg doSites (List.append_nil _).symm))
  | .forLoop id start condition update body, flat => by
    have inner := (flat_append (flat_append flat).2).1
    rw [Laid.erase,doSites_single around rfl,Laid.items,doItems_append,doItems_append,doItems_slot,doItems_slot]
    exact congrArg (· ++ []) (doItems_erased _ body inner)
  | .switch id discriminant arms, flat => by
    rw [Laid.erase,doSites_single around rfl]
    exact doItems_arms _ arms flat
  | .tryCatch range body clauses, flat => by
    obtain ⟨first,second⟩ := flat_append (show Flat (_ ++ _) from fun item member => flat item (List.mem_cons_of_mem _ member))
    rw [Laid.erase,doSites_single around rfl,Laid.items]
    change doItems (_ ++ _) = _
    rw [doItems_append,doItems_inside,doItems_erased _ body (flat_inside first),doItems_clauses _ clauses second]
    rfl
theorem doItems_erased (around : List Statement) : (lay : List Laid) → Flat (items lay) →
    doItems (items lay) = doSites (Block.sites around (erased lay))
  | [], _ => rfl
  | part :: rest, flat => by
    obtain ⟨first,second⟩ := flat_append flat
    rw [items,erased,doItems_append,doSites_append,part.doItems_erase around first,doItems_erased around rest second]
theorem doItems_arms (around : List Statement) : (arms : List LaidArm) → Flat (armItems arms) →
    doItems (armItems arms) = ((erasedArms arms).map (·.body)).flatMap fun block => doSites (Block.sites around block)
  | [], _ => rfl
  | ⟨_,body⟩ :: rest, flat => by
    obtain ⟨first,second⟩ := flat_append flat
    rw [armItems,erasedArms,doItems_append,doItems_erased around body first,doItems_arms around rest second]
    rfl
theorem doItems_clauses (around : List Statement) : (clauses : List LaidClause) → Flat (clauseItems clauses) →
    doItems (clauseItems clauses) =
      ((erasedClauses clauses).map (·.body)).flatMap fun block => doSites (Block.sites around block)
  | [], _ => rfl
  | ⟨_,_,body⟩ :: rest, flat => by
    obtain ⟨first,second⟩ := flat_append flat
    rw [clauseItems,erasedClauses,doItems_append,doItems_erased around body first,doItems_clauses around rest second]
    rfl
end

namespace Layout
variable {layout : Layout} {graph : BlockGraph} {regions : List TryRegion} {body : Block}

theorem Of.flat (of : layout.Of graph regions body) (plain : graph.Plain) : Flat (items layout) := by
  intro item member block statement part
  have listed : (⟨item.around,block⟩,statement) ∈ layout.written :=
    List.mem_filterMap.mpr ⟨item,member,by rw [Item.written?,part]⟩
  rw [of.statements] at listed
  obtain ⟨placing,_,held⟩ := List.mem_flatMap.mp listed
  obtain ⟨other,content,same⟩ := List.mem_map.mp held
  cases same
  rcases List.mem_append.mp content with written | exits
  · have simple := plain _ _ written
    cases statement <;> first | rfl | cases simple
  · have leaves := Option.mem_toList.mp exits
    cases at_ : graph.terminator block <;> rw [at_] at leaves <;> cases leaves <;> rfl

-- The `do` loops of a layout are those of its tree.
theorem Of.loops (of : layout.Of graph regions body) (plain : graph.Plain) :
    doItems (items layout) = doSites (Block.sites [] body) := by
  obtain ⟨trailing,shape,same⟩ := withoutTrailingReturn_splits (erased layout)
  rw [doItems_erased [] layout (of.flat plain),same,doSites_append,← of.tree]
  rcases shape with rfl | rfl
  · exact List.append_nil _
  · rw [doSites_single [] rfl]
    exact List.append_nil _

end Layout
end Untangle
