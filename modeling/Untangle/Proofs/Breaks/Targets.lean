import Untangle.Proofs.Breaks.Sites

namespace Untangle

theorem same_of_once {all : List α} {key? : α → Option β} {one two : α} {key : β} (once : (all.filterMap key?).Nodup)
    (first : one ∈ all) (second : two ∈ all) (here : key? one = some key) (there : key? two = some key) : one = two := by
  let Apart (one two : α) : Prop := ∀ own, key? one = some own → ∀ other, key? two = some other → own ≠ other
  have symm : Std.Symm Apart := ⟨fun _ _ distinct own here other there => (distinct other there own here).symm⟩
  have keys : all.Pairwise Apart := List.pairwise_filterMap.mp once
  by_contra distinct
  exact keys.forall first second distinct key here key there rfl

theorem constructsOf_tracked (marks : List Mark) : constructsOf (tracked marks) = constructsOf marks := by
  unfold constructsOf tracked
  rw [List.filterMap_filter]
  refine List.filterMap_congr fun mark _ => ?_
  cases mark <;> rfl

theorem jumpsOf_tracked (marks : List Mark) : jumpsOf (tracked marks) = jumpsOf marks := by
  unfold jumpsOf tracked
  rw [List.filterMap_filter]
  refine List.filterMap_congr fun mark _ => ?_
  cases mark <;> rfl

theorem Statement.sites_statements (around other : List Statement) (statement : Statement) :
    (statement.sites around).map (·.statement) = (statement.sites other).map (·.statement) := by
  rw [Statement.sites_blocks,Statement.sites_blocks,List.map_cons,List.map_cons,List.map_flatMap,List.map_flatMap]
  refine congrArg _ (List.flatMap_congr fun block held => ?_)
  rw [Block.sites,Block.sites,List.map_flatMap,List.map_flatMap]
  exact List.flatMap_congr fun inner member => Statement.sites_statements (statement :: around) (statement :: other) inner
termination_by sizeOf statement
decreasing_by exact Statement.inner_smaller held member

theorem Block.jumps_around (around other : List Statement) (block : Block) :
    jumpsAt (Block.sites around block) = jumpsAt (Block.sites other block) := by
  have same : (Block.sites around block).map (·.statement) = (Block.sites other block).map (·.statement) := by
    rw [Block.sites,Block.sites,List.map_flatMap,List.map_flatMap]
    exact List.flatMap_congr fun statement _ => statement.sites_statements around other
  have jumps (sites : List Site) : jumpsAt sites = (sites.map (·.statement)).filterMap Statement.jump? := by
    rw [List.filterMap_map]
    rfl
  rw [jumps,jumps,same]

theorem jumpsOf_block (around : Enclosing) (block : Block) : jumpsOf (blockMarks around block) = jumpsAt (Block.sites [] block) := by
  have marks : tracked (blockMarks around block) = (Block.sites [] block).filterMap (Site.mark? around) :=
    Block.marks_sites [] block
  rw [← jumpsOf_tracked,marks,jumpsOf_sites]

theorem Block.head_site (statement : Statement) (rest : Block) : ⟨[],statement⟩ ∈ Block.sites [] (statement :: rest) := by
  rw [Block.sites,List.flatMap_cons,Statement.sites_blocks]
  exact List.mem_cons_self

-- A statement that stands in another one is listed with a block of that.
theorem Statement.site_within (around : List Statement) (statement : Statement) {site : Site} {outer : Statement}
    (member : site ∈ statement.sites around) (listed : outer ∈ site.around) :
    outer ∈ around ∨ ∃ back, ⟨back,outer⟩ ∈ statement.sites around ∧
      ∃ block ∈ outer.childBlocks, site ∈ Block.sites (outer :: back) block := by
  rw [Statement.sites_blocks] at member ⊢
  rcases List.mem_cons.mp member with rfl | deeper
  · exact Or.inl listed
  · obtain ⟨block,held,within⟩ := List.mem_flatMap.mp deeper
    obtain ⟨inner,known,own⟩ := List.mem_flatMap.mp within
    rcases Statement.site_within (statement :: around) inner own listed with above | ⟨back,found,deep⟩
    · rcases List.mem_cons.mp above with rfl | above
      · exact Or.inr ⟨around,List.mem_cons_self,block,held,within⟩
      · exact Or.inl above
    · refine Or.inr ⟨back,List.mem_cons_of_mem _ (List.mem_flatMap.mpr ⟨block,held,?_⟩),deep⟩
      exact List.mem_flatMap.mpr ⟨inner,known,found⟩
termination_by sizeOf statement
decreasing_by exact Statement.inner_smaller held known

theorem Block.site_within {body : Block} {site : Site} {outer : Statement} (member : site ∈ Block.sites [] body)
    (listed : outer ∈ site.around) : ∃ back, ⟨back,outer⟩ ∈ Block.sites [] body ∧
      ∃ block ∈ outer.childBlocks, site ∈ Block.sites (outer :: back) block := by
  obtain ⟨statement,known,own⟩ := List.mem_flatMap.mp member
  obtain ⟨back,found,deep⟩ := (statement.site_within [] own listed).resolve_left (by simp)
  exact ⟨back,List.mem_flatMap.mpr ⟨statement,known,found⟩,deep⟩

-- Whatever jump targets a construct of a tree stands in it.
theorem Registry.Tracks.targets_within {before registry : Registry} {body : Block} {site : Site} {brk : Break}
    {back : List Statement} {outer : Statement} {id : BreakableId} {kind : BreakableKind}
    (tracks : before.Tracks (blockMarks [] body) registry) (member : site ∈ Block.sites [] body)
    (jump : site.statement = .jump brk) (aims : brk.target = some id) (target : ⟨back,outer⟩ ∈ Block.sites [] body)
    (declares : outer.breakable? = some (id,kind)) :
    ∃ block ∈ outer.childBlocks, site ∈ Block.sites (outer :: back) block := by
  have marks : tracked (blockMarks [] body) = (Block.sites [] body).filterMap (Site.mark? []) := Block.marks_sites [] body
  have listed : Mark.jump (framesOf site.around ++ []) brk ∈ blockMarks [] body := by
    refine List.mem_of_mem_filter (?_ : _ ∈ tracked (blockMarks [] body))
    rw [marks]
    exact List.mem_filterMap.mpr ⟨site,member,Site.mark_jump jump⟩
  obtain ⟨_,aims',⟨isLoop,frame,_⟩,_⟩ := tracks.fits _ listed
  cases aims.symm.trans aims'
  rw [List.append_nil] at frame
  obtain ⟨around,stands,found⟩ := List.mem_filterMap.mp frame
  obtain ⟨⟨_,kind'⟩,here,same⟩ := Option.map_eq_some_iff.mp found
  cases same
  obtain ⟨back',known,deep⟩ := Block.site_within member stands
  have once : ((Block.sites [] body).filterMap fun site => (site.statement.breakable?).map (·.1)).Nodup := by
    have all := tracks.declared.nodup_iff.mpr List.nodup_range
    have same : constructsOf (blockMarks [] body) = (Block.sites [] body).filterMap fun site => site.statement.breakable? := by
      rw [← constructsOf_sites [],← marks,constructsOf_tracked]
    rw [same,List.map_filterMap] at all
    exact (List.nodup_append.mp all).2.1
  cases same_of_once once known target (by rw [here]; rfl) (by rw [declares]; rfl)
  exact deep

end Untangle
