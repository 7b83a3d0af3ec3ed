import Untangle.Flow.Loops
import Untangle.Proofs.Flow.Sound

namespace Untangle

inductive Reaches (size : Nat) (next : Nat → List Nat) (roots : List Nat) : Nat → Prop where
  | root : node < size → node ∈ roots → Reaches size next roots node
  | edge : Reaches size next roots node → target < size → target ∈ next node → Reaches size next roots target

variable {size node target : Nat} {next : Nat → List Nat} {pending seen roots : List Nat}

theorem Reaches.inside (reaches : Reaches size next roots node) : node < size := by
  cases reaches with
  | root inside _ => exact inside
  | edge _ inside _ => exact inside

theorem Reaches.unfolded (inside : node < size) (reaches : Reaches size next (next node ++ roots) target) :
    Reaches size next (node :: roots) target := by
  induction reaches with
  | root within member =>
    rcases List.mem_append.mp member with first | other
    · exact .edge (.root inside List.mem_cons_self) within first
    · exact .root within (List.mem_cons_of_mem _ other)
  | edge _ within leads ih => exact .edge ih within leads

theorem Reaches.more (reaches : Reaches size next roots node) (sub : ∀ root ∈ roots, root ∈ pending) :
    Reaches size next pending node := by
  induction reaches with
  | root inside member => exact .root inside (sub _ member)
  | edge _ inside leads ih => exact .edge ih inside leads

theorem reach_sound (member : target ∈ reach size next pending seen) :
    target ∈ seen ∨ Reaches size next pending target := by
  fun_induction reach size next pending seen with
  | case1 seen => exact Or.inl member
  | case2 seen node rest fresh ih =>
    rcases ih member with known | reaches
    · rcases List.mem_cons.mp known with rfl | known
      · exact Or.inr (.root fresh.1 List.mem_cons_self)
      · exact Or.inl known
    · exact Or.inr (reaches.unfolded fresh.1)
  | case3 seen node rest _ ih =>
    rcases ih member with known | reaches
    · exact Or.inl known
    · exact Or.inr (reaches.more fun _ => List.mem_cons_of_mem _)

theorem reach_closed {walls : List Nat} (closed : ∀ node ∈ seen, node ∉ walls → ∀ target ∈ next node,
      target < size → target ∈ seen ∨ target ∈ pending) :
    (∀ node ∈ seen, node ∈ reach size next pending seen) ∧
      (∀ node ∈ pending, node < size → node ∈ reach size next pending seen) ∧
      ∀ node ∈ reach size next pending seen, node ∉ walls → ∀ target ∈ next node, target < size →
        target ∈ reach size next pending seen := by
  fun_induction reach size next pending seen with
  | case1 seen =>
    refine ⟨fun _ member => member,by simp,?_⟩
    intro node member open_ target leads inside
    exact (closed node member open_ target leads inside).resolve_right (by simp)
  | case2 seen node rest fresh ih =>
    have further : ∀ known ∈ node :: seen, known ∉ walls → ∀ target ∈ next known, target < size →
        target ∈ node :: seen ∨ target ∈ next node ++ rest := by
      intro known member open_ target leads inside
      rcases List.mem_cons.mp member with rfl | member
      · exact Or.inr (List.mem_append_left _ leads)
      · rcases closed known member open_ target leads inside with old | waits
        · exact Or.inl (List.mem_cons_of_mem _ old)
        · rcases List.mem_cons.mp waits with rfl | waits
          · exact Or.inl List.mem_cons_self
          · exact Or.inr (List.mem_append_right _ waits)
    obtain ⟨kept,found,steps⟩ := ih further
    refine ⟨fun old member => kept old (List.mem_cons_of_mem _ member),?_,steps⟩
    intro waits member inside
    rcases List.mem_cons.mp member with rfl | member
    · exact kept _ List.mem_cons_self
    · exact found waits (List.mem_append_right _ member) inside
  | case3 seen node rest stale ih =>
    have known (inside : node < size) : node ∈ seen :=
      Decidable.byContradiction fun fresh => stale ⟨inside,fresh⟩
    have further : ∀ old ∈ seen, old ∉ walls → ∀ target ∈ next old, target < size →
        target ∈ seen ∨ target ∈ rest := by
      intro old member open_ target leads inside
      rcases closed old member open_ target leads inside with old | waits
      · exact Or.inl old
      · rcases List.mem_cons.mp waits with rfl | waits
        · exact Or.inl (known inside)
        · exact Or.inr waits
    obtain ⟨kept,found,steps⟩ := ih further
    refine ⟨kept,?_,steps⟩
    intro waits member inside
    rcases List.mem_cons.mp member with rfl | member
    · exact kept _ (known inside)
    · exact found waits member inside

theorem mem_reach : node ∈ reach size next roots [] ↔ Reaches size next roots node := by
  constructor
  · intro member
    exact (reach_sound member).resolve_left (by simp)
  · intro reaches
    have closed : ∀ node ∈ ([] : List Nat), node ∉ ([] : List Nat) → ∀ target ∈ next node, target < size →
        target ∈ [] ∨ target ∈ roots := by
      simp
    obtain ⟨_,found,steps⟩ := reach_closed closed
    induction reaches with
    | root inside member => exact found _ member inside
    | edge _ inside leads ih => exact steps _ ih (by simp) _ leads inside

theorem Reaches.opened {walls fewer : List Nat} (sub : ∀ wall ∈ fewer, wall ∈ walls)
    (reaches : Reaches size (fun id => (next id).filter (· ∉ walls)) (roots.filter (· ∉ walls)) node) :
    Reaches size (fun id => (next id).filter (· ∉ fewer)) (roots.filter (· ∉ fewer)) node := by
  have kept {items : List Nat} {node : Nat} (member : node ∈ items.filter (· ∉ walls)) :
      node ∈ items.filter (· ∉ fewer) := by
    obtain ⟨listed,open_⟩ := List.mem_filter.mp member
    exact List.mem_filter.mpr ⟨listed,decide_eq_true fun wall => of_decide_eq_true open_ (sub _ wall)⟩
  induction reaches with
  | root inside member => exact .root inside (kept member)
  | edge _ inside leads ih => exact .edge ih inside (kept leads)

theorem mem_reach_walled : node ∈ reach size next pending seen ↔ node ∈ seen ∨
    Reaches size (fun id => (next id).filter (· ∉ seen)) (pending.filter (· ∉ seen)) node := by
  constructor
  · intro member
    fun_induction reach size next pending seen with
    | case1 seen => exact Or.inl member
    | case2 seen first rest fresh ih =>
      have start : Reaches size (fun id => (next id).filter (· ∉ seen)) ((first :: rest).filter (· ∉ seen)) first :=
        .root fresh.1 (by simp [fresh.2])
      rcases ih member with known | reaches
      · rcases List.mem_cons.mp known with rfl | known
        · exact Or.inr start
        · exact Or.inl known
      · refine Or.inr ?_
        have wider := reaches.opened fun _ => List.mem_cons_of_mem first
        rw [List.filter_append] at wider
        simpa [fresh.2] using wider.unfolded fresh.1
    | case3 seen first rest stale ih =>
      rcases ih member with known | reaches
      · exact Or.inl known
      · exact Or.inr (reaches.more fun root listed => by
          simp only [List.mem_filter] at listed ⊢
          exact ⟨List.mem_cons_of_mem _ listed.1,listed.2⟩)
  · have closed : ∀ node ∈ seen, node ∉ seen → ∀ target ∈ next node, target < size →
        target ∈ seen ∨ target ∈ pending := fun _ known open_ => absurd known open_
    obtain ⟨kept,found,steps⟩ := reach_closed closed
    rintro (known | reaches)
    · exact kept _ known
    · have both : node ∈ reach size next pending seen ∧ node ∉ seen := by
        induction reaches with
        | root inside member =>
          obtain ⟨listed,open_⟩ := List.mem_filter.mp member
          exact ⟨found _ listed inside,of_decide_eq_true open_⟩
        | edge _ inside leads ih =>
          obtain ⟨listed,open_⟩ := List.mem_filter.mp leads
          exact ⟨steps _ ih.1 ih.2 _ listed inside,of_decide_eq_true open_⟩
      exact both.1

theorem Reaches.around (reaches : Reaches size next roots target) (node : Nat) :
    Reaches size (fun id => (next id).filter (· ≠ node)) (roots.filter (· ≠ node)) target ∨
      Reaches size next [node] target := by
  induction reaches with
  | root inside member =>
    rename_i first
    by_cases same : first = node
    · exact Or.inr (.root inside (List.mem_singleton.mpr same))
    · exact Or.inl (.root inside (by simp [member,same]))
  | edge earlier inside leads ih =>
    rename_i first
    by_cases same : first = node
    · exact Or.inr (.root inside (List.mem_singleton.mpr same))
    · rcases ih with avoids | through
      · exact Or.inl (.edge avoids inside (by simp [leads,same]))
      · exact Or.inr (.edge through inside leads)

theorem Detours.reached_from_dominator {above : Nat}
    (dominates : (Detours.compute size next roots).dominates above node = true) :
    Reaches size next [above] node := by
  unfold Detours.dominates compute isReached at dominates
  simp only [Bool.and_eq_true,decide_eq_true_eq] at dominates
  obtain ⟨⟨from_,reached⟩,all⟩ := dominates
  have inside : above < size := (mem_reach.mp from_).inside
  rcases (mem_reach.mp reached).around above with avoids | through
  · have listed : node ∈ avoiding size next roots above := mem_reach.mpr avoids
    simp only [List.getElem?_map,List.getElem?_range inside,Option.map_some,Option.getD_some] at all
    exact absurd rfl (of_decide_eq_true (List.all_eq_true.mp all node listed))
  · exact through

namespace BlockGraph
variable {graph : BlockGraph} {block target : BlockId}

theorem mem_live : block ∈ graph.live ↔
    Reaches graph.size (fun id => graph.successors id ++ graph.handlersOf id) [graph.entry] block := mem_reach

theorem live_inside (live : block ∈ graph.live) : block < graph.size := (mem_live.mp live).inside

theorem live_entry (graph : BlockGraph) : graph.entry ∈ graph.live :=
  mem_live.mpr (.root graph.entry_inside List.mem_cons_self)

theorem successors_goto (at_ : graph.terminator block = .goto target) : graph.successors block = [target] := by
  unfold successors
  rw [at_]
  rfl

theorem successors_branch {condition : Condition} {thenTarget elseTarget : BlockId}
    (at_ : graph.terminator block = .branch condition thenTarget elseTarget) :
    target ∈ graph.successors block ↔ target = thenTarget ∨ target = elseTarget := by
  unfold successors
  rw [at_]
  simp [Terminator.successors]

theorem successors_switch {discriminant : Expr} {cases : List (Int32 × BlockId)} {default : BlockId}
    (at_ : graph.terminator block = .switch discriminant cases default) :
    graph.successors block = cases.map (·.2) ++ [default] := by
  unfold successors
  rw [at_]
  rfl

theorem live_successor (live : block ∈ graph.live) (leads : target ∈ graph.successors block) :
    target ∈ graph.live :=
  mem_live.mpr (.edge (mem_live.mp live) (successor_inside leads) (List.mem_append_left _ leads))

theorem live_walk (live : block ∈ graph.live) (reaches : Reaches graph.size graph.successors [block] target) :
    target ∈ graph.live := by
  induction reaches with
  | root _ member =>
    cases List.mem_singleton.mp member
    exact live
  | edge _ _ leads ih => exact live_successor ih leads

theorem handlerEntries_unprotected (empty : graph.table = []) : graph.handlerEntries = [] := by
  unfold handlerEntries
  rw [empty]
  rfl

theorem roots_unprotected (empty : graph.table = []) : graph.roots = [graph.entry] := by
  rw [roots,handlerEntries_unprotected empty]

theorem mem_handlerEntries {handler : BlockId} :
    handler ∈ graph.handlerEntries ↔ ∃ row ∈ graph.table, row.handler = handler := by
  suffices all : ∀ (rows : List ProtectedRange) (entries : List BlockId),
      handler ∈ rows.foldl (fun entries row =>
        if row.handler ∈ entries then entries else entries ++ [row.handler]) entries ↔
      handler ∈ entries ∨ ∃ row ∈ rows, row.handler = handler by
    unfold handlerEntries
    simpa using all graph.table []
  intro rows
  induction rows with
  | nil => simp
  | cons row rest ih =>
    intro entries
    rw [List.foldl_cons,ih]
    simp only [List.mem_cons,exists_eq_or_imp]
    split
    · rename_i known
      exact ⟨Or.imp_right Or.inr,fun listed => listed.elim Or.inl fun listed =>
        listed.elim (fun same => Or.inl (same ▸ known)) Or.inr⟩
    · rw [List.mem_append,List.mem_singleton,or_assoc,eq_comm]

theorem live_handler {row : ProtectedRange} (live : block ∈ graph.live) (member : row ∈ graph.table)
    (covers : row.covers block = true) : row.handler ∈ graph.live := by
  refine mem_live.mpr (.edge (mem_live.mp live) (handler_inside member).handled ?_)
  exact List.mem_append_right _ (List.mem_map.mpr ⟨row,List.mem_filter.mpr ⟨member,covers⟩,rfl⟩)

end BlockGraph

theorem LoopForest.latch_reached {graph : BlockGraph} {loops : LoopForest} {loop : NaturalLoop} {latch : BlockId}
    (computed : compute graph graph.dominance order = .ok loops) (member : loop ∈ loops)
    (latches : latch ∈ loop.latches) : Reaches graph.size graph.successors [loop.header] latch := by
  unfold compute at computed
  dsimp only at computed
  split at computed
  · cases computed
  · rename_i reducible
    split at computed
    · cases computed
    · cases computed
      obtain ⟨header,_,found⟩ := List.mem_filterMap.mp member
      unfold loopAt? at found
      split at found
      · cases found
      · cases found
        have back := (List.mem_filter.mp latches).2
        have dominates := List.find?_eq_none.mp reducible _ (of_decide_eq_true back)
        simp only [Bool.not_eq_eq_eq_not,Bool.not_true,Bool.not_eq_false] at dominates
        exact Detours.reached_from_dominator dominates

end Untangle
