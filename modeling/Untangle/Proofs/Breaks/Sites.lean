import Mathlib
import Untangle.Proofs.Breaks.Agreement
import Untangle.Proofs.Rebuilding.Parts

namespace Untangle

-- A statement of a tree, and the statements that it stands in, innermost first.
structure Site where
  around : List Statement
  statement : Statement

theorem Statement.inner_smaller {statement inner : Statement} {block : Block} (held : block ∈ statement.childBlocks)
    (member : inner ∈ block) : sizeOf inner < sizeOf statement := by
  have child : Node.ofStatement inner ∈ statement.children :=
    @Node.inner_child (.ofStatement statement) block inner held member
  exact Nat.lt_of_le_of_lt (weight_member child) (weight_statement statement)

def Statement.sites (around : List Statement) (statement : Statement) : List Site :=
  ⟨around,statement⟩ :: statement.childBlocks.attach.flatMap fun ⟨block,_⟩ =>
    block.attach.flatMap fun ⟨inner,_⟩ => inner.sites (statement :: around)
termination_by sizeOf statement
decreasing_by exact Statement.inner_smaller ‹_› ‹_›

def Block.sites (around : List Statement) (block : Block) : List Site := block.flatMap (Statement.sites around)

theorem Statement.sites_blocks (around : List Statement) (statement : Statement) :
    statement.sites around =
      ⟨around,statement⟩ :: statement.childBlocks.flatMap (Block.sites (statement :: around)) := by
  rw [Statement.sites]
  refine congrArg _ ((List.flatMap_subtype fun block _ => ?_).trans (by rw [List.unattach_attach]))
  exact (List.flatMap_subtype fun _ _ => rfl).trans (by rw [List.unattach_attach]; rfl)

def Statement.jump? : Statement → Option Break
  | jump brk => some brk
  | _ => none

def jumpsAt (sites : List Site) : List Break := sites.filterMap fun site => site.statement.jump?

-- The target of a jump, as the jump and the registry have it: recorded both ways, around the jump or outside of
-- the tree, and a loop if the jump continues it.
def Site.Aims (registry : Registry) (outside : List BreakableId) (site : Site) (brk : Break) : Prop :=
  ∃ target, brk.target = some target ∧ registry.targetOf? brk.id = some target ∧ brk.id ∈ registry.breaks target ∧
    (target ∈ outside ∨ ∃ outer ∈ site.around, ∃ kind, outer.breakable? = some (target,kind)) ∧
    ¬(brk.kind = .continue ∧ registry.kind? target = some .switch)

structure Registry.Fits (registry : Registry) (outside : List BreakableId) (sites : List Site) : Prop where
  once : ((jumpsAt sites).map (·.id)).Nodup
  aims : ∀ site ∈ sites, ∀ brk, site.statement = .jump brk → site.Aims registry outside brk

def framesOf (around : List Statement) : Enclosing :=
  around.filterMap fun outer => outer.breakable?.map fun (id,kind) => (id,kind.isLoop)

def Site.mark? (start : Enclosing) (site : Site) : Option Mark :=
  match site.statement with
  | .jump brk => some (.jump (framesOf site.around ++ start) brk)
  | other => other.breakable?.map fun (id,kind) => .construct id kind

def Mark.isHeader : Mark → Bool
  | .header _ => true
  | _ => false

-- Marks without those of the headers, which hold no jump.
def tracked (marks : List Mark) : List Mark := marks.filter fun mark => !mark.isHeader

theorem tracked_append (first second : List Mark) : tracked (first ++ second) = tracked first ++ tracked second :=
  List.filter_append ..

theorem tracked_headers (part : Option Statement) : tracked (headerMarks part) = [] := by
  cases part <;> rfl

theorem blockMarks_flatMap (around : Enclosing) (block : Block) :
    blockMarks around block = block.flatMap (Statement.marks around) := by
  induction block with
  | nil => rfl
  | cons statement rest ih => rw [blockMarks,ih,List.flatMap_cons]

section
variable {start : Enclosing} {around : List Statement}

theorem framesOf_cons (outer : Statement) : framesOf (outer :: around) =
    (outer.breakable?.map fun (id,kind) => (id,kind.isLoop)).toList ++ framesOf around := by
  rw [framesOf,List.filterMap_cons]
  cases outer.breakable? <;> rfl

theorem Statement.marks_blocks (statement : Statement) :
    tracked (statement.marks (framesOf around ++ start)) = (Site.mark? start ⟨around,statement⟩).toList ++
      statement.childBlocks.flatMap fun block => tracked (blockMarks (framesOf (statement :: around) ++ start) block) := by
  have loop {kind : BreakableKind} (apart : kind ≠ .switch) : kind.isLoop = true := by
    cases kind <;> first | rfl | exact absurd rfl apart
  cases statement with
  | branch condition thenBlock elseBlock =>
    cases elseBlock <;> simp [marks,Site.mark?,childBlocks,breakable?,framesOf_cons,tracked_append]
  | forLoop id first condition update body =>
    have headers : tracked (headerMarks first ++ headerMarks update) = [] := by
      rw [tracked_append,tracked_headers,tracked_headers]
      rfl
    change Mark.construct id .forLoop :: tracked (headerMarks first ++ headerMarks update ++ _) = _
    rw [tracked_append,headers]
    simp [Site.mark?,childBlocks,breakable?,framesOf_cons,loop]
  | switch id discriminant arms =>
    have kind : BreakableKind.switch.isLoop = false := rfl
    simp [marks,Site.mark?,childBlocks,breakable?,framesOf_cons,armMarks_bodies,blockMarks_flatMap,tracked,Mark.isHeader,
      kind,List.filter_flatMap,List.flatMap_map,List.flatMap_assoc]
  | tryCatch body catches =>
    simp [marks,Site.mark?,childBlocks,breakable?,framesOf_cons,catchMarks_bodies,blockMarks_flatMap,tracked,
      List.filter_flatMap,List.flatMap_map,List.flatMap_assoc]
  | _ => simp [marks,Site.mark?,childBlocks,breakable?,framesOf_cons,tracked,Mark.isHeader,loop]

theorem Statement.marks_sites (around : List Statement) (statement : Statement) :
    tracked (statement.marks (framesOf around ++ start)) = (statement.sites around).filterMap (Site.mark? start) := by
  have blocks : (statement.childBlocks.flatMap fun block =>
      tracked (blockMarks (framesOf (statement :: around) ++ start) block)) =
      statement.childBlocks.flatMap fun block => (Block.sites (statement :: around) block).filterMap (Site.mark? start) := by
    refine List.flatMap_congr fun block held => ?_
    rw [blockMarks_flatMap,tracked,List.filter_flatMap,Block.sites,List.filterMap_flatMap]
    exact List.flatMap_congr fun inner member => Statement.marks_sites (statement :: around) inner
  rw [Statement.marks_blocks,Statement.sites_blocks,blocks,List.filterMap_cons,List.filterMap_flatMap]
  cases Site.mark? start ⟨around,statement⟩ <;> rfl
termination_by sizeOf statement
decreasing_by exact Statement.inner_smaller held member

theorem Block.marks_sites (around : List Statement) (block : Block) :
    tracked (blockMarks (framesOf around ++ start) block) = (Block.sites around block).filterMap (Site.mark? start) := by
  rw [blockMarks_flatMap,tracked,List.filter_flatMap,Block.sites,List.filterMap_flatMap]
  exact List.flatMap_congr fun statement _ => statement.marks_sites around

end

section
variable {registry : Registry} {outside : List BreakableId} {sites : List Site} {walk after : BreakWalk}

theorem walk_tracked (marks : List Mark) : marks.foldlM (BreakWalk.meetMark registry) walk =
    (tracked marks).foldlM (BreakWalk.meetMark registry) walk := by
  induction marks generalizing walk with
  | nil => rfl
  | cons mark rest ih =>
    cases mark with
    | header plain => exact ih
    | jump around brk =>
      change List.foldlM _ walk (.jump around brk :: rest) = List.foldlM _ walk (.jump around brk :: tracked rest)
      rw [List.foldlM_cons,List.foldlM_cons]
      exact congrArg _ (funext fun _ => ih)
    | construct id kind => exact ih

def opened (outside : List BreakableId) : Enclosing := outside.map fun id => (id,true)

theorem opened_ids (outside : List BreakableId) : (opened outside).ids = outside := by
  simp [opened,Enclosing.ids,Function.comp_def]

theorem mem_framesOf {around : List Statement} {target : BreakableId} : target ∈ (framesOf around ++ opened outside).ids ↔
    target ∈ outside ∨ ∃ outer ∈ around, ∃ kind, outer.breakable? = some (target,kind) := by
  rw [Enclosing.ids,List.map_append,List.mem_append,or_comm]
  refine or_congr (by rw [← Enclosing.ids,opened_ids]) ?_
  simp only [framesOf,List.mem_map,List.mem_filterMap,Option.map_eq_some_iff]
  constructor
  · rintro ⟨_,⟨outer,member,⟨id,kind⟩,found,rfl⟩,rfl⟩
    exact ⟨outer,member,kind,found⟩
  · rintro ⟨outer,member,kind,found⟩
    exact ⟨_,⟨outer,member,(target,kind),found,rfl⟩,rfl⟩

theorem Site.mark_jump {start : Enclosing} {site : Site} {brk : Break} :
    site.statement = .jump brk → site.mark? start = some (.jump (framesOf site.around ++ start) brk) := by
  intro jump
  rw [Site.mark?,jump]

theorem jumpsOf_sites (start : Enclosing) (sites : List Site) :
    jumpsOf (sites.filterMap (Site.mark? start)) = jumpsAt sites := by
  rw [jumpsOf,List.filterMap_filterMap,jumpsAt]
  refine List.filterMap_congr fun site _ => ?_
  obtain ⟨around,statement⟩ := site
  cases statement <;> rfl

theorem constructsOf_sites (start : Enclosing) (sites : List Site) :
    constructsOf (sites.filterMap (Site.mark? start)) = sites.filterMap fun site => site.statement.breakable? := by
  rw [constructsOf,List.filterMap_filterMap]
  refine List.filterMap_congr fun site _ => ?_
  obtain ⟨around,statement⟩ := site
  cases statement <;> rfl

theorem marks_meet : (∀ mark ∈ sites.filterMap (Site.mark? (opened outside)), mark.Meets registry) ↔
    ∀ site ∈ sites, ∀ brk, site.statement = .jump brk → site.Aims registry outside brk := by
  have same {site : Site} {brk : Break} : (Mark.jump (framesOf site.around ++ opened outside) brk).Meets registry ↔
      site.Aims registry outside brk := by
    simp only [Mark.Meets,Site.Aims,mem_framesOf,not_and,ne_eq]
  constructor
  · intro meets site member brk jump
    exact same.mp (meets _ (List.mem_filterMap.mpr ⟨site,member,Site.mark_jump jump⟩))
  · intro aims mark member
    obtain ⟨site,listed,found⟩ := List.mem_filterMap.mp member
    rcases jump : site.statement.jump? with _ | brk
    · have other : site.mark? (opened outside) = site.statement.breakable?.map fun (id,kind) => .construct id kind := by
        obtain ⟨around,statement⟩ := site
        cases statement <;> first | rfl | cases jump
      rw [other] at found
      obtain ⟨construct,_,rfl⟩ := Option.map_eq_some_iff.mp found
      trivial
    · have here : site.statement = .jump brk := by
        revert jump
        cases site.statement <;> simp [Statement.jump?]
      rw [Site.mark_jump here] at found
      cases found
      exact same.mpr (aims site listed brk here)

theorem walkSites_ok {marks : List Mark} (listed : tracked marks = sites.filterMap (Site.mark? (opened outside))) :
    marks.foldlM (BreakWalk.meetMark registry) ⟨[],[]⟩ = .ok after ↔ registry.Fits outside sites ∧
      after = ⟨((jumpsAt sites).map (·.id)).reverse,sites.filterMap fun site => (site.statement.breakable?).map (·.1)⟩ := by
  rw [walk_tracked,listed,walkMarks_ok,marks_meet,jumpsOf_sites,constructsOf_sites,List.map_filterMap,
    List.append_nil,List.nil_append]
  constructor
  · rintro ⟨aims,once,_,same⟩
    exact ⟨⟨once,aims⟩,same⟩
  · rintro ⟨fits,same⟩
    exact ⟨fits.aims,fits.once,by simp,same⟩

theorem walkBody_ok {body : Block} : walkSteps registry [] ⟨[],[]⟩ body.steps = .ok after ↔
    registry.Fits [] (Block.sites [] body) ∧ after = ⟨((jumpsAt (Block.sites [] body)).map (·.id)).reverse,
      (Block.sites [] body).filterMap fun site => (site.statement.breakable?).map (·.1)⟩ := by
  have walk := walkBlockBreaks_marks registry [] ⟨[],[]⟩ body
  rw [walkSteps_body]
  change walkBlockBreaks registry (Enclosing.ids []) ⟨[],[]⟩ body = .ok after ↔ _
  rw [walk]
  exact walkSites_ok (Block.marks_sites [] body)

theorem walkConstruct_ok {statement : Statement} : walkSteps registry outside ⟨[],[]⟩ [.enter statement] = .ok after ↔
    registry.Fits outside (statement.sites []) ∧ after = ⟨((jumpsAt (statement.sites [])).map (·.id)).reverse,
      (statement.sites []).filterMap fun site => (site.statement.breakable?).map (·.1)⟩ := by
  have walk := statement.walkBreaks_marks registry (opened outside) ⟨[],[]⟩
  rw [opened_ids] at walk
  rw [walkSteps_statement,walk]
  exact walkSites_ok (Statement.marks_sites [] statement)

theorem mem_seen {id : BreakId} :
    id ∈ ((jumpsAt sites).map (·.id)).reverse ↔ ∃ brk ∈ jumpsAt sites, brk.id = id := by
  rw [List.mem_reverse,List.mem_map]

end

-- Validation of a tree goes through exactly where its jumps fit the registry and every listed jump is in the tree
-- and recorded where it is listed. A construct that is still being built is held to the same, with what is open
-- around it, for what it declares itself.
theorem validation_exact (registry : Registry) :
    (∀ body, validateBreaks body registry = .ok () ↔
      registry.Fits [] (Block.sites [] body) ∧
        ∀ target < registry.breakables.length, ∀ id ∈ registry.breaks target,
          (∃ brk ∈ jumpsAt (Block.sites [] body), brk.id = id) ∧ registry.targetOf? id = some target) ∧
    ∀ statement outside, validateConstruct statement registry outside = .ok () ↔
      registry.Fits outside (statement.sites []) ∧
        ∀ site ∈ statement.sites [], ∀ target kind, site.statement.breakable? = some (target,kind) →
          ∀ id ∈ registry.breaks target, ∃ brk ∈ jumpsAt (statement.sites []), brk.id = id := by
  constructor
  · intro body
    unfold validateBreaks
    constructor
    · intro valid
      obtain ⟨_,walked,listed⟩ := Survey.ok_of_bind valid
      obtain ⟨fits,rfl⟩ := walkBody_ok.mp walked
      refine ⟨fits,fun target declared id member => ?_⟩
      obtain ⟨seen,recorded⟩ := checkRecorded_ok.mp (forM_ok.mp listed target (List.mem_range.mpr declared)) id member
      exact ⟨mem_seen.mp seen,recorded⟩
    · rintro ⟨fits,listed⟩
      rw [walkBody_ok.mpr ⟨fits,rfl⟩]
      refine forM_ok.mpr fun target declared => checkRecorded_ok.mpr fun id member => ?_
      obtain ⟨seen,recorded⟩ := listed target (List.mem_range.mp declared) id member
      exact ⟨mem_seen.mpr seen,recorded⟩
  · intro statement outside
    unfold validateConstruct
    constructor
    · intro valid
      obtain ⟨_,walked,complete⟩ := Survey.ok_of_bind valid
      obtain ⟨fits,rfl⟩ := walkConstruct_ok.mp walked
      refine ⟨fits,fun site member target kind declares id listed => mem_seen.mp ?_⟩
      refine checkListed_ok.mp (forM_ok.mp complete target (List.mem_filterMap.mpr ⟨site,member,?_⟩)) id listed
      rw [declares]
      rfl
    · rintro ⟨fits,complete⟩
      rw [walkConstruct_ok.mpr ⟨fits,rfl⟩]
      refine forM_ok.mpr fun target member => checkListed_ok.mpr fun id listed => ?_
      obtain ⟨site,held,found⟩ := List.mem_filterMap.mp member
      obtain ⟨⟨_,kind⟩,declares,rfl⟩ := Option.map_eq_some_iff.mp found
      exact mem_seen.mpr (complete site held _ kind declares id listed)

end Untangle
