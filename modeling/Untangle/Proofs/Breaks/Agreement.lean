import Mathlib
import Untangle.Proofs.Breaks.Emitters
import Untangle.Proofs.Breaks.Growth
import Untangle.Proofs.Breaks.Passes

namespace Untangle
open Emission

def Mark.Meets (registry : Registry) : Mark → Prop
  | .jump around brk => ∃ target, brk.target = some target ∧ registry.targetOf? brk.id = some target ∧
      brk.id ∈ registry.breaks target ∧ target ∈ around.ids ∧
      (brk.kind = .continue → registry.kind? target ≠ some .switch)
  | _ => True

section
variable {registry : Registry} {walk after : BreakWalk}

theorem BreakWalk.meet_ok {around : Enclosing} {brk : Break} : walk.meet registry around.ids brk = .ok after ↔
    brk.id ∉ walk.seen ∧ (Mark.jump around brk).Meets registry ∧ after = {walk with seen:=brk.id :: walk.seen} := by
  unfold meet
  constructor
  · intro met
    split at met
    · cases met
    rename_i fresh
    split at met
    · cases met
    rename_i target aims
    dsimp only at met
    split at met
    · cases met
    rename_i known
    split at met
    · cases met
    rename_i encloses
    split at met
    · cases met
    rename_i kind
    obtain ⟨records,lists⟩ := not_or.mp known
    refine ⟨fresh,⟨target,aims,not_not.mp records,not_not.mp lists,not_not.mp encloses,?_⟩,(Except.ok.inj met).symm⟩
    exact fun continues switches => kind ⟨continues,switches⟩
  · rintro ⟨fresh,⟨target,aims,records,lists,encloses,kind⟩,rfl⟩
    rw [if_neg fresh,aims]
    dsimp only
    rw [if_neg (by simp [records,lists]),if_neg (by simp [encloses]),if_neg fun both => kind both.1 both.2]

theorem fresh_cons {brk : Break} {seen : List BreakId} {jumps : List Break} :
    (∀ other ∈ jumps, other.id ∉ brk.id :: seen) ↔ brk.id ∉ jumps.map (·.id) ∧ ∀ other ∈ jumps, other.id ∉ seen := by
  simp only [List.mem_cons,not_or,List.mem_map,not_exists,not_and]
  exact forall₂_and

theorem walkMarks_ok {marks : List Mark} : marks.foldlM (BreakWalk.meetMark registry) walk = .ok after ↔
    (∀ mark ∈ marks, mark.Meets registry) ∧ ((jumpsOf marks).map (·.id)).Nodup ∧
      (∀ brk ∈ jumpsOf marks, brk.id ∉ walk.seen) ∧
      after = ⟨((jumpsOf marks).map (·.id)).reverse ++ walk.seen,walk.declared ++ (constructsOf marks).map (·.1)⟩ := by
  induction marks generalizing walk with
  | nil => simp [pure,Except.pure,eq_comm]
  | cons mark rest ih =>
    rw [List.foldlM_cons]
    cases mark with
    | jump around brk =>
      change (walk.meet registry around.ids brk >>= fun walk => rest.foldlM _ walk) = _ ↔ _
      constructor
      · intro walked
        obtain ⟨_,met,walked⟩ := Survey.ok_of_bind walked
        obtain ⟨new,here,rfl⟩ := BreakWalk.meet_ok.mp met
        obtain ⟨meets,once,fresh,rfl⟩ := ih.mp walked
        obtain ⟨apart,fresh⟩ := fresh_cons.mp fresh
        refine ⟨List.forall_mem_cons.mpr ⟨here,meets⟩,List.nodup_cons.mpr ⟨apart,once⟩,
          List.forall_mem_cons.mpr ⟨new,fresh⟩,?_⟩
        simp
      · rintro ⟨meets,once,fresh,rfl⟩
        obtain ⟨here,meets⟩ := List.forall_mem_cons.mp meets
        obtain ⟨apart,once⟩ := List.nodup_cons.mp once
        obtain ⟨new,fresh⟩ := List.forall_mem_cons.mp fresh
        rw [BreakWalk.meet_ok.mpr ⟨new,here,rfl⟩]
        refine ih.mpr ⟨meets,once,fresh_cons.mpr ⟨apart,fresh⟩,?_⟩
        simp
    | construct id kind =>
      refine ih.trans ?_
      simp [BreakWalk.enter,Mark.Meets]
    | header plain =>
      refine ih.trans ?_
      simp [Mark.Meets]

end

theorem checkRecorded_ok {registry : Registry} {seen listed : List BreakId} {target : BreakableId} :
    checkRecorded registry seen target listed = .ok () ↔
      ∀ brk ∈ listed, brk ∈ seen ∧ registry.targetOf? brk = some target := by
  induction listed with
  | nil => simp [checkRecorded]
  | cons brk rest ih =>
    rw [checkRecorded,List.forall_mem_cons,← ih]
    by_cases known : brk ∈ seen <;> by_cases recorded : registry.targetOf? brk = some target <;> simp [known,recorded]

theorem checkListed_ok {seen listed : List BreakId} {target : BreakableId} :
    checkListed seen target listed = .ok () ↔ ∀ brk ∈ listed, brk ∈ seen := by
  induction listed with
  | nil => simp [checkListed]
  | cons brk rest ih =>
    rw [checkListed,List.forall_mem_cons,← ih]
    by_cases known : brk ∈ seen <;> simp [known]

theorem forM_ok {items : List α} {check : α → Except ε Unit} :
    items.forM check = .ok () ↔ ∀ item ∈ items, check item = .ok () := by
  induction items with
  | nil => simp [pure,Except.pure]
  | cons item rest ih =>
    rw [List.forall_mem_cons,← ih]
    change (check item >>= fun _ => rest.forM check) = .ok () ↔ _
    cases check item <;> simp [bind,Except.bind]

namespace Registry.Tracks
variable {before after : Registry} {marks : List Mark} {start : Enclosing} {brk : BreakId} {target : BreakableId}

theorem mem_aimedAt : brk ∈ aimedAt target marks ↔ ∃ jump ∈ jumpsOf marks, jump.target = some target ∧ jump.id = brk := by
  unfold aimedAt
  simp only [List.mem_filterMap,Option.ite_none_right_eq_some,Option.some.injEq]

theorem walk (tracks : before.Tracks marks after) (framed : ∀ mark ∈ marks, mark.Framed start marks)
    (known : ∀ frame ∈ start, ∃ kind, before.kind? frame.1 = some kind ∧ kind.isLoop = frame.2) :
    marks.foldlM (BreakWalk.meetMark after) ⟨[],[]⟩ =
      .ok ⟨((jumpsOf marks).map (·.id)).reverse,(constructsOf marks).map (·.1)⟩ := by
  have once : ((jumpsOf marks).map (·.id)).Nodup :=
    (List.nodup_append.mp (tracks.handed.nodup_iff.mpr List.nodup_range)).2.1
  have meets : ∀ mark ∈ marks, mark.Meets after := by
    intro mark member
    cases mark with
    | construct id kind => trivial
    | header plain => trivial
    | jump around brk =>
      obtain ⟨target,aims,⟨isLoop,encloses,needs⟩,_⟩ := tracks.fits _ member
      have listed : brk ∈ jumpsOf marks := mem_jumpsOf.mpr ⟨_,member⟩
      refine ⟨target,aims,(tracks.recorded brk listed).trans aims,?_,List.mem_map.mpr ⟨_,encloses,rfl⟩,?_⟩
      · exact (tracks.listed target).subset (List.mem_append_right _ (mem_aimedAt.mpr ⟨brk,listed,aims,rfl⟩))
      · intro continues switches
        have kind : ∃ kind, after.kind? target = some kind ∧ kind.isLoop = isLoop := by
          rcases framed _ member _ encloses with outside | ⟨kind,construct,same⟩
          · obtain ⟨kind,declared,same⟩ := known _ outside
            exact ⟨kind,tracks.kept _ _ declared,same⟩
          · exact ⟨kind,tracks.kinds _ _ (mem_constructsOf.mpr construct),same⟩
        obtain ⟨kind,declared,same⟩ := kind
        rw [declared] at switches
        cases switches
        cases (needs continues).symm.trans same.symm
  exact walkMarks_ok.mpr ⟨meets,once,by simp,by simp⟩

theorem listed_new (tracks : before.Tracks marks after) (fresh : before.breakables.length ≤ target)
    (member : brk ∈ after.breaks target) : ∃ jump ∈ jumpsOf marks, jump.target = some target ∧ jump.id = brk := by
  have all := (tracks.listed target).symm.subset member
  rw [breaks_fresh fresh,List.nil_append] at all
  exact mem_aimedAt.mp all

theorem construct_new {kind : BreakableKind} (tracks : before.Tracks marks after)
    (member : (target,kind) ∈ constructsOf marks) : before.breakables.length ≤ target := by
  have once := tracks.declared.nodup_iff.mpr List.nodup_range
  by_contra inside
  exact (List.nodup_append.mp once).2.2 target (List.mem_range.mpr (Nat.not_le.mp inside)) target
    (List.mem_map.mpr ⟨_,member,rfl⟩) rfl

end Registry.Tracks

theorem validateConstruct_ok {scope : Scope} {statement : Statement} {before after : Registry}
    (known : scope.Known before) (tracks : before.Tracks (statement.marks scope.around) after) :
    validateConstruct statement after (scope.contexts.map (·.id)) = .ok () := by
  have ids : scope.contexts.map (·.id) = scope.around.ids := by simp [Scope.around,Enclosing.ids]
  have declared : ∀ frame ∈ scope.around, ∃ kind, before.kind? frame.1 = some kind ∧ kind.isLoop = frame.2 := by
    intro frame member
    obtain ⟨context,listed,rfl⟩ := List.mem_map.mp member
    exact ⟨context.kind,known.declared context listed,rfl⟩
  unfold validateConstruct
  rw [walkSteps_statement,ids,statement.walkBreaks_marks,tracks.walk (statement.marks_framed _) declared]
  refine forM_ok.mpr fun target member => checkListed_ok.mpr fun brk listed => ?_
  obtain ⟨⟨_,kind⟩,construct,rfl⟩ := List.mem_map.mp member
  obtain ⟨jump,mentioned,_,rfl⟩ := tracks.listed_new (tracks.construct_new construct) listed
  exact List.mem_reverse.mpr (List.mem_map.mpr ⟨jump,mentioned,rfl⟩)

theorem validateBreaks_ok {body : Block} {registry : Registry}
    (tracks : Registry.empty.Tracks (blockMarks [] body) registry) : validateBreaks body registry = .ok () := by
  have walked := walkBlockBreaks_marks registry [] ⟨[],[]⟩ body
  rw [tracks.walk (blockMarks_framed _ _) (by simp)] at walked
  unfold validateBreaks
  rw [walkSteps_body]
  change (walkBlockBreaks registry (Enclosing.ids []) ⟨[],[]⟩ body >>= _) = _
  rw [walked]
  refine forM_ok.mpr fun target _ => checkRecorded_ok.mpr fun brk listed => ?_
  obtain ⟨jump,mentioned,aims,rfl⟩ := tracks.listed_new (Nat.zero_le _) listed
  exact ⟨List.mem_reverse.mpr (List.mem_map.mpr ⟨jump,mentioned,rfl⟩),(tracks.recorded jump mentioned).trans aims⟩

theorem withoutTrailingReturn_marks (around : Enclosing) (body : Block) :
    blockMarks around (withoutTrailingReturn body) = blockMarks around body := by
  obtain ⟨trailing,shape,same⟩ := withoutTrailingReturn_splits body
  have quiet : blockMarks around trailing = [] := by
    rcases shape with rfl | rfl <;> rfl
  conv_rhs => rw [same,blockMarks_append,quiet,List.append_nil]

theorem Scope.Known.outside (region : List BlockId) (registry : Registry) : Scope.Known ⟨region,[]⟩ registry :=
  ⟨by simp,by simp,by simp⟩

-- A structured tree and its registry know of the same jumps and constructs.
theorem structured_tracks {graph : BlockGraph} {settings : StructuringSettings} {result : Structured}
    (done : graph.structured settings = .ok result) (plain : graph.Plain) :
    Registry.empty.Tracks (blockMarks [] result.body) result.registry := by
  obtain ⟨survey,made,finished⟩ := BlockGraph.structured_ok done
  obtain ⟨rfl,_⟩ := Survey.make_ok made
  obtain ⟨events,emitted,progress,gives,_,body,registry⟩ := Survey.structured_gives finished
  have tracked := Survey.emitFrom_tracks plain _ _ _ _ _ _ _ _ gives (.outside _ _)
  rw [body,registry,withoutTrailingReturn_marks]
  exact tracked.whole

def Registry.constructs (registry : Registry) : List (BreakableId × BreakableKind) :=
  registry.breakables.zipIdx.map fun (entry,id) => (id,entry.kind)

theorem Registry.Tracks.constructs {marks : List Mark} {registry : Registry}
    (tracks : Registry.empty.Tracks marks registry) : (constructsOf marks).Perm registry.constructs := by
  have ids : ((constructsOf marks).map (·.1)).Perm (List.range registry.breakables.length) := tracks.declared
  have listed : registry.constructs.map (·.1) = List.range registry.breakables.length := by
    unfold Registry.constructs
    rw [List.map_map,List.range_eq_range']
    exact List.zipIdx_map_snd 0 registry.breakables
  have first : (constructsOf marks).Nodup := List.Nodup.of_map _ (ids.nodup_iff.mpr List.nodup_range)
  have second : registry.constructs.Nodup := List.Nodup.of_map (·.1) (listed ▸ List.nodup_range)
  refine (List.perm_ext_iff_of_nodup first second).mpr fun construct => ?_
  obtain ⟨id,kind⟩ := construct
  have known : (id,kind) ∈ registry.constructs ↔ registry.kind? id = some kind := by
    unfold Registry.constructs Registry.kind?
    simp only [List.mem_map,List.mem_zipIdx_iff_getElem?,Prod.mk.injEq,Option.map_eq_some_iff]
    constructor
    · rintro ⟨⟨entry,_⟩,at_,rfl,rfl⟩
      exact ⟨entry,at_,rfl⟩
    · rintro ⟨entry,at_,rfl⟩
      exact ⟨(entry,id),at_,rfl,rfl⟩
  rw [known]
  constructor
  · exact tracks.kinds id kind
  · intro found
    obtain ⟨⟨_,other⟩,member,rfl⟩ := List.mem_map.mp
      (ids.mem_iff.mpr (List.mem_range.mpr (Registry.kind_inside found)))
    rwa [Option.some.inj ((tracks.kinds _ _ member).symm.trans found)] at member

-- However a unit is folded and annotated, its tree and its registry agree: validation passes, both list
-- the same loops and switches, and a jump says that it is nested just where it does not mean the innermost
-- construct. No jump hides in the header of a `for`.
theorem decompiled_breaks_agree {unit : CodeUnit} {resolver : Resolver} {settings : DecompileSettings}
    {result : Decompiled} (done : (unit.decompile resolver settings).1 = .ok result) (plain : unit.graph.Plain) :
    validateBreaks result.body result.registry = .ok () ∧
      (constructsOf (blockMarks [] result.body)).Perm result.registry.constructs ∧
      (∀ around brk, .jump around brk ∈ blockMarks [] result.body →
        (brk.nested = false ↔ brk.target = around.innermost? brk.kind)) ∧
      .header false ∉ blockMarks [] result.body := by
  have tracks : Registry.empty.Tracks (blockMarks [] result.body) result.registry := by
    unfold CodeUnit.decompile at done
    rcases outcome : unit.graph.structureLogged settings.structuring with ⟨cause | structured,events⟩
    · rw [outcome] at done
      cases done
    · rw [outcome] at done
      cases done
      have structuredOk : unit.graph.structured settings.structuring = .ok structured := by
        unfold BlockGraph.structured
        rw [outcome]
      dsimp only
      rw [inferTypes_marks _ resolver [],fold_marks structured.body settings.folding []]
      exact structured_tracks structuredOk plain
  refine ⟨validateBreaks_ok tracks,tracks.constructs,?_,fun member => ?_⟩
  · intro around brk member
    obtain ⟨target,aims,_,nests⟩ := tracks.fits _ member
    rw [nests,aims]
    exact eq_comm
  · cases tracks.fits _ member

def advance (amount : Int32) : Statement := .increment ⟨0,none,.int⟩ amount

def escaping : CodeUnit :=
  ⟨"escape",⟨[⟨[advance 1],.goto 1⟩,⟨[],.branch (.constant true) 2 5⟩,⟨[],.branch (.constant false) 3 1⟩,
    ⟨[advance 2],.branch (.constant true) 5 4⟩,⟨[advance 3],.goto 2⟩,⟨[],.ret none⟩],[],by decide⟩⟩

def escapingInner : Statement :=
  .whileLoop 1 (.constant false)
    [advance 2,.branch (.constant true) [.jump ⟨0,.break,some 0,true⟩] none,advance 3]

def escaped : Decompiled :=
  ⟨"escape",[advance 1,.whileLoop 0 (.constant true) [escapingInner]],
    ⟨[⟨.whileLoop,[0]⟩,⟨.whileLoop,[]⟩],[.break],[(0,0)]⟩,[]⟩

theorem escaping_decompiled : (escaping.decompile .descriptors .default).1 = .ok escaped := by cbv

theorem escaping_plain : escaping.graph.Plain :=
  BlockGraph.plain_of_blocks (by simp [escaping,advance,Statement.isPlain])

theorem escaping_breaks_agree : (escaping.decompile .descriptors .default).1 = .ok escaped ∧ escaping.graph.Plain ∧
    validateBreaks escaped.body escaped.registry = .ok () ∧
    (constructsOf (blockMarks [] escaped.body)).Perm [(0,.whileLoop),(1,.whileLoop)] := by
  obtain ⟨valid,constructs,_⟩ := decompiled_breaks_agree escaping_decompiled escaping_plain
  exact ⟨escaping_decompiled,escaping_plain,valid,constructs⟩

end Untangle
