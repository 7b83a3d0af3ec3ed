import Untangle.Proofs.Breaks.Marks
import Untangle.Structuring.Survey

namespace Untangle

def aimedAt (id : BreakableId) (marks : List Mark) : List BreakId :=
  (jumpsOf marks).filterMap fun brk => if brk.target = some id then some brk.id else none

-- A jump targets a construct around it, a loop if it is a continue, and says that it is nested just
-- where that is not the innermost one it could mean. No header of a `for` is a construct.
def Mark.Fits : Mark → Prop
  | .jump around brk => ∃ target, brk.target = some target ∧
      (∃ isLoop, (target,isLoop) ∈ around ∧ (brk.kind = .continue → isLoop = true)) ∧
      (brk.nested = false ↔ around.innermost? brk.kind = some target)
  | .construct _ _ => True
  | .header plain => plain = true

namespace Registry

-- The registry has come to know of the marks, each of them once, and of nothing else.
structure Tracks (before : Registry) (marks : List Mark) (after : Registry) : Prop where
  declared : (List.range before.breakables.length ++ (constructsOf marks).map (·.1)).Perm
    (List.range after.breakables.length)
  kinds : ∀ id kind, (id,kind) ∈ constructsOf marks → after.kind? id = some kind
  kept : ∀ id kind, before.kind? id = some kind → after.kind? id = some kind
  handed : (List.range before.kinds.length ++ (jumpsOf marks).map (·.id)).Perm (List.range after.kinds.length)
  listed : ∀ id, (before.breaks id ++ aimedAt id marks).Perm (after.breaks id)
  recorded : ∀ brk ∈ jumpsOf marks, after.targetOf? brk.id = brk.target
  remembered : ∀ brk < before.kinds.length, after.targetOf? brk = before.targetOf? brk
  labelled : ∀ brk ∈ jumpsOf marks, after.kinds[brk.id]? = some brk.kind
  labels : before.kinds <+: after.kinds
  fits : ∀ mark ∈ marks, mark.Fits

variable {before middle after registry changed : Registry} {marks first second : List Mark} {id : BreakableId}
  {kind : BreakableKind}

theorem kind_inside (known : registry.kind? id = some kind) : id < registry.breakables.length := by
  obtain ⟨entry,at_,_⟩ := Option.map_eq_some_iff.mp known
  exact (List.getElem?_eq_some_iff.mp at_).1

theorem breaks_fresh (fresh : registry.breakables.length ≤ id) : registry.breaks id = [] := by
  unfold breaks
  rw [List.getElem?_eq_none fresh]

theorem aimedAt_append (id : BreakableId) (first second : List Mark) :
    aimedAt id (first ++ second) = aimedAt id first ++ aimedAt id second := by
  unfold aimedAt jumpsOf
  rw [List.filterMap_append,List.filterMap_append]

namespace Tracks

theorem refl (registry : Registry) : Tracks registry [] registry := by
  refine ⟨?_,?_,fun _ _ known => known,?_,?_,?_,fun _ _ => rfl,?_,List.prefix_refl _,?_⟩
  · simp
  · simp
  · simp
  · simp [aimedAt]
  · simp
  · simp
  · simp

theorem trans (one : Tracks before first middle) (two : Tracks middle second after) :
    Tracks before (first ++ second) after := by
  refine ⟨?_,?_,fun id kind known => two.kept id kind (one.kept id kind known),?_,?_,?_,?_,?_,
    one.labels.trans two.labels,?_⟩
  · unfold constructsOf
    rw [List.filterMap_append,List.map_append,← List.append_assoc]
    exact (one.declared.append_right _).trans two.declared
  · intro id kind member
    unfold constructsOf at member
    rw [List.filterMap_append] at member
    rcases List.mem_append.mp member with earlier | later
    · exact two.kept id kind (one.kinds id kind earlier)
    · exact two.kinds id kind later
  · unfold jumpsOf
    rw [List.filterMap_append,List.map_append,← List.append_assoc]
    exact (one.handed.append_right _).trans two.handed
  · intro id
    rw [aimedAt_append,← List.append_assoc]
    exact ((one.listed id).append_right _).trans (two.listed id)
  · intro brk member
    unfold jumpsOf at member
    rw [List.filterMap_append] at member
    rcases List.mem_append.mp member with earlier | later
    · have inside : brk.id ∈ List.range middle.kinds.length :=
        one.handed.subset (List.mem_append_right _ (List.mem_map.mpr ⟨brk,earlier,rfl⟩))
      rw [two.remembered _ (List.mem_range.mp inside),one.recorded brk earlier]
    · exact two.recorded brk later
  · intro brk inside
    have more : brk ∈ List.range middle.kinds.length :=
      one.handed.subset (List.mem_append_left _ (List.mem_range.mpr inside))
    rw [two.remembered brk (List.mem_range.mp more),one.remembered brk inside]
  · intro brk member
    unfold jumpsOf at member
    rw [List.filterMap_append] at member
    rcases List.mem_append.mp member with earlier | later
    · have known := one.labelled brk earlier
      obtain ⟨more,same⟩ := two.labels
      rw [← same,List.getElem?_append_left (List.getElem?_eq_some_iff.mp known).1,known]
    · exact two.labelled brk later
  · intro mark member
    rcases List.mem_append.mp member with earlier | later
    · exact one.fits mark earlier
    · exact two.fits mark later

theorem perm (tracks : Tracks before first after) (same : first.Perm second) : Tracks before second after := by
  have constructs : (constructsOf first).Perm (constructsOf second) := same.filterMap _
  have jumps : (jumpsOf first).Perm (jumpsOf second) := same.filterMap _
  refine ⟨?_,fun id kind member => tracks.kinds id kind (constructs.mem_iff.mpr member),tracks.kept,?_,?_,
    fun brk member => tracks.recorded brk (jumps.mem_iff.mpr member),tracks.remembered,
    fun brk member => tracks.labelled brk (jumps.mem_iff.mpr member),tracks.labels,
    fun mark member => tracks.fits mark (same.mem_iff.mpr member)⟩
  · exact ((constructs.map _).append_left _).symm.trans tracks.declared
  · exact ((jumps.map _).append_left _).symm.trans tracks.handed
  · intro id
    exact ((jumps.filterMap _).append_left _).symm.trans (tracks.listed id)

theorem declare (kind : BreakableKind) (tracks : Tracks (registry.declare kind).2 marks after) :
    Tracks registry (.construct registry.breakables.length kind :: marks) after := by
  have grown : (registry.declare kind).2.breakables.length = registry.breakables.length + 1 := by
    simp [Registry.declare]
  have old {id : BreakableId} {kind' : BreakableKind} (known : registry.kind? id = some kind') :
      (registry.declare kind).2.kind? id = some kind' := by
    rw [← known]
    unfold kind? Registry.declare
    rw [List.getElem?_append_left (kind_inside known)]
  refine ⟨?_,?_,fun id kind known => tracks.kept id kind (old known),tracks.handed,?_,tracks.recorded,
    tracks.remembered,tracks.labelled,tracks.labels,?_⟩
  · have all := tracks.declared
    rw [grown,List.range_succ,List.append_assoc] at all
    exact all
  · intro id kind' member
    rcases List.mem_cons.mp member with same | member
    · cases same
      refine tracks.kept _ _ ?_
      simp [kind?,Registry.declare]
    · exact tracks.kinds id kind' member
  · intro id
    have same : (registry.declare kind).2.breaks id = registry.breaks id := by
      unfold breaks Registry.declare
      dsimp only
      by_cases inside : id < registry.breakables.length
      · rw [List.getElem?_append_left inside]
      · have outside := Nat.not_lt.mp inside
        rw [List.getElem?_append_right outside,List.getElem?_eq_none outside]
        cases id - registry.breakables.length <;> rfl
    exact same ▸ tracks.listed id
  · intro mark member
    rcases List.mem_cons.mp member with rfl | member
    · trivial
    · exact tracks.fits mark member

theorem setKind (tracks : Tracks before (.construct id kind :: marks) middle)
    (fresh : before.breakables.length ≤ id) (done : middle.setKind id .forLoop = .ok after) :
    Tracks before (.construct id .forLoop :: marks) after := by
  have once : (List.range before.breakables.length ++
      (constructsOf (.construct id kind :: marks)).map (·.1)).Nodup := tracks.declared.nodup_iff.mpr List.nodup_range
  have apart : ∀ kind', (id,kind') ∉ constructsOf marks := by
    intro kind' member
    have tail := (List.nodup_append.mp once).2.1
    exact (List.nodup_cons.mp tail).1 (List.mem_map.mpr ⟨_,member,rfl⟩)
  unfold Registry.setKind at done
  split at done
  · cases done
  · rename_i entry at_
    split at done
    · cases done
    · cases done
      have other {id' : BreakableId} (different : id ≠ id') :
          (middle.modifyEntry id fun entry => {entry with kind := .forLoop}).kind? id' = middle.kind? id' := by
        simp [kind?,modifyEntry,different]
      refine ⟨?_,?_,?_,tracks.handed,?_,tracks.recorded,tracks.remembered,tracks.labelled,tracks.labels,?_⟩
      · have all := tracks.declared
        simpa [modifyEntry] using all
      · intro id' kind' member
        rcases List.mem_cons.mp member with same | member
        · cases same
          simp [kind?,modifyEntry,at_]
        · have different : id ≠ id' := fun same => apart kind' (same ▸ member)
          exact (other different).trans (tracks.kinds id' kind' (List.mem_cons_of_mem _ member))
      · intro id' kind' known
        have different : id ≠ id' := fun same => Nat.not_le.mpr (kind_inside known) (same ▸ fresh)
        exact (other different).trans (tracks.kept id' kind' known)
      · intro id'
        have same : (middle.modifyEntry id fun entry => {entry with kind := .forLoop}).breaks id' =
            middle.breaks id' := by
          unfold breaks modifyEntry
          dsimp only
          rw [List.getElem?_modify]
          by_cases this : id = id'
          · subst this
            rw [at_]
            simp
          · simp [this]
        rw [same]
        exact tracks.listed id'
      · intro mark member
        rcases List.mem_cons.mp member with rfl | member
        · trivial
        · exact tracks.fits mark (List.mem_cons_of_mem _ member)

theorem jump {around : Enclosing} {resolved : BreakKind} {brk : Break} {nested : Bool}
    (done : (registry.newBreak resolved).2.register id (registry.newBreak resolved).1 = .ok (changed,brk))
    (fits : (Mark.jump around ⟨registry.kinds.length,resolved,some id,nested⟩).Fits) :
    brk = ⟨registry.kinds.length,resolved,some id,false⟩ ∧
      Tracks registry [.jump around ⟨registry.kinds.length,resolved,some id,nested⟩] changed := by
  unfold Registry.register at done
  split at done
  · cases done
  · rename_i allowed
    cases done
    obtain ⟨entry,at_⟩ : ∃ entry, registry.breakables[id]? = some entry := by
      unfold checkTarget kind? at allowed
      cases at_ : registry.breakables[id]? with
      | none => simp [newBreak,at_] at allowed
      | some entry => exact ⟨entry,rfl⟩
    refine ⟨rfl,?_,?_,?_,?_,?_,?_,?_,?_,List.prefix_append _ _,?_⟩
    · simp [newBreak,modifyEntry]
    · simp
    · intro id' kind' known
      rw [← known]
      simp only [kind?,newBreak,modifyEntry,List.getElem?_modify]
      cases registry.breakables[id']? with
      | none => rfl
      | some entry => by_cases same : id = id' <;> simp [same]
    · simp [newBreak,modifyEntry,List.range_succ]
    · intro id'
      simp only [breaks,newBreak,modifyEntry,List.getElem?_modify,aimedAt,jumpsOf_jump,
        jumpsOf_nil,List.filterMap_cons,List.filterMap_nil]
      by_cases same : id = id'
      · subst same
        simp [at_]
      · simp [same]
    · intro brk member
      cases List.mem_singleton.mp member
      simp [targetOf?,newBreak]
    · intro brk inside
      have apart : brk ≠ registry.kinds.length := Nat.ne_of_lt inside
      simp only [targetOf?,newBreak,List.lookup_cons,beq_eq_false_iff_ne.mpr apart]
      induction registry.targets with
      | nil => rfl
      | cons entry rest ih =>
        obtain ⟨other,target⟩ := entry
        by_cases same : other = registry.kinds.length
        · subst same
          simp [List.lookup_cons,beq_eq_false_iff_ne.mpr apart] at ih ⊢
          exact ih
        · simp only [List.filter_cons,ne_eq,same,not_false_eq_true,decide_true,if_true,List.lookup_cons]
          cases brk == other <;> simp_all
    · intro brk member
      cases List.mem_singleton.mp member
      simp [newBreak,modifyEntry]
    · intro mark member
      cases List.mem_singleton.mp member
      exact fits

end Tracks
end Registry

def Scope.around (scope : Scope) : Enclosing := scope.contexts.map fun context => (context.id,context.kind.isLoop)

-- The contexts of a scope are constructs declared as what they are, and only loops can be continued.
structure Scope.Known (scope : Scope) (registry : Registry) : Prop where
  declared : ∀ context ∈ scope.contexts, registry.kind? context.id = some context.kind
  distinct : (scope.contexts.map (·.id)).Nodup
  loops : ∀ context ∈ scope.contexts, ∀ target, context.continueTarget = some target → context.kind.isLoop = true

namespace Scope.Known
variable {scope : Scope} {registry after : Registry} {marks : List Mark}

theorem grown (known : scope.Known registry) (tracks : registry.Tracks marks after) : scope.Known after :=
  ⟨fun context member => tracks.kept _ _ (known.declared context member),known.distinct,known.loops⟩

theorem narrow (known : scope.Known registry) (region : List BlockId) : (scope.narrow region).Known registry :=
  ⟨known.declared,known.distinct,known.loops⟩

theorem inside (known : scope.Known registry) (kind : BreakableKind) (breakTarget continueTarget : Option BlockId)
    (loops : ∀ target, continueTarget = some target → kind.isLoop = true) :
    (scope.inside ⟨registry.breakables.length,kind,breakTarget,continueTarget⟩).Known (registry.declare kind).2 := by
  refine ⟨?_,?_,?_⟩
  · intro context member
    rcases List.mem_cons.mp member with rfl | member
    · simp [Registry.kind?,Registry.declare]
    · have old := known.declared context member
      rw [← old]
      unfold Registry.kind? Registry.declare
      rw [List.getElem?_append_left (Registry.kind_inside old)]
  · refine List.nodup_cons.mpr ⟨fun member => ?_,known.distinct⟩
    obtain ⟨context,listed,same⟩ := List.mem_map.mp member
    exact Nat.ne_of_lt (Registry.kind_inside (known.declared context listed)) same
  · intro context member target continues
    rcases List.mem_cons.mp member with rfl | member
    · exact loops target continues
    · exact known.loops context member target continues

end Scope.Known

theorem resolveJump_fits {target : BlockId} {contexts : List Context} {resolved : ResolvedJump} (id : BreakId)
    (found : resolveJump? target contexts = some resolved) (distinct : (contexts.map (·.id)).Nodup)
    (loops : ∀ context ∈ contexts, ∀ target, context.continueTarget = some target → context.kind.isLoop = true) :
    resolved.context ∈ contexts ∧ (resolved.kind = .continue → resolved.context.kind.isLoop = true) ∧
      (Mark.jump (contexts.map fun context => (context.id,context.kind.isLoop))
        ⟨id,resolved.kind,some resolved.context.id,resolved.nested⟩).Fits := by
  induction contexts generalizing resolved with
  | nil => cases found
  | cons context outer ih =>
    unfold resolveJump? at found
    split at found
    · rename_i kind meant
      cases found
      have continues (this : kind = .continue) : context.kind.isLoop = true := by
        unfold Context.jumpKind? at meant
        split at meant
        · rename_i same
          exact loops context List.mem_cons_self target same
        · split at meant <;> cases meant
          cases this
      refine ⟨List.mem_cons_self,continues,context.id,rfl,⟨_,List.mem_cons_self,continues⟩,?_⟩
      cases kind with
      | «break» => simp [Enclosing.innermost?]
      | «continue» => simp [Enclosing.innermost?,continues]
    · obtain ⟨inner,further,rfl⟩ := Option.map_eq_some_iff.mp found
      obtain ⟨apart,rest⟩ := List.nodup_cons.mp distinct
      obtain ⟨member,continues,_,same,⟨isLoop,listed,needs⟩,nests⟩ :=
        ih further rest fun other member => loops other (List.mem_cons_of_mem _ member)
      cases same
      have other : context.id ≠ inner.context.id := fun same => apart (List.mem_map.mpr ⟨_,member,same.symm⟩)
      refine ⟨List.mem_cons_of_mem _ member,continues,_,rfl,⟨isLoop,List.mem_cons_of_mem _ listed,needs⟩,?_⟩
      cases shape : inner.kind with
      | «break» => simp [Enclosing.innermost?,other]
      | «continue» =>
        rw [shape] at nests
        cases loop : context.kind.isLoop with
        | true => simp [Enclosing.innermost?,loop,other]
        | false => simpa [Enclosing.innermost?,loop] using nests

end Untangle
