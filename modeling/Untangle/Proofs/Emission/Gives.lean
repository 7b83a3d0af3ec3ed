import Untangle.Structuring

namespace Untangle
namespace Emission

def Gives (emission : Emission α) (before : Progress) (result : α) (after : Progress) : Prop :=
  StateT.run (ExceptT.run emission) before = (.ok result,after)

theorem gives_pure {value : α} :
    Gives (pure value) before result after ↔ result = value ∧ after = before := by
  unfold Gives
  constructor
  · intro same
    cases same
    exact ⟨rfl,rfl⟩
  · rintro ⟨rfl,rfl⟩
    rfl

theorem gives_bind {first : Emission α} {next : α → Emission β} :
    Gives (first >>= next) before result after ↔
      ∃ value middle, Gives first before value middle ∧ Gives (next value) middle result after := by
  unfold Gives
  rw [ExceptT.run_bind,StateT.run_bind]
  change (match StateT.run (ExceptT.run first) before with
    | (outcome,middle) => _) = _ ↔ _
  rcases StateT.run (ExceptT.run first) before with ⟨cause | value,middle⟩
  · constructor
    · intro same
      cases same
    · rintro ⟨_,_,same,_⟩
      cases same
  · constructor
    · intro same
      exact ⟨value,middle,rfl,same⟩
    · rintro ⟨_,_,same,rest⟩
      cases same
      exact rest

theorem gives_throw {cause : StructureError} :
    ¬Gives (throw cause : Emission α) before result after := by
  intro same
  cases same

theorem gives_get {rest : Progress → Emission α} :
    Gives (get >>= rest) before result after ↔ Gives (rest before) before result after := Iff.rfl

theorem gives_modify {change : Progress → Progress} :
    Gives (modify change) before result after ↔ after = change before := by
  unfold Gives
  constructor
  · intro same
    cases same
    rfl
  · rintro rfl
    rfl

theorem gives_set {value : Progress} :
    Gives (set value) before result after ↔ after = value := by
  unfold Gives
  constructor
  · intro same
    cases same
    rfl
  · rintro rfl
    rfl

theorem gives_log : Gives (log event) before done after ↔
    after = {before with events:=before.events ++ [event]} := gives_modify

theorem gives_enter : Gives (enter header) before done after ↔
    after = {before with entered:=header :: before.entered} := gives_modify

theorem gives_openRange : Gives (openRange index) before done after ↔
    after = {before with opened:=index :: before.opened} := gives_modify

theorem gives_take : Gives (take block) before done after ↔
    block ∉ before.taken ∧ after = {before with taken:=block :: before.taken} := by
  unfold take
  rw [gives_get]
  split
  · rename_i taken
    simp [gives_throw,taken]
  · rename_i fresh
    simp [gives_set,fresh]

theorem gives_declare {id : BreakableId} : Gives (declare kind) before id after ↔
    id = before.registry.breakables.length ∧
      after = {before with registry:=(before.registry.declare kind).2} := by
  unfold declare
  rw [gives_get]
  simp only [gives_bind,gives_set,gives_pure]
  constructor
  · rintro ⟨_,_,rfl,rfl,rfl⟩
    exact ⟨rfl,rfl⟩
  · rintro ⟨rfl,rfl⟩
    exact ⟨(),_,rfl,rfl,rfl⟩

theorem gives_markFor {id : BreakableId} : Gives (markFor id header) before done after ↔
    ∃ registry, before.registry.setKind id .forLoop = .ok registry ∧ after = {before with registry} := by
  unfold markFor
  rw [gives_get]
  split
  · rename_i failed
    simp [gives_throw,failed]
  · rename_i registry marked
    simp [gives_set,marked]

theorem gives_demand : Gives (demand block statement) before built after ↔
    statement.check = .ok () ∧ built = statement ∧ after = before := by
  unfold demand
  split
  · rename_i failed
    simp [gives_throw,failed]
  · rename_i passed
    simp [gives_pure,passed]

theorem gives_checkConstruct (gives : Gives (checkConstruct settings scope statement) before done after) :
    after = before := by
  unfold checkConstruct at gives
  rw [gives_get] at gives
  split at gives
  · split at gives
    · exact absurd gives gives_throw
    · exact (gives_pure.mp gives).2
  · exact (gives_pure.mp gives).2

theorem gives_jump (gives : Gives (jump source resolved out) before result after) :
    ∃ registry brk events,
      (before.registry.newBreak resolved.kind).2.register resolved.context.id
        (before.registry.newBreak resolved.kind).1 = .ok (registry,brk) ∧
      result = out ++ [.jump {brk with nested:=resolved.nested}] ∧
      after = {before with registry,events} := by
  unfold jump at gives
  rw [gives_get] at gives
  dsimp only at gives
  split at gives
  · exact absurd gives gives_throw
  · rename_i registry brk registered
    simp only [gives_bind,gives_set,gives_log,gives_pure] at gives
    obtain ⟨_,_,rfl,_,_,rfl,rfl,rfl⟩ := gives
    exact ⟨registry,brk,_,registered,rfl,rfl⟩

theorem gives_flowTo (gives : Gives (flowTo scope source target stop out) before onward after) :
    (some target = stop ∧ onward = (out,none) ∧ after = before) ∨
    (some target ≠ stop ∧ ∃ resolved result, resolveJump? target scope.contexts = some resolved ∧
      Gives (jump source resolved out) before result after ∧ onward = (result,none)) ∨
    (some target ≠ stop ∧ resolveJump? target scope.contexts = none ∧ scope.inRegion target = true ∧
      target ∉ before.taken ∧ onward = (out,some target) ∧ after = before) := by
  unfold flowTo at gives
  split at gives
  · rename_i stops
    obtain ⟨rfl,rfl⟩ := gives_pure.mp gives
    exact Or.inl ⟨stops,rfl,rfl⟩
  · rename_i goes
    split at gives
    · rename_i resolved found
      obtain ⟨result,middle,jumped,rest⟩ := gives_bind.mp gives
      obtain ⟨rfl,rfl⟩ := gives_pure.mp rest
      exact Or.inr (Or.inl ⟨goes,resolved,result,found,jumped,rfl⟩)
    · rename_i unresolved
      rw [gives_get] at gives
      split at gives
      · rename_i within
        obtain ⟨rfl,rfl⟩ := gives_pure.mp gives
        exact Or.inr (Or.inr ⟨goes,unresolved,within.1,within.2,rfl,rfl⟩)
      · exact absurd gives gives_throw

theorem gives_arm (gives : Gives (arm emit scope source target stop) before body after) :
    ∃ start next middle, Gives (flowTo scope source target stop []) before (start,next) middle ∧
      Gives (sequence emit scope next stop start) middle body after := by
  unfold arm at gives
  obtain ⟨⟨start,next⟩,middle,flowed,rest⟩ := gives_bind.mp gives
  exact ⟨start,next,middle,flowed,rest⟩

end Emission

theorem resolveJump_sound (resolves : resolveJump? target contexts = some resolved) :
    resolved.context ∈ contexts ∧
      match resolved.kind with
      | .break => resolved.context.breakTarget = some target
      | .continue => resolved.context.continueTarget = some target := by
  induction contexts generalizing resolved with
  | nil => cases resolves
  | cons context outer ih =>
    unfold resolveJump? at resolves
    split at resolves
    · rename_i kind found
      cases resolves
      refine ⟨List.mem_cons_self,?_⟩
      unfold Context.jumpKind? at found
      split at found
      · rename_i continues
        cases found
        exact continues
      · split at found
        · rename_i breaks
          cases found
          exact breaks
        · cases found
    · obtain ⟨inner,further,rfl⟩ := Option.map_eq_some_iff.mp resolves
      obtain ⟨member,leads⟩ := ih further
      exact ⟨List.mem_cons_of_mem _ member,leads⟩

end Untangle
