import Mathlib.Data.List.TakeWhile
import Untangle.Proofs.Emission.Inversion
import Untangle.Proofs.Running.Meaning
import Untangle.Proofs.Switching.Labels

namespace Untangle

namespace PendingArm
variable {arms : List PendingArm} {arm : PendingArm} {cases : List (Int32 × BlockId)} {default : BlockId}
  {merge : Option BlockId}

theorem entries_grown {add : List PendingArm → List PendingArm} {target : BlockId}
    (last : (add []).map (·.entry) = [target])
    (step : ∀ first rest, (add (first :: rest)).map (·.entry) =
      first.entry :: if first.entry = target then rest.map (·.entry) else (add rest).map (·.entry))
    (arms : List PendingArm) : (add arms).map (·.entry) =
      if target ∈ arms.map (·.entry) then arms.map (·.entry) else arms.map (·.entry) ++ [target] := by
  induction arms with
  | nil => exact last
  | cons first rest ih =>
    rw [step,ih]
    by_cases same : first.entry = target
    · simp [same]
    · simp only [same,Ne.symm same,List.map_cons,List.mem_cons,false_or,if_false]
      split <;> rfl

theorem addCase_entries (label : Int32) (target : BlockId) (exits : Bool) :
    (addCase label target exits arms).map (·.entry) =
      if target ∈ arms.map (·.entry) then arms.map (·.entry) else arms.map (·.entry) ++ [target] :=
  entries_grown rfl (fun first rest => by rw [addCase]; split <;> rfl) arms

theorem addDefault_entries (target : BlockId) :
    (addDefault target arms).map (·.entry) =
      if target ∈ arms.map (·.entry) then arms.map (·.entry) else arms.map (·.entry) ++ [target] :=
  entries_grown rfl (fun first rest => by rw [addDefault]; split <;> rfl) arms

theorem entries_once {target : BlockId} {entries : List BlockId} (once : entries.Nodup) :
    (if target ∈ entries then entries else entries ++ [target]).Nodup := by
  split
  · exact once
  · rename_i fresh
    exact List.nodup_append_comm.mp (List.nodup_cons.mpr ⟨fresh,once⟩)

theorem group_entries (cases : List (Int32 × BlockId)) (default : BlockId) (merge : Option BlockId) :
    ((group cases default merge).map (·.entry)).Nodup ∧
      (merge = some default → default ∉ (group cases default merge).map (·.entry)) := by
  unfold group
  dsimp only
  generalize folded : cases.foldl _ _ = arms
  have kept : (arms.map (·.entry)).Nodup ∧ (merge = some default → default ∉ arms.map (·.entry)) := by
    rw [← folded]
    refine List.foldlRecOn (motive := fun (arms : List PendingArm) => (arms.map (·.entry)).Nodup ∧
      (merge = some default → default ∉ arms.map (·.entry))) cases _ ?_ ?_
    · exact ⟨List.nodup_nil,fun _ => List.not_mem_nil⟩
    rintro arms ⟨once,apart⟩ ⟨label,target⟩ _
    dsimp only
    split
    · exact ⟨once,apart⟩
    · rename_i some_
      rw [addCase_entries]
      refine ⟨entries_once once,fun direct member => ?_⟩
      have other : target ≠ default := by
        rintro rfl
        simp [direct] at some_
      split at member
      · exact apart direct member
      · rcases List.mem_append.mp member with old | new
        · exact apart direct old
        · exact other (List.mem_singleton.mp new).symm
  split
  · exact kept
  · rename_i apart
    rw [addDefault_entries]
    exact ⟨entries_once kept.1,fun direct => absurd (beq_iff_eq.mpr direct) apart⟩

theorem group_misses_iff (distinct : (cases.map (·.1)).Nodup) (value : Int32) :
    (∀ arm ∈ group cases default merge, value ∉ arm.emitted ∧ arm.emitted ≠ []) ↔
      merge = some ((cases.lookup value).getD default) ∧ merge = some default := by
  obtain ⟨sorted,marked⟩ := sorted_group cases default merge
  constructor
  · intro missed
    refine ⟨(group_dispatches distinct value).2 missed,Decidable.byContradiction fun other => ?_⟩
    obtain ⟨arm,member,shape⟩ := marked other
    exact (missed arm member).2 (by simp [emitted,shape])
  · rintro ⟨leaves,direct⟩ arm member
    constructor
    · intro listed
      have entry : arm.entry = default :=
        ((group_dispatches distinct value).1 arm member (Or.inl listed)).trans (Option.some.inj (leaves.symm.trans direct))
      have here : arm.entry ∈ (group cases default merge).map (·.entry) := List.mem_map_of_mem member
      exact (group_entries cases default merge).2 direct (entry ▸ here)
    · cases shape : arm.isDefault with
      | true => exact absurd direct (sorted.marked arm member shape).2
      | false => simpa [emitted,shape] using sorted.labelled arm member shape

end PendingArm

namespace SwitchArm
variable {arms : List SwitchArm} {arm : SwitchArm} {order : List PendingArm} {value : Int32}

def chosen? (arms : List SwitchArm) (value : Int32) : Option SwitchArm :=
  (arms.find? (value ∈ ·.labels)).or (arms.find? (·.isDefault))

theorem select_head? : (select arms value).head? = chosen? arms value := by
  have listing : arms.find? (value ∈ ·.labels) = (arms.dropWhile (value ∉ ·.labels)).head? := by
    rw [List.find?_eq_head?_dropWhile_not]
    simp only [decide_not]
  unfold select chosen?
  rw [listing,List.find?_eq_head?_dropWhile_not]
  split
  · rename_i none
    rw [none]
    rfl
  · rename_i found _
    cases found : arms.dropWhile (value ∉ ·.labels) with
    | nil => contradiction
    | cons first rest => rfl

theorem chosen_none_iff (labels : arms.map (·.labels) = order.map (·.emitted)) :
    chosen? arms value = none ↔ ∀ pending ∈ order, value ∉ pending.emitted ∧ pending.emitted ≠ [] := by
  have same (test : List Int32 → Prop) : (∀ arm ∈ arms, test arm.labels) ↔ ∀ pending ∈ order, test pending.emitted := by
    rw [← List.forall_mem_map (f := SwitchArm.labels),← List.forall_mem_map (f := PendingArm.emitted),labels]
  simp only [chosen?,Option.or_eq_none_iff,List.find?_eq_none,decide_eq_true_eq,forall_and]
  refine and_congr (same (value ∉ ·)) (Iff.trans ?_ (same (· ≠ [])))
  simp [isDefault]

theorem chosen_some (labels : arms.map (·.labels) = order.map (·.emitted)) (found : chosen? arms value = some arm) :
    ∃ (index : Nat) (pending : PendingArm), arms[index]? = some arm ∧ order[index]? = some pending ∧
      (value ∈ pending.emitted ∨ (pending.emitted = [] ∧ ∀ other ∈ order, value ∉ other.emitted)) := by
  have member : arm ∈ arms := by
    rcases Option.or_eq_some_iff.mp found with listing | ⟨_,marked⟩
    · exact List.mem_of_find?_eq_some listing
    · exact List.mem_of_find?_eq_some marked
  obtain ⟨index,here⟩ := List.mem_iff_getElem?.mp member
  have there : (order.map (·.emitted))[index]? = some arm.labels := by
    rw [← labels,List.getElem?_map,here]
    rfl
  rw [List.getElem?_map] at there
  obtain ⟨pending,at_,same⟩ := Option.map_eq_some_iff.mp there
  refine ⟨index,pending,here,at_,?_⟩
  rw [same]
  rcases Option.or_eq_some_iff.mp found with listing | ⟨unlisted,marked⟩
  · exact Or.inl (by simpa using List.find?_some listing)
  · refine Or.inr ⟨by simpa [isDefault] using List.find?_some marked,?_⟩
    have unlisted : ∀ labels ∈ arms.map (·.labels), value ∉ labels := by
      simpa [List.find?_eq_none] using unlisted
    rw [labels] at unlisted
    exact fun other known => unlisted _ (List.mem_map_of_mem known)

end SwitchArm

open Emission Survey in
theorem emitArms_at {order : List PendingArm} {built : List SwitchArm} {before after : Progress}
    (gives : Gives (emitArms emit scope block stop order) before built after) :
    built.map (·.labels) = order.map (·.emitted) ∧
      ∀ index pending arm, order[index]? = some pending → built[index]? = some arm → ∃ middle later,
        Gives (Emission.arm emit scope block pending.entry ((order[index + 1]?.map (·.entry)).or stop))
          middle arm.body later := by
  induction order generalizing before built with
  | nil =>
    obtain ⟨rfl,_⟩ := emitArms_nil gives
    exact ⟨rfl,by simp⟩
  | cons current rest ih =>
    obtain ⟨body,middle,arms,first,others,rfl⟩ := emitArms_cons gives
    obtain ⟨labels,bodies⟩ := ih others
    refine ⟨by simp [labels],?_⟩
    rintro (_ | index) pending arm here there
    · cases here
      cases there
      rw [List.head?_eq_getElem?] at first
      exact ⟨_,_,first⟩
    · exact bodies index pending arm here there

open Emission Survey in
-- A value goes to the arm for its target in any order of the arms, and so in the one that they are emitted in. It
-- goes past the switch just if both its target and the default are the end. Each target has one arm, each label is
-- listed once, there is one default at most, and so the switch is refused for its discriminant only.
theorem switch_dispatches {cases : List (Int32 × BlockId)} (distinct : (cases.map (·.1)).Nodup) (default : BlockId)
    (merge : Option BlockId) :
    (∀ graph dominates block, ((armOrder graph dominates block (PendingArm.group cases default merge)).filterMap
        ((PendingArm.group cases default merge)[·]?)).Perm (PendingArm.group cases default merge)) ∧
      ∀ order, order.Perm (PendingArm.group cases default merge) →
        ∀ emit scope block stop before built after, Gives (emitArms emit scope block stop order) before built after →
          (∀ value, (SwitchArm.chosen? built value = none ↔
              merge = some ((cases.lookup value).getD default) ∧ merge = some default) ∧
            ∀ arm, SwitchArm.chosen? built value = some arm → ∃ index pending middle later,
              built[index]? = some arm ∧ order[index]? = some pending ∧
                pending.entry = (cases.lookup value).getD default ∧
                Gives (Emission.arm emit scope block pending.entry ((order[index + 1]?.map (·.entry)).or stop))
                  middle arm.body later) ∧
            (order.map (·.entry)).Nodup ∧ built.countP (·.isDefault) ≤ 1 ∧ (built.flatMap (·.labels)).Nodup ∧
            ∀ id discriminant, (Statement.switch id discriminant built).check =
              expect "discriminant" .numeric discriminant := by
  refine ⟨fun graph dominates block => ordered_perm graph dominates block _,?_⟩
  intro order perm emit scope block stop before built after gives
  obtain ⟨labels,bodies⟩ := emitArms_at gives
  obtain ⟨once,single⟩ := built_once distinct perm labels
  refine ⟨fun value => ⟨?_,?_⟩,((perm.map _).nodup_iff).mpr (PendingArm.group_entries cases default merge).1,
    single,once,?_⟩
  · rw [SwitchArm.chosen_none_iff labels,← PendingArm.group_misses_iff distinct value]
    simp only [perm.mem_iff]
  · intro arm found
    obtain ⟨index,pending,here,at_,chosen⟩ := SwitchArm.chosen_some labels found
    obtain ⟨middle,later,emitted⟩ := bodies index pending arm at_ here
    have member := perm.mem_iff.mp (List.mem_of_getElem? at_)
    simp only [perm.mem_iff] at chosen
    have entry := (PendingArm.group_dispatches distinct value).1 pending member chosen
    exact ⟨index,pending,middle,later,here,at_,entry,emitted⟩
  · intro id discriminant
    have passed : checkArms [] false built = .ok () := checkArms_ok (by simpa using once) (by simpa using single)
    rw [Statement.check,passed]
    cases expect "discriminant" .numeric discriminant <;> rfl

theorem leaving_dispatches : ∃ built after,
    Emission.Gives (Survey.emitArms (fun _ _ _ out => pure out) ⟨[2,3],[]⟩ 0 (some 9)
      (PendingArm.group [(1,2),(2,2),(3,3),(4,9)] 9 (some 9))) .start built after ∧
      built.map (·.labels) = [[1,2],[3]] ∧
      ∀ value, SwitchArm.chosen? built value = none ↔
        some 9 = some (([(1,2),(2,2),(3,3),(4,9)].lookup value).getD 9) := by
  have gives : Emission.Gives (Survey.emitArms (fun _ _ _ out => pure out) ⟨[2,3],[]⟩ 0 (some 9)
      (PendingArm.group [(1,2),(2,2),(3,3),(4,9)] 9 (some 9))) .start [⟨[1,2],[]⟩,⟨[3],[]⟩] .start := rfl
  have dispatches := (@switch_dispatches [(1,2),(2,2),(3,3),(4,9)] (by decide) 9 (some 9)).2 _ (.refl _)
    _ _ _ _ _ _ _ gives
  exact ⟨_,_,gives,rfl,fun value => by simpa using (dispatches.1 value).1⟩

end Untangle
