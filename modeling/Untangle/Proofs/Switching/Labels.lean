import Mathlib.Data.List.Nodup
import Untangle.Proofs.Switching.Dispatch
import Untangle.Proofs.Switching.Order
import Untangle.Tree.Statement

namespace Untangle

theorem follow_once {links : ArmLinks} {placed : List Nat} {count arm : Nat} (once : placed.Nodup)
    (within : ∀ index ∈ placed, index < count) :
    (links.follow count placed arm).Nodup ∧ ∀ index ∈ links.follow count placed arm, index < count := by
  fun_induction ArmLinks.follow count links placed arm with
  | case1 placed arm fresh =>
    exact ⟨List.nodup_cons.mpr ⟨fresh.2,once⟩,List.forall_mem_cons.mpr ⟨fresh.1,within⟩⟩
  | case2 placed arm fresh next _ ih =>
    exact ih (List.nodup_cons.mpr ⟨fresh.2,once⟩) (List.forall_mem_cons.mpr ⟨fresh.1,within⟩)
  | case3 placed arm _ => exact ⟨once,within⟩

theorem armOrder_perm (graph : BlockGraph) (dominates : BlockId → BlockId → Bool) (block : BlockId)
    (arms : List PendingArm) : (armOrder graph dominates block arms).Perm (List.range arms.length) := by
  have once : (armOrder graph dominates block arms).Nodup ∧
      ∀ index ∈ armOrder graph dominates block arms, index < arms.length := by
    unfold armOrder
    dsimp only
    generalize ArmLinks.compute graph dominates block arms = links
    have all (starts placed : List Nat) (once : placed.Nodup) (within : ∀ index ∈ placed, index < arms.length) :
        let last := starts.foldl (fun placed start =>
          if start ∈ placed then placed
          else links.follow arms.length placed (links.head placed start (arms.length + 1))) placed
        last.Nodup ∧ ∀ index ∈ last, index < arms.length := by
      induction starts generalizing placed with
      | nil => exact ⟨once,within⟩
      | cons start starts ih =>
        simp only [List.foldl_cons]
        split
        · exact ih placed once within
        · obtain ⟨once,within⟩ := follow_once once within
          exact ih _ once within
    obtain ⟨once,within⟩ := all (List.range arms.length) [] List.nodup_nil (by simp)
    exact ⟨List.nodup_reverse.mpr once,fun index member => within index (List.mem_reverse.mp member)⟩
  refine (List.perm_ext_iff_of_nodup once.1 List.nodup_range).mpr fun index => ?_
  rw [List.mem_range]
  exact ⟨once.2 index,fun inside => mem_armOrder inside⟩

theorem ordered_perm (graph : BlockGraph) (dominates : BlockId → BlockId → Bool) (block : BlockId)
    (arms : List PendingArm) : ((armOrder graph dominates block arms).filterMap (arms[·]?)).Perm arms := by
  have same : (List.range arms.length).filterMap (arms[·]?) = arms := by
    clear graph dominates block
    induction arms with
    | nil => rfl
    | cons first rest ih =>
      rw [List.length_cons,List.range_succ_eq_map,List.filterMap_cons,List.filterMap_map]
      exact congrArg (first :: ·) ih
  exact ((armOrder_perm graph dominates block arms).filterMap _).trans (.of_eq same)

namespace PendingArm
variable {arms : List PendingArm} {cases : List (Int32 × BlockId)} {default : BlockId} {merge : Option BlockId}

theorem addCase_labels (label : Int32) (target : BlockId) (exits : Bool) :
    ((addCase label target exits arms).flatMap (·.labels)).Perm (label :: arms.flatMap (·.labels)) := by
  induction arms with
  | nil => simp [addCase]
  | cons first rest ih =>
    unfold addCase
    split
    · simp only [List.flatMap_cons,List.append_assoc,List.singleton_append]
      exact List.perm_middle
    · simp only [List.flatMap_cons]
      exact (ih.append_left _).trans List.perm_middle

theorem addDefault_labels (target : BlockId) :
    (addDefault target arms).flatMap (·.labels) = arms.flatMap (·.labels) := by
  induction arms with
  | nil => rfl
  | cons first rest ih =>
    unfold addDefault
    split <;> simp [ih]

theorem addDefault_count (target : BlockId) (plain : ∀ arm ∈ arms, arm.isDefault = false) :
    (addDefault target arms).countP (·.isDefault) = 1 := by
  induction arms with
  | nil => rfl
  | cons first rest ih =>
    have others : rest.countP (·.isDefault) = 0 :=
      List.countP_eq_zero.mpr fun arm member => by simp [plain arm (List.mem_cons_of_mem _ member)]
    unfold addDefault
    split
    · simp [others]
    · have here := plain first List.mem_cons_self
      simpa [List.countP_cons,here] using ih fun arm member => plain arm (List.mem_cons_of_mem _ member)

theorem group_once (default : BlockId) (merge : Option BlockId) (distinct : (cases.map (·.1)).Nodup) :
    ((group cases default merge).flatMap (·.labels)).Nodup ∧
      (group cases default merge).countP (·.isDefault) ≤ 1 := by
  unfold group
  dsimp only
  have empty : Sorted [] merge default [] := ⟨by simp,by simp,by simp,by simp⟩
  have plain := (sorted_cases [] cases empty (by simp)).2
  have once {add : List PendingArm → Int32 × BlockId → List PendingArm} (adds : ∀ arms row, add arms row =
        if merge == some row.2 && merge == some default then arms else addCase row.1 row.2 (merge == some row.2) arms)
      (rows : List (Int32 × BlockId)) (arms : List PendingArm)
      (apart : (arms.flatMap (·.labels) ++ rows.map (·.1)).Nodup) :
      ((rows.foldl add arms).flatMap (·.labels)).Nodup := by
    induction rows generalizing arms with
    | nil => simpa using apart
    | cons row rows ih =>
      rw [List.foldl_cons,adds]
      split
      · refine ih arms (apart.sublist ?_)
        exact (List.Sublist.refl _).append (List.sublist_cons_self _ _)
      · refine ih _ ((((addCase_labels row.1 row.2 _).append_right _).nodup_iff).mpr ?_)
        exact (List.perm_middle.nodup_iff).mp apart
  have labels := once (fun _ _ => rfl) cases [] (by simpa using distinct)
  generalize cases.foldl _ _ = arms at plain labels ⊢
  split
  · have none : List.countP (·.isDefault) arms = 0 :=
      List.countP_eq_zero.mpr fun arm member => by simp [plain arm member]
    exact ⟨labels,none ▸ Nat.zero_le 1⟩
  · exact ⟨by rwa [addDefault_labels],Nat.le_of_eq (addDefault_count default plain)⟩

end PendingArm

theorem checkLabels_ok {seen labels : List Int32} (once : (labels ++ seen).Nodup) :
    ∃ later, checkLabels seen labels = .ok later ∧ later.Perm (labels ++ seen) := by
  induction labels generalizing seen with
  | nil => exact ⟨seen,rfl,.refl _⟩
  | cons label rest ih =>
    obtain ⟨apart,more⟩ := List.nodup_cons.mp once
    have fresh : label ∉ seen := fun known => apart (List.mem_append_right _ known)
    obtain ⟨later,checked,perm⟩ := ih (List.perm_middle.nodup_iff.mpr once)
    refine ⟨later,?_,perm.trans List.perm_middle⟩
    rw [checkLabels,if_neg fresh]
    exact checked

theorem checkArms_ok {seen : List Int32} {hasDefault : Bool} {arms : List SwitchArm}
    (once : (arms.flatMap (·.labels) ++ seen).Nodup)
    (single : arms.countP (·.isDefault) + (if hasDefault then 1 else 0) ≤ 1) :
    checkArms seen hasDefault arms = .ok () := by
  induction arms generalizing seen hasDefault with
  | nil => rfl
  | cons arm rest ih =>
    rw [List.flatMap_cons,List.append_assoc] at once
    rw [List.countP_cons] at single
    have refused : ¬(arm.isDefault && hasDefault) = true := by
      intro both
      obtain ⟨one,two⟩ := Bool.and_eq_true_iff.mp both
      rw [one,two] at single
      simp only [if_true] at single
      omega
    have front : (arm.labels ++ seen).Nodup :=
      once.sublist ((List.Sublist.refl _).append (List.sublist_append_right _ _))
    obtain ⟨later,checked,perm⟩ := checkLabels_ok front
    rw [checkArms,if_neg refused,checked]
    refine ih ?_ ?_
    · refine ((perm.append_left _).nodup_iff).mpr ?_
      refine (List.Perm.nodup_iff ?_).mp once
      rw [← List.append_assoc,← List.append_assoc]
      exact List.perm_append_comm.append_right _
    · cases here : arm.isDefault <;> cases hasDefault <;> simp_all

theorem built_once {cases : List (Int32 × BlockId)} {default : BlockId} {merge : Option BlockId}
    {order : List PendingArm} {built : List SwitchArm} (distinct : (cases.map (·.1)).Nodup)
    (perm : order.Perm (PendingArm.group cases default merge))
    (labels : built.map (·.labels) = order.map (·.emitted)) :
    (built.flatMap (·.labels)).Nodup ∧ built.countP (·.isDefault) ≤ 1 := by
  obtain ⟨once,single⟩ := PendingArm.group_once default merge distinct
  have labelled := (PendingArm.sorted_group cases default merge).1.labelled
  have known : ∀ arm ∈ order, arm.isDefault = false → arm.labels ≠ [] :=
    fun arm member => labelled arm (perm.mem_iff.mp member)
  have once' : (order.flatMap (·.labels)).Nodup := ((perm.flatMap_right _).nodup_iff).mpr once
  have single' : order.countP (·.isDefault) ≤ 1 := Nat.le_trans (Nat.le_of_eq (perm.countP_eq _)) single
  have kept : built.flatMap (·.labels) = order.flatMap (·.emitted) := by
    rw [List.flatMap_def,List.flatMap_def,labels]
  have fewer : (order.flatMap (·.emitted)).Sublist (order.flatMap (·.labels)) := by
    clear labels perm known once' single' kept
    induction order with
    | nil => exact List.Sublist.refl _
    | cons arm rest ih =>
      simp only [List.flatMap_cons]
      refine List.Sublist.append ?_ ih
      unfold PendingArm.emitted
      split
      · exact List.nil_sublist _
      · exact List.Sublist.refl _
  have defaults : built.countP (·.isDefault) = order.countP (·.isDefault) := by
    have first : built.countP (·.isDefault) = (built.map (·.labels)).countP List.isEmpty := by
      rw [List.countP_map]
      rfl
    rw [first,labels,List.countP_map]
    refine List.countP_congr fun arm member => ?_
    unfold PendingArm.emitted
    cases here : arm.isDefault with
    | true => simp [here]
    | false => simp [here,known arm member here]
  exact ⟨kept ▸ once'.sublist fewer,defaults ▸ single'⟩

theorem switch_arms_ok {cases : List (Int32 × BlockId)} (graph : BlockGraph) (dominates : BlockId → BlockId → Bool)
    (block default : BlockId) (merge : Option BlockId) (built : List SwitchArm)
    (distinct : (cases.map (·.1)).Nodup)
    (labels : built.map (·.labels) = ((armOrder graph dominates block (PendingArm.group cases default merge)).filterMap
      ((PendingArm.group cases default merge)[·]?)).map (·.emitted)) : checkArms [] false built = .ok () := by
  have perm := ordered_perm graph dominates block (PendingArm.group cases default merge)
  obtain ⟨once,single⟩ := built_once distinct perm labels
  exact checkArms_ok (by simpa using once) (by simpa using single)

end Untangle
