import Untangle.Structuring.Survey

namespace Untangle

theorem latestBy_mem {key : α → Nat} {items : List α} (found : latestBy key items = some item) : item ∈ items := by
  refine List.foldlRecOn (motive := fun best => ∀ item, best = some item → item ∈ items) items _ ?_ ?_ item found
  · simp
  intro best known next member item chosen
  split at chosen
  · cases chosen
    exact member
  · split at chosen
    · cases chosen
      exact member
    · exact known item chosen

theorem earliestBy_mem {key : α → Nat} {items : List α} (found : earliestBy key items = some item) : item ∈ items := by
  refine List.foldlRecOn (motive := fun best => ∀ item, best = some item → item ∈ items) items _ ?_ ?_ item found
  · simp
  intro best known next member item chosen
  split at chosen
  · cases chosen
    exact member
  · split at chosen
    · cases chosen
      exact member
    · exact known item chosen

theorem latestBy_greatest {key : α → Nat} {items : List α} (found : latestBy key items = some item) :
    ∀ other ∈ items, key other ≤ key item := by
  suffices all : ∀ (step : Option α → α → Option α), (∀ next, step none next = some next) →
      (∀ other next, step (some other) next = if key other ≤ key next then some next else some other) →
      ∀ (rest : List α) (best : Option α), rest.foldl step best = some item →
      (∀ other ∈ rest, key other ≤ key item) ∧ ∀ other, best = some other → key other ≤ key item from
    (all _ (fun _ => rfl) (fun _ _ => rfl) items none found).1
  intro step first later rest
  induction rest with
  | nil =>
    rintro best rfl
    exact ⟨by simp,fun other same => Nat.le_of_eq (by rw [Option.some.inj same])⟩
  | cons next rest ih =>
    intro best folded
    obtain ⟨behind,chosen⟩ := ih _ folded
    cases best with
    | none => exact ⟨List.forall_mem_cons.mpr ⟨chosen next (first next),behind⟩,by simp⟩
    | some other =>
      rw [later] at chosen
      split at chosen
      · rename_i under
        have here := chosen next rfl
        refine ⟨List.forall_mem_cons.mpr ⟨here,behind⟩,fun known same => ?_⟩
        cases same
        exact Nat.le_trans under here
      · have here := chosen other rfl
        refine ⟨List.forall_mem_cons.mpr ⟨by omega,behind⟩,fun known same => ?_⟩
        cases same
        exact here

theorem latestBy_none {key : α → Nat} {items : List α} (none : latestBy key items = none) : items = [] := by
  cases items with
  | nil => rfl
  | cons item rest =>
    have found : (latestBy key (item :: rest)).isSome = true := by
      refine List.foldlRecOn (motive := fun best => Option.isSome best = true) rest _ rfl ?_
      intro best known next _
      cases best with
      | none => cases known
      | some other =>
        dsimp only
        split <;> rfl
    rw [none] at found
    cases found

theorem Survey.mergePoint_cases {survey : Survey} (found : survey.mergePoint scope taken block stop = some target) :
    some target = stop ∨ (target ∉ taken ∧ scope.isJumpTarget target = false) ∧
      (survey.postDoms.immediate? block = some target ∨ target ∈ survey.doms.children block) := by
  unfold mergePoint at found
  dsimp only at found
  generalize joined : (survey.doms.children block).filter _ = joins at found
  have join (found : (latestBy survey.place joins).or stop = some target) :
      some target = stop ∨ (target ∉ taken ∧ scope.isJumpTarget target = false) ∧
        (survey.postDoms.immediate? block = some target ∨ target ∈ survey.doms.children block) := by
    cases latest : latestBy survey.place joins with
    | none =>
      rw [latest] at found
      exact Or.inl found.symm
    | some child =>
      rw [latest] at found
      cases found
      have listed := latestBy_mem latest
      rw [← joined] at listed
      obtain ⟨below,free⟩ := List.mem_filter.mp listed
      simp only [Bool.and_eq_true,decide_eq_true_eq,Bool.not_eq_true'] at free
      exact Or.inr ⟨⟨free.1.1.2,free.1.2⟩,Or.inr below⟩
  split at found
  · rename_i post behind
    split at found
    · rename_i free
      cases found
      simp only [Bool.and_eq_true,decide_eq_true_eq,Bool.not_eq_true'] at free
      exact Or.inr ⟨⟨free.1.2,free.2⟩,Or.inl behind⟩
    · exact join found
  · exact join found

theorem Survey.pendingTry_some {survey : Survey} (found : survey.pendingTry? opened block = some (range,index)) :
    survey.tries[index]? = some range ∧ range.first = block ∧ index ∉ opened := by
  obtain ⟨member,starts⟩ := List.mem_filter.mp (latestBy_mem found)
  simp only [Bool.and_eq_true,beq_iff_eq,decide_eq_true_eq] at starts
  exact ⟨List.mem_zipIdx_iff_getElem?.mp member,starts.1,starts.2⟩

theorem Survey.pendingTry_none {survey : Survey} (none : survey.pendingTry? opened block = none)
    (known : survey.tries[index]? = some range) (starts : range.first = block) : index ∈ opened := by
  by_cases fresh : index ∈ opened
  · exact fresh
  · have absent := List.eq_nil_iff_forall_not_mem.mp (latestBy_none none) (range,index)
    exact absurd (List.mem_filter.mpr ⟨List.mem_zipIdx_iff_getElem?.mpr known,by simp [starts,fresh]⟩) absent

theorem Survey.pendingTry_widest {survey : Survey} {index' : Nat} {wider : TryRegion}
    (found : survey.pendingTry? opened block = some (range,index)) (known : survey.tries[index']? = some wider)
    (starts : wider.first = block) (past : range.past < wider.past) : index' ∈ opened := by
  by_cases fresh : index' ∈ opened
  · exact fresh
  · have least := latestBy_greatest found (wider,index')
      (List.mem_filter.mpr ⟨List.mem_zipIdx_iff_getElem?.mpr known,by simp [starts,fresh]⟩)
    exact absurd least (Nat.not_le.mpr past)

end Untangle
