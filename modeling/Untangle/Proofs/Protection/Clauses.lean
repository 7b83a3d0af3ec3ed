import Mathlib.Data.List.Induction
import Mathlib.Data.List.Nodup
import Untangle.Structuring.Protection

namespace Untangle

-- Nothing else comes between two of a kind.
def Unbroken (items : List BlockId) : Prop := ∀ one middle, [one,middle,one].Sublist items → middle = one

section Unbroken
variable {seen kept : List BlockId} {handler : BlockId}

theorem sublist_grown (items : List BlockId) {last : BlockId} : (items ++ [last]).Sublist (seen ++ [handler]) ↔
    (items ++ [last]).Sublist seen ∨ items.Sublist seen ∧ last = handler := by
  rw [← List.reverse_sublist,List.reverse_concat,List.reverse_concat,List.sublist_cons_iff]
  constructor
  · rintro (whole | ⟨rest,same,within⟩)
    · exact Or.inl (List.reverse_sublist.mp (by simpa using whole))
    · obtain ⟨rfl,rfl⟩ := List.cons.inj same
      exact Or.inr ⟨List.reverse_sublist.mp within,rfl⟩
  · rintro (whole | ⟨within,rfl⟩)
    · exact Or.inl (by simpa using List.reverse_sublist.mpr whole)
    · exact Or.inr ⟨_,rfl,List.reverse_sublist.mpr within⟩

theorem unbroken_grown : Unbroken (seen ++ [handler]) ↔
    Unbroken seen ∧ (handler ∈ seen → seen.getLast? = some handler) := by
  have ends {one middle : BlockId} : [one,middle,one].Sublist (seen ++ [handler]) ↔
      [one,middle,one].Sublist seen ∨ [one,middle].Sublist seen ∧ one = handler :=
    sublist_grown [one,middle]
  constructor
  · intro unbroken
    refine ⟨fun one middle within => unbroken one middle (ends.mpr (Or.inl within)),?_⟩
    intro known
    rcases List.eq_nil_or_concat' seen with rfl | ⟨front,last,rfl⟩
    · cases known
    · rw [List.getLast?_append,List.getLast?_singleton,Option.some_or,Option.some.injEq]
      rcases List.mem_append.mp known with earlier | here
      · have pair : [handler,last].Sublist (front ++ [last]) :=
          (List.singleton_sublist.mpr earlier).append (List.Sublist.refl [last])
        exact unbroken handler last (ends.mpr (Or.inr ⟨pair,rfl⟩))
      · exact (List.mem_singleton.mp here).symm
  · intro ⟨unbroken,last⟩ one middle within
    rcases ends.mp within with earlier | ⟨pair,rfl⟩
    · exact unbroken one middle earlier
    · obtain ⟨front,rfl⟩ := List.getLast?_eq_some_iff.mp (last (pair.subset List.mem_cons_self))
      rcases (sublist_grown [one]).mp pair with earlier | ⟨_,same⟩
      · exact unbroken one middle (earlier.append (List.Sublist.refl [one]))
      · exact same

-- What is kept of a list that says every kind once, as often as it comes in one piece.
structure Squeezed (seen kept : List BlockId) : Prop where
  once : kept.Nodup
  same : ∀ handler, handler ∈ kept ↔ handler ∈ seen
  last : kept.getLast? = seen.getLast?

theorem unbroken_nil : Unbroken [] := fun _ _ within => nomatch List.sublist_nil.mp within

theorem squeezed_nil : Squeezed [] [] := ⟨List.nodup_nil,by simp,rfl⟩

namespace Squeezed

theorem settled (squeezed : Squeezed seen kept) :
    handler ∈ kept.dropLast ↔ handler ∈ seen ∧ seen.getLast? ≠ some handler := by
  rw [← squeezed.same,← squeezed.last]
  rcases List.eq_nil_or_concat' kept with rfl | ⟨front,last,rfl⟩
  · simp
  · have apart := (List.nodup_append.mp squeezed.once).2.2
    simp only [List.dropLast_concat,List.mem_append,List.mem_singleton,List.getLast?_append,List.getLast?_singleton,
      Option.some_or,ne_eq,Option.some.injEq]
    constructor
    · intro earlier
      exact ⟨Or.inl earlier,fun same => apart handler earlier last List.mem_cons_self same.symm⟩
    · rintro ⟨earlier | same,other⟩
      · exact earlier
      · exact absurd same.symm other

theorem merges (squeezed : Squeezed seen kept) (last : kept.getLast? = some handler) :
    Squeezed (seen ++ [handler]) kept where
  once := squeezed.once
  same other := by
    rw [squeezed.same,List.mem_append,List.mem_singleton]
    refine ⟨Or.inl,?_⟩
    rintro (known | rfl)
    · exact known
    · exact (squeezed.same _).mp (List.mem_of_getLast? last)
  last := by rw [last,List.getLast?_append,List.getLast?_singleton,Option.some_or]

theorem grows (squeezed : Squeezed seen kept) (fresh : handler ∉ kept) :
    Squeezed (seen ++ [handler]) (kept ++ [handler]) where
  once := List.nodup_append.mpr ⟨squeezed.once,List.nodup_singleton _,by
    intro other known new last same
    cases List.mem_singleton.mp last
    exact fresh (same ▸ known)⟩
  same other := by rw [List.mem_append,List.mem_append,squeezed.same]
  last := by rw [List.getLast?_append,List.getLast?_append]; rfl

end Squeezed
end Unbroken

namespace TryRegion
variable {row : ProtectedRange} {rows : List ProtectedRange} {clauses clauses' : List CatchGroup}

theorem addClause_splits (added : addClause row clauses = .ok clauses') :
    (∃ front last, clauses = front ++ [last] ∧ last.handler = row.handler ∧
        clauses' = front ++ [last.add row.caught]) ∨
      clauses' = clauses ++ [(CatchGroup.start row.handler).add row.caught] := by
  induction clauses generalizing clauses' with
  | nil =>
    cases added
    exact Or.inr rfl
  | cons group rest ih =>
    cases rest with
    | nil =>
      unfold addClause at added
      split at added
      · rename_i same
        cases added
        exact Or.inl ⟨[],group,rfl,same,rfl⟩
      · cases added
        exact Or.inr rfl
    | cons second rest =>
      unfold addClause at added
      split at added
      · cases added
      · cases more : addClause row (second :: rest) with
        | error cause =>
          rw [more] at added
          cases added
        | ok others =>
          rw [more] at added
          cases added
          rcases ih more with ⟨front,last,splits,same,rfl⟩ | rfl
          · exact Or.inl ⟨group :: front,last,by rw [splits]; rfl,same,rfl⟩
          · exact Or.inr rfl

theorem handler_add (group : CatchGroup) (caught : Option String) : (group.add caught).handler = group.handler := by
  unfold CatchGroup.add
  split
  · rfl
  · split <;> rfl

theorem addClause_ok_iff :
    (∃ clauses', addClause row clauses = .ok clauses') ↔ row.handler ∉ (clauses.map (·.handler)).dropLast := by
  induction clauses with
  | nil => simp [addClause]
  | cons group rest ih =>
    cases rest with
    | nil =>
      unfold addClause
      split <;> simp
    | cons second rest =>
      unfold addClause
      rw [List.map_cons,List.dropLast_cons_of_ne_nil (by simp),List.mem_cons,not_or,← ih]
      split
      · rename_i same
        simp [same]
      · rename_i apart
        cases addClause row (second :: rest) with
        | error cause => simp [Except.map]
        | ok more => simp [Except.map,Ne.symm apart]

theorem handlers_added (added : addClause row clauses = .ok clauses') : clauses'.map (·.handler) =
    if (clauses.map (·.handler)).getLast? = some row.handler then clauses.map (·.handler)
    else clauses.map (·.handler) ++ [row.handler] := by
  induction clauses generalizing clauses' with
  | nil =>
    cases added
    simp [handler_add,CatchGroup.start]
  | cons group rest ih =>
    cases rest with
    | nil =>
      unfold addClause at added
      split at added <;> cases added <;> rename_i same <;> simp [handler_add,CatchGroup.start,same]
    | cons second rest =>
      unfold addClause at added
      split at added
      · cases added
      · cases more : addClause row (second :: rest) with
        | error cause =>
          rw [more] at added
          cases added
        | ok others =>
          rw [more] at added
          cases added
          rw [List.map_cons,ih more]
          simp only [List.map_cons,List.getLast?_cons_cons]
          split <;> rfl

def clausesOf (rows : List ProtectedRange) : Except StructureError (List CatchGroup) :=
  rows.foldlM (fun clauses row => addClause row clauses) []

theorem clausesOf_append : clausesOf (rows ++ [row]) = (clausesOf rows).bind (addClause row) := by
  unfold clausesOf
  rw [List.foldlM_append]
  refine congrArg _ (funext fun clauses => ?_)
  rw [List.foldlM_cons]
  cases addClause row clauses <;> rfl

theorem clausesOf_grown (made : clausesOf (rows ++ [row]) = .ok clauses') :
    ∃ clauses, clausesOf rows = .ok clauses ∧ addClause row clauses = .ok clauses' := by
  rw [clausesOf_append] at made
  cases first : clausesOf rows with
  | error cause =>
    rw [first] at made
    cases made
  | ok clauses =>
    rw [first] at made
    exact ⟨clauses,rfl,made⟩

theorem clausesOf_ok (made : clausesOf rows = .ok clauses) :
    Unbroken (rows.map (·.handler)) ∧ Squeezed (rows.map (·.handler)) (clauses.map (·.handler)) := by
  induction rows using List.reverseRecOn generalizing clauses with
  | nil =>
    cases made
    exact ⟨unbroken_nil,squeezed_nil⟩
  | append_singleton rows row ih =>
    obtain ⟨earlier,first,added⟩ := clausesOf_grown made
    obtain ⟨unbroken,squeezed⟩ := ih first
    have open_ := addClause_ok_iff.mp ⟨clauses,added⟩
    rw [squeezed.settled,not_and,not_not] at open_
    rw [List.map_append,List.map_singleton,handlers_added added]
    refine ⟨unbroken_grown.mpr ⟨unbroken,open_⟩,?_⟩
    split
    · rename_i last
      exact squeezed.merges last
    · rename_i other
      refine squeezed.grows fun known => other ?_
      rw [squeezed.last]
      exact open_ ((squeezed.same _).mp known)

theorem clausesOf_exists (unbroken : Unbroken (rows.map (·.handler))) : ∃ clauses, clausesOf rows = .ok clauses := by
  induction rows using List.reverseRecOn with
  | nil => exact ⟨[],rfl⟩
  | append_singleton rows row ih =>
    rw [List.map_append,List.map_singleton] at unbroken
    obtain ⟨earlier,open_⟩ := unbroken_grown.mp unbroken
    obtain ⟨clauses,first⟩ := ih earlier
    rw [clausesOf_append,first]
    apply addClause_ok_iff.mpr
    rw [(clausesOf_ok first).2.settled]
    exact fun ⟨known,other⟩ => other (open_ known)

end TryRegion
end Untangle
