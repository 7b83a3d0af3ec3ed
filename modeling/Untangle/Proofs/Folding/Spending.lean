import Mathlib.Algebra.GroupWithZero.Nat
import Untangle.Proofs.Folding.Rules
import Untangle.Proofs.Rebuilding.Steps

namespace Untangle
open Rebuild

-- A pass that starts with `store` at hand pays one of it for each rule that it counts, and what it makes is
-- worth `left`. A pass that counted nothing made something that is `still` as it was.
def Spends (pass : FoldPass α) (store : Nat) (left : α → Nat) (still : α → Prop) : Prop :=
  ∀ count, match Rebuild.from count pass with
    | (.ok result,final) => count ≤ final ∧ final + left result ≤ count + store ∧ (final = count → still result)
    | (.error _,final) => count ≤ final ∧ final ≤ count + store

section
variable {store : Nat} {left : α → Nat} {still : α → Prop} {pass : FoldPass α} {result : α} {count final : Nat}

theorem Spends.ok (spends : Spends pass store left still) (done : Rebuild.from count pass = (.ok result,final)) :
    count ≤ final ∧ final + left result ≤ count + store ∧ (final = count → still result) := by
  have here := spends count
  rwa [done] at here

theorem Spends.error {cause : ConstraintError} (spends : Spends pass store left still)
    (failed : Rebuild.from count pass = (.error cause,final)) : count ≤ final ∧ final ≤ count + store := by
  have here := spends count
  rwa [failed] at here

theorem spends_pure {value : α} (worth : left value ≤ store) (here : still value) :
    Spends (pure value) store left still :=
  fun count => ⟨Nat.le_refl count,Nat.add_le_add_left worth count,fun _ => here⟩

theorem spends_throw {cause : ConstraintError} : Spends (throw cause) store left still :=
  fun count => ⟨Nat.le_refl count,Nat.le_add_right count store⟩

theorem spends_recheck {demand : Except ConstraintError Unit} {value : α} (worth : left value ≤ store)
    (here : still value) : Spends (recheck demand value) store left still := by
  cases demand with
  | error cause => exact spends_throw
  | ok _ => exact spends_pure worth here

theorem spends_bind {next : α → FoldPass β} {left' : β → Nat} {still' : β → Prop} {sure : α → Prop}
    (first : Spends pass store left still) (known : Yields pass sure)
    (second : ∀ value, sure value → Spends (next value) (left value) left' fun result => still value → still' result) :
    Spends (pass >>= next) store left' still' := by
  intro count
  rw [from_bind]
  rcases run : Rebuild.from count pass with ⟨cause | value,middle⟩
  · exact first.error run
  · obtain ⟨more,worth,same⟩ := first.ok run
    dsimp only
    rcases later : Rebuild.from middle (next value) with ⟨cause | result,final⟩
    · have onward := (second value (known count value middle run)).error later
      dsimp only
      omega
    · obtain ⟨further,rest,kept⟩ := (second value (known count value middle run)).ok later
      dsimp only
      refine ⟨by omega,by omega,fun quiet => kept (by omega) (same (by omega))⟩

theorem Spends.beside (spends : Spends pass store left still) (rest : Nat) :
    Spends pass (store + rest) (fun result => left result + rest) still := by
  intro count
  rcases run : Rebuild.from count pass with ⟨cause | result,final⟩
  · have here := spends.error run
    dsimp only
    omega
  · obtain ⟨more,worth,same⟩ := spends.ok run
    refine ⟨more,?_,same⟩
    dsimp only
    omega

theorem Spends.weaken {left' : α → Nat} {still' : α → Prop} (spends : Spends pass store left still)
    (worth : ∀ result, left' result ≤ left result) (implies : ∀ result, still result → still' result) :
    Spends pass store left' still' := by
  intro count
  rcases run : Rebuild.from count pass with ⟨cause | result,final⟩
  · exact spends.error run
  · obtain ⟨more,kept,same⟩ := spends.ok run
    exact ⟨more,Nat.le_trans (Nat.add_le_add_left (worth result) final) kept,fun quiet => implies result (same quiet)⟩

theorem spends_map {wrap : α → β} {left : β → Nat} {still : β → Prop} : Spends (wrap <$> pass) store left still ↔
    Spends pass store (fun result => left (wrap result)) fun result => still (wrap result) := by
  refine forall_congr' fun count => ?_
  rw [map_eq_pure_bind,from_bind]
  rcases Rebuild.from count pass with ⟨cause | result,final⟩ <;> rfl

theorem spends_mapM {pass : α → FoldPass α} {worth : α → Nat} {settled : α → Prop} {items : List α}
    (each : ∀ item ∈ items, Spends (pass item) (worth item) worth fun new => new = item ∧ settled item) :
    Spends (items.mapM pass) (items.map worth).sum (fun news => (news.map worth).sum)
      fun news => news = items ∧ ∀ item ∈ items, settled item := by
  induction items with
  | nil => exact spends_pure (Nat.le_refl _) ⟨rfl,by simp⟩
  | cons item rest ih =>
    rw [List.mapM_cons,List.map_cons,List.sum_cons]
    have first := (each item List.mem_cons_self).beside (rest.map worth).sum
    refine spends_bind first (yields_any _) fun new _ => ?_
    rw [Nat.add_comm]
    have later := (ih fun other member => each other (List.mem_cons_of_mem _ member)).beside (worth new)
    refine spends_bind later (yields_any _) fun news _ => spends_pure (Nat.le_of_eq ?_) ?_
    · rw [List.map_cons,List.sum_cons,Nat.add_comm]
    · rintro ⟨rfl,others⟩ ⟨rfl,here⟩
      exact ⟨rfl,List.forall_mem_cons.mpr ⟨here,others⟩⟩

end

section
variable {node : α} {found : Option α} {worth : α → Nat}

theorem spends_counted (saves : ∀ next, found = some next → worth next + 1 ≤ worth node) :
    Spends (counted node found) (worth node) worth fun new => new = node ∧ found = none := by
  cases found with
  | none => exact spends_pure (Nat.le_refl _) ⟨rfl,rfl⟩
  | some next =>
    intro count
    have paid := saves next rfl
    change count ≤ count + 1 ∧ count + 1 + worth next ≤ count + worth node ∧ (count + 1 = count → _)
    exact ⟨by omega,by omega,by omega⟩

theorem spends_countedChecked {check : α → Except ConstraintError Unit}
    (saves : ∀ next, found = some next → worth next + 1 ≤ worth node) :
    Spends (countedChecked check node found) (worth node) worth fun new => new = node ∧ found = none := by
  cases found with
  | none => exact spends_pure (Nat.le_refl _) ⟨rfl,rfl⟩
  | some next =>
    unfold countedChecked
    dsimp only
    rw [recheck_bind]
    have held : Spends (recheck (check next) ()) (worth node) (fun _ => worth node) fun _ => True :=
      spends_recheck (Nat.le_refl _) trivial
    refine spends_bind held (yields_any _) fun _ _ => ?_
    exact (spends_counted saves).weaken (fun _ => Nat.le_refl _) fun _ kept _ => kept

theorem spends_optional {pass : FoldPass α} {enabled : Bool} {settled : Prop}
    (applied : Spends pass (worth node) worth fun new => new = node ∧ settled) :
    Spends (if enabled then pass else pure node) (worth node) worth
      fun new => new = node ∧ (enabled = true → settled) := by
  cases enabled with
  | true => exact applied.weaken (fun _ => Nat.le_refl _) fun _ kept => ⟨kept.1,fun _ => kept.2⟩
  | false => exact spends_pure (Nat.le_refl _) ⟨rfl,by simp⟩

end
end Untangle
