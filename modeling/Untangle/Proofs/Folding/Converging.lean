import Mathlib
import Untangle.Proofs.Folding.Settling

namespace Untangle
open Rebuild

-- How many rules each pass applied. One that applied none is the last one, and one that fails.
def foldCounts (settings : FoldingSettings) : Nat → Block → List Nat
  | 0, _ => []
  | left + 1, current =>
    match Rebuild.from 0 (Block.rebuild settings.hooks current) with
    | (.error _,folds) => [folds]
    | (.ok _,0) => [0]
    | (.ok next,folds) => folds :: foldCounts settings left next

def Block.foldCounts (body : Block) (settings : FoldingSettings) : List Nat :=
  Untangle.foldCounts settings (max settings.iterationCap 1) body

section
variable {settings : FoldingSettings} {current next unfolded : Block} {folds final : Nat}

theorem pass_spends (block : Block) : Spends (block.rebuild settings.hooks) block.load Block.load
    fun new => new = block ∧ block.Settled settings :=
  Block.rebuild_spends fun statement _ => Node.rebuild_spends (.ofStatement statement)

theorem pass_quiet (done : Rebuild.from 0 (Block.rebuild settings.hooks current) = (.ok next,0)) :
    next = current ∧ current.Settled settings := ((pass_spends current).ok done).2.2 rfl

theorem pass_draws (done : Rebuild.from 0 (Block.rebuild settings.hooks current) = (.ok next,final)) :
    final + next.load ≤ current.load := by
  have here := ((pass_spends current).ok done).2.1
  omega

theorem pass_failed {cause : ConstraintError}
    (failed : Rebuild.from 0 (Block.rebuild settings.hooks current) = (.error cause,final)) : final ≤ current.load := by
  have here := ((pass_spends current).error failed).2
  omega

theorem foldCounts_load (left : Nat) (current : Block) : (foldCounts settings left current).sum ≤ current.load := by
  induction left generalizing current with
  | zero => exact Nat.zero_le _
  | succ left ih =>
    unfold foldCounts
    split
    · rename_i failed
      simpa using pass_failed failed
    · exact Nat.zero_le _
    · rename_i next folds _ run
      have later := ih next
      have here := pass_draws run
      rw [List.sum_cons]
      omega

theorem foldFrom_passes (left passed : Nat) (events : List Event) (current : Block) :
    (foldFrom settings unfolded left passed events current).passes =
      passed + (foldCounts settings left current).length := by
  induction left generalizing passed events current with
  | zero => rfl
  | succ left ih =>
    rcases run : Rebuild.from 0 (Block.rebuild settings.hooks current) with ⟨cause | next,folds⟩
    · simp only [foldFrom,foldCounts,run]
      rfl
    · cases folds with
      | zero =>
        simp only [foldFrom,foldCounts,run]
        rfl
      | succ folds =>
        simp only [foldFrom,foldCounts,run,ih,List.length_cons]
        omega

theorem foldFrom_logs {pass : Nat} (left passed : Nat) (events : List Event) (current : Block)
    (logged : .foldPass pass folds ∈ (foldFrom settings unfolded left passed events current).events) :
    .foldPass pass folds ∈ events ∨
      ∃ index, pass = passed + index + 1 ∧ (foldCounts settings left current)[index]? = some folds := by
  induction left generalizing passed events current with
  | zero =>
    left
    simpa [foldFrom,Folded.unfinished] using logged
  | succ left ih =>
    rcases run : Rebuild.from 0 (Block.rebuild settings.hooks current) with ⟨cause | next,count⟩
    · left
      simpa [foldFrom,run,Folded.failed] using logged
    · cases count with
      | zero =>
        left
        simpa [foldFrom,run] using logged
      | succ count =>
        simp only [foldFrom,run] at logged
        simp only [foldCounts,run]
        rcases ih _ _ _ logged with before | ⟨index,same,counted⟩
        · rcases List.mem_append.mp before with before | here
          · exact Or.inl before
          · cases List.mem_singleton.mp here
            exact Or.inr ⟨0,rfl,rfl⟩
        · exact Or.inr ⟨index + 1,by omega,counted⟩

theorem foldFrom_converged (left passed : Nat) (events : List Event) (current : Block)
    (quiet : (foldFrom settings unfolded left passed events current).diagnostics = []) :
    Rebuild.from 0 (Block.rebuild settings.hooks (foldFrom settings unfolded left passed events current).body) =
      (.ok (foldFrom settings unfolded left passed events current).body,0) := by
  induction left generalizing passed events current with
  | zero => cases quiet
  | succ left ih =>
    unfold foldFrom at quiet ⊢
    dsimp only at quiet ⊢
    split at quiet
    · cases quiet
    · rename_i next run
      obtain ⟨rfl,_⟩ := pass_quiet run
      exact run
    · exact ih _ _ _ quiet

theorem foldFrom_diagnosed (left passed : Nat) (events : List Event) (current : Block)
    (spoken : (foldFrom settings unfolded left passed events current).diagnostics ≠ []) :
    (foldFrom settings unfolded left passed events current).diagnostics.length = 1 ∧
      (foldFrom settings unfolded left passed events current).body = unfolded := by
  induction left generalizing passed events current with
  | zero => exact ⟨rfl,rfl⟩
  | succ left ih =>
    unfold foldFrom at spoken ⊢
    dsimp only at spoken ⊢
    split at spoken
    · exact ⟨rfl,rfl⟩
    · exact absurd rfl spoken
    · exact ih _ _ _ spoken

theorem foldFrom_finishes (left passed : Nat) (events : List Event) (current : Block) (enough : current.load < left) :
    ∀ diagnostic ∈ (foldFrom settings unfolded left passed events current).diagnostics,
      diagnostic.finding ≠ .foldCapReached := by
  induction left generalizing passed events current with
  | zero => exact absurd enough (Nat.not_lt_zero _)
  | succ left ih =>
    unfold foldFrom
    dsimp only
    split
    · simp [Folded.failed]
    · simp
    · rename_i next folds some run
      have drawn := pass_draws run
      have more : folds ≠ 0 := some
      exact ih _ _ _ (by omega)

end

-- Folding applies as many rules as the body can take at most, so a limit above that is never reached. What it
-- gives back without a word has no place left for a rule and is given back again, in one pass; with one
-- diagnostic it gives the body back as it was.
theorem fold_settles (body : Block) (settings : FoldingSettings) (enabled : settings.enabled = true) :
    (body.fold settings).passes = (body.foldCounts settings).length ∧
    (∀ pass folds, .foldPass pass folds ∈ (body.fold settings).events →
      ∃ index, pass = index + 1 ∧ (body.foldCounts settings)[index]? = some folds) ∧
    (body.foldCounts settings).sum ≤ body.load ∧
    (body.load < settings.iterationCap →
      ∀ diagnostic ∈ (body.fold settings).diagnostics, diagnostic.finding ≠ .foldCapReached) ∧
    ((body.fold settings).diagnostics = [] → (body.fold settings).body.Settled settings ∧
      (body.fold settings).body.fold settings = ⟨(body.fold settings).body,1,[],[.foldConverged 1]⟩) ∧
    ((body.fold settings).diagnostics ≠ [] → (body.fold settings).diagnostics.length = 1 ∧
      (body.fold settings).body = body) := by
  have run (block : Block) : block.fold settings = foldFrom settings block (max settings.iterationCap 1) 0 [] block :=
    if_pos enabled
  rw [run body]
  refine ⟨?_,?_,foldCounts_load _ body,?_,?_,foldFrom_diagnosed _ _ _ _⟩
  · rw [foldFrom_passes,Nat.zero_add]
    rfl
  · intro pass folds logged
    rcases foldFrom_logs _ _ _ _ logged with none | ⟨index,same,counted⟩
    · cases none
    · exact ⟨index,by omega,counted⟩
  · intro enough
    exact foldFrom_finishes _ _ _ _ (by omega)
  · intro quiet
    have again := foldFrom_converged _ _ _ _ quiet
    refine ⟨(pass_quiet again).2,?_⟩
    rw [run]
    obtain ⟨left,positive⟩ : ∃ left, max settings.iterationCap 1 = left + 1 := ⟨max settings.iterationCap 1 - 1,by omega⟩
    generalize (foldFrom settings body (max settings.iterationCap 1) 0 [] body).body = folded at again ⊢
    rw [positive]
    unfold foldFrom
    rw [again]
    rfl

namespace Merging

def left : Local := ⟨0,some "x",.int⟩
def right : Local := ⟨1,some "y",.int⟩
def flag : Local := ⟨2,some "f",.boolean⟩

def body : Block :=
  [.branch (.test (.var flag) false)
    [.branch (.not (.not (.compare .lt (.plain (.numberCompare (.var left) (.var right))) (.literal (.int 0)))))
      [.increment left 1] none] none]

end Merging

theorem merging_settles : FoldingSettings.default.enabled = true ∧ Merging.body.foldCounts .default = [3,0] ∧
    (Merging.body.fold .default).diagnostics = [] ∧ (Merging.body.fold .default).body.Settled .default := by
  have quiet : (Merging.body.fold .default).diagnostics = [] := by cbv
  obtain ⟨_,_,_,_,settled,_⟩ := fold_settles Merging.body .default rfl
  exact ⟨rfl,by cbv,quiet,(settled quiet).1⟩

end Untangle
