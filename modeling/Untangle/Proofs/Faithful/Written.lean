import Untangle.Proofs.Breaks.Growth
import Untangle.Proofs.Emission.Gives
import Untangle.Proofs.Running.Forms

namespace Untangle
open Emission Meaning
variable {σ : Type u} {ν : Type v}

def Scope.Declared (scope : Scope) (registry : Registry) : Prop :=
  ∀ context ∈ scope.contexts, context.id < registry.breakables.length

theorem Scope.Declared.later {scope : Scope} {before after : Registry} (declared : scope.Declared before)
    (grown : before.Extends after) : scope.Declared after :=
  fun context member => Nat.lt_of_lt_of_le (declared context member) grown.longer

-- What was written behind `out` runs as the graph does from a point on. Earlier statements may have been moved into it.
structure Written (graph : BlockGraph) (meaning : Meaning σ ν) (scope : Scope) (stop : Option BlockId)
    (least : Nat) (start : σ → Point σ ν) (before : Registry) (out out' : Block) (after : Registry) :
    Prop where
  grown : before.Extends after
  added : ∃ code, (∀ store flow, meaning.Runs out' store flow ↔ meaning.Runs (out ++ code) store flow) ∧
    Follows graph meaning (after.hasContinue · = true) scope.contexts stop least code start

namespace Written
variable {graph : BlockGraph} {meaning : Meaning σ ν} {scope : Scope} {stop merge : Option BlockId}
  {least fewer : Nat} {start : σ → Point σ ν} {before middle after : Registry}
  {out out' last code : Block} {target : BlockId}

theorem behind (grown : before.Extends after)
    (follows : Follows graph meaning (after.hasContinue · = true) scope.contexts stop least code start) :
    Written graph meaning scope stop least start before out (out ++ code) after :=
  ⟨grown,code,fun _ _ => Iff.rfl,follows⟩

theorem nothing (registry : Registry) (out : Block) (target : BlockId) :
    Written graph meaning scope (some target) 0 (Point.before target) registry out out registry :=
  ⟨Registry.extends_refl registry,[],by simp,.empty target⟩

theorem anyStop (written : Written graph meaning scope none least start before out out' after) :
    Written graph meaning scope stop least start before out out' after := by
  obtain ⟨grown,code,same,follows⟩ := written
  exact ⟨grown,code,same,follows.anyStop⟩

theorem wider (written : Written graph meaning scope merge least start before out out' after) :
    Written graph meaning scope (merge.or stop) least start before out out' after := by
  cases merge with
  | none => exact written.anyStop
  | some target => exact written

theorem trans (first : Written graph meaning scope (some target) least start before out out' middle)
    (second : Written graph meaning scope stop fewer (Point.before target) middle out' last after) :
    Written graph meaning scope stop least start before out last after := by
  obtain ⟨grown,code,same,follows⟩ := first
  obtain ⟨grown',code',same',follows'⟩ := second
  refine ⟨Registry.extends_trans grown grown',code ++ code',?_,(follows.mono grown'.continues).append follows'⟩
  intro store flow
  rw [same',← List.append_assoc,runs_append,runs_append]
  simp only [same]

theorem afterStatements {block : BlockId} (plain : ∀ statement ∈ graph.statements block, statement.isPlain = true)
    (written : Written graph meaning scope stop least
      (fun store => meaning.goes store (graph.terminator block)) before (out ++ graph.statements block) out' after) :
    Written graph meaning scope stop (least + 1) (Point.before block) before out out' after := by
  obtain ⟨grown,code,same,follows⟩ := written
  exact ⟨grown,_,by simpa only [List.append_assoc] using same,follows.afterStatements plain⟩

theorem alone (written : Written graph meaning scope stop least start before [] out' after) :
    Follows graph meaning (after.hasContinue · = true) scope.contexts stop least out' start := by
  obtain ⟨_,_,same,follows⟩ := written
  exact follows.congr same

end Written

variable {graph : BlockGraph} {meaning : Meaning σ ν} {scope : Scope} {stop merge next : Option BlockId}
  {before after : Progress} {out out' : Block} {target source block : BlockId}

theorem flowTo_written (graph : BlockGraph) (meaning : Meaning σ ν)
    (gives : Gives (flowTo scope source target stop out) before (out',next) after) :
    Written graph meaning scope (next.or stop) 0 (Point.before target) before.registry out out'
      after.registry := by
  rcases gives_flowTo gives with ⟨stops,same,rfl⟩ | ⟨_,resolved,result,resolves,jumps,same⟩ |
    ⟨_,_,_,_,same,rfl⟩
  · cases same
    subst stops
    exact Written.nothing _ _ _
  · cases same
    obtain ⟨member,leads⟩ := resolveJump_sound resolves
    obtain ⟨registry,brk,_,registered,rfl,rfl⟩ := gives_jump jumps
    obtain ⟨grown,targets,kind,continues⟩ := Registry.register_new registered
    refine Written.behind grown ⟨?_,?_⟩
    · intro store flow ran
      have same := executes_jump.mp (runs_single.mp ran)
      refine ⟨0,_,Nat.le_refl _,rfl,?_⟩
      dsimp only at same
      rw [targets,kind] at same
      cases jumped : resolved.kind with
      | «break» =>
        rw [jumped] at same leads
        rw [same]
        exact .leaves member leads
      | «continue» =>
        rw [jumped] at same leads
        rw [same]
        exact .resumes member leads (continues jumped)
    · intro store _ _
      exact ⟨_,runs_single.mpr (executes_jump.mpr rfl)⟩
  · cases same
    exact Written.nothing _ _ _

theorem follow_written {least : Nat} {start : σ → Point σ ν} {middle : Registry}
    (written : Written graph meaning scope (merge.or stop) least start middle out out' before.registry)
    (gives : Gives (follow scope source merge stop out') before (last,next) after) :
    Written graph meaning scope (next.or stop) least start middle out last after.registry := by
  unfold follow at gives
  cases merge with
  | none =>
    obtain ⟨same,rfl⟩ := gives_pure.mp gives
    cases same
    exact written
  | some target => exact written.trans (flowTo_written graph meaning gives)

-- A block that an emitter writes runs as the graph does from that block on, at least a step of it.
def Emitter.Faithful (emit : Emitter) (graph : BlockGraph) (meaning : Meaning σ ν) : Prop :=
  ∀ scope block stop out before out' after, Gives (emit scope block stop out) before out' after →
    scope.Declared before.registry →
    Written graph meaning scope stop 1 (Point.before block) before.registry out out' after.registry

variable {emit : Emitter}

theorem sequence_written {least : Nat} {start : σ → Point σ ν} {middle : Registry}
    (faithful : emit.Faithful graph meaning)
    (written : Written graph meaning scope (next.or stop) least start middle out out' before.registry)
    (gives : Gives (sequence emit scope next stop out') before last after)
    (declared : scope.Declared before.registry) :
    Written graph meaning scope stop least start middle out last after.registry := by
  unfold Emission.sequence at gives
  cases next with
  | none =>
    obtain ⟨rfl,rfl⟩ := gives_pure.mp gives
    exact written
  | some block =>
    dsimp only at gives
    split at gives
    · rename_i stops
      obtain ⟨rfl,rfl⟩ := gives_pure.mp gives
      subst stops
      exact written
    · exact written.trans (faithful _ _ _ _ _ _ _ gives declared)

theorem arm_written (faithful : emit.Faithful graph meaning)
    (gives : Gives (arm emit scope source target stop) before out' after)
    (declared : scope.Declared before.registry) :
    before.registry.Extends after.registry ∧
      Follows graph meaning (after.registry.hasContinue · = true) scope.contexts stop 0 out' (Point.before target) := by
  obtain ⟨start,next,middle,flows,rest⟩ := gives_arm gives
  have first : Written graph meaning scope (next.or stop) 0 (Point.before target) before.registry [] start
      middle.registry := flowTo_written graph meaning flows
  have written := sequence_written faithful first rest (declared.later first.grown)
  exact ⟨written.grown,written.alone⟩

end Untangle
