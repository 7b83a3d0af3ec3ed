import Untangle.Proofs.Balance.Atoms
import Untangle.Proofs.Emission.Gives

namespace Untangle
open Emission

def Terminator.exit? : Terminator → Option Statement
  | .ret value => some (.ret value)
  | .throw exception => some (.throw exception)
  | _ => none

namespace BlockGraph

def content (graph : BlockGraph) (block : BlockId) : Block :=
  graph.statements block ++ (graph.terminator block).exit?.toList

def tally (graph : BlockGraph) (taken : List BlockId) : Multiset Statement :=
  blockAtoms (taken.flatMap graph.content)

theorem tally_cons (graph : BlockGraph) (block : BlockId) (taken : List BlockId) :
    graph.tally (block :: taken) = blockAtoms (graph.content block) + graph.tally taken :=
  blockAtoms_append _ _

end BlockGraph

def Survey.Sound (survey : Survey) (taken : List BlockId) : Prop :=
  taken.Nodup ∧ ∀ block ∈ taken, block ∈ survey.live

def Scope.Live (scope : Scope) (survey : Survey) : Prop := ∀ block ∈ scope.region, block ∈ survey.live

theorem Scope.Live.narrow {scope : Scope} {survey : Survey} (live : scope.Live survey) (region : List BlockId) :
    (scope.narrow region).Live survey := by
  intro block member
  exact live block (of_decide_eq_true (List.mem_filter.mp member).2)

-- The statements written are those of the blocks taken meanwhile.
structure Balanced (survey : Survey) (before : List BlockId) (out out' : Block) (after : List BlockId) : Prop where
  tally : blockAtoms out' + survey.graph.tally before = blockAtoms out + survey.graph.tally after
  sound : survey.Sound before → survey.Sound after

namespace Balanced
variable {survey : Survey} {before middle after : List BlockId} {out out' last code : Block} {block : BlockId}

theorem refl (survey : Survey) (taken : List BlockId) (out : Block) : Balanced survey taken out out taken :=
  ⟨rfl,fun sound => sound⟩

theorem trans (first : Balanced survey before out out' middle) (second : Balanced survey middle out' last after) :
    Balanced survey before out last after := by
  refine ⟨?_,fun sound => second.sound (first.sound sound)⟩
  apply add_right_cancel (b := survey.graph.tally middle)
  calc blockAtoms last + survey.graph.tally before + survey.graph.tally middle
    _ = blockAtoms last + survey.graph.tally middle + survey.graph.tally before := add_right_comm _ _ _
    _ = blockAtoms out' + survey.graph.tally before + survey.graph.tally after := by
      rw [second.tally,add_right_comm]
    _ = blockAtoms out + survey.graph.tally after + survey.graph.tally middle := by
      rw [first.tally,add_right_comm]

theorem behind (balanced : Balanced survey before [] code after) :
    Balanced survey before out (out ++ code) after := by
  refine ⟨?_,balanced.sound⟩
  have tally := balanced.tally
  simp only [blockAtoms,zero_add] at tally
  rw [blockAtoms_append,add_assoc,tally]

theorem congr (balanced : Balanced survey before out out' after) (same : blockAtoms last = blockAtoms out') :
    Balanced survey before out last after :=
  ⟨by rw [same,balanced.tally],balanced.sound⟩

theorem take (fresh : block ∉ before) (live : block ∈ survey.live) :
    Balanced survey before out (out ++ survey.graph.content block) (block :: before) := by
  refine ⟨?_,?_⟩
  · rw [blockAtoms_append,BlockGraph.tally_cons,add_assoc]
  · rintro ⟨distinct,known⟩
    refine ⟨List.nodup_cons.mpr ⟨fresh,distinct⟩,?_⟩
    intro other member
    rcases List.mem_cons.mp member with rfl | member
    · exact live
    · exact known other member

theorem both (first : Balanced survey before [] out middle) (second : Balanced survey middle [] out' after) :
    Balanced survey before [] (out ++ out') after :=
  first.trans second.behind

end Balanced

variable {survey : Survey} {scope : Scope} {stop merge next : Option BlockId} {before after : Progress}
  {out out' last : Block} {target source : BlockId} {taken : List BlockId}

theorem flowTo_balanced (gives : Gives (flowTo scope source target stop out) before (out',next) after)
    (live : scope.Live survey) :
    Balanced survey before.taken out out' after.taken ∧ ∀ block, next = some block → block ∈ survey.live := by
  rcases gives_flowTo gives with ⟨_,same,rfl⟩ | ⟨_,resolved,result,_,jumps,same⟩ | ⟨_,_,within,_,same,rfl⟩
  · cases same
    exact ⟨.refl _ _ _,by simp⟩
  · cases same
    obtain ⟨registry,brk,_,_,rfl,rfl⟩ := gives_jump jumps
    refine ⟨(Balanced.refl _ _ _).congr ?_,by simp⟩
    simp [blockAtoms_append,blockAtoms,Statement.atoms]
  · cases same
    refine ⟨.refl _ _ _,?_⟩
    intro block same
    cases same
    exact live target (of_decide_eq_true within)

theorem follow_balanced (gives : Gives (follow scope source merge stop out') before (last,next) after)
    (live : scope.Live survey) (balanced : Balanced survey taken out out' before.taken) :
    Balanced survey taken out last after.taken ∧ ∀ block, next = some block → block ∈ survey.live := by
  unfold follow at gives
  cases merge with
  | none =>
    obtain ⟨same,rfl⟩ := gives_pure.mp gives
    cases same
    exact ⟨balanced,by simp⟩
  | some target =>
    obtain ⟨rest,onward⟩ := flowTo_balanced gives live
    exact ⟨balanced.trans rest,onward⟩

def Emitter.Balances (emit : Emitter) (survey : Survey) : Prop :=
  ∀ scope block stop out before out' after, Gives (emit scope block stop out) before out' after →
    scope.Live survey → block ∈ survey.live → Balanced survey before.taken out out' after.taken

variable {emit : Emitter}

theorem sequence_balanced (balances : emit.Balances survey)
    (gives : Gives (Emission.sequence emit scope next stop out') before last after) (live : scope.Live survey)
    (onward : ∀ block, next = some block → block ∈ survey.live)
    (balanced : Balanced survey taken out out' before.taken) : Balanced survey taken out last after.taken := by
  unfold Emission.sequence at gives
  cases next with
  | none =>
    obtain ⟨rfl,rfl⟩ := gives_pure.mp gives
    exact balanced
  | some block =>
    dsimp only at gives
    split at gives
    · obtain ⟨rfl,rfl⟩ := gives_pure.mp gives
      exact balanced
    · exact balanced.trans (balances _ _ _ _ _ _ _ gives live (onward block rfl))

theorem arm_balanced (balances : emit.Balances survey)
    (gives : Gives (arm emit scope source target stop) before out' after) (live : scope.Live survey) :
    Balanced survey before.taken [] out' after.taken := by
  obtain ⟨start,next,middle,flows,rest⟩ := gives_arm gives
  obtain ⟨first,onward⟩ := flowTo_balanced flows live
  exact sequence_balanced balances rest live onward first

end Untangle
