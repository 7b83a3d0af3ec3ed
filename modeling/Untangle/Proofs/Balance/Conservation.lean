import Mathlib
import Untangle.Proofs.Balance.Emitters
import Untangle.Proofs.Emission.Pending

namespace Untangle
open Emission

namespace Survey
variable {survey : Survey} {emit : Emitter} {scope : Scope} {block : BlockId} {stop next : Option BlockId}
  {out out' : Block} {before after : Progress}

theorem emitBlock_balanced (grounded : survey.Grounded) (balances : emit.Balances survey)
    (gives : Gives (survey.emitBlock emit scope block stop out) before (out',next) after)
    (live : scope.Live survey) (here : block ∈ survey.live) :
    Balanced survey before.taken out out' after.taken ∧ ∀ block, next = some block → block ∈ survey.live := by
  rcases emitBlock_gives gives with ⟨range,index,pending,_,emitted⟩ | ⟨loop,found,_,_,emitted⟩ | ⟨_,emitted⟩
  · obtain ⟨at_,rfl,_⟩ := pendingTry_some pending
    have known := List.mem_of_getElem? at_
    exact emitTry_balanced balances here (grounded.handlers range known here) emitted live
  · have known := List.mem_of_find?_eq_some found
    obtain rfl : loop.header = block := by simpa using List.find?_some found
    exact emitLoop_balanced balances here (grounded.latches loop known here) emitted live
  · exact emitPlain_balanced balances here emitted live

theorem emitFrom_balances (grounded : survey.Grounded) (fuel : Nat) :
    (survey.emitFrom fuel).Balances survey := by
  induction fuel with
  | zero =>
    intro scope block stop out before out' after gives
    exact absurd gives emitFrom_zero
  | succ fuel ih =>
    intro scope block stop out before last after gives live here
    obtain ⟨out',next,middle,emitted,rest⟩ := emitFrom_succ gives
    obtain ⟨balanced,onward⟩ := emitBlock_balanced grounded ih emitted live here
    exact sequence_balanced ih rest live onward balanced

end Survey

theorem blockAtoms_perm {first second : Block} (perm : first.Perm second) : blockAtoms first = blockAtoms second := by
  induction perm with
  | nil => rfl
  | cons statement _ ih => simp [blockAtoms,ih]
  | swap one two rest => simp [blockAtoms,add_left_comm]
  | trans _ _ left right => exact left.trans right

-- An emission that goes through takes every live block, and takes it once.
theorem BlockGraph.structured_takes {graph : BlockGraph} {settings : StructuringSettings} {result : Structured}
    (done : graph.structured settings = .ok result) :
    ∃ survey events emitted progress, Survey.make graph settings = .ok survey ∧
      Gives (survey.emitFrom survey.fuel ⟨survey.graph.ids.filter survey.isLive,[]⟩ survey.graph.entry none [])
        {Progress.start with events} emitted progress ∧
      result.body = withoutTrailingReturn emitted ∧ progress.taken.Perm (graph.ids.filter graph.isLive) ∧
      blockAtoms emitted = graph.tally progress.taken := by
  obtain ⟨survey,made,finished⟩ := structured_ok done
  have grounded := Survey.grounded_of_make made
  obtain ⟨rfl,same,_⟩ := Survey.make_ok made
  obtain ⟨events,emitted,progress,gives,complete,body,_⟩ := Survey.structured_gives finished
  refine ⟨survey,events,emitted,progress,made,gives,body,?_⟩
  have region : Scope.Live ⟨survey.graph.ids.filter survey.isLive,[]⟩ survey := by
    intro block member
    exact of_decide_eq_true (List.mem_filter.mp member).2
  have entry : survey.graph.entry ∈ survey.live := same ▸ survey.graph.live_entry
  have balanced := Survey.emitFrom_balances grounded _ _ _ _ _ _ _ _ gives region entry
  obtain ⟨distinct,live⟩ := balanced.sound ⟨List.nodup_nil,by simp [Progress.start]⟩
  refine ⟨?_,by simpa [BlockGraph.tally,blockAtoms,Progress.start] using balanced.tally⟩
  refine (List.perm_ext_iff_of_nodup distinct (List.nodup_range.filter _)).mpr ?_
  intro block
  constructor
  · intro member
    have here := live block member
    rw [same] at here
    exact List.mem_filter.mpr ⟨mem_ids.mpr (live_inside here),decide_eq_true here⟩
  · intro member
    obtain ⟨inside,here⟩ := List.mem_filter.mp member
    have all := List.find?_eq_none.mp complete block inside
    have known : survey.isLive block = true := decide_eq_true (same ▸ of_decide_eq_true here)
    simpa [known] using all

theorem BlockGraph.emitted_atoms {graph : BlockGraph} {settings : StructuringSettings} {result : Structured}
    (done : graph.structured settings = .ok result) :
    ∃ emitted, result.body = withoutTrailingReturn emitted ∧
      blockAtoms emitted = blockAtoms ((graph.ids.filter graph.isLive).flatMap graph.content) := by
  obtain ⟨_,_,emitted,progress,_,_,body,taken,atoms⟩ := BlockGraph.structured_takes done
  refine ⟨emitted,body,?_⟩
  rw [atoms]
  exact blockAtoms_perm (List.Perm.flatMap_right _ taken)

def Statement.isExit : Statement → Bool
  | .ret _ => true
  | .throw _ => true
  | _ => false

theorem exit_isExit {terminator : Terminator} {statement : Statement}
    (leaves : terminator.exit? = some statement) :
    statement.isExit = true ∧ statement.isPlain = false ∧ statement.atoms = {statement} := by
  cases terminator <;> cases leaves <;> exact ⟨rfl,rfl,rfl⟩

namespace BlockGraph
variable {graph : BlockGraph}

theorem content_atoms (plain : graph.Plain) (blocks : List BlockId) :
    blockAtoms (blocks.flatMap graph.content) = ↑(blocks.flatMap graph.content) := by
  have self : ∀ statement ∈ blocks.flatMap graph.content, statement.atoms = {statement} := by
    intro statement member
    obtain ⟨block,_,held⟩ := List.mem_flatMap.mp member
    rcases List.mem_append.mp held with held | leaves
    · exact plain_atoms (plain block statement held)
    · exact (exit_isExit (Option.mem_toList.mp leaves)).2.2
  generalize blocks.flatMap graph.content = block at self
  induction block with
  | nil => rfl
  | cons statement rest ih =>
    rw [blockAtoms,self statement List.mem_cons_self,
      ih fun other member => self other (List.mem_cons_of_mem _ member)]
    rfl

theorem content_plain (plain : graph.Plain) (block : BlockId) :
    (graph.content block).filter (·.isPlain) = graph.statements block := by
  have statements : (graph.statements block).filter (·.isPlain) = graph.statements block :=
    List.filter_eq_self.mpr (plain block)
  unfold content
  rw [List.filter_append,statements]
  cases leaves : (graph.terminator block).exit? with
  | none => simp
  | some statement => simp [(exit_isExit leaves).2.1]

theorem content_exits (plain : graph.Plain) (block : BlockId) :
    (graph.content block).filter (·.isExit) = (graph.terminator block).exit?.toList := by
  have statements : (graph.statements block).filter (·.isExit) = [] := by
    refine List.filter_eq_nil_iff.mpr fun statement member => ?_
    have here := plain block statement member
    cases statement <;> first | exact Bool.false_ne_true | cases here
  unfold content
  rw [List.filter_append,statements]
  cases leaves : (graph.terminator block).exit? with
  | none => rfl
  | some statement => simp [(exit_isExit leaves).1]

end BlockGraph

-- A structured unit holds the statements of the live blocks, as often as they stand there, and of their
-- returns and throws all but perhaps a bare return at the very end.
theorem structured_conserves_statements {graph : BlockGraph} {settings : StructuringSettings} {result : Structured}
    (done : graph.structured settings = .ok result) (plain : graph.Plain) :
    (blockAtoms result.body).filter (·.isPlain) =
        ↑((graph.ids.filter graph.isLive).flatMap graph.statements) ∧
      (∃ trailing : Block, (trailing = [] ∨ trailing = [.ret none]) ∧
        (blockAtoms (result.body ++ trailing)).filter (·.isExit) =
          ↑((graph.ids.filter graph.isLive).filterMap fun block => (graph.terminator block).exit?)) ∧
      ∀ statement ∈ blockAtoms result.body, ∃ block, graph.isLive block = true ∧ statement ∈ graph.content block := by
  obtain ⟨emitted,body,atoms⟩ := BlockGraph.emitted_atoms done
  rw [BlockGraph.content_atoms plain] at atoms
  obtain ⟨trailing,shape,same⟩ := withoutTrailingReturn_splits emitted
  rw [same,← body] at atoms
  have quiet : (blockAtoms trailing).filter (·.isPlain) = 0 := by
    rcases shape with rfl | rfl <;> rfl
  refine ⟨?_,⟨trailing,shape,?_⟩,?_⟩
  · calc (blockAtoms result.body).filter (·.isPlain)
      _ = (blockAtoms (result.body ++ trailing)).filter (·.isPlain) := by
        rw [blockAtoms_append,Multiset.filter_add,quiet,add_zero]
      _ = _ := by
        rw [atoms,Multiset.filter_coe,List.filter_flatMap]
        simp only [Bool.decide_eq_true,BlockGraph.content_plain plain]
  · rw [atoms,Multiset.filter_coe,List.filter_flatMap]
    simp only [Bool.decide_eq_true,BlockGraph.content_exits plain,List.filterMap_eq_flatMap_toList]
  · intro statement member
    have listed : statement ∈ blockAtoms (result.body ++ trailing) := by
      rw [blockAtoms_append]
      exact Multiset.mem_add.mpr (Or.inl member)
    rw [atoms] at listed
    obtain ⟨block,here,held⟩ := List.mem_flatMap.mp (Multiset.mem_coe.mp listed)
    exact ⟨block,(List.mem_filter.mp here).2,held⟩

def bump (amount : Int32) : Statement := .increment ⟨0,none,.int⟩ amount

def guarded : BlockGraph :=
  ⟨[⟨[bump 1],.goto 1⟩,⟨[bump 2],.ret none⟩,⟨[bump 3],.ret none⟩,⟨[bump 4],.ret none⟩],[⟨0,1,2,none⟩],by decide⟩

def guardedTree : Structured :=
  ⟨[.tryCatch [bump 1] [⟨[],[bump 3,.ret none]⟩],bump 2],⟨[],[],[]⟩,[Structured.unreachable 3]⟩

theorem guarded_structured : guarded.structured .default = .ok guardedTree := by cbv

theorem guarded_plain : guarded.Plain := BlockGraph.plain_of_blocks (by simp [guarded,bump,Statement.isPlain])

theorem guarded_live : guarded.ids.filter guarded.isLive = [0,1,2] := by cbv

theorem guarded_conserves_statements : guarded.structured .default = .ok guardedTree ∧ guarded.Plain ∧
    (blockAtoms guardedTree.body).filter (·.isPlain) = ↑[bump 1,bump 2,bump 3] := by
  have conserved := (structured_conserves_statements guarded_structured guarded_plain).1
  rw [guarded_live] at conserved
  exact ⟨guarded_structured,guarded_plain,conserved⟩
end Untangle
