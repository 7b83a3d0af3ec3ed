import Untangle.Proofs.Breaks.Marks
import Untangle.Proofs.Running.Congruence

namespace Untangle
variable {σ : Type u} {ν : Type v}

namespace Meaning

def Resumes (meaning : Meaning σ ν) (block : Block) (target : Option BreakableId) : Prop :=
  ∃ store last, meaning.Runs block store (.resumes target last)

variable {meaning : Meaning σ ν} {id : BreakableId} {target : Option BreakableId} {store last : σ} {flow : Flow σ ν}
  {condition : Condition} {update : Option Statement} {body first second : Block}

theorem resumes_append (resumes : meaning.Resumes (first ++ second) target) :
    meaning.Resumes first target ∨ meaning.Resumes second target := by
  obtain ⟨store,last,ran⟩ := resumes
  obtain ⟨middle,ran,after⟩ := runs_append.mp ran
  cases middle with
  | normal next => exact Or.inr ⟨next,last,after⟩
  | resumes other next =>
    cases after
    exact Or.inl ⟨store,last,ran⟩
  | _ => cases after

theorem never_resumes_nil : ¬meaning.Resumes [] target := by
  rintro ⟨_,_,ran⟩
  cases runs_nil.mp ran

theorem never_resumes_plain {statement : Statement} (plain : statement.isPlain = true) :
    ¬meaning.Resumes [statement] target := by
  rintro ⟨_,_,ran⟩
  cases (executes_plain plain).mp (runs_single.mp ran)

theorem resumes_leaving (same : flow.leaving id = .resumes target last) : flow = .resumes target last := by
  cases flow with
  | leaves other store => by_cases own : other = some id <;> simp [Flow.leaving,own] at same
  | _ => exact same

theorem resumes_round (same : flow.round id = .inr (.resumes target last)) : flow = .resumes target last := by
  cases flow with
  | normal store => cases same
  | resumes other store =>
    by_cases own : other = some id <;> simp [Flow.round,own] at same
    rw [same.1,same.2]
  | leaves other store => exact resumes_leaving (Sum.inr.inj same)
  | ends outcome => cases same

theorem rounds_last {turns : σ → σ ⊕ Flow σ ν → Prop} (rounds : Rounds turns store flow) :
    ∃ store, turns store (.inr flow) := by
  induction rounds with
  | last turned => exact ⟨_,turned⟩
  | again _ _ ih => exact ih

theorem resumes_tested (rounds : Rounds (meaning.TestedRound id condition update body) store (.resumes target last)) :
    meaning.Resumes body target ∨ meaning.Resumes update.toList target := by
  obtain ⟨store,turned⟩ := rounds_last rounds
  rcases testedRound_iff.mp turned with ⟨_,same⟩ | ⟨_,flow,ran,⟨next,middle,_,updated,same⟩ | ⟨done,round,same⟩⟩
  · cases same
  · cases middle with
    | resumes other last =>
      cases same
      exact Or.inr ⟨_,_,updated⟩
    | _ => cases same
  · cases same
    exact Or.inl ⟨_,_,resumes_round round ▸ ran⟩

theorem resumes_repeated (rounds : Rounds (meaning.RepeatedRound id condition body) store (.resumes target last)) :
    meaning.Resumes body target := by
  obtain ⟨store,turned⟩ := rounds_last rounds
  obtain ⟨flow,ran,same⟩ := repeatedRound_iff.mp turned
  cases round : flow.round id with
  | inl next =>
    rw [round] at same
    dsimp only at same
    split at same <;> cases same
  | inr done =>
    rw [round] at same
    cases same
    exact ⟨_,_,resumes_round round ▸ ran⟩

theorem resumes_arms {arms chosen : List SwitchArm} (sub : ∀ arm ∈ chosen, arm ∈ arms)
    (resumes : meaning.Resumes (chosen.flatMap (·.body)) target) : ∃ arm ∈ arms, meaning.Resumes arm.body target := by
  induction chosen with
  | nil => exact absurd resumes never_resumes_nil
  | cons arm rest ih =>
    obtain ⟨own,others⟩ := List.forall_mem_cons.mp sub
    rcases resumes_append resumes with here | there
    · exact ⟨arm,own,here⟩
    · exact ih others there

theorem select_sub (arms : List SwitchArm) (value : Int32) : ∀ arm ∈ SwitchArm.select arms value, arm ∈ arms := by
  intro arm member
  unfold SwitchArm.select at member
  split at member <;> exact (List.dropWhile_sublist _).subset member

theorem resumes_caught {catches : List CatchClause} {middle : Flow σ ν} (ran : meaning.Runs body store middle)
    (caught : meaning.Caught catches middle (.resumes target last)) :
    meaning.Resumes body target ∨ ∃ clause ∈ catches, meaning.Resumes clause.body target := by
  unfold Caught at caught
  split at caught
  · split at caught
    · rename_i clause found
      exact Or.inr ⟨clause,List.mem_of_find?_eq_some found,_,_,caught⟩
    · cases caught
  · cases caught
    exact Or.inl ⟨_,_,ran⟩

-- A jump back to a loop from a list of marks.
def Continues (marks : List Mark) (target : Option BreakableId) : Prop :=
  ∃ brk ∈ jumpsOf marks, brk.target = target ∧ brk.kind = .continue

def PlainHeaders (marks : List Mark) : Prop := ∀ plain, .header plain ∈ marks → plain = true

section
variable {one two marks : List Mark}

theorem continues_append : Continues (one ++ two) target ↔ Continues one target ∨ Continues two target := by
  unfold Continues jumpsOf
  rw [List.filterMap_append]
  simp only [List.mem_append,or_and_right,exists_or]

theorem continues_left (continues : Continues one target) (two : List Mark) : Continues (one ++ two) target :=
  continues_append.mpr (Or.inl continues)

theorem continues_right (one : List Mark) (continues : Continues two target) : Continues (one ++ two) target :=
  continues_append.mpr (Or.inr continues)

theorem plainHeaders_append (plain : PlainHeaders (one ++ two)) : PlainHeaders one ∧ PlainHeaders two :=
  ⟨fun value member => plain value (List.mem_append_left _ member),fun value member => plain value (List.mem_append_right _ member)⟩

theorem plainHeaders_tail {mark : Mark} (plain : PlainHeaders (mark :: marks)) : PlainHeaders marks :=
  fun value member => plain value (List.mem_cons_of_mem _ member)

theorem never_resumes_header {part : Option Statement} (plain : PlainHeaders (headerMarks part)) :
    ¬meaning.Resumes part.toList target := by
  cases part with
  | none => exact never_resumes_nil
  | some statement => exact never_resumes_plain (plain _ (List.mem_singleton.mpr rfl))

end

-- Whatever goes back to the test of a loop around does so by a `continue` that targets it.
mutual
theorem continues_statement (around : Enclosing) : (statement : Statement) → PlainHeaders (statement.marks around) →
    meaning.Resumes [statement] target → Continues (statement.marks around) target
  | .branch condition thenBlock none, plain, ⟨store,last,ran⟩ => by
    have ran := executes_branch.mp (runs_single.mp ran)
    split at ran
    · exact continues_block around thenBlock plain ⟨_,_,ran⟩
    · cases runs_nil.mp ran
  | .branch condition thenBlock (some elseBlock), plain, ⟨store,last,ran⟩ => by
    obtain ⟨first,second⟩ := plainHeaders_append plain
    have ran := executes_branch.mp (runs_single.mp ran)
    split at ran
    · exact continues_left (continues_block around thenBlock first ⟨_,_,ran⟩) _
    · exact continues_right _ (continues_block around elseBlock second ⟨_,_,ran⟩)
  | .whileLoop id condition body, plain, ⟨store,last,ran⟩ => by
    have inner := (resumes_tested (executes_while.mp (runs_single.mp ran))).resolve_right never_resumes_nil
    exact continues_block _ body (plainHeaders_tail plain) inner
  | .doWhile id condition body, plain, ⟨store,last,ran⟩ =>
    continues_block _ body (plainHeaders_tail plain) (resumes_repeated (executes_doWhile.mp (runs_single.mp ran)))
  | .forLoop id start condition update body, plain, ⟨store,last,ran⟩ => by
    obtain ⟨headers,inner⟩ := plainHeaders_append (plainHeaders_tail plain)
    obtain ⟨starts,updates⟩ := plainHeaders_append headers
    have loop {store last : σ} (ran : meaning.Executes (.forLoop id none condition update body) store (.resumes target last)) :
        meaning.Resumes body target :=
      (resumes_tested (executes_for.mp ran)).resolve_right (never_resumes_header updates)
    have whole : meaning.Resumes body target := by
      cases start with
      | none => exact loop (runs_single.mp ran)
      | some start =>
        have ran : meaning.Runs ([start] ++ [.forLoop id none condition update body]) store (.resumes target last) :=
          executes_forStart.mp (runs_single.mp ran)
        obtain ⟨store,last,rest⟩ := (resumes_append ⟨_,_,ran⟩).resolve_left (never_resumes_header starts)
        exact loop (runs_single.mp rest)
    exact continues_right (headerMarks start ++ headerMarks update) (continues_block _ body inner whole)
  | .switch id discriminant arms, plain, ⟨store,last,ran⟩ => by
    obtain ⟨middle,ran,same⟩ := executes_switch.mp (runs_single.mp ran)
    have inner := resumes_arms (select_sub arms _) ⟨_,_,resumes_leaving same.symm ▸ ran⟩
    exact continues_arms _ arms (plainHeaders_tail plain) inner
  | .jump brk, _, ⟨store,last,ran⟩ => by
    have same := executes_jump.mp (runs_single.mp ran)
    split at same
    · cases same
    · rename_i kind
      cases same
      exact ⟨brk,List.mem_singleton.mpr rfl,rfl,kind⟩
  | .tryCatch body catches, plain, ⟨store,last,ran⟩ => by
    obtain ⟨first,second⟩ := plainHeaders_append plain
    obtain ⟨middle,ran,caught⟩ := executes_tryCatch.mp (runs_single.mp ran)
    rcases resumes_caught ran caught with here | there
    · exact continues_left (continues_block around body first here) _
    · exact continues_right _ (continues_catches around catches second there)
  | .expr value, _, resumes => absurd resumes (never_resumes_plain rfl)
  | .assign target' value, _, resumes => absurd resumes (never_resumes_plain rfl)
  | .increment var amount, _, resumes => absurd resumes (never_resumes_plain rfl)
  | .ret value, _, ⟨store,last,ran⟩ => by cases executes_ret.mp (runs_single.mp ran)
  | .throw exception, _, ⟨store,last,ran⟩ => by cases executes_throw.mp (runs_single.mp ran)
theorem continues_block (around : Enclosing) : (block : List Statement) → PlainHeaders (blockMarks around block) →
    meaning.Resumes block target → Continues (blockMarks around block) target
  | [], _, resumes => absurd resumes never_resumes_nil
  | statement :: rest, plain, resumes => by
    obtain ⟨first,second⟩ := plainHeaders_append plain
    rcases resumes_append (show meaning.Resumes ([statement] ++ rest) target from resumes) with here | there
    · exact continues_left (continues_statement around statement first here) _
    · exact continues_right _ (continues_block around rest second there)
theorem continues_arms (around : Enclosing) : (arms : List SwitchArm) → PlainHeaders (armMarks around arms) →
    (∃ arm ∈ arms, meaning.Resumes arm.body target) → Continues (armMarks around arms) target
  | [], _, ⟨_,member,_⟩ => absurd member (by simp)
  | ⟨labels,body⟩ :: rest, plain, ⟨arm,member,resumes⟩ => by
    obtain ⟨first,second⟩ := plainHeaders_append plain
    rcases List.mem_cons.mp member with rfl | member
    · exact continues_left (continues_block around body first resumes) _
    · exact continues_right _ (continues_arms around rest second ⟨arm,member,resumes⟩)
theorem continues_catches (around : Enclosing) : (catches : List CatchClause) → PlainHeaders (catchMarks around catches) →
    (∃ clause ∈ catches, meaning.Resumes clause.body target) → Continues (catchMarks around catches) target
  | [], _, ⟨_,member,_⟩ => absurd member (by simp)
  | ⟨types,body⟩ :: rest, plain, ⟨clause,member,resumes⟩ => by
    obtain ⟨first,second⟩ := plainHeaders_append plain
    rcases List.mem_cons.mp member with rfl | member
    · exact continues_left (continues_block around body first resumes) _
    · exact continues_right _ (continues_catches around rest second ⟨clause,member,resumes⟩)
end

end Meaning
end Untangle
