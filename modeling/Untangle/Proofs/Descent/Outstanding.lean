import Untangle.Proofs.Emission.Inversion
import Untangle.Proofs.Emission.Pending
import Untangle.Proofs.Pairing.Together
import Untangle.Proofs.Sweeping.Failures

namespace Untangle
open Emission

-- All that an emission has yet to do: blocks to take, loops to enter, ranges to open.
def Survey.outstanding (survey : Survey) (progress : Progress) : Nat :=
  survey.remaining progress + unseen survey.tries.length progress.opened

structure Progress.Later (before after : Progress) : Prop where
  taken : ∀ block ∈ before.taken, block ∈ after.taken
  entered : ∀ header ∈ before.entered, header ∈ after.entered
  opened : ∀ index ∈ before.opened, index ∈ after.opened

variable {survey : Survey} {scope : Scope} {stop merge : Option BlockId} {before middle after : Progress}
  {source target block header : BlockId} {out : Block} {registry : Registry} {events : List Event}

theorem LoopForest.get_some {loops : LoopForest} {loop : NaturalLoop} (found : loops.get? block = some loop) :
    loop ∈ loops ∧ loop.header = block := by
  have holds := List.find?_some (show loops.find? (·.header == block) = some loop from found)
  exact ⟨List.mem_of_find?_eq_some found,eq_of_beq holds⟩

namespace Progress

theorem Later.refl (progress : Progress) : progress.Later progress :=
  ⟨fun _ known => known,fun _ known => known,fun _ known => known⟩

theorem Later.trans (first : before.Later middle) (second : middle.Later after) : before.Later after :=
  ⟨fun block known => second.taken block (first.taken block known),
    fun header known => second.entered header (first.entered header known),
    fun index known => second.opened index (first.opened index known)⟩

theorem later_recorded (progress : Progress) : progress.Later {progress with registry,events} :=
  ⟨fun _ known => known,fun _ known => known,fun _ known => known⟩

theorem later_taken (progress : Progress) : progress.Later {progress with taken:=block :: progress.taken} :=
  ⟨fun _ => List.mem_cons_of_mem _,fun _ known => known,fun _ known => known⟩

theorem later_entered (progress : Progress) : progress.Later {progress with entered:=header :: progress.entered} :=
  ⟨fun _ known => known,fun _ => List.mem_cons_of_mem _,fun _ known => known⟩

theorem later_opened (progress : Progress) : progress.Later {progress with opened:=index :: progress.opened} :=
  ⟨fun _ known => known,fun _ known => known,fun _ => List.mem_cons_of_mem _⟩

end Progress

namespace Survey

theorem outstanding_later (later : before.Later after) : survey.outstanding after ≤ survey.outstanding before :=
  Nat.add_le_add (remaining_mono later.taken later.entered) (unseen_mono later.opened)

theorem outstanding_taken (inside : block < survey.graph.size) (fresh : block ∉ before.taken) :
    survey.outstanding {before with taken:=block :: before.taken} < survey.outstanding before :=
  Nat.add_lt_add_right (remaining_take inside fresh) _

theorem outstanding_entered {loop : NaturalLoop} (member : loop ∈ survey.loops) (fresh : loop.header ∉ before.entered) :
    survey.outstanding {before with entered:=loop.header :: before.entered} < survey.outstanding before :=
  Nat.add_lt_add_right (remaining_enter member fresh) _

theorem outstanding_opened {index : Nat} {range : TryRegion} (known : survey.tries[index]? = some range)
    (fresh : index ∉ before.opened) :
    survey.outstanding {before with opened:=index :: before.opened} < survey.outstanding before :=
  Nat.add_lt_add_left (unseen_cons_lt (List.getElem?_eq_some_iff.mp known).1 fresh) _

end Survey

namespace Emission

def Grows (sure : α → Prop) (emission : Emission α) : Prop :=
  ∀ before result after, Gives emission before result after → before.Later after ∧ sure result

theorem pure_grows {sure : α → Prop} {value : α} (holds : sure value) : Grows sure (pure value) := by
  intro before result after gives
  obtain ⟨rfl,rfl⟩ := gives_pure.mp gives
  exact ⟨.refl _,holds⟩

theorem throw_grows {sure : α → Prop} (cause : StructureError) : Grows sure (throw cause) :=
  fun _ _ _ gives => absurd gives gives_throw

theorem grows_bind {sure : α → Prop} {sure' : β → Prop} {first : Emission α} {rest : α → Emission β}
    (start : Grows sure first) (next : ∀ value, sure value → Grows sure' (rest value)) : Grows sure' (first >>= rest) := by
  intro before result after gives
  obtain ⟨value,middle,ran,further⟩ := gives_bind.mp gives
  obtain ⟨later,holds⟩ := start before value middle ran
  obtain ⟨onward,known⟩ := next value holds middle result after further
  exact ⟨later.trans onward,known⟩

theorem grows_get {sure : α → Prop} {rest : Progress → Emission α} (next : ∀ progress, Grows sure (rest progress)) :
    Grows sure (get >>= rest) := fun before => next before before

theorem log_grows (event : Event) : Grows (fun _ => True) (log event) := by
  intro before result after gives
  obtain rfl := gives_log.mp gives
  exact ⟨before.later_recorded,trivial⟩

theorem take_grows (block : BlockId) : Grows (fun _ => True) (take block) := by
  intro before result after gives
  obtain ⟨_,rfl⟩ := gives_take.mp gives
  exact ⟨before.later_taken,trivial⟩

theorem declare_grows (kind : BreakableKind) : Grows (fun _ => True) (declare kind) := by
  intro before result after gives
  obtain ⟨_,rfl⟩ := gives_declare.mp gives
  exact ⟨before.later_recorded,trivial⟩

theorem markFor_grows (id : BreakableId) (header : BlockId) : Grows (fun _ => True) (markFor id header) := by
  intro before result after gives
  obtain ⟨registry,_,rfl⟩ := gives_markFor.mp gives
  exact ⟨before.later_recorded,trivial⟩

theorem demand_grows (block : BlockId) (statement : Statement) : Grows (fun _ => True) (demand block statement) := by
  intro before result after gives
  obtain ⟨_,_,rfl⟩ := gives_demand.mp gives
  exact ⟨.refl _,trivial⟩

theorem checkConstruct_grows (settings : StructuringSettings) (scope : Scope) (statement : Statement) :
    Grows (fun _ => True) (checkConstruct settings scope statement) := by
  intro before result after gives
  obtain rfl := gives_checkConstruct gives
  exact ⟨.refl _,trivial⟩

def Stays (scope : Scope) (onward : Onward) : Prop := ∀ block, onward.2 = some block → block ∈ scope.region

theorem flowTo_grows (scope : Scope) (source target : BlockId) (stop : Option BlockId) (out : Block) :
    Grows (Stays scope) (flowTo scope source target stop out) := by
  intro before onward after gives
  rcases gives_flowTo gives with ⟨_,rfl,rfl⟩ | ⟨_,resolved,result,_,jumped,rfl⟩ | ⟨_,_,within,_,rfl,rfl⟩
  · exact ⟨.refl _,fun _ none => nomatch none⟩
  · obtain ⟨_,_,_,_,_,rfl⟩ := gives_jump jumped
    exact ⟨before.later_recorded,fun _ none => nomatch none⟩
  · refine ⟨.refl _,fun block same => ?_⟩
    cases same
    exact of_decide_eq_true within

theorem follow_grows (scope : Scope) (source : BlockId) (merge stop : Option BlockId) (out : Block) :
    Grows (Stays scope) (follow scope source merge stop out) := by
  cases merge with
  | none => exact pure_grows fun _ none => nomatch none
  | some target => exact flowTo_grows scope source target stop out

end Emission
end Untangle
