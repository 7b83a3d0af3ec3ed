import Untangle.Proofs.Descriptors.RoundTrip
import Untangle.Proofs.Rebuilding.Walk
import Untangle.Proofs.WellFormed.Passes

namespace Untangle

-- Ways to write a value as text. An array of characters may be written by its characters or as an object.
inductive TextForm where
  | boolean | char | int | long | float | double | chars | object
deriving DecidableEq

namespace TextForm

def ofBase : BaseType → TextForm
  | .boolean => boolean
  | .char => char
  | .byte => int
  | .short => int
  | .int => int
  | .long => long
  | .float => float
  | .double => double

-- A builder writes an argument by the parameter that takes it, a concatenation writes a part by its static type.
-- Of a part without a type nothing is known.
def ofParam : FieldType → TextForm
  | .base letter => ofBase letter
  | .array (.base .char) => chars
  | _ => object

def ofPart? : Ty → Option TextForm
  | .primitive letter => some (ofBase letter)
  | .object _ => some object
  | .array _ => some object
  | .null => some object
  | .void => none
  | .unknown => none

end TextForm

-- A static type that is written as the parameter is. A widened integer keeps its digits.
def FieldType.Suits (param : FieldType) (type : Ty) : Prop :=
  TextForm.ofPart? type = some (.ofParam param) ∨
    TextForm.ofPart? type = some .int ∧ TextForm.ofParam param = .long

structure TextReading (ν : Type) where
  value : Expr → ν
  text : TextForm → ν → String
  blank : text .object (value (.literal (.string ""))) = ""
  widened : ∀ expr, TextForm.ofPart? expr.type = some .int → text .long (value expr) = text .int (value expr)

namespace Expr

-- What is passed along a chain of calls, in the order of evaluation: a receiver comes before the arguments.
def passed : Expr → List Expr
  | ⟨.boundCall _ receiver _ args,_⟩ => receiver.passed ++ args
  | ⟨.new _ args,_⟩ => args
  | _ => []

-- The same with the parameters, as far as it is text. What a constructor takes as an `int` is a capacity.
def written : Expr → List (FieldType × Expr)
  | ⟨.boundCall _ receiver method args,_⟩ => receiver.written ++ method.signature.params.zip args
  | ⟨.new constructor args,_⟩ => (constructor.signature.params.zip args).filter (·.1 ≠ .base .int)
  | _ => []

def reserved : Expr → List Expr
  | ⟨.boundCall _ receiver _ _,_⟩ => receiver.reserved
  | ⟨.new constructor args,_⟩ => ((constructor.signature.params.zip args).filter (·.1 = .base .int)).map (·.2)
  | _ => []

def Counted : Expr → Prop
  | ⟨.boundCall _ receiver method args,_⟩ => method.signature.params.length = args.length ∧ receiver.Counted
  | ⟨.new constructor args,_⟩ => constructor.signature.params.length = args.length
  | _ => True

def isCall (expr : Expr) : Bool :=
  match expr.kind with
  | .freeCall _ _ _ => true
  | .boundCall _ _ _ _ => true
  | .new _ _ => true
  | _ => false

def calls (expr : Expr) : List Expr :=
  (Node.ofExpr expr).upward.filterMap fun
    | .ofExpr inner => if inner.isCall then some inner else none
    | _ => none

variable {ν : Type}

-- The text that a builder holds at the end of a chain, and the one that a concatenation denotes.
def built (reading : TextReading ν) (expr : Expr) : String :=
  String.join (expr.written.map fun (param,arg) => reading.text (.ofParam param) (reading.value arg))

def part? (reading : TextReading ν) (part : Expr) : Option String :=
  (TextForm.ofPart? part.type).map fun form => reading.text form (reading.value part)

-- Operands are added as numbers, not joined, until one of the first two is a string.
def joined? (reading : TextReading ν) (expr : Expr) : Option String :=
  if (expr.operands.take 2).any fun part => part.type == .string then
    (expr.operands.mapM (part? reading)).map String.join
  else none

end Expr

theorem ConstructorRef.signature_of {constructor : ConstructorRef} {descriptor : String} {signature : MethodDescriptor}
    (same : constructor.descriptor = descriptor) (parsed : MethodDescriptor.parse descriptor = .ok signature) :
    constructor.signature = signature := by
  rw [← same,constructor.reads] at parsed
  exact Except.ok.inj parsed

theorem ConstructorRef.seed_counted {constructor : ConstructorRef} {args seed : List Expr}
    (counted : constructor.signature.params.length = args.length) (found : constructor.seed? args = some seed) :
    seed = ((constructor.signature.params.zip args).filter (·.1 ≠ .base .int)).map (·.2) ∧
      args = ((constructor.signature.params.zip args).filter (·.1 = .base .int)).map (·.2) ++ seed := by
  unfold seed? at found
  split at found
  · cases found
  · split at found <;> cases found
    · simp
    · rename_i same
      have signature : constructor.signature = ⟨[.object stringClass],.void⟩ := signature_of same (by cbv)
      simp [signature]
    · rename_i same
      have signature : constructor.signature = ⟨[.object "java/lang/CharSequence"],.void⟩ := signature_of same (by cbv)
      simp [signature]
    · rename_i same
      have signature : constructor.signature = ⟨[.base .int],.void⟩ := signature_of same (by cbv)
      simp [signature]

namespace Expr
variable {ν : Type} {expr folded : Expr} {later parts : List Expr}

theorem counted_of_wellFormed (formed : (Node.ofExpr expr).WellFormed) : expr.Counted := by
  rw [Node.wellFormed_built] at formed
  induction expr using Counted.induct with
  | case1 kind receiver method args note ih =>
    obtain ⟨valid,_,inside⟩ := built_operands.mp formed
    exact ⟨(expectArgs_ok.mp (expectBoth_ok.mp valid).2).1,ih (inside receiver List.mem_cons_self)⟩
  | case2 constructor args note => exact (expectArgs_ok.mp (built_operands.mp formed).1).1
  | case3 expr call new =>
    rw [Counted]
    · trivial
    · exact call
    · exact new

theorem builderParts_written (counted : expr.Counted) (collected : expr.Collects later parts) :
    parts = expr.written.map (·.2) ++ later ∧ expr.passed = expr.reserved ++ expr.written.map (·.2) := by
  induction collected with
  | append appends _ ih =>
    obtain ⟨count,counted⟩ := counted
    obtain ⟨param,single⟩ := List.length_eq_one_iff.mp count
    obtain ⟨same,passed⟩ := ih counted
    simp [written,Expr.passed,reserved,single,same,passed]
  | start seeds =>
    obtain ⟨same,passed⟩ := ConstructorRef.seed_counted counted seeds
    exact ⟨congrArg (· ++ _) same,by rw [Expr.passed,reserved,written,← same]; exact passed⟩

theorem part_suits {param : FieldType} {arg : Expr} (reading : TextReading ν) (suits : param.Suits arg.type) :
    arg.part? reading = some (reading.text (.ofParam param) (reading.value arg)) := by
  unfold part?
  rcases suits with same | ⟨int,long⟩
  · rw [same]
    rfl
  · rw [int,long,reading.widened arg int]
    rfl

theorem joined_suits (reading : TextReading ν) {pairs : List (FieldType × Expr)}
    (suits : ∀ pair ∈ pairs, pair.1.Suits pair.2.type) : (pairs.map (·.2)).mapM (part? reading) =
      some (pairs.map fun (param,arg) => reading.text (.ofParam param) (reading.value arg)) := by
  induction pairs with
  | nil => rfl
  | cons pair rest ih =>
    obtain ⟨here,later⟩ := List.forall_mem_cons.mp suits
    rw [List.map_cons,List.mapM_cons,part_suits reading here,ih later]
    rfl

theorem joined_lead (reading : TextReading ν) (parts : List Expr) :
    (plain (.concat (leadWithText parts))).joined? reading = (parts.mapM (part? reading)).map String.join := by
  unfold leadWithText
  split
  · exact if_pos ‹_›
  · have joins : (plain (.concat (literal (.string "") :: parts))).joined? reading =
        ((literal (.string "") :: parts).mapM (part? reading)).map String.join := if_pos rfl
    rw [joins]
    have blank : (literal (.string "")).part? reading = some "" := congrArg some reading.blank
    rw [List.mapM_cons,blank]
    cases parts.mapM (part? reading) with
    | none => rfl
    | some texts => exact congrArg some (String.join_cons.trans String.empty_append)

-- A reading that writes one argument in one form only, and all else as nothing.
noncomputable def marking (arg : Expr) (form : TextForm) (apart : TextForm.ofPart? arg.type ≠ some form)
    (narrow : ¬(TextForm.ofPart? arg.type = some .int ∧ form = .long)) : TextReading Expr where
  value := id
  text written expr := open Classical in if expr = arg ∧ written = form then "x" else ""
  blank := by
    rw [if_neg]
    rintro ⟨rfl,rfl⟩
    exact apart rfl
  widened := by
    intro expr int
    rw [if_neg,if_neg]
    · rintro ⟨rfl,rfl⟩
      exact apart int
    · rintro ⟨rfl,rfl⟩
      exact narrow ⟨int,rfl⟩

theorem join_blank {texts : List String} : String.join texts = "" ↔ ∀ text ∈ texts, text = "" := by
  rw [← String.toList_inj,String.toList_join]
  simp

theorem joined_blank {reading : TextReading ν} {parts : List Expr} {texts : List String}
    (blank : ∀ (part : Expr) text, part.part? reading = some text → text = "") (joined : parts.mapM (part? reading) = some texts) :
    ∀ text ∈ texts, text = "" := by
  induction parts generalizing texts with
  | nil =>
    cases joined
    simp
  | cons part rest ih =>
    rw [List.mapM_cons] at joined
    obtain ⟨first,here,joined⟩ := Option.bind_eq_some_iff.mp joined
    obtain ⟨others,later,joined⟩ := Option.bind_eq_some_iff.mp joined
    cases joined
    exact List.forall_mem_cons.mpr ⟨blank part first here,ih later⟩

theorem suits_of_joined {param : FieldType} {arg : Expr} {parts : List Expr} (member : (param,arg) ∈ expr.written)
    (same : ∀ reading : TextReading Expr, (parts.mapM (part? reading)).map String.join = some (expr.built reading)) :
    param.Suits arg.type := by
  by_contra unsuited
  have apart : TextForm.ofPart? arg.type ≠ some (.ofParam param) := fun suits => unsuited (Or.inl suits)
  have narrow : ¬(TextForm.ofPart? arg.type = some .int ∧ TextForm.ofParam param = .long) :=
    fun widened => unsuited (Or.inr widened)
  have unmarked (part : Expr) (text : String) (reads : part.part? (marking arg (.ofParam param) apart narrow) = some text) :
      text = "" := by
    obtain ⟨form,typed,rfl⟩ := Option.map_eq_some_iff.mp reads
    refine if_neg ?_
    rintro ⟨here,there⟩
    have here : part = arg := here
    rw [here,there] at typed
    exact apart typed
  obtain ⟨texts,joined,whole⟩ := Option.map_eq_some_iff.mp (same (marking arg (.ofParam param) apart narrow))
  have empty : expr.built (marking arg (.ofParam param) apart narrow) = "" := by
    rw [← whole]
    exact join_blank.mpr (joined_blank unmarked joined)
  have marked := join_blank.mp empty _ (List.mem_map_of_mem member)
  have here : (marking arg (.ofParam param) apart narrow).text (.ofParam param) arg = "x" := if_pos ⟨rfl,rfl⟩
  change (marking arg (.ofParam param) apart narrow).text (.ofParam param) arg = "" at marked
  rw [here] at marked
  exact absurd marked (by decide)

theorem calls_leadWithText (parts : List Expr) : (leadWithText parts).flatMap calls = parts.flatMap calls := by
  unfold leadWithText
  split
  · rfl
  · have none : (literal (.string "")).calls = [] := by
      simp [calls,Node.upward_children,Node.children,literal,plain,ExprKind.children,ExprKind.operands,
        ExprKind.condition?,isCall]
    rw [List.flatMap_cons,none,List.nil_append]

-- A chain and the concatenation that stands for it denote one text, whatever the values, exactly if each argument
-- is written by its static type as by the parameter that takes it. All calls stay, in their order, but those that
-- work out a capacity.
theorem chain_folds_exactly (counted : expr.Counted) (found : expr.builderChain? = some folded) :
    ((∀ (ν : Type) (reading : TextReading ν), folded.joined? reading = some (expr.built reading)) ↔
      ∀ pair ∈ expr.written, pair.1.Suits pair.2.type) ∧
    expr.passed.flatMap calls = expr.reserved.flatMap calls ++ folded.operands.flatMap calls ∧
    (expr.passed.flatMap calls = folded.operands.flatMap calls ↔ ∀ size ∈ expr.reserved, size.calls = []) := by
  obtain ⟨receiver,method,note,parts,rfl,_,collected,rfl⟩ := builderChain_some found
  obtain ⟨same,split⟩ := builderParts_written counted.2 collected
  rw [List.append_nil] at same
  have written_eq : written ⟨.boundCall .virtual receiver method [],note⟩ = receiver.written := by simp [written]
  have passed_eq : passed ⟨.boundCall .virtual receiver method [],note⟩ = receiver.passed := by simp [passed]
  have kept : receiver.passed.flatMap calls =
      receiver.reserved.flatMap calls ++ (plain (.concat (leadWithText parts))).operands.flatMap calls := by
    rw [split,List.flatMap_append,← same]
    exact congrArg _ (calls_leadWithText parts).symm
  rw [passed_eq]
  refine ⟨⟨fun reads pair member => ?_,fun suits ν reading => ?_⟩,kept,?_⟩
  · have joined (reading : TextReading Expr) : (parts.mapM (part? reading)).map String.join =
        some (built reading ⟨.boundCall .virtual receiver method [],note⟩) := by
      rw [← joined_lead]
      exact reads Expr reading
    exact suits_of_joined member joined
  · rw [written_eq] at suits
    rw [joined_lead,same,joined_suits reading suits,built,written_eq]
    rfl
  · rw [kept,List.append_left_eq_self,List.flatMap_eq_nil_iff]
    rfl

end Expr

namespace Piecing

def builder : String := "java/lang/StringBuilder"
def ofText : ConstructorRef := ⟨builder,"(Ljava/lang/String;)V",⟨[.object stringClass],.void⟩,by cbv⟩
def ofSize : ConstructorRef := ⟨builder,"(I)V",⟨[.base .int],.void⟩,MethodDescriptor.parse_int_void⟩
def appendInt : MethodRef :=
  ⟨builder,"append","(I)Ljava/lang/StringBuilder;",⟨[.base .int],.value (.object builder)⟩,by cbv⟩
def appendChar : MethodRef :=
  ⟨builder,"append","(C)Ljava/lang/StringBuilder;",⟨[.base .char],.value (.object builder)⟩,by cbv⟩
def toText : MethodRef :=
  ⟨builder,"toString","()Ljava/lang/String;",⟨[],.value (.object stringClass)⟩,MethodDescriptor.parse_string⟩
def size : MethodRef := ⟨"Config","size","()I",⟨[],.value (.base .int)⟩,by cbv⟩

def name : Expr := .var ⟨0,some "s",.string⟩
def measured : Expr := .plain (.freeCall .static size [])
def letter : Expr := .literal (.int 65)

def seeded : Expr := .plain (.new ofText [name])
def labelling : Expr := .plain (.boundCall .virtual (.plain (.boundCall .virtual seeded appendInt [measured])) toText [])
def labelled : Expr := .plain (.concat [name,measured])

def sized : Expr := .plain (.new ofSize [measured])
def spelling : Expr := .plain (.boundCall .virtual (.plain (.boundCall .virtual sized appendChar [letter])) toText [])
def spelled : Expr := .plain (.concat [.literal (.string ""),letter])

def decimal : TextReading Int where
  value expr :=
    match expr.kind with
    | .literal (.int value) => value.toInt
    | _ => 0
  text form value :=
    match form with
    | .char => String.singleton (.ofNat value.toNat)
    | .object => ""
    | _ => toString value
  blank := rfl
  widened _ _ := rfl

end Piecing
open Piecing

theorem labelling_folds : labelling.Counted ∧ labelling.builderChain? = some labelled ∧
    (∀ (ν : Type) (reading : TextReading ν), labelled.joined? reading = some (labelling.built reading)) ∧
    labelling.passed.flatMap Expr.calls = labelled.operands.flatMap Expr.calls := by
  have declared : labelling.Counted := ⟨rfl,rfl,rfl⟩
  have folds : labelling.builderChain? = some labelled := rfl
  have written : labelling.written = [(.object stringClass,name),(.base .int,measured)] := rfl
  have reserved : labelling.reserved = [] := rfl
  have exactly := Expr.chain_folds_exactly declared folds
  refine ⟨declared,folds,exactly.1.mpr ?_,exactly.2.2.mpr ?_⟩
  · rw [written]
    simp only [List.forall_mem_cons]
    exact ⟨Or.inl rfl,Or.inl rfl,by simp⟩
  · simp [reserved]

theorem spelling_misread : spelling.builderChain? = some spelled ∧
    spelling.built decimal = "A" ∧ spelled.joined? decimal = some "65" ∧
    spelling.passed.flatMap Expr.calls = [measured] ∧ spelled.operands.flatMap Expr.calls = [] := by
  refine ⟨rfl,?_,?_,?_,?_⟩
  · decide
  · decide
  · cbv
  · cbv

end Untangle
