import Untangle.Flow.Search

namespace Untangle

structure PendingArm where
  entry : BlockId
  labels : List Int32
  isDefault : Bool
  exits : Bool
deriving DecidableEq

namespace PendingArm

def addCase (label : Int32) (target : BlockId) (exits : Bool) : List PendingArm → List PendingArm
  | [] => [⟨target,[label],false,exits⟩]
  | arm :: rest =>
    if arm.entry = target then {arm with labels:=arm.labels ++ [label]} :: rest
    else arm :: addCase label target exits rest

def addDefault (target : BlockId) : List PendingArm → List PendingArm
  | [] => [⟨target,[],true,false⟩]
  | arm :: rest =>
    if arm.entry = target then {arm with isDefault:=true} :: rest else arm :: addDefault target rest

-- One arm per target, labels in table order. Where the default goes straight to the end, cases that
-- do so too need no arm.
def group (cases : List (Int32 × BlockId)) (default : BlockId) (merge : Option BlockId) :
    List PendingArm :=
  let defaultExits := merge == some default
  let arms := cases.foldl (fun arms (label,target) =>
    let exits := merge == some target
    if exits && defaultExits then arms else addCase label target exits arms) []
  if defaultExits then arms else addDefault default arms

def emitted (arm : PendingArm) : List Int32 := if arm.isDefault then [] else arm.labels

end PendingArm

abbrev ArmLinks := List (Nat × Nat)

namespace ArmLinks

def next? (links : ArmLinks) (source : Nat) : Option Nat :=
  (links.find? fun link => link.1 == source).map (·.2)

def previous? (links : ArmLinks) (target : Nat) : Option Nat :=
  (links.find? fun link => link.2 == target).map (·.1)

-- Links the first arm with no follower yet that dominates a way into the target, unless the target
-- already follows one.
def claim (dominates : BlockId → BlockId → Bool) (arms : List PendingArm) (links : ArmLinks)
    (target : Nat) (source : BlockId) : ArmLinks :=
  let before := arms.zipIdx.find? fun (arm,index) =>
    index != target && !arm.exits && (links.next? index).isNone && dominates arm.entry source
  match before, links.previous? target with
  | some (_,index), none => links ++ [(index,target)]
  | _, _ => links

def compute (graph : BlockGraph) (dominates : BlockId → BlockId → Bool) (block : BlockId)
    (arms : List PendingArm) : ArmLinks :=
  arms.zipIdx.foldl (fun links (arm,target) =>
    if arm.exits then links else
    ((graph.predecessors arm.entry).filter (· ≠ block)).foldl
      (fun links source => claim dominates arms links target source) links) []

def head (links : ArmLinks) (placed : List Nat) (arm : Nat) : Nat → Nat
  | 0 => arm
  | steps + 1 =>
    match links.previous? arm with
    | none => arm
    | some before => if before ∈ placed then arm else head links placed before steps

def follow (count : Nat) (links : ArmLinks) (placed : List Nat) (arm : Nat) : List Nat :=
  if _fresh : arm < count ∧ arm ∉ placed then
    match links.next? arm with
    | none => arm :: placed
    | some next => follow count links (arm :: placed) next
  else placed
termination_by unseen count placed
decreasing_by exact unseen_cons_lt _fresh.1 _fresh.2

end ArmLinks

def armOrder (graph : BlockGraph) (dominates : BlockId → BlockId → Bool) (block : BlockId)
    (arms : List PendingArm) : List Nat :=
  let links := ArmLinks.compute graph dominates block arms
  let placed := (List.range arms.length).foldl (fun placed start =>
    if start ∈ placed then placed
    else links.follow arms.length placed (links.head placed start (arms.length + 1))) []
  placed.reverse

end Untangle
