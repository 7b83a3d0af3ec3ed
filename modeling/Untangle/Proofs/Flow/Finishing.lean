import Mathlib.Data.List.Nodup
import Mathlib.Tactic.Tauto
import Untangle.Proofs.Flow.Dominators

namespace Untangle
open Relation

def Visit.node : Visit → Nat
  | .enter node => node
  | .leave node => node

def underway : List Visit → List Nat
  | [] => []
  | .enter _ :: rest => underway rest
  | .leave node :: rest => node :: underway rest

-- Each visit follows from the closest node underway below it, or starts at a root.
def Stacked (next : Nat → List Nat) (roots : List Nat) : List Visit → Prop
  | [] => True
  | visit :: rest =>
    (match underway rest with
      | [] => visit.node ∈ roots
      | top :: _ => visit.node ∈ next top) ∧ Stacked next roots rest

def Forward (size : Nat) (next : Nat → List Nat) (order : List Nat) (source target : Nat) : Prop :=
  Step size next source target ∧ [source,target].Sublist order

variable {size node source target : Nat} {next : Nat → List Nat} {roots order seen finished : List Nat}
  {pending rest : List Visit}

theorem underway_append (front rest : List Visit) : underway (front ++ rest) = underway front ++ underway rest := by
  induction front with
  | nil => rfl
  | cons visit front ih => cases visit <;> simp [underway,ih]

theorem underway_enters (nodes : List Nat) : underway (nodes.map .enter) = [] := by
  induction nodes with
  | nil => rfl
  | cons node nodes ih => exact ih

theorem finish_keeps (size : Nat) (next : Nat → List Nat) (pending : List Visit) (seen finished : List Nat) :
    ((underway pending).reverse ++ finished).Sublist (finish size next pending seen finished) := by
  fun_induction finish size next pending seen finished with
  | case1 seen finished => exact List.Sublist.refl _
  | case2 seen finished node rest ih => simpa [underway] using ih
  | case3 seen finished node rest fresh ih =>
    rw [underway_append,underway_enters] at ih
    refine List.Sublist.trans ?_ ih
    simp [underway]
  | case4 seen finished node rest stale ih => exact ih

theorem Stacked.descends {top : Nat} {below : List Nat} (stacked : Stacked next roots pending)
    (within : ∀ node ∈ underway pending, node < size) (kept : (underway pending).reverse.Sublist order)
    (at_ : underway pending = top :: below) :
    (∀ node ∈ top :: below, ReflTransGen (Forward size next order) node top) ∧
      ∃ root ∈ roots, root < size ∧ ReflTransGen (Forward size next order) root top := by
  induction pending generalizing top below with
  | nil => cases at_
  | cons visit rest ih =>
    cases visit with
    | enter _ => exact ih stacked.2 within kept at_
    | leave _ =>
      cases at_
      have inside := within top List.mem_cons_self
      obtain ⟨origin,deeper⟩ := stacked
      cases more : underway rest with
      | nil =>
        rw [more] at origin
        refine ⟨?_,top,origin,inside,.refl⟩
        intro node member
        cases List.mem_singleton.mp member
        exact .refl
      | cons under below =>
        rw [more] at origin
        simp only [underway,more,List.reverse_cons,List.append_assoc] at kept
        have last : Forward size next order under top :=
          ⟨⟨inside,origin⟩,(List.sublist_append_right _ _).trans kept⟩
        have shorter : (underway rest).reverse.Sublist order := by
          rw [more,List.reverse_cons]
          refine List.Sublist.trans ?_ kept
          exact (List.Sublist.refl _).append (List.sublist_append_left _ _)
        obtain ⟨onward,root,listed,bound,start⟩ :=
          ih deeper (fun node member => within node (List.mem_cons_of_mem _ member)) shorter more
        refine ⟨?_,root,listed,bound,start.tail last⟩
        intro node member
        rcases List.mem_cons.mp member with rfl | member
        · exact .refl
        · exact (onward node member).tail last

-- A depth-first search on its way to an order. A finished node stands before all it leads to, except
-- for nodes it was found from.
structure Searching (size : Nat) (next : Nat → List Nat) (roots order : List Nat) (pending : List Visit)
    (seen finished : List Nat) : Prop where
  stacked : Stacked next roots pending
  entered : ∀ node, node ∈ seen ↔ node ∈ finished ∨ node ∈ underway pending
  led : ∀ front node rest, pending = front ++ .leave node :: rest → ∀ target, Step size next node target →
    target ∈ seen ∨ .enter target ∈ front
  ordered : ∀ front node rest, finished = front ++ node :: rest → ∀ target, Step size next node target →
    target ∈ seen ∧ (target ∈ rest ∨ ReflTransGen (Forward size next order) target node)
  rooted : ∀ node ∈ finished, ∃ root ∈ roots, root < size ∧ ReflTransGen (Forward size next order) root node
  started : ∀ root ∈ roots, root < size → root ∈ seen ∨ .enter root ∈ pending
  once : (underway pending ++ finished).Nodup
  within : ∀ node ∈ underway pending, node < size

namespace Searching

theorem start (size : Nat) (next : Nat → List Nat) (roots order : List Nat) :
    Searching size next roots order (roots.map .enter) [] [] := by
  have stacked : ∀ some : List Nat, (∀ root ∈ some, root ∈ roots) → Stacked next roots (some.map .enter) := by
    intro some listed
    induction some with
    | nil => trivial
    | cons root others ih =>
      refine ⟨?_,ih fun other member => listed other (List.mem_cons_of_mem _ member)⟩
      rw [underway_enters]
      exact listed root List.mem_cons_self
  refine ⟨stacked roots fun _ member => member,?_,?_,by simp,by simp,?_,?_,?_⟩
  · simp [underway_enters]
  · intro front node rest same
    have impossible : Visit.leave node ∈ roots.map .enter := same ▸ by simp
    simp at impossible
  · intro root listed _
    exact Or.inr (List.mem_map.mpr ⟨root,listed,rfl⟩)
  · simp [underway_enters]
  · simp [underway_enters]

theorem leave (searching : Searching size next roots order (.leave node :: rest) seen finished)
    (kept : ((underway (.leave node :: rest)).reverse ++ finished).Sublist order) :
    Searching size next roots order rest seen (node :: finished) := by
  obtain ⟨found,root⟩ := searching.stacked.descends searching.within
    ((List.sublist_append_left _ _).trans kept) rfl
  refine ⟨searching.stacked.2,?_,?_,?_,?_,?_,List.nodup_middle.mpr searching.once,
    fun other member => searching.within other (List.mem_cons_of_mem _ member)⟩
  · intro other
    rw [searching.entered other,underway,List.mem_cons,List.mem_cons]
    tauto
  · intro front other behind same target leads
    rcases searching.led (.leave node :: front) other behind (by simp [same]) target leads with known | waits
    · exact Or.inl known
    · exact Or.inr (by simpa using waits)
  · intro front other behind same target leads
    cases front with
    | nil =>
      cases same
      rcases searching.led [] _ rest rfl target leads with known | impossible
      · refine ⟨known,?_⟩
        rcases (searching.entered target).mp known with done | waits
        · exact Or.inl done
        · exact Or.inr (found target waits)
      · cases impossible
    | cons first front =>
      cases same
      exact searching.ordered front other behind rfl target leads
  · intro other member
    rcases List.mem_cons.mp member with rfl | member
    · exact root
    · exact searching.rooted other member
  · intro root listed inside
    rcases searching.started root listed inside with known | waits
    · exact Or.inl known
    · exact Or.inr (by simpa using waits)

theorem enter (searching : Searching size next roots order (.enter node :: rest) seen finished)
    (inside : node < size) (fresh : node ∉ seen) :
    Searching size next roots order ((next node).map .enter ++ .leave node :: rest) (node :: seen) finished := by
  have deeper : underway ((next node).map .enter ++ .leave node :: rest) = node :: underway rest := by
    rw [underway_append,underway_enters]
    rfl
  have stacked : ∀ some : List Nat, (∀ target ∈ some, target ∈ next node) →
      Stacked next roots (some.map .enter ++ .leave node :: rest) := by
    intro some listed
    induction some with
    | nil => exact searching.stacked
    | cons target others ih =>
      refine ⟨?_,ih fun other member => listed other (List.mem_cons_of_mem _ member)⟩
      change match underway (others.map .enter ++ .leave node :: rest) with
        | [] => target ∈ roots
        | top :: _ => target ∈ next top
      rw [underway_append,underway_enters]
      exact listed target List.mem_cons_self
  refine ⟨stacked _ fun _ member => member,?_,?_,?_,searching.rooted,?_,?_,?_⟩
  · intro other
    rw [deeper,List.mem_cons,List.mem_cons,searching.entered other]
    simp only [underway]
    tauto
  · intro front other behind same target leads
    have children : target ∈ next node → Visit.enter target ∈ (next node).map .enter := List.mem_map_of_mem
    rcases List.append_eq_append_iff.mp same with ⟨extra,first,second⟩ | ⟨extra,first,second⟩
    · cases extra with
      | nil =>
        cases second
        rw [first,List.append_nil]
        exact Or.inr (children leads.2)
      | cons head extra =>
        cases second
        rcases searching.led (.enter node :: extra) other behind rfl target leads with known | waits
        · exact Or.inl (List.mem_cons_of_mem _ known)
        · rcases List.mem_cons.mp waits with top | waits
          · cases top
            exact Or.inl List.mem_cons_self
          · exact Or.inr (by simp [first,waits])
    · cases extra with
      | nil =>
        cases second
        rw [List.append_nil] at first
        exact Or.inr (first ▸ children leads.2)
      | cons head extra =>
        cases second
        have impossible : Visit.leave other ∈ (next node).map .enter := first ▸ by simp
        simp at impossible
  · intro front other behind same target leads
    obtain ⟨known,place⟩ := searching.ordered front other behind same target leads
    exact ⟨List.mem_cons_of_mem _ known,place⟩
  · intro root listed bound
    rcases searching.started root listed bound with known | waits
    · exact Or.inl (List.mem_cons_of_mem _ known)
    · rcases List.mem_cons.mp waits with top | waits
      · cases top
        exact Or.inl List.mem_cons_self
      · exact Or.inr (by simp [waits])
  · rw [deeper]
    refine List.nodup_cons.mpr ⟨fun member => fresh ((searching.entered node).mpr ?_),searching.once⟩
    exact (List.mem_append.mp member).symm
  · intro other member
    rw [deeper] at member
    rcases List.mem_cons.mp member with rfl | member
    · exact inside
    · exact searching.within other member

theorem skip (searching : Searching size next roots order (.enter node :: rest) seen finished)
    (stale : ¬(node < size ∧ node ∉ seen)) : Searching size next roots order rest seen finished := by
  have known (inside : node < size) : node ∈ seen := by
    by_contra fresh
    exact stale ⟨inside,fresh⟩
  refine ⟨searching.stacked.2,searching.entered,?_,searching.ordered,searching.rooted,?_,searching.once,
    searching.within⟩
  · intro front other behind same target leads
    rcases searching.led (.enter node :: front) other behind (by simp [same]) target leads with old | waits
    · exact Or.inl old
    · rcases List.mem_cons.mp waits with top | waits
      · cases top
        exact Or.inl (known leads.1)
      · exact Or.inr waits
  · intro root listed inside
    rcases searching.started root listed inside with old | waits
    · exact Or.inl old
    · rcases List.mem_cons.mp waits with top | waits
      · cases top
        exact Or.inl (known inside)
      · exact Or.inr waits

theorem run (searching : Searching size next roots order pending seen finished)
    (ends : finish size next pending seen finished = order) :
    ∃ seen', Searching size next roots order [] seen' order := by
  have kept := finish_keeps size next pending seen finished
  rw [ends] at kept
  fun_induction finish size next pending seen finished with
  | case1 seen finished => exact ⟨seen,ends ▸ searching⟩
  | case2 seen finished node rest ih =>
    exact ih (searching.leave kept) ends (by simpa [underway] using kept)
  | case3 seen finished node rest fresh ih =>
    exact ih (searching.enter fresh.1 fresh.2) ends (ends ▸ finish_keeps _ _ _ _ _)
  | case4 seen finished node rest stale ih => exact ih (searching.skip stale) ends kept

end Searching

namespace BlockGraph
variable {graph : BlockGraph} {block source target : BlockId}

abbrev Forward (graph : BlockGraph) (source target : BlockId) : Prop :=
  Untangle.Forward graph.size graph.successors graph.order source target

theorem searched (graph : BlockGraph) :
    ∃ seen, Searching graph.size graph.successors graph.roots graph.order [] seen graph.order :=
  (Searching.start _ _ _ _).run rfl

theorem mem_order : block ∈ graph.order ↔ Reaches graph.size graph.successors graph.roots block := by
  obtain ⟨seen,searching⟩ := graph.searched
  have listed (node : BlockId) : node ∈ seen ↔ node ∈ graph.order := by
    simpa [underway] using searching.entered node
  constructor
  · intro member
    obtain ⟨root,known,bound,walk⟩ := searching.rooted block member
    exact Reaches.iff_walk.mpr ⟨root,known,bound,ReflTransGen.mono (fun _ _ step => step.1) _ _ walk⟩
  · intro reaches
    induction reaches with
    | root inside member => exact (listed _).mp (by simpa using searching.started _ member inside)
    | @edge node target _ inside leads ih =>
      obtain ⟨front,rest,same⟩ := List.append_of_mem ih
      exact (listed target).mp (searching.ordered front node rest same target ⟨inside,leads⟩).1

theorem order_once (graph : BlockGraph) : graph.order.Nodup := by
  obtain ⟨_,searching⟩ := graph.searched
  exact searching.once

theorem idxOf_lt (once : order.Nodup) (kept : [source,target].Sublist order) :
    order.idxOf source < order.idxOf target := by
  obtain ⟨front,rest,rfl,member⟩ : ∃ front rest, order = front ++ source :: rest ∧ target ∈ rest := by
    obtain ⟨front,rest,same,first,later⟩ := List.cons_sublist_iff.mp kept
    obtain ⟨before,after,rfl⟩ := List.append_of_mem first
    refine ⟨before,after ++ rest,by simp [same],?_⟩
    exact List.mem_append_right _ (List.singleton_sublist.mp later)
  obtain ⟨_,behind,apart⟩ := List.nodup_append.mp once
  have missing : target ∉ front := fun ahead => apart target ahead target (List.mem_cons_of_mem _ member) rfl
  have first : source ∉ front := fun ahead => apart source ahead source List.mem_cons_self rfl
  have other : source ≠ target := fun eq => (List.nodup_cons.mp behind).1 (eq ▸ member)
  rw [List.idxOf_append_of_notMem missing,List.idxOf_append_of_notMem first,List.idxOf_cons_self,
    List.idxOf_cons_ne _ other]
  omega

theorem Forward.before (forward : graph.Forward source target) :
    graph.order.idxOf source < graph.order.idxOf target :=
  idxOf_lt graph.order_once forward.2

theorem forward_walk_before (walk : ReflTransGen graph.Forward source target) :
    graph.order.idxOf source ≤ graph.order.idxOf target := by
  induction walk with
  | refl => exact Nat.le_refl _
  | tail _ last ih => exact Nat.le_trans ih (Nat.le_of_lt last.before)

theorem retreat_cycles (leads : target ∈ graph.successors source) (listed : source ∈ graph.order)
    (early : graph.order.idxOf target ≤ graph.order.idxOf source) :
    ReflTransGen graph.Forward target source := by
  obtain ⟨seen,searching⟩ := graph.searched
  obtain ⟨front,rest,same⟩ := List.append_of_mem listed
  rcases (searching.ordered front source rest same target ⟨successor_inside leads,leads⟩).2 with later | back
  · have kept : [source,target].Sublist graph.order := by
      rw [same]
      exact ((List.singleton_sublist.mpr later).cons_cons source).trans (List.sublist_append_right _ _)
    exact absurd (idxOf_lt graph.order_once kept) (Nat.not_lt.mpr early)
  · exact back

theorem dominator_before {above : BlockId}
    (dominates : Dominates graph.size graph.successors graph.roots above block) (apart : above ≠ block) :
    graph.order.idxOf above < graph.order.idxOf block := by
  obtain ⟨_,searching⟩ := graph.searched
  obtain ⟨root,known,bound,walk⟩ := searching.rooted block (mem_order.mpr dominates.below)
  have through : Clear graph.size graph.successors above root block ∨
      ReflTransGen graph.Forward above block := by
    clear dominates apart
    induction walk with
    | refl =>
      by_cases same : root = above
      · exact Or.inr (same ▸ .refl)
      · exact Or.inl (.stay same)
    | @tail middle target _ last ih =>
      rcases ih with missed | onward
      · by_cases same : target = above
        · exact Or.inr (same ▸ .refl)
        · exact Or.inl (missed.step last.1 same)
      · exact Or.inr (onward.tail last)
  rcases through with missed | onward
  · exact absurd missed (dominates.never root known bound)
  · obtain same | ⟨middle,before,last⟩ := onward.cases_tail
    · exact absurd same.symm apart
    · exact Nat.lt_of_le_of_lt (forward_walk_before before) last.before

end BlockGraph
end Untangle
