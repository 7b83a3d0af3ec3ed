import Mathlib.Data.List.Chain
import Mathlib.Data.List.Nodup
import Mathlib.Data.List.Perm.Subperm
import Mathlib.Logic.Relation
import Untangle.Resolver

namespace Untangle
namespace Resolver
open Relation
variable {resolver : Resolver} {child parent other name current : String} {chain one two passed older : List String}
  {steps : Nat}

def Extends (resolver : Resolver) (child parent : String) : Prop := resolver.superclass child = .ok (some parent)

def Acyclic (resolver : Resolver) : Prop := ∀ name, ¬TransGen resolver.Extends name name

-- All classes on the way up from one, up to where a lookup fails, is empty or comes back to a class
-- that has been seen.
structure Ascends (resolver : Resolver) (name : String) (chain : List String) : Prop where
  begins : chain.head? = some name
  rises : chain.IsChain resolver.Extends
  once : chain.Nodup
  ends : ∀ last ∈ chain.getLast?, ∀ parent, resolver.Extends last parent → parent ∈ chain

structure Ascending (resolver : Resolver) (name : String) (passed : List String) : Prop where
  begins : passed.getLast? = some name
  rises : passed.IsChain fun above below => resolver.Extends below above
  once : passed.Nodup

theorem Extends.unique (first : resolver.Extends child parent) (second : resolver.Extends child other) :
    parent = other := by
  cases first.symm.trans second
  rfl

theorem Extends.row (up : resolver.Extends child parent) : (child,parent) ∈ resolver.superclassRows := by
  unfold Extends superclass at up
  split at up
  · cases up
  · cases known : latest resolver.superclassRows child with
    | none =>
      rw [known] at up
      cases up
    | some above =>
      rw [known] at up
      cases up
      obtain ⟨earlier,later,same,_⟩ := List.lookup_eq_some_iff.mp known
      have member : (child,parent) ∈ resolver.superclassRows.reverse := by
        rw [same]
        exact List.mem_append_right _ List.mem_cons_self
      exact List.mem_reverse.mp member

theorem Ascending.extends_each (ascending : resolver.Ascending name (current :: older)) :
    ∀ below ∈ older, ∃ above, resolver.Extends below above := by
  have rises := ascending.rises
  clear ascending
  induction older generalizing current with
  | nil => simp
  | cons next rest ih =>
    obtain ⟨up,rises⟩ := List.isChain_cons_cons.mp rises
    exact List.forall_mem_cons.mpr ⟨⟨current,up⟩,ih rises⟩

theorem Ascending.further (ascending : resolver.Ascending name (current :: older))
    (up : resolver.Extends current parent) (fresh : parent ∉ current :: older) :
    resolver.Ascending name (parent :: current :: older) where
  begins := by simpa using ascending.begins
  rises := List.isChain_cons_cons.mpr ⟨up,ascending.rises⟩
  once := List.nodup_cons.mpr ⟨fresh,ascending.once⟩

theorem Ascending.stuck (ascending : resolver.Ascending name (current :: older))
    (ends : ∀ parent, resolver.Extends current parent → parent ∈ current :: older) :
    resolver.Ascends name (current :: older).reverse where
  begins := by rw [List.head?_reverse,ascending.begins]
  rises := List.isChain_reverse.mpr ascending.rises
  once := List.nodup_reverse.mpr ascending.once
  ends := by
    intro last final parent up
    rw [List.getLast?_reverse] at final
    cases final
    exact List.mem_reverse.mpr (ends parent up)

theorem rows_bound (once : chain.Nodup) (each : ∀ name ∈ chain, ∃ parent, resolver.Extends name parent) :
    chain.length ≤ resolver.superclassRows.length := by
  have listed : chain ⊆ resolver.superclassRows.map Prod.fst := by
    intro name member
    obtain ⟨parent,up⟩ := each name member
    exact List.mem_map.mpr ⟨_,up.row,rfl⟩
  simpa using (List.subperm_of_subset once listed).length_le

-- The bound on the steps never cuts a way short: on one that long every row has been used, so nothing
-- is left to go up by.
theorem above_ascends (ascending : resolver.Ascending name (current :: older))
    (enough : resolver.superclassRows.length ≤ older.length + steps) :
    resolver.Ascends name ((current :: older).reverse ++ resolver.above (current :: older) current steps) := by
  induction steps generalizing current older with
  | zero =>
    unfold above
    rw [List.append_nil]
    refine ascending.stuck fun parent up => ?_
    have bound := rows_bound ascending.once (List.forall_mem_cons.mpr ⟨⟨parent,up⟩,ascending.extends_each⟩)
    rw [List.length_cons] at bound
    omega
  | succ steps ih =>
    unfold above
    split
    · rename_i parent up
      split
      · rename_i known
        rw [List.append_nil]
        exact ascending.stuck fun other up' => Extends.unique up up' ▸ known
      · rename_i fresh
        have rest := ih (ascending.further up fresh) (by rw [List.length_cons]; omega)
        simpa using rest
    · rename_i fails
      rw [List.append_nil]
      exact ascending.stuck fun parent up => absurd up (fails parent)

theorem chain_ascends (resolver : Resolver) (name : String) : resolver.Ascends name (resolver.chain name) := by
  have start : resolver.Ascending name [name] := ⟨rfl,.singleton name,List.nodup_singleton name⟩
  exact above_ascends start (by simp)

theorem prefix_or (begins : one.head? = two.head?) (rises : one.IsChain resolver.Extends)
    (rises' : two.IsChain resolver.Extends) : one <+: two ∨ two <+: one := by
  induction one generalizing two with
  | nil => exact Or.inl two.nil_prefix
  | cons first rest ih =>
    cases two with
    | nil => exact Or.inr (List.nil_prefix)
    | cons second others =>
      cases begins
      simp only [List.prefix_cons_inj]
      cases rest with
      | nil => exact Or.inl others.nil_prefix
      | cons next rest =>
        cases others with
        | nil => exact Or.inr List.nil_prefix
        | cons next' others =>
          obtain ⟨up,rises⟩ := List.isChain_cons_cons.mp rises
          obtain ⟨up',rises'⟩ := List.isChain_cons_cons.mp rises'
          exact ih (congrArg some (up.unique up')) rises rises'

-- The longer one would go on to a class that the shorter one has seen, which it has as well.
theorem Ascends.whole (ascends : resolver.Ascends name one) (ascends' : resolver.Ascends name two)
    (begins : one <+: two) : one = two := by
  obtain ⟨rest,rfl⟩ := begins
  cases rest with
  | nil => rw [List.append_nil]
  | cons next rest =>
    obtain ⟨_,_,joined⟩ := List.isChain_append.mp ascends'.rises
    cases final : one.getLast? with
    | none =>
      rw [List.getLast?_eq_none_iff.mp final] at ascends
      cases ascends.begins
    | some last =>
      have seen := ascends.ends last final next (joined last final next rfl)
      exact absurd rfl ((List.nodup_append.mp ascends'.once).2.2 next seen next List.mem_cons_self)

theorem Ascends.unique (ascends : resolver.Ascends name one) (ascends' : resolver.Ascends name two) : one = two := by
  rcases prefix_or (ascends.begins.trans ascends'.begins.symm) ascends.rises ascends'.rises with shorter | longer
  · exact ascends.whole ascends' shorter
  · exact (ascends'.whole ascends longer).symm

theorem ascends_iff : resolver.Ascends name chain ↔ chain = resolver.chain name := by
  constructor
  · exact fun ascends => ascends.unique (resolver.chain_ascends name)
  · rintro rfl
    exact resolver.chain_ascends name

theorem rises_above (rises : chain.IsChain resolver.Extends) : chain.Pairwise (TransGen resolver.Extends) :=
  (rises.imp fun _ _ up => TransGen.single up).pairwise

theorem Ascends.top {last : String} (ascends : resolver.Ascends name chain) (acyclic : resolver.Acyclic)
    (final : last ∈ chain.getLast?) : ¬resolver.Extends last parent := by
  intro up
  have seen := ascends.ends last final parent up
  obtain ⟨below,rfl⟩ := List.getLast?_eq_some_iff.mp final
  rcases List.mem_append.mp seen with earlier | same
  · have above := (List.pairwise_append.mp (rises_above ascends.rises)).2.2 parent earlier last (List.mem_singleton.mpr rfl)
    exact acyclic parent (above.tail up)
  · cases List.mem_singleton.mp same
    exact acyclic parent (.single up)

theorem Ascends.onward {below above : List String} (ascends : resolver.Ascends name (below ++ current :: above))
    (acyclic : resolver.Acyclic) : resolver.Ascends current (current :: above) where
  begins := rfl
  rises := ascends.rises.right_of_append
  once := (List.nodup_append.mp ascends.once).2.1
  ends := by
    intro last final parent up
    have ending : last ∈ (below ++ current :: above).getLast? := by
      rw [List.getLast?_append,final]
      rfl
    exact absurd up (ascends.top acyclic ending)

theorem meeting_first (resolver : Resolver) (chain seen : List String) (current : String) (steps : Nat) :
    resolver.meeting chain seen current steps =
      ((current :: resolver.above seen current steps).find? (· ∈ chain)).getD objectClass := by
  induction steps generalizing seen current with
  | zero =>
    unfold meeting above
    by_cases shared : current ∈ chain <;> simp [shared]
  | succ steps ih =>
    unfold meeting above
    rw [List.find?_cons]
    by_cases shared : current ∈ chain
    · simp [shared]
    · simp only [shared,if_false,decide_false]
      split
      · split
        · rfl
        · exact ih _ _
      · rfl

theorem commonSuperclass_first (resolver : Resolver) (left right : String) :
    resolver.commonSuperclass left right = ((resolver.chain right).find? (· ∈ resolver.chain left)).getD objectClass := by
  unfold commonSuperclass
  split
  · rename_i same
    subst same
    simp [chain]
  · rw [meeting_first]
    rfl

theorem commonSuperclass_cases (resolver : Resolver) (left right : String) :
    (resolver.commonSuperclass left right = objectClass ∧ ∀ name ∈ resolver.chain right, name ∉ resolver.chain left) ∨
      ∃ below above, resolver.chain right = below ++ resolver.commonSuperclass left right :: above ∧
        resolver.commonSuperclass left right ∈ resolver.chain left ∧ ∀ name ∈ below, name ∉ resolver.chain left := by
  rw [commonSuperclass_first]
  cases found : (resolver.chain right).find? (· ∈ resolver.chain left) with
  | none => exact Or.inl ⟨rfl,by simpa using found⟩
  | some meeting =>
    obtain ⟨shared,below,above,same,before⟩ := List.find?_eq_some_iff_append.mp found
    exact Or.inr ⟨below,above,same,by simpa using shared,by simpa using before⟩

-- Where two chains meet they go on together, so the first class of either one on the other is the same.
theorem commonSuperclass_comm (acyclic : resolver.Acyclic) (left right : String) :
    resolver.commonSuperclass right left = resolver.commonSuperclass left right := by
  rcases resolver.commonSuperclass_cases left right with ⟨root,apart⟩ | ⟨below,above,rightChain,shared,fresh⟩
  · rcases resolver.commonSuperclass_cases right left with ⟨root',_⟩ | ⟨_,_,leftChain,shared,_⟩
    · exact root'.trans root.symm
    · have known : resolver.commonSuperclass right left ∈ resolver.chain left := by
        rw [leftChain]
        exact List.mem_append_right _ List.mem_cons_self
      exact absurd known (apart _ shared)
  · generalize resolver.commonSuperclass left right = meeting at *
    obtain ⟨below',above',leftChain⟩ := List.append_of_mem shared
    have one := resolver.chain_ascends right
    have two := resolver.chain_ascends left
    rw [rightChain] at one
    rw [leftChain] at two
    have same := (one.onward acyclic).unique (two.onward acyclic)
    cases same
    have first : (resolver.chain left).find? (· ∈ resolver.chain right) = some meeting := by
      refine List.find?_eq_some_iff_append.mpr ⟨by simp [rightChain],below',above,leftChain,?_⟩
      intro name earlier
      have apart : name ∉ resolver.chain right := by
        rw [rightChain,List.mem_append]
        rintro (lower | higher)
        · exact fresh name lower (leftChain ▸ List.mem_append_left _ earlier)
        · exact (List.nodup_append.mp two.once).2.2 name earlier name higher rfl
      simpa using apart
    rw [commonSuperclass_first,first]
    rfl

theorem acyclic_of_rank (rank : String → Nat) (climbs : ∀ row ∈ resolver.superclassRows, rank row.1 < rank row.2) :
    resolver.Acyclic := by
  intro name cycle
  have higher : ∀ above, TransGen resolver.Extends name above → rank name < rank above := by
    intro above way
    induction way with
    | single up => exact climbs _ up.row
    | tail _ up ih => exact Nat.lt_trans ih (climbs _ up.row)
  exact Nat.lt_irrefl _ (higher name cycle)

-- The two ways up always end, and what is found is the first class on the second one that is on the first
-- one too: all other such classes are above it. If there is none it is the root class. As long as no class
-- is its own superclass, it does not matter which of the two comes first.
theorem common_superclass_nearest (resolver : Resolver) (left right : String) :
    ∃ leftChain rightChain,
      (∀ chain, resolver.Ascends left chain ↔ chain = leftChain) ∧
      (∀ chain, resolver.Ascends right chain ↔ chain = rightChain) ∧
      ((resolver.commonSuperclass left right = objectClass ∧ ∀ name ∈ rightChain, name ∉ leftChain) ∨
        (resolver.commonSuperclass left right ∈ leftChain ∧
          (∃ below above, rightChain = below ++ resolver.commonSuperclass left right :: above ∧
            ∀ name ∈ below, name ∉ leftChain) ∧
          ∀ name ∈ leftChain, name ∈ rightChain →
            ReflTransGen resolver.Extends (resolver.commonSuperclass left right) name)) ∧
      (resolver.Acyclic → resolver.commonSuperclass right left = resolver.commonSuperclass left right) := by
  refine ⟨resolver.chain left,resolver.chain right,fun _ => ascends_iff,fun _ => ascends_iff,?_,
    fun acyclic => commonSuperclass_comm acyclic left right⟩
  rcases resolver.commonSuperclass_cases left right with root | ⟨below,above,rightChain,shared,fresh⟩
  · exact Or.inl root
  · refine Or.inr ⟨shared,⟨below,above,rightChain,fresh⟩,?_⟩
    intro name here there
    have rises := (resolver.chain_ascends right).rises
    rw [rightChain] at rises there
    rcases List.mem_append.mp there with lower | same | higher
    · exact absurd here (fresh name lower)
    · exact .refl
    · rename_i higher
      have all := List.pairwise_cons.mp (rises_above rises.right_of_append)
      exact (all.1 name higher).to_reflTransGen

def menagerie : Resolver :=
  .tables [] [] [("zoo/Lynx","zoo/Cat"),("zoo/Lion","zoo/Cat"),("zoo/Cat","zoo/Animal"),("zoo/Animal",objectClass)]

theorem menagerie_acyclic : menagerie.Acyclic :=
  acyclic_of_rank (["zoo/Lynx","zoo/Lion","zoo/Cat","zoo/Animal",objectClass].idxOf ·) (by decide)

theorem cats_meet : menagerie.Acyclic ∧ menagerie.commonSuperclass "zoo/Lion" "zoo/Lynx" = "zoo/Cat" ∧
    menagerie.commonSuperclass "zoo/Lynx" "zoo/Lion" = "zoo/Cat" := by
  obtain ⟨_,_,_,_,_,either⟩ := menagerie.common_superclass_nearest "zoo/Lion" "zoo/Lynx"
  have meets : menagerie.commonSuperclass "zoo/Lion" "zoo/Lynx" = "zoo/Cat" := by decide
  exact ⟨menagerie_acyclic,meets,(either menagerie_acyclic).trans meets⟩

-- Of two classes that are above each other the second one is found.
example : (tables [] [] [("a","b"),("b","a")]).commonSuperclass "a" "b" = "b" ∧
    (tables [] [] [("a","b"),("b","a")]).commonSuperclass "b" "a" = "a" := by decide

end Resolver
end Untangle
