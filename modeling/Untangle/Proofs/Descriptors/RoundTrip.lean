import Untangle.Ty

namespace Untangle

-- Class names that a descriptor can hold: some text, and no semicolon in it.
def Nameable (name : String) : Prop := name ≠ "" ∧ ';' ∉ name.toList

def FieldType.Nameable : FieldType → Prop
  | base _ => True
  | object name => Untangle.Nameable name
  | array component => component.Nameable

def ReturnType.Nameable : ReturnType → Prop
  | void => True
  | value type => type.Nameable

structure MethodDescriptor.Nameable (method : MethodDescriptor) : Prop where
  params : ∀ param ∈ method.params, param.Nameable
  returns : method.returns.Nameable

variable {whole : String} {text rest : List Char}

theorem BaseType.toChar_ofChar {c : Char} {letter : BaseType} (found : ofChar? c = some letter) :
    letter.toChar = c := by
  unfold ofChar? at found
  split at found <;> cases found <;> rfl

theorem cut_name {name : List Char} (free : ';' ∉ name) (rest : List Char) :
    (name ++ ';' :: rest).takeWhile (· != ';') = name ∧ (name ++ ';' :: rest).dropWhile (· != ';') = ';' :: rest := by
  have all : ∀ c ∈ name, (c != ';') = true := by
    intro c member
    exact bne_iff_ne.mpr fun same => free (same ▸ member)
  rw [List.takeWhile_append_of_pos all,List.dropWhile_append_of_pos all]
  simp

theorem cut_found {after : List Char} {c : Char} (cut : text.dropWhile (· != ';') = c :: after) :
    text = text.takeWhile (· != ';') ++ ';' :: after ∧ ';' ∉ text.takeWhile (· != ';') := by
  have stop := List.head?_dropWhile_not (· != ';') text
  rw [cut] at stop
  have same : c = ';' := by simpa using stop
  subst same
  refine ⟨?_,?_⟩
  · rw [← cut,List.takeWhile_append_dropWhile]
  · intro member
    have other := List.all_eq_true.mp List.all_takeWhile ';' member
    simp at other

namespace FieldType
variable {type : FieldType}

theorem read_chars (named : type.Nameable) (whole : String) (rest : List Char) :
    read whole (type.chars ++ rest) = .ok (type,rest) := by
  induction type with
  | base letter => simp [chars,read,BaseType.ofChar_toChar]
  | object name =>
    obtain ⟨some,free⟩ := named
    obtain ⟨taken,dropped⟩ := cut_name free rest
    have filled : name.toList ≠ [] := fun empty => some (String.toList_eq_nil_iff.mp empty)
    simp only [chars,List.cons_append,List.append_assoc,List.nil_append,read,BaseType.ofChar?,taken,dropped]
    split
    · contradiction
    · simp
  | array component ih => simp [chars,read,BaseType.ofChar?,ih named]

theorem read_canonical (ran : read whole text = .ok (type,rest)) : text = type.chars ++ rest ∧ type.Nameable := by
  induction text generalizing type with
  | nil => cases ran
  | cons c tail ih =>
    unfold read at ran
    split at ran
    · rename_i letter found
      cases ran
      exact ⟨by simp [chars,BaseType.toChar_ofChar found],trivial⟩
    · split at ran
      · rename_i first
        split at ran
        · cases ran
        · rename_i after dropped
          obtain ⟨whole,free⟩ := cut_found dropped
          split at ran
          · cases ran
          · rename_i name _ filled
            cases ran
            refine ⟨?_,?_,?_⟩
            · simp [chars,first,← whole]
            · intro empty
              exact filled (by simpa using empty)
            · simpa using free
      · split at ran
        · rename_i first
          split at ran
          · cases ran
          · rename_i component _ inner
            cases ran
            obtain ⟨same,named⟩ := ih inner
            exact ⟨by simp [chars,first,← same],named⟩
        · split at ran <;> cases ran

theorem read_iff : read whole text = .ok (type,rest) ↔ text = type.chars ++ rest ∧ type.Nameable := by
  constructor
  · exact read_canonical
  · intro ⟨same,named⟩
    exact same ▸ read_chars named whole rest

theorem parse_iff {text : String} : parse text = .ok type ↔ type.Nameable ∧ type.render = text := by
  unfold parse render
  constructor
  · intro ran
    split at ran
    · cases ran
    · rename_i found
      cases ran
      obtain ⟨same,named⟩ := read_canonical found
      rw [List.append_nil] at same
      exact ⟨named,same ▸ String.ofList_toList⟩
    · cases ran
  · intro ⟨named,same⟩
    have found := read_chars named text []
    rw [List.append_nil] at found
    rw [← same,String.toList_ofList,same,found]

theorem chars_cons (type : FieldType) : ∃ c tail, type.chars = c :: tail ∧ c ≠ ')' ∧ c ≠ 'V' := by
  cases type with
  | base letter => exact ⟨letter.toChar,[],rfl,by cases letter <;> decide,by cases letter <;> decide⟩
  | object name => exact ⟨'L',name.toList ++ [';'],rfl,by decide,by decide⟩
  | array component => exact ⟨'[',component.chars,rfl,by decide,by decide⟩

end FieldType

theorem ReturnType.read_iff {type : ReturnType} : read whole text = .ok (type,rest) ↔
    text = type.chars ++ rest ∧ type.Nameable := by
  constructor
  · intro ran
    unfold read at ran
    split at ran
    · cases ran
      exact ⟨rfl,trivial⟩
    · split at ran
      · cases ran
      · rename_i found
        cases ran
        exact FieldType.read_iff.mp found
  · intro ⟨same,named⟩
    cases type with
    | void => exact same ▸ rfl
    | value type =>
      obtain ⟨c,tail,begins,_,other⟩ := type.chars_cons
      have found := FieldType.read_chars named whole rest
      unfold read
      rw [same]
      simp only [chars] at found ⊢
      rw [begins,List.cons_append] at found ⊢
      split
      · rename_i first
        cases first
        exact absurd rfl other
      · rw [found]

namespace MethodDescriptor
variable {params : List FieldType}

theorem readParams_chars (named : ∀ param ∈ params, param.Nameable) (whole : String) (rest : List Char) :
    readParams whole (params.flatMap FieldType.chars ++ ')' :: rest) = .ok (params,rest) := by
  induction params with
  | nil =>
    rw [List.flatMap_nil,List.nil_append,readParams]
    simp
  | cons param others ih =>
    have later := ih fun other member => named other (List.mem_cons_of_mem _ member)
    have found := FieldType.read_chars (named param List.mem_cons_self) whole
      (others.flatMap FieldType.chars ++ ')' :: rest)
    obtain ⟨c,tail,begins,apart,_⟩ := param.chars_cons
    rw [List.flatMap_cons,List.append_assoc]
    rw [begins,List.cons_append] at found ⊢
    rw [readParams,if_neg apart]
    split
    · rename_i failed
      cases found.symm.trans failed
    · rename_i ran
      cases found.symm.trans ran
      rw [later]

theorem readParams_canonical (ran : readParams whole text = .ok (params,rest)) :
    text = params.flatMap FieldType.chars ++ ')' :: rest ∧ ∀ param ∈ params, param.Nameable := by
  fun_induction readParams whole text generalizing params rest with
  | case1 => cases ran
  | case2 tail =>
    cases ran
    exact ⟨rfl,by simp⟩
  | case3 => cases ran
  | case4 => cases ran
  | case5 c tail _ param after found others end_ more ih =>
    cases ran
    obtain ⟨same,named⟩ := FieldType.read_canonical found
    obtain ⟨later,all⟩ := ih more
    refine ⟨by rw [same,later,List.flatMap_cons,List.append_assoc],?_⟩
    intro other member
    rcases List.mem_cons.mp member with first | member
    · exact first ▸ named
    · exact all other member

theorem parse_iff {text : String} {method : MethodDescriptor} :
    parse text = .ok method ↔ method.Nameable ∧ method.render = text := by
  unfold parse render chars
  constructor
  · intro ran
    split at ran
    · rename_i behind opened
      split at ran
      · cases ran
      · rename_i params after listed
        split at ran
        · cases ran
        · rename_i returns found
          cases ran
          obtain ⟨first,all⟩ := readParams_canonical listed
          obtain ⟨second,named⟩ := ReturnType.read_iff.mp found
          rw [List.append_nil] at second
          refine ⟨⟨all,named⟩,?_⟩
          rw [← second,← first,← opened,String.ofList_toList]
        · cases ran
    · cases ran
  · intro known
    obtain ⟨named,same⟩ := known
    have listed := readParams_chars named.params text method.returns.chars
    have found : ReturnType.read text method.returns.chars = .ok (method.returns,[]) :=
      ReturnType.read_iff.mpr ⟨(List.append_nil _).symm,named.returns⟩
    rw [← same,String.toList_ofList,same]
    simp only [listed]
    rw [found]

end MethodDescriptor

theorem Ty.descriptor_ofFieldType (type : FieldType) : (ofFieldType type).descriptor? = some type.render := by
  induction type with
  | base letter => rfl
  | object name => exact congrArg some (String.toList_inj.mp (by simp [FieldType.render,FieldType.chars]))
  | array component ih =>
    rw [ofFieldType,descriptor?,ih]
    exact congrArg some (String.toList_inj.mp (by simp [FieldType.render,FieldType.chars]))

-- Reading and printing undo each other, for a type alone and for a whole signature, and the type of a
-- descriptor prints as the descriptor itself.
theorem descriptors_round_trip :
    (∀ text type, FieldType.parse text = .ok type ↔ type.Nameable ∧ type.render = text) ∧
      (∀ text method, MethodDescriptor.parse text = .ok method ↔ method.Nameable ∧ method.render = text) ∧
      ∀ text, (∃ type, FieldType.parse text = .ok type) ↔
        ∃ type, Ty.parse text = .ok type ∧ type.descriptor? = some text := by
  refine ⟨fun text type => FieldType.parse_iff,fun text method => MethodDescriptor.parse_iff,?_⟩
  intro text
  unfold Ty.parse
  constructor
  · intro ⟨type,ran⟩
    rw [ran]
    refine ⟨Ty.ofFieldType type,rfl,?_⟩
    rw [Ty.descriptor_ofFieldType,(FieldType.parse_iff.mp ran).2]
  · intro ⟨type,ran,_⟩
    split at ran
    · cases ran
    · rename_i found
      exact ⟨_,found⟩

-- A name may hold whatever else a descriptor is made of.
example : MethodDescriptor.parse "(L(I)V;[[L[;J)V" =
    .ok ⟨[.object "(I)V",.array (.array (.object "[")),.base .long],.void⟩ := by cbv

theorem FieldType.parse_int : FieldType.parse "I" = .ok (.base .int) := by cbv
theorem MethodDescriptor.parse_void : MethodDescriptor.parse "()V" = .ok ⟨[],.void⟩ := by cbv
theorem MethodDescriptor.parse_int_void : MethodDescriptor.parse "(I)V" = .ok ⟨[.base .int],.void⟩ := by cbv
theorem MethodDescriptor.parse_string :
    MethodDescriptor.parse "()Ljava/lang/String;" = .ok ⟨[],.value (.object stringClass)⟩ := by cbv

end Untangle
