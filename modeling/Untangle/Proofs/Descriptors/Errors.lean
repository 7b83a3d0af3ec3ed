import Untangle.Proofs.Descriptors.RoundTrip

namespace Untangle

def Accepted (parse : String → Except DescriptorError α) (text : String) : Prop := ∃ value, parse text = .ok value

-- What the error that a text comes to says of it: some text behind would make it complete, a complete
-- one stands in front of the rest, or neither it nor any longer text begins with a complete one.
structure ErrorsTell (parse : String → Except DescriptorError α) (text : String) : Prop where
  unfinished : ∀ whole, parse text = .error (.unexpectedEnd whole) ↔
    whole = text ∧ ∃ more, more ≠ "" ∧ Accepted parse (text ++ more)
  trailing : ∀ whole rest, parse text = .error (.trailingInput whole rest) ↔
    whole = text ∧ rest ≠ "" ∧ ∃ front, Accepted parse front ∧ front ++ rest = text
  single : ∀ front rest front' rest', Accepted parse front → Accepted parse front' → front ++ rest = text →
    front' ++ rest' = text → front = front'
  refused : parse text = .error (.voidNotAllowed text) ∨ parse text = .error (.invalidDescriptor text) ↔
    (∀ more, ¬Accepted parse (text ++ more)) ∧ ∀ front rest, front ++ rest = text → ¬Accepted parse front

-- What a parser makes of one piece read off the front: nothing may be left behind it.
def completed (whole : String) : Except DescriptorError (α × List Char) → Except DescriptorError α
  | .error cause => .error cause
  | .ok (value,[]) => .ok value
  | .ok (_,rest) => .error (.trailingInput whole (String.ofList rest))

-- A parser that reads one piece, and the reader behind it, which takes just what is spelled out.
structure ReadsOne (parse : String → Except DescriptorError α)
    (read : String → List Char → Except DescriptorError (α × List Char)) (spelled : α → List Char)
    (named : α → Prop) : Prop where
  completes : ∀ text, parse text = completed text (read text text.toList)
  exact : ∀ whole text value rest, read whole text = .ok (value,rest) ↔ text = spelled value ++ rest ∧ named value

def Mended (read : String → List Char → Except DescriptorError (α × List Char)) (spelled : α → List Char)
    (named : α → Prop) (whole : String) (text : List Char) (cause : DescriptorError) : Prop :=
  (cause = .unexpectedEnd whole ∧ ∃ value more, named value ∧ spelled value = text ++ more) ∨
    ((cause = .voidNotAllowed whole ∨ cause = .invalidDescriptor whole) ∧
      ∀ more, read whole (text ++ more) = .error cause)

namespace ReadsOne
variable {parse : String → Except DescriptorError α}
  {read : String → List Char → Except DescriptorError (α × List Char)} {spelled : α → List Char}
  {named : α → Prop} {text : String} {value : α} {rest : List Char}
  (reads : ReadsOne parse read spelled named)
include reads

theorem parse_ok : parse text = .ok value ↔ text.toList = spelled value ∧ named value := by
  have exact := reads.exact text text.toList value []
  rw [List.append_nil] at exact
  rw [← exact,reads.completes text]
  constructor
  · intro done
    rcases outcome : read text text.toList with cause | ⟨found,_ | _⟩ <;> rw [outcome] at done
    · cases done
    · cases done
      rfl
    · cases done
  · intro outcome
    rw [outcome]
    rfl

theorem front_read {front behind : String} : Accepted parse front ∧ front ++ behind = text ↔
    ∃ value, read text text.toList = .ok (value,behind.toList) ∧ spelled value = front.toList := by
  constructor
  · rintro ⟨⟨value,accepted⟩,rfl⟩
    obtain ⟨spells,known⟩ := reads.parse_ok.mp accepted
    exact ⟨value,(reads.exact _ _ _ _).mpr ⟨by rw [String.toList_append,spells],known⟩,spells.symm⟩
  · rintro ⟨value,taken,spells⟩
    obtain ⟨same,known⟩ := (reads.exact _ _ _ _).mp taken
    refine ⟨⟨value,reads.parse_ok.mpr ⟨spells.symm,known⟩⟩,String.toList_inj.mp ?_⟩
    rw [String.toList_append,← spells,same]

theorem longer {more : List Char} (taken : read text text.toList = .ok (value,rest)) (whole : String) :
    read whole (text.toList ++ more) = .ok (value,rest ++ more) := by
  obtain ⟨same,known⟩ := (reads.exact _ _ _ _).mp taken
  exact (reads.exact _ _ _ _).mpr ⟨by rw [same,List.append_assoc],known⟩

theorem longer_read {more : String} : Accepted parse (text ++ more) ↔
    ∃ value, read text (text.toList ++ more.toList) = .ok (value,[]) := by
  unfold Accepted
  simp only [reads.parse_ok,reads.exact,List.append_nil,String.toList_append]

theorem single {front rest front' rest' : String} (first : Accepted parse front) (second : Accepted parse front')
    (splits : front ++ rest = text) (splits' : front' ++ rest' = text) : front = front' := by
  obtain ⟨value,taken,spells⟩ := reads.front_read.mp ⟨first,splits⟩
  obtain ⟨value',taken',spells'⟩ := reads.front_read.mp ⟨second,splits'⟩
  have same := congrArg Prod.fst (Except.ok.inj (taken.symm.trans taken'))
  exact String.toList_inj.mp (spells.symm.trans ((congrArg spelled same).trans spells'))

theorem tell_taken (taken : read text text.toList = .ok (value,rest)) : ErrorsTell parse text := by
  have parsed : parse text = completed text (.ok (value,rest)) := taken ▸ reads.completes text
  have longer {more : String} (accepted : Accepted parse (text ++ more)) : rest = [] ∧ more = "" := by
    obtain ⟨value',whole⟩ := reads.longer_read.mp accepted
    have same := Except.ok.inj ((reads.longer taken text).symm.trans whole)
    have nothing := List.append_eq_nil_iff.mp (congrArg Prod.snd same)
    exact ⟨nothing.1,String.toList_eq_nil_iff.mp nothing.2⟩
  have behind {front rest' : String} (accepted : Accepted parse front) (splits : front ++ rest' = text) :
      rest = rest'.toList := by
    obtain ⟨value',taken',_⟩ := reads.front_read.mp ⟨accepted,splits⟩
    exact congrArg Prod.snd (Except.ok.inj (taken.symm.trans taken'))
  have front : ∃ front, Accepted parse front ∧ front ++ String.ofList rest = text :=
    ⟨String.ofList (spelled value),reads.front_read.mpr ⟨value,by simpa using taken,by simp⟩⟩
  refine ⟨?_,?_,fun _ _ _ _ => reads.single,?_⟩
  · intro whole
    constructor
    · intro failed
      rw [parsed] at failed
      cases rest <;> cases failed
    · rintro ⟨_,more,filled,accepted⟩
      exact absurd (longer accepted).2 filled
  · intro whole left
    rw [parsed]
    constructor
    · intro failed
      cases rest with
      | nil => cases failed
      | cons c rest =>
        cases failed
        exact ⟨rfl,by simp [← String.toList_inj],front⟩
    · rintro ⟨rfl,filled,other,accepted,splits⟩
      obtain rfl := behind accepted splits
      cases shown : left.toList with
      | nil => exact absurd (String.toList_eq_nil_iff.mp shown) filled
      | cons c rest => simp [completed,← shown]
  · rw [parsed]
    constructor
    · intro failed
      cases rest <;> rcases failed with failed | failed <;> cases failed
    · rintro ⟨_,none⟩
      obtain ⟨front,accepted,splits⟩ := front
      exact absurd accepted (none front _ splits)

theorem tell_failed {cause : DescriptorError} (failed : read text text.toList = .error cause)
    (mended : Mended read spelled named text text.toList cause) : ErrorsTell parse text := by
  have parsed : parse text = .error cause := by
    rw [reads.completes text,failed]
    rfl
  have none {front behind : String} (splits : front ++ behind = text) : ¬Accepted parse front := by
    intro accepted
    obtain ⟨value,taken,_⟩ := reads.front_read.mp ⟨accepted,splits⟩
    cases failed.symm.trans taken
  have trailing (apart : ∀ whole rest, cause ≠ .trailingInput whole rest) (whole rest : String) :
      parse text = .error (.trailingInput whole rest) ↔
        whole = text ∧ rest ≠ "" ∧ ∃ front, Accepted parse front ∧ front ++ rest = text := by
    rw [parsed]
    constructor
    · intro same
      exact absurd (Except.error.inj same) (apart whole rest)
    · rintro ⟨_,_,front,accepted,splits⟩
      exact absurd accepted (none splits)
  rcases mended with ⟨rfl,value,more,known,spells⟩ | ⟨refused,stuck⟩
  · have longer : ∃ more, more ≠ "" ∧ Accepted parse (text ++ more) := by
      refine ⟨String.ofList more,?_,value,reads.parse_ok.mpr ⟨by simp [spells],known⟩⟩
      intro empty
      obtain rfl : more = [] := by simpa using congrArg String.toList empty
      rw [List.append_nil] at spells
      have taken := (reads.exact text text.toList value []).mpr ⟨by rw [spells,List.append_nil],known⟩
      cases failed.symm.trans taken
    refine ⟨?_,trailing (by nofun),fun _ _ _ _ => reads.single,?_⟩
    · intro whole
      rw [parsed]
      constructor
      · intro same
        cases same
        exact ⟨rfl,longer⟩
      · rintro ⟨rfl,_⟩
        rfl
    · rw [parsed]
      constructor
      · nofun
      · rintro ⟨never,_⟩
        obtain ⟨more,_,accepted⟩ := longer
        exact absurd accepted (never more)
  · have never (more : String) : ¬Accepted parse (text ++ more) := by
      intro accepted
      obtain ⟨value,taken⟩ := reads.longer_read.mp accepted
      cases (stuck more.toList).symm.trans taken
    refine ⟨?_,trailing ?_,fun _ _ _ _ => reads.single,?_⟩
    · intro whole
      rw [parsed]
      constructor
      · rintro ⟨⟩
        rcases refused with same | same <;> cases same
      · rintro ⟨_,more,_,accepted⟩
        exact absurd accepted (never more)
    · rintro whole rest rfl
      rcases refused with same | same <;> cases same
    · rw [parsed]
      constructor
      · exact fun _ => ⟨never,fun _ _ => none⟩
      · exact fun _ => refused.imp (congrArg _) (congrArg _)

theorem errors_tell (mended : ∀ cause, read text text.toList = .error cause →
    Mended read spelled named text text.toList cause) : ErrorsTell parse text := by
  cases outcome : read text text.toList with
  | ok taken => exact reads.tell_taken outcome
  | error cause => exact reads.tell_failed outcome (mended cause outcome)

end ReadsOne

variable {whole : String} {text : List Char} {cause : DescriptorError}

theorem FieldType.read_mended (failed : read whole text = .error cause) :
    Mended read chars Nameable whole text cause := by
  induction text generalizing cause with
  | nil =>
    cases failed
    exact Or.inl ⟨rfl,.base .int,_,trivial,rfl⟩
  | cons c tail ih =>
    unfold read at failed
    split at failed
    · cases failed
    rename_i other
    split at failed
    · rename_i first
      subst first
      split at failed
      · rename_i dropped
        cases failed
        have kept : tail.takeWhile (· != ';') = tail := by
          have cut := List.takeWhile_append_dropWhile (p := (· != ';')) (l := tail)
          rwa [dropped,List.append_nil] at cut
        have free : ';' ∉ tail := by
          intro member
          rw [← kept] at member
          have other := List.all_eq_true.mp List.all_takeWhile ';' member
          simp at other
        refine Or.inl ⟨rfl,.object (String.ofList (tail ++ ['a'])),['a',';'],⟨?_,?_⟩,by simp [chars]⟩
        · simp [← String.toList_inj]
        · simpa using free
      · rename_i after dropped
        split at failed
        · rename_i taken
          cases failed
          obtain ⟨same,_⟩ := cut_found dropped
          rw [taken] at same
          exact Or.inr ⟨Or.inr rfl,fun more => by simp [same,read,BaseType.ofChar?]⟩
        · cases failed
    rename_i first
    split at failed
    · rename_i second
      subst second
      split at failed
      · rename_i inner
        cases failed
        rcases ih inner with ⟨rfl,type,more,named,spells⟩ | ⟨kind,stuck⟩
        · exact Or.inl ⟨rfl,.array type,more,named,by simp [chars,spells]⟩
        · exact Or.inr ⟨kind,fun more => by simp [read,BaseType.ofChar?,stuck more]⟩
      · cases failed
    rename_i second
    split at failed
    · rename_i third
      cases failed
      exact Or.inr ⟨Or.inl rfl,fun more => by simp [read,third,BaseType.ofChar?]⟩
    · rename_i third
      cases failed
      exact Or.inr ⟨Or.inr rfl,fun more => by simp [read,other,first,second,third]⟩

theorem ReturnType.read_mended (failed : read whole text = .error cause) :
    Mended read chars Nameable whole text cause := by
  cases text with
  | nil =>
    cases failed
    exact Or.inl ⟨rfl,.void,['V'],trivial,rfl⟩
  | cons c tail =>
    unfold read at failed
    split at failed
    · cases failed
    rename_i apart
    split at failed
    · rename_i inner
      cases failed
      rcases FieldType.read_mended inner with ⟨rfl,type,more,named,spells⟩ | ⟨kind,stuck⟩
      · exact Or.inl ⟨rfl,.value type,more,named,spells⟩
      · refine Or.inr ⟨kind,fun more => ?_⟩
        unfold read
        split
        · rename_i same
          cases same
          exact absurd rfl (apart tail)
        · rw [stuck more]
    · cases failed

namespace MethodDescriptor

theorem readParams_mended (failed : readParams whole text = .error cause) :
    Mended readParams (fun params => params.flatMap FieldType.chars ++ [')']) (∀ param ∈ ·, param.Nameable) whole text
      cause := by
  fun_induction readParams whole text generalizing cause with
  | case1 =>
    cases failed
    exact Or.inl ⟨rfl,[],[')'],by simp,rfl⟩
  | case2 => cases failed
  | case3 c tail apart cause' inner =>
    cases failed
    rcases FieldType.read_mended inner with ⟨rfl,param,more,named,spells⟩ | ⟨kind,stuck⟩
    · exact Or.inl ⟨rfl,[param],more ++ [')'],by simpa using named,by simp [spells]⟩
    · refine Or.inr ⟨kind,fun more => ?_⟩
      have stuck := stuck more
      rw [List.cons_append] at stuck ⊢
      rw [readParams,if_neg apart]
      split
      · rename_i same
        cases stuck.symm.trans same
        rfl
      · rename_i found
        cases stuck.symm.trans found
  | case4 c tail apart param after found cause' inner ih =>
    cases failed
    obtain ⟨same,first⟩ := FieldType.read_canonical found
    rcases ih inner with ⟨rfl,params,more,named,spells⟩ | ⟨kind,stuck⟩
    · exact Or.inl ⟨rfl,param :: params,more,List.forall_mem_cons.mpr ⟨first,named⟩,by simp [same,← spells]⟩
    · refine Or.inr ⟨kind,fun more => ?_⟩
      have further := FieldType.read_chars first whole (after ++ more)
      rw [← List.append_assoc,← same] at further
      rw [List.cons_append] at further ⊢
      rw [readParams,if_neg apart]
      split
      · rename_i other
        cases further.symm.trans other
      · rename_i other
        cases further.symm.trans other
        rw [stuck more]
  | case5 => cases failed

def read (whole : String) : List Char → Except DescriptorError (MethodDescriptor × List Char)
  | '(' :: text =>
    match readParams whole text with
    | .error cause => .error cause
    | .ok (params,after) =>
      match ReturnType.read whole after with
      | .error cause => .error cause
      | .ok (returns,rest) => .ok (⟨params,returns⟩,rest)
  | _ => .error (.invalidDescriptor whole)

theorem parse_completed (text : String) : parse text = completed text (read text text.toList) := by
  unfold parse
  generalize text.toList = given
  split
  · rename_i behind
    rw [read]
    rcases readParams text behind with cause | ⟨params,after⟩
    · rfl
    · dsimp only
      rcases ReturnType.read text after with cause | ⟨returns,_ | _⟩ <;> rfl
  · rename_i apart
    rw [read]
    · rfl
    · exact apart

theorem read_iff {method : MethodDescriptor} {rest : List Char} : read whole text = .ok (method,rest) ↔
    text = method.chars ++ rest ∧ method.Nameable := by
  constructor
  · intro ran
    unfold read at ran
    split at ran
    · split at ran
      · cases ran
      · rename_i listed
        split at ran
        · cases ran
        · rename_i found
          cases ran
          obtain ⟨first,all⟩ := readParams_canonical listed
          obtain ⟨second,named⟩ := ReturnType.read_iff.mp found
          exact ⟨by simp [chars,first,second],all,named⟩
    · cases ran
  · rintro ⟨rfl,named⟩
    have listed := readParams_chars named.params whole (method.returns.chars ++ rest)
    have found : ReturnType.read whole (method.returns.chars ++ rest) = .ok (method.returns,rest) :=
      ReturnType.read_iff.mpr ⟨rfl,named.returns⟩
    simp [chars,read,listed,found]

theorem read_mended (some : text ≠ []) (failed : read whole text = .error cause) :
    Mended read chars Nameable whole text cause := by
  unfold read at failed
  split at failed
  · rename_i behind
    split at failed
    · rename_i inner
      cases failed
      rcases readParams_mended inner with ⟨rfl,params,more,named,spells⟩ | ⟨kind,stuck⟩
      · refine Or.inl ⟨rfl,⟨params,.void⟩,more ++ ['V'],⟨named,trivial⟩,?_⟩
        rw [List.cons_append,← List.append_assoc,← spells]
        simp [chars,ReturnType.chars]
      · exact Or.inr ⟨kind,fun more => by simp [read,stuck more]⟩
    · rename_i params after listed
      split at failed
      · rename_i inner
        cases failed
        obtain ⟨same,all⟩ := readParams_canonical listed
        rcases ReturnType.read_mended inner with ⟨rfl,returns,more,named,spells⟩ | ⟨kind,stuck⟩
        · exact Or.inl ⟨rfl,⟨params,returns⟩,more,⟨all,named⟩,by simp [chars,same,spells]⟩
        · refine Or.inr ⟨kind,fun more => ?_⟩
          have further := readParams_chars all whole (after ++ more)
          simp only [same,List.append_assoc,List.cons_append,read,further,stuck more]
      · cases failed
  · rename_i apart
    cases failed
    refine Or.inr ⟨Or.inr rfl,fun more => ?_⟩
    cases text with
    | nil => exact absurd rfl some
    | cons c tail =>
      unfold read
      split
      · rename_i same
        cases same
        exact absurd rfl (apart tail)
      · rfl

end MethodDescriptor

theorem FieldType.reads_one : ReadsOne parse read chars Nameable where
  completes text := by
    unfold parse
    rcases read text text.toList with cause | ⟨type,_ | _⟩ <;> rfl
  exact _ _ _ _ := read_iff

theorem MethodDescriptor.reads_one : ReadsOne parse read chars Nameable where
  completes := parse_completed
  exact _ _ _ _ := read_iff

-- Every way to fail is told apart, for a type alone and for a signature.
theorem descriptor_errors_tell (text : String) :
    ErrorsTell FieldType.parse text ∧ (text ≠ "" → ErrorsTell MethodDescriptor.parse text) := by
  constructor
  · exact FieldType.reads_one.errors_tell fun cause failed => FieldType.read_mended failed
  · intro filled
    have some : text.toList ≠ [] := fun empty => filled (String.toList_eq_nil_iff.mp empty)
    exact MethodDescriptor.reads_one.errors_tell fun cause failed => MethodDescriptor.read_mended some failed

theorem broken_off_tells : "(I[Lzoo/Cat" ≠ "" ∧
    MethodDescriptor.parse "(I[Lzoo/Cat" = .error (.unexpectedEnd "(I[Lzoo/Cat") ∧
    (∃ more, more ≠ "" ∧ Accepted MethodDescriptor.parse ("(I[Lzoo/Cat" ++ more)) ∧
    MethodDescriptor.parse "(I[V" = .error (.voidNotAllowed "(I[V") ∧
    ∀ more, ¬Accepted MethodDescriptor.parse ("(I[V" ++ more) := by
  have broken : MethodDescriptor.parse "(I[Lzoo/Cat" = .error (.unexpectedEnd "(I[Lzoo/Cat") := by cbv
  have void : MethodDescriptor.parse "(I[V" = .error (.voidNotAllowed "(I[V") := by cbv
  have first := (descriptor_errors_tell "(I[Lzoo/Cat").2 (by decide)
  have second := (descriptor_errors_tell "(I[V").2 (by decide)
  exact ⟨by decide,broken,((first.unfinished _).mp broken).2,void,(second.refused.mp (Or.inl void)).1⟩

-- Without any text there is no parenthesis yet, and this is not taken for an unfinished signature.
example : MethodDescriptor.parse "" = .error (.invalidDescriptor "") := by cbv

end Untangle
