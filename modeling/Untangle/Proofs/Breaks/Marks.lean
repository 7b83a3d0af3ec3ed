import Untangle.Proofs.Breaks.Walking
import Untangle.Proofs.Emission.Shapes

namespace Untangle

abbrev Enclosing := List (BreakableId × Bool)

def Enclosing.ids (around : Enclosing) : List BreakableId := around.map (·.1)

-- What a tree holds that concerns jumps: the jumps themselves with what stands around them, the
-- constructs they may target, and for the first and last parts of a `for` whether they are plain.
inductive Mark where
  | jump (around : Enclosing) (brk : Break)
  | construct (id : BreakableId) (kind : BreakableKind)
  | header (plain : Bool)

def headerMarks (part : Option Statement) : List Mark := part.toList.map fun statement => .header statement.isPlain

mutual
def Statement.marks (around : Enclosing) : Statement → List Mark
  | .branch _ thenBlock none => blockMarks around thenBlock
  | .branch _ thenBlock (some elseBlock) => blockMarks around thenBlock ++ blockMarks around elseBlock
  | .whileLoop id _ body => .construct id .whileLoop :: blockMarks ((id,true) :: around) body
  | .doWhile id _ body => .construct id .doWhile :: blockMarks ((id,true) :: around) body
  | .forLoop id start _ update body =>
    .construct id .forLoop :: (headerMarks start ++ headerMarks update ++ blockMarks ((id,true) :: around) body)
  | .switch id _ arms => .construct id .switch :: armMarks ((id,false) :: around) arms
  | .jump brk => [.jump around brk]
  | .tryCatch body catches => blockMarks around body ++ catchMarks around catches
  | .expr _ => []
  | .assign _ _ => []
  | .increment _ _ => []
  | .ret _ => []
  | .throw _ => []
def blockMarks (around : Enclosing) : List Statement → List Mark
  | [] => []
  | statement :: rest => statement.marks around ++ blockMarks around rest
def armMarks (around : Enclosing) : List SwitchArm → List Mark
  | [] => []
  | ⟨_,body⟩ :: rest => blockMarks around body ++ armMarks around rest
def catchMarks (around : Enclosing) : List CatchClause → List Mark
  | [] => []
  | ⟨_,body⟩ :: rest => blockMarks around body ++ catchMarks around rest
end

namespace Mark

def brk? : Mark → Option Break
  | jump _ brk => some brk
  | _ => none

def construct? : Mark → Option (BreakableId × BreakableKind)
  | construct id kind => some (id,kind)
  | _ => none

end Mark

def jumpsOf (marks : List Mark) : List Break := marks.filterMap Mark.brk?
def constructsOf (marks : List Mark) : List (BreakableId × BreakableKind) := marks.filterMap Mark.construct?

section
variable (marks : List Mark) (around : Enclosing) (brk : Break) (id : BreakableId) (kind : BreakableKind)
  (plain : Bool)

@[simp] theorem jumpsOf_nil : jumpsOf [] = [] := rfl
@[simp] theorem jumpsOf_jump : jumpsOf (.jump around brk :: marks) = brk :: jumpsOf marks := rfl
@[simp] theorem jumpsOf_construct : jumpsOf (.construct id kind :: marks) = jumpsOf marks := rfl
@[simp] theorem jumpsOf_header : jumpsOf (.header plain :: marks) = jumpsOf marks := rfl
@[simp] theorem constructsOf_nil : constructsOf [] = [] := rfl
@[simp] theorem constructsOf_jump : constructsOf (.jump around brk :: marks) = constructsOf marks := rfl
@[simp] theorem constructsOf_construct :
    constructsOf (.construct id kind :: marks) = (id,kind) :: constructsOf marks := rfl
@[simp] theorem constructsOf_header : constructsOf (.header plain :: marks) = constructsOf marks := rfl

end

theorem mem_jumpsOf {marks : List Mark} {brk : Break} :
    brk ∈ jumpsOf marks ↔ ∃ around, .jump around brk ∈ marks := by
  unfold jumpsOf
  rw [List.mem_filterMap]
  constructor
  · rintro ⟨mark,member,found⟩
    cases mark <;> cases found
    exact ⟨_,member⟩
  · rintro ⟨around,member⟩
    exact ⟨_,member,rfl⟩

theorem mem_constructsOf {marks : List Mark} {id : BreakableId} {kind : BreakableKind} :
    (id,kind) ∈ constructsOf marks ↔ .construct id kind ∈ marks := by
  unfold constructsOf
  rw [List.mem_filterMap]
  constructor
  · rintro ⟨mark,member,found⟩
    cases mark <;> cases found
    exact member
  · intro member
    exact ⟨_,member,rfl⟩

def Enclosing.innermost? (around : Enclosing) : BreakKind → Option BreakableId
  | .break => around.head?.map (·.1)
  | .continue => (around.find? (·.2)).map (·.1)

variable {around : Enclosing}

theorem blockMarks_append (first second : Block) :
    blockMarks around (first ++ second) = blockMarks around first ++ blockMarks around second := by
  induction first with
  | nil => rfl
  | cons statement rest ih => simp [blockMarks,ih]

theorem blockMarks_single (statement : Statement) : blockMarks around [statement] = statement.marks around := by
  simp [blockMarks]

theorem armMarks_bodies (arms : List SwitchArm) : armMarks around arms = blockMarks around (arms.flatMap (·.body)) := by
  induction arms with
  | nil => rfl
  | cons arm rest ih =>
    obtain ⟨labels,body⟩ := arm
    simp [armMarks,ih,blockMarks_append]

theorem catchMarks_bodies (catches : List CatchClause) :
    catchMarks around catches = blockMarks around (catches.flatMap (·.body)) := by
  induction catches with
  | nil => rfl
  | cons clause rest ih =>
    obtain ⟨types,body⟩ := clause
    simp [catchMarks,ih,blockMarks_append]

theorem plain_marks {statement : Statement} (plain : statement.isPlain = true) : statement.marks around = [] := by
  cases statement <;> first | rfl | cases plain

theorem blockMarks_plain {block : Block} (plain : ∀ statement ∈ block, statement.isPlain = true) :
    blockMarks around block = [] := by
  induction block with
  | nil => rfl
  | cons statement rest ih =>
    rw [blockMarks,plain_marks (plain statement List.mem_cons_self),
      ih fun other member => plain other (List.mem_cons_of_mem _ member)]
    rfl

def BreakWalk.meetMark (registry : Registry) (walk : BreakWalk) : Mark → Except RegistryError BreakWalk
  | .jump around brk => walk.meet registry around.ids brk
  | .construct id _ => .ok (walk.enter id)
  | .header _ => .ok walk

theorem headerMarks_walk (registry : Registry) (walk : BreakWalk) (part : Option Statement) :
    (headerMarks part).foldlM (BreakWalk.meetMark registry) walk = .ok walk := by
  cases part <;> rfl

mutual
theorem Statement.walkBreaks_marks (registry : Registry) (around : Enclosing) (walk : BreakWalk) :
    (statement : Statement) → statement.walkBreaks registry around.ids walk =
      (statement.marks around).foldlM (BreakWalk.meetMark registry) walk
  | .branch _ thenBlock none => by
    rw [Statement.walkBreaks,Statement.marks,walkBlockBreaks_marks registry around walk thenBlock]
    exact bind_pure _
  | .branch _ thenBlock (some elseBlock) => by
    rw [Statement.walkBreaks,Statement.marks,List.foldlM_append,walkBlockBreaks_marks registry around walk thenBlock]
    exact congrArg _ (funext fun walk => walkBlockBreaks_marks registry around walk elseBlock)
  | .whileLoop id _ body => walkBlockBreaks_marks registry ((id,true) :: around) (walk.enter id) body
  | .doWhile id _ body => walkBlockBreaks_marks registry ((id,true) :: around) (walk.enter id) body
  | .forLoop id start _ update body => by
    rw [Statement.walkBreaks,Statement.marks,List.foldlM_cons]
    change _ = List.foldlM _ (walk.enter id) _
    rw [List.foldlM_append,List.foldlM_append,headerMarks_walk]
    change _ = (List.foldlM _ (walk.enter id) (headerMarks update) >>= _)
    rw [headerMarks_walk]
    exact walkBlockBreaks_marks registry ((id,true) :: around) (walk.enter id) body
  | .switch id _ arms => walkArmBreaks_marks registry ((id,false) :: around) (walk.enter id) arms
  | .jump brk => (bind_pure _).symm
  | .tryCatch body catches => by
    rw [Statement.walkBreaks,Statement.marks,List.foldlM_append,walkBlockBreaks_marks registry around walk body]
    exact congrArg _ (funext fun walk => walkCatchBreaks_marks registry around walk catches)
  | .expr _ => rfl
  | .assign _ _ => rfl
  | .increment _ _ => rfl
  | .ret _ => rfl
  | .throw _ => rfl
theorem walkBlockBreaks_marks (registry : Registry) (around : Enclosing) (walk : BreakWalk) :
    (block : List Statement) → walkBlockBreaks registry around.ids walk block =
      (blockMarks around block).foldlM (BreakWalk.meetMark registry) walk
  | [] => rfl
  | statement :: rest => by
    rw [walkBlockBreaks,blockMarks,List.foldlM_append,statement.walkBreaks_marks registry around walk]
    exact congrArg _ (funext fun walk => walkBlockBreaks_marks registry around walk rest)
theorem walkArmBreaks_marks (registry : Registry) (around : Enclosing) (walk : BreakWalk) :
    (arms : List SwitchArm) → walkArmBreaks registry around.ids walk arms =
      (armMarks around arms).foldlM (BreakWalk.meetMark registry) walk
  | [] => rfl
  | ⟨_,body⟩ :: rest => by
    rw [walkArmBreaks,armMarks,List.foldlM_append,walkBlockBreaks_marks registry around walk body]
    exact congrArg _ (funext fun walk => walkArmBreaks_marks registry around walk rest)
theorem walkCatchBreaks_marks (registry : Registry) (around : Enclosing) (walk : BreakWalk) :
    (catches : List CatchClause) → walkCatchBreaks registry around.ids walk catches =
      (catchMarks around catches).foldlM (BreakWalk.meetMark registry) walk
  | [] => rfl
  | ⟨_,body⟩ :: rest => by
    rw [walkCatchBreaks,catchMarks,List.foldlM_append,walkBlockBreaks_marks registry around walk body]
    exact congrArg _ (funext fun walk => walkCatchBreaks_marks registry around walk rest)
end

def Mark.Framed (start : Enclosing) (marks : List Mark) : Mark → Prop
  | .jump around _ => ∀ frame ∈ around, frame ∈ start ∨
      ∃ kind, .construct frame.1 kind ∈ marks ∧ kind.isLoop = frame.2
  | _ => True

theorem Mark.Framed.more {start : Enclosing} {marks wider : List Mark} {mark : Mark}
    (framed : mark.Framed start marks) (sub : ∀ mark ∈ marks, mark ∈ wider) : mark.Framed start wider := by
  cases mark with
  | jump around brk =>
    intro frame member
    rcases framed frame member with outside | ⟨kind,listed,same⟩
    · exact Or.inl outside
    · exact Or.inr ⟨kind,sub _ listed,same⟩
  | construct id kind => trivial
  | header plain => trivial

theorem Mark.Framed.inside {start : Enclosing} {marks wider : List Mark} {mark : Mark} {kind : BreakableKind}
    {id : BreakableId} (framed : mark.Framed ((id,kind.isLoop) :: start) marks)
    (sub : ∀ mark ∈ marks, mark ∈ wider) (here : .construct id kind ∈ wider) : mark.Framed start wider := by
  cases mark with
  | jump around brk =>
    intro frame member
    rcases framed.more sub frame member with outside | known
    · rcases List.mem_cons.mp outside with rfl | outside
      · exact Or.inr ⟨kind,here,rfl⟩
      · exact Or.inl outside
    · exact Or.inr known
  | construct id kind => trivial
  | header plain => trivial

theorem headerMarks_framed {start : Enclosing} {marks : List Mark} {part : Option Statement} {mark : Mark}
    (member : mark ∈ headerMarks part) : mark.Framed start marks := by
  obtain ⟨statement,_,rfl⟩ := List.mem_map.mp member
  trivial

mutual
theorem Statement.marks_framed (around : Enclosing) : (statement : Statement) →
    ∀ mark ∈ statement.marks around, mark.Framed around (statement.marks around)
  | .branch _ thenBlock none => blockMarks_framed around thenBlock
  | .branch _ thenBlock (some elseBlock) => by
    intro mark member
    rcases List.mem_append.mp member with member | member
    · exact (blockMarks_framed around thenBlock mark member).more fun _ => List.mem_append_left _
    · exact (blockMarks_framed around elseBlock mark member).more fun _ => List.mem_append_right _
  | .whileLoop id _ body => by
    intro mark member
    rcases List.mem_cons.mp member with rfl | member
    · trivial
    · exact Mark.Framed.inside (blockMarks_framed _ body mark member) (fun _ => List.mem_cons_of_mem _)
        List.mem_cons_self
  | .doWhile id _ body => by
    intro mark member
    rcases List.mem_cons.mp member with rfl | member
    · trivial
    · exact Mark.Framed.inside (blockMarks_framed _ body mark member) (fun _ => List.mem_cons_of_mem _)
        List.mem_cons_self
  | .forLoop id start _ update body => by
    intro mark member
    rcases List.mem_cons.mp member with rfl | member
    · trivial
    · rcases List.mem_append.mp member with headers | member
      · rcases List.mem_append.mp headers with first | last
        · exact headerMarks_framed first
        · exact headerMarks_framed last
      · exact Mark.Framed.inside (blockMarks_framed _ body mark member)
          (fun _ listed => List.mem_cons_of_mem _ (List.mem_append_right _ listed)) List.mem_cons_self
  | .switch id _ arms => by
    intro mark member
    rcases List.mem_cons.mp member with rfl | member
    · trivial
    · exact Mark.Framed.inside (armMarks_framed _ arms mark member) (fun _ => List.mem_cons_of_mem _)
        List.mem_cons_self
  | .jump brk => by
    intro mark member
    cases List.mem_singleton.mp member
    exact fun _ outside => Or.inl outside
  | .tryCatch body catches => by
    intro mark member
    rcases List.mem_append.mp member with member | member
    · exact (blockMarks_framed around body mark member).more fun _ => List.mem_append_left _
    · exact (catchMarks_framed around catches mark member).more fun _ => List.mem_append_right _
  | .expr _ => fun _ member => nomatch member
  | .assign _ _ => fun _ member => nomatch member
  | .increment _ _ => fun _ member => nomatch member
  | .ret _ => fun _ member => nomatch member
  | .throw _ => fun _ member => nomatch member
theorem blockMarks_framed (around : Enclosing) : (block : List Statement) →
    ∀ mark ∈ blockMarks around block, mark.Framed around (blockMarks around block)
  | [] => fun _ member => nomatch member
  | statement :: rest => by
    intro mark member
    rcases List.mem_append.mp member with member | member
    · exact (statement.marks_framed around mark member).more fun _ => List.mem_append_left _
    · exact (blockMarks_framed around rest mark member).more fun _ => List.mem_append_right _
theorem armMarks_framed (around : Enclosing) : (arms : List SwitchArm) →
    ∀ mark ∈ armMarks around arms, mark.Framed around (armMarks around arms)
  | [] => fun _ member => nomatch member
  | ⟨_,body⟩ :: rest => by
    intro mark member
    rcases List.mem_append.mp member with member | member
    · exact (blockMarks_framed around body mark member).more fun _ => List.mem_append_left _
    · exact (armMarks_framed around rest mark member).more fun _ => List.mem_append_right _
theorem catchMarks_framed (around : Enclosing) : (catches : List CatchClause) →
    ∀ mark ∈ catchMarks around catches, mark.Framed around (catchMarks around catches)
  | [] => fun _ member => nomatch member
  | ⟨_,body⟩ :: rest => by
    intro mark member
    rcases List.mem_append.mp member with member | member
    · exact (blockMarks_framed around body mark member).more fun _ => List.mem_append_left _
    · exact (catchMarks_framed around rest mark member).more fun _ => List.mem_append_right _
end

end Untangle
