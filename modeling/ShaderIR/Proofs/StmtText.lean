import ShaderIR.Proofs.ExprText
import ShaderIR.Stmt.Printer

/-!
The text of a statement shows everything but the conditional that an `else` belongs to, because
the branches of a conditional are written without delimiters. Read with the usual convention, an
`else` belongs to the nearest conditional that can take it; `attached` rebuilds a statement that
way without changing its text. Two statements have the same text exactly if they are rebuilt to
the same.
-/

namespace ShaderIR

namespace Stmt

/-- The control structure of a statement, with what shows of its expressions. -/
inductive Skeleton where
  | conditional (isStatic : Bool) (test : Expr.Skeleton) (ifTrue : Skeleton)
      (ifFalse : Option Skeleton)
  | block (body : List Skeleton)
  | expression (expr : Expr.Skeleton)
  | nop

mutual

def skeleton : Stmt → Skeleton
  | .conditional _ isStatic test ifTrue ifFalse =>
      .conditional isStatic test.skeleton ifTrue.skeleton (elseSkeleton ifFalse)
  | .block _ body => .block (bodySkeletons body)
  | .expression _ expr => .expression expr.skeleton
  | .nop _ => .nop

def bodySkeletons : List Stmt → List Skeleton
  | [] => []
  | stmt :: body => stmt.skeleton :: bodySkeletons body

def elseSkeleton : Option Stmt → Option Skeleton
  | none => none
  | some stmt => some stmt.skeleton

end

theorem bodySkeletons_eq_map (body : List Stmt) : bodySkeletons body = body.map skeleton := by
  induction body with
  | nil => rfl
  | cons stmt body ih => rw [bodySkeletons, ih, List.map_cons]

theorem bodyText_of_skeletons {body others : List Stmt}
    (text_eq : ∀ stmt ∈ body, ∀ {other : Stmt}, stmt.skeleton = other.skeleton →
      stmt.text = other.text)
    (same : bodySkeletons body = bodySkeletons others) : bodyText body = bodyText others := by
  induction body generalizing others with
  | nil =>
      cases others with
      | nil => rfl
      | cons => cases same
  | cons stmt body ih =>
      cases others with
      | nil => cases same
      | cons other others =>
          obtain ⟨sameFirst, sameRest⟩ := List.cons.inj same
          have restText := ih (fun stmt member => text_eq stmt (by simp [member])) sameRest
          rw [bodyText, bodyText, text_eq stmt (by simp) sameFirst, restText]

theorem text_of_skeleton {first second : Stmt} (same : first.skeleton = second.skeleton) :
    first.text = second.text := by
  induction first generalizing second with
  | conditional offset isStatic test ifTrue ifFalse ihTrue ihFalse =>
      cases second with
      | conditional otherOffset otherStatic otherTest otherTrue otherFalse =>
          obtain ⟨sameStatic, sameTest, sameTrue, sameFalse⟩ := Skeleton.conditional.inj same
          have elseText_eq : elseText ifFalse = elseText otherFalse := by
            cases ifFalse <;> cases otherFalse
            · rfl
            · cases sameFalse
            · cases sameFalse
            · rw [elseText, elseText, ihFalse _ rfl (Option.some.inj sameFalse)]
          rw [text, text, sameStatic, Expr.text_of_skeleton sameTest, ihTrue sameTrue, elseText_eq]
      | _ => cases same
  | block offset body ih =>
      cases second with
      | block =>
          rw [text, text, bodyText_of_skeletons ih (Skeleton.block.inj same)]
      | _ => cases same
  | expression offset expr =>
      cases second with
      | expression => rw [text, text, Expr.text_of_skeleton (Skeleton.expression.inj same)]
      | _ => cases same
  | nop offset =>
      cases second with
      | nop => rfl
      | _ => cases same

/-! ## The conditional an `else` belongs to -/

/-- Whether an `else` that comes next would be taken for the statement's own. -/
def isOpen : Stmt → Bool
  | .conditional _ _ _ _ none => true
  | .conditional _ _ _ _ (some ifFalse) => ifFalse.isOpen
  | _ => false

/-- An open statement with the branch `other`, as it is read when an `else` comes next. -/
def attach (other : Stmt) : Stmt → Stmt
  | .conditional offset isStatic test ifTrue none =>
      if ifTrue.isOpen then .conditional offset isStatic test (attach other ifTrue) none
      else .conditional offset isStatic test ifTrue (some other)
  | .conditional offset isStatic test ifTrue (some ifFalse) =>
      .conditional offset isStatic test ifTrue (some (attach other ifFalse))
  | stmt => stmt

mutual

/-- The statement as it is read: every `else` belongs to the nearest conditional. -/
def attached : Stmt → Stmt
  | .conditional offset isStatic test ifTrue none =>
      .conditional offset isStatic test ifTrue.attached none
  | .conditional offset isStatic test ifTrue (some ifFalse) =>
      if ifTrue.attached.isOpen then
        .conditional offset isStatic test (attach ifFalse.attached ifTrue.attached) none
      else .conditional offset isStatic test ifTrue.attached (some ifFalse.attached)
  | .block offset body => .block offset (attachedAll body)
  | .expression offset expr => .expression offset expr
  | .nop offset => .nop offset

def attachedAll : List Stmt → List Stmt
  | [] => []
  | stmt :: body => stmt.attached :: attachedAll body

end

theorem attachedAll_eq_map (body : List Stmt) : attachedAll body = body.map attached := by
  induction body with
  | nil => rfl
  | cons stmt body ih => rw [attachedAll, ih, List.map_cons]

theorem text_attach {stmt : Stmt} (other : Stmt) (isOpen : stmt.isOpen = true) :
    (attach other stmt).text = stmt.text ++ " else " ++ other.text := by
  induction stmt with
  | conditional offset isStatic test ifTrue ifFalse ihTrue ihFalse =>
      cases ifFalse with
      | none =>
          rw [attach]
          split
          next openBranch => simp [text, elseText, ihTrue openBranch, String.append_assoc]
          next => simp [text, elseText, String.append_assoc]
      | some ifFalse =>
          simp [attach, text, elseText, ihFalse ifFalse rfl isOpen, String.append_assoc]
  | block | expression | nop => cases isOpen

theorem text_attached (stmt : Stmt) : stmt.attached.text = stmt.text := by
  induction stmt with
  | conditional offset isStatic test ifTrue ifFalse ihTrue ihFalse =>
      cases ifFalse with
      | none => rw [attached, text, text, ihTrue]
      | some ifFalse =>
          have falseText := ihFalse ifFalse rfl
          rw [attached]
          split
          next isOpen =>
            simp [text, elseText, text_attach _ isOpen, ihTrue, falseText, String.append_assoc]
          next => simp [text, elseText, ihTrue, falseText]
  | block offset body ih =>
      have bodyText_eq : bodyText (attachedAll body) = bodyText body := by
        induction body with
        | nil => rfl
        | cons stmt body rest =>
            rw [attachedAll, bodyText, bodyText, ih stmt (by simp),
              rest fun stmt member => ih stmt (by simp [member])]
      rw [attached, text, text, bodyText_eq]
  | expression | nop => rfl

/-- No `else` here would be taken for one of the first branch. -/
def Node.Settled : Node → Prop
  | .stmt (.conditional _ _ _ ifTrue (some _)) => ifTrue.isOpen = false
  | _ => True

def Settled (stmt : Stmt) : Prop :=
  stmt.Every Node.Settled

/-- What is needed of a node for the text of its statement to be read. -/
def Node.Legible (holds : Expr → Prop) : Node → Prop
  | .expr inner => holds inner
  | .stmt inner => (Node.stmt inner).Settled

section Attached

variable {holds : Expr → Prop}

theorem Every.legible_attach {stmt other : Stmt} (legible : stmt.Every (Node.Legible holds))
    (otherLegible : other.Every (Node.Legible holds)) :
    (attach other stmt).Every (Node.Legible holds) := by
  induction stmt with
  | conditional offset isStatic test ifTrue ifFalse ihTrue ihFalse =>
      obtain ⟨settled, tested, legibleTrue, legibleFalse⟩ := every_conditional.mp legible
      cases ifFalse with
      | none =>
          rw [attach]
          split
          next =>
            exact every_conditional.mpr
              ⟨trivial, tested, ihTrue legibleTrue, fun _ absent => nomatch absent⟩
          next closed =>
            refine every_conditional.mpr
              ⟨Bool.eq_false_of_not_eq_true closed, tested, legibleTrue, ?_⟩
            rintro _ ⟨⟩
            exact otherLegible
      | some ifFalse =>
          refine every_conditional.mpr ⟨settled, tested, legibleTrue, ?_⟩
          rintro _ ⟨⟩
          exact ihFalse ifFalse rfl (legibleFalse ifFalse rfl)
  | block | expression | nop => exact legible

theorem Every.legible_attached {stmt : Stmt} (within : stmt.Every (Node.Within holds)) :
    stmt.attached.Every (Node.Legible holds) := by
  induction stmt with
  | conditional offset isStatic test ifTrue ifFalse ihTrue ihFalse =>
      obtain ⟨-, tested, withinTrue, withinFalse⟩ := every_conditional.mp within
      have legibleTrue := ihTrue withinTrue
      cases ifFalse with
      | none =>
          exact every_conditional.mpr
            ⟨trivial, tested, legibleTrue, fun _ absent => nomatch absent⟩
      | some ifFalse =>
          have legibleFalse := ihFalse ifFalse rfl (withinFalse ifFalse rfl)
          rw [attached]
          split
          next =>
            exact every_conditional.mpr ⟨trivial, tested, legibleTrue.legible_attach legibleFalse,
              fun _ absent => nomatch absent⟩
          next closed =>
            refine every_conditional.mpr
              ⟨Bool.eq_false_of_not_eq_true closed, tested, legibleTrue, ?_⟩
            rintro _ ⟨⟩
            exact legibleFalse
  | block offset body ih =>
      have withinBody := (every_block.mp within).2
      rw [attached, attachedAll_eq_map, every_block, List.forall_mem_map]
      exact ⟨trivial, fun stmt member => ih stmt member (withinBody stmt member)⟩
  | expression offset expr => exact every_expression.mpr ⟨trivial, (every_expression.mp within).2⟩
  | nop => exact every_nop.mpr trivial

theorem Settled.attached_eq {stmt : Stmt} (settled : stmt.Settled) : stmt.attached = stmt := by
  induction stmt with
  | conditional offset isStatic test ifTrue ifFalse ihTrue ihFalse =>
      obtain ⟨closed, -, settledTrue, settledFalse⟩ := every_conditional.mp settled
      cases ifFalse with
      | none => rw [attached, ihTrue settledTrue]
      | some ifFalse =>
          have notOpen : ifTrue.isOpen = false := closed
          rw [attached, ihTrue settledTrue, ihFalse ifFalse rfl (settledFalse ifFalse rfl), notOpen]
          rfl
  | block offset body ih =>
      have settledBody := (every_block.mp settled).2
      have unchanged : ∀ stmt ∈ body, stmt.attached = id stmt :=
        fun stmt member => ih stmt member (settledBody stmt member)
      rw [attached, attachedAll_eq_map, List.map_congr_left unchanged, List.map_id]
  | expression | nop => rfl

theorem settled_attached (stmt : Stmt) : stmt.attached.Settled := by
  have within : stmt.Every (Node.Within fun _ => True) := by
    rintro (_ | _) _ <;> exact trivial
  intro node member
  have legible := within.legible_attached node member
  cases node with
  | stmt => exact legible
  | expr => exact trivial

theorem isOpen_of_skeleton {first second : Stmt} (same : first.skeleton = second.skeleton) :
    first.isOpen = second.isOpen := by
  induction first generalizing second with
  | conditional offset isStatic test ifTrue ifFalse ihTrue ihFalse =>
      cases second with
      | conditional otherOffset otherStatic otherTest otherTrue otherFalse =>
          obtain ⟨-, -, -, sameFalse⟩ := Skeleton.conditional.inj same
          match ifFalse, otherFalse, sameFalse with
          | none, none, _ => rfl
          | some ifFalse, some otherFalse, sameFalse =>
              have sameOpen : ifFalse.isOpen = otherFalse.isOpen :=
                ihFalse ifFalse rfl (Option.some.inj sameFalse)
              exact sameOpen
      | _ => cases same
  | block | expression | nop => cases second <;> first | rfl | cases same

theorem Settled.of_skeleton {first second : Stmt} (settled : first.Settled)
    (same : first.skeleton = second.skeleton) : second.Settled := by
  induction first generalizing second with
  | conditional offset isStatic test ifTrue ifFalse ihTrue ihFalse =>
      cases second with
      | conditional otherOffset otherStatic otherTest otherTrue otherFalse =>
          obtain ⟨closed, -, settledTrue, settledFalse⟩ := every_conditional.mp settled
          obtain ⟨-, -, sameTrue, sameFalse⟩ := Skeleton.conditional.inj same
          have otherSettled := ihTrue settledTrue sameTrue
          match ifFalse, otherFalse, sameFalse with
          | none, none, _ =>
              exact every_conditional.mpr
                ⟨trivial, fun _ _ => trivial, otherSettled, fun _ absent => nomatch absent⟩
          | some ifFalse, some otherFalse, sameFalse =>
              have otherClosed : otherTrue.isOpen = false :=
                (isOpen_of_skeleton sameTrue).symm.trans closed
              refine every_conditional.mpr ⟨otherClosed, fun _ _ => trivial, otherSettled, ?_⟩
              rintro _ ⟨⟩
              exact ihFalse ifFalse rfl (settledFalse ifFalse rfl) (Option.some.inj sameFalse)
      | _ => cases same
  | block offset body ih =>
      cases second with
      | block otherOffset others =>
          have settledBody := (every_block.mp settled).2
          have sameBody := Skeleton.block.inj same
          rw [bodySkeletons_eq_map, bodySkeletons_eq_map] at sameBody
          refine every_block.mpr ⟨trivial, fun other member => ?_⟩
          have shown : other.skeleton ∈ body.map skeleton := sameBody ▸ List.mem_map_of_mem member
          obtain ⟨stmt, inside, sameStmt⟩ := List.mem_map.mp shown
          exact ih stmt inside (settledBody stmt inside) sameStmt
      | _ => cases same
  | expression =>
      cases second with
      | expression => exact every_expression.mpr ⟨trivial, fun _ _ => trivial⟩
      | _ => cases same
  | nop =>
      cases second with
      | nop => exact every_nop.mpr trivial
      | _ => cases same

/-- Where an `else` does not belong to the nearest conditional, another statement is read. -/
theorem skeleton_attached_ne {stmt : Stmt} (unsettled : ¬stmt.Settled) :
    stmt.attached.skeleton ≠ stmt.skeleton :=
  fun same => unsettled ((settled_attached stmt).of_skeleton same)

end Attached

/-! ## Reading back -/

def chars (stmt : Stmt) : List Char :=
  stmt.text.toList

def elseChars (ifFalse : Option Stmt) : List Char :=
  (elseText ifFalse).toList

theorem elseChars_none : elseChars none = [] := by
  simp [elseChars, elseText]

theorem elseChars_some (stmt : Stmt) :
    elseChars (some stmt) = [' ', 'e', 'l', 's', 'e', ' '] ++ stmt.chars := by
  simp [elseChars, elseText, chars]

theorem chars_conditional {offset : Offset} {isStatic : Bool} {test : Expr} {ifTrue : Stmt}
    {ifFalse : Option Stmt} :
    (Stmt.conditional offset isStatic test ifTrue ifFalse).chars =
      (if isStatic then "@if (" else "if (").toList ++
        (test.chars ++ ')' :: ' ' :: (ifTrue.chars ++ elseChars ifFalse)) := by
  cases isStatic <;> simp [chars, text, elseChars, Expr.chars]

theorem chars_block {offset : Offset} {body : List Stmt} :
    (Stmt.block offset body).chars =
      '\x7b' :: ((body.flatMap fun stmt => '\n' :: stmt.chars) ++ ['\n', '\x7d']) := by
  have bodyChars : (bodyText body).toList = body.flatMap fun stmt => '\n' :: stmt.chars := by
    induction body with
    | nil => rfl
    | cons stmt body ih => simp [bodyText, chars, ih]
  simp [chars, text, bodyChars]

theorem chars_expression {offset : Offset} {expr : Expr} :
    (Stmt.expression offset expr).chars = expr.chars ++ [';'] := by
  simp [chars, text, Expr.chars]

theorem chars_nop {offset : Offset} : (Stmt.nop offset).chars = [';'] := by
  simp [chars, text]

/-- The kind of the statement that a text starts with, none where a block ends. -/
def kindOf? : List Char → Option StmtKind
  | '\x7d' :: _ => none
  | ';' :: _ => some .nop
  | '\x7b' :: _ => some .block
  | '@' :: _ => some .conditional
  | 'i' :: 'f' :: ' ' :: _ => some .conditional
  | _ => some .expression

theorem kindOf?_word {word rest : List Char} (nonempty : word ≠ []) (isWord : IsWord word)
    (marks : Expr.Marks rest) : kindOf? (word ++ rest) = some .expression := by
  have taken := takeWhile_word isWord marks.stops
  have left := dropWhile_word isWord marks.stops
  generalize word ++ rest = text at taken left
  unfold kindOf?
  split
  · exact absurd taken.symm nonempty
  · exact absurd taken.symm nonempty
  · exact absurd taken.symm nonempty
  · exact absurd taken.symm nonempty
  -- The word would be `if`, but no blank comes after the words of an expression.
  · exact absurd (marks ' ' (by rw [← left]; rfl)) (by decide)
  · rfl

/-- Expressions whose texts can be told apart, and told from other statements. -/
structure Separable (holds : Expr → Prop) : Prop where
  reads : ∀ {first second : Expr} {rest otherRest : List Char}, first.Every holds →
    second.Every holds → Expr.Closes rest → Expr.Closes otherRest →
    first.chars ++ rest = second.chars ++ otherRest →
    first.skeleton = second.skeleton ∧ rest = otherRest
  firstWord : ∀ {expr : Expr}, expr.Every holds →
    ∃ word tail, expr.chars = word ++ tail ∧ word ≠ [] ∧ IsWord word ∧
      ∀ rest, Expr.Closes rest → Expr.Marks (tail ++ rest)

/-- An `else` comes next only after a statement that does not take it. -/
def Follows (stmt : Stmt) (rest : List Char) : Prop :=
  stmt.isOpen = true → rest.head? ≠ some ' '

/-- What is read from the statement's text, whatever comes next, is the statement. -/
def Reads (holds : Expr → Prop) (first : Stmt) : Prop :=
  ∀ ⦃second : Stmt⦄ ⦃rest otherRest : List Char⦄, second.Every (Node.Legible holds) →
    first.Follows rest → second.Follows otherRest →
    first.chars ++ rest = second.chars ++ otherRest →
    first.skeleton = second.skeleton ∧ rest = otherRest

section Reading

variable {holds : Expr → Prop}

theorem follows_line (stmt : Stmt) (body : List Stmt) (rest : List Char) :
    stmt.Follows ((body.flatMap fun stmt => '\n' :: stmt.chars) ++ '\n' :: '\x7d' :: rest) := by
  intro _
  cases body <;> exact nofun

/-- After a first branch comes an `else`, if the branch does not take it, or what comes after the
conditional. -/
theorem Follows.ifTrue {offset : Offset} {isStatic : Bool} {test : Expr} {ifTrue : Stmt}
    {ifFalse : Option Stmt} {rest : List Char}
    (follows : (Stmt.conditional offset isStatic test ifTrue ifFalse).Follows rest)
    (legible : (Stmt.conditional offset isStatic test ifTrue ifFalse).Every (Node.Legible holds)) :
    ifTrue.Follows (elseChars ifFalse ++ rest) := by
  intro isOpen
  cases ifFalse with
  | none => exact follows rfl
  | some ifFalse =>
      have closed : ifTrue.isOpen = false := (every_conditional.mp legible).1
      rw [isOpen] at closed
      cases closed

theorem elseSkeleton_of_chars {offset otherOffset : Offset} {isStatic otherStatic : Bool}
    {test otherTest : Expr} {ifTrue otherTrue : Stmt} {ifFalse otherFalse : Option Stmt}
    {rest otherRest : List Char}
    (follows : (Stmt.conditional offset isStatic test ifTrue ifFalse).Follows rest)
    (otherFollows :
      (Stmt.conditional otherOffset otherStatic otherTest otherTrue otherFalse).Follows otherRest)
    (otherLegible : ∀ stmt ∈ otherFalse, stmt.Every (Node.Legible holds))
    (read : ∀ stmt ∈ ifFalse, stmt.Reads holds)
    (same : elseChars ifFalse ++ rest = elseChars otherFalse ++ otherRest) :
    elseSkeleton ifFalse = elseSkeleton otherFalse ∧ rest = otherRest := by
  cases ifFalse with
  | none =>
      cases otherFalse with
      | none => exact ⟨rfl, List.append_cancel_left same⟩
      | some otherFalse =>
          rw [elseChars_none, elseChars_some] at same
          have next : rest.head? = some ' ' := congrArg List.head? same
          exact absurd next (follows rfl)
  | some ifFalse =>
      cases otherFalse with
      | none =>
          rw [elseChars_none, elseChars_some] at same
          have next : otherRest.head? = some ' ' := congrArg List.head? same.symm
          exact absurd next (otherFollows rfl)
      | some otherFalse =>
          rw [elseChars_some, elseChars_some, List.append_assoc, List.append_assoc,
            List.append_cancel_left_eq] at same
          obtain ⟨sameFalse, sameRest⟩ := read ifFalse rfl (otherLegible otherFalse rfl)
            follows otherFollows same
          rw [elseSkeleton, elseSkeleton, sameFalse]
          exact ⟨rfl, sameRest⟩

variable (separable : Separable holds)

include separable

theorem kindOf?_chars {stmt : Stmt} (legible : stmt.Every (Node.Legible holds))
    (rest : List Char) : kindOf? (stmt.chars ++ rest) = some stmt.kind := by
  cases stmt with
  | conditional offset isStatic =>
      rw [chars_conditional]
      cases isStatic <;> rfl
  | block =>
      rw [chars_block]
      rfl
  | expression offset expr =>
      obtain ⟨word, tail, form, nonempty, isWord, marks⟩ :=
        separable.firstWord (every_expression.mp legible).2
      rw [chars_expression, form, List.append_assoc, List.append_assoc, List.singleton_append]
      exact kindOf?_word nonempty isWord (marks _ (Expr.closes_mark (by simp) rest))
  | nop =>
      rw [chars_nop]
      rfl

theorem kind_of_chars {first second : Stmt} {rest otherRest : List Char}
    (legible : first.Every (Node.Legible holds)) (otherLegible : second.Every (Node.Legible holds))
    (same : first.chars ++ rest = second.chars ++ otherRest) : first.kind = second.kind := by
  apply Option.some.inj
  rw [← kindOf?_chars separable legible rest, same, kindOf?_chars separable otherLegible]

theorem bodySkeletons_of_chars {body others : List Stmt} {rest otherRest : List Char}
    (legible : ∀ stmt ∈ body, stmt.Every (Node.Legible holds))
    (otherLegible : ∀ other ∈ others, other.Every (Node.Legible holds))
    (read : ∀ stmt ∈ body, stmt.Reads holds)
    (same : (body.flatMap fun stmt => '\n' :: stmt.chars) ++ '\n' :: '\x7d' :: rest =
      (others.flatMap fun stmt => '\n' :: stmt.chars) ++ '\n' :: '\x7d' :: otherRest) :
    bodySkeletons body = bodySkeletons others ∧ rest = otherRest := by
  -- A line of a block is a statement or the brace at its end.
  have line {stmt : Stmt} (legible : stmt.Every (Node.Legible holds)) {after more : List Char} :
      stmt.chars ++ after ≠ '\x7d' :: more := by
    intro ended
    have kind := kindOf?_chars separable legible after
    rw [ended] at kind
    cases kind
  induction body generalizing others with
  | nil =>
      cases others with
      | nil => exact ⟨rfl, by simpa using same⟩
      | cons other others =>
          simp only [List.flatMap_cons, List.flatMap_nil, List.nil_append, List.cons_append,
            List.append_assoc, List.cons.injEq, true_and] at same
          exact absurd same.symm (line (otherLegible other (by simp)))
  | cons stmt body ih =>
      cases others with
      | nil =>
          simp only [List.flatMap_cons, List.flatMap_nil, List.nil_append, List.cons_append,
            List.append_assoc, List.cons.injEq, true_and] at same
          exact absurd same (line (legible stmt (by simp)))
      | cons other others =>
          simp only [List.flatMap_cons, List.cons_append, List.append_assoc, List.cons.injEq,
            true_and] at same
          rw [List.forall_mem_cons] at legible otherLegible read
          obtain ⟨sameFirst, sameLines⟩ := read.1 otherLegible.1 (follows_line stmt body rest)
            (follows_line other others otherRest) same
          obtain ⟨sameBody, sameRest⟩ := ih legible.2 otherLegible.2 read.2 sameLines
          rw [bodySkeletons, bodySkeletons, sameFirst, sameBody]
          exact ⟨rfl, sameRest⟩

theorem reads_conditional {offset : Offset} {isStatic : Bool} {test : Expr} {ifTrue : Stmt}
    {ifFalse : Option Stmt}
    (legible : (Stmt.conditional offset isStatic test ifTrue ifFalse).Every (Node.Legible holds))
    (readTrue : ifTrue.Reads holds) (readFalse : ∀ stmt ∈ ifFalse, stmt.Reads holds) :
    (Stmt.conditional offset isStatic test ifTrue ifFalse).Reads holds := by
  intro second rest otherRest otherLegible follows otherFollows same
  have sameKind := kind_of_chars separable legible otherLegible same
  cases second with
  | conditional otherOffset otherStatic otherTest otherTrue otherFalse =>
      obtain ⟨-, tested, -, -⟩ := every_conditional.mp legible
      obtain ⟨-, otherTested, legibleTrue, legibleFalse⟩ := every_conditional.mp otherLegible
      have closes (after : List Char) : Expr.Closes (')' :: after) :=
        Expr.closes_mark (by simp) after
      simp only [chars_conditional, List.append_assoc, List.cons_append] at same
      have sameStatic : isStatic = otherStatic := by
        cases isStatic <;> cases otherStatic <;> first | rfl | cases same
      rw [sameStatic, List.append_cancel_left_eq] at same
      obtain ⟨sameTest, same⟩ := separable.reads tested otherTested (closes _) (closes _) same
      rw [List.cons.injEq, List.cons.injEq] at same
      obtain ⟨sameTrue, same⟩ := readTrue legibleTrue (follows.ifTrue legible)
        (otherFollows.ifTrue otherLegible) same.2.2
      obtain ⟨sameFalse, sameRest⟩ :=
        elseSkeleton_of_chars follows otherFollows legibleFalse readFalse same
      rw [skeleton, skeleton, sameStatic, sameTest, sameTrue, sameFalse]
      exact ⟨rfl, sameRest⟩
  | _ => cases sameKind

theorem reads_block {offset : Offset} {body : List Stmt}
    (legible : (Stmt.block offset body).Every (Node.Legible holds))
    (read : ∀ stmt ∈ body, stmt.Reads holds) : (Stmt.block offset body).Reads holds := by
  intro second rest otherRest otherLegible _ _ same
  have sameKind := kind_of_chars separable legible otherLegible same
  cases second with
  | block otherOffset others =>
      simp only [chars_block, List.cons_append, List.append_assoc, List.cons.injEq, true_and,
        List.nil_append] at same
      obtain ⟨sameBody, sameRest⟩ := bodySkeletons_of_chars separable (every_block.mp legible).2
        (every_block.mp otherLegible).2 read same
      rw [skeleton, skeleton, sameBody]
      exact ⟨rfl, sameRest⟩
  | _ => cases sameKind

theorem reads_expression {offset : Offset} {expr : Expr}
    (legible : (Stmt.expression offset expr).Every (Node.Legible holds)) :
    (Stmt.expression offset expr).Reads holds := by
  intro second rest otherRest otherLegible _ _ same
  have sameKind := kind_of_chars separable legible otherLegible same
  cases second with
  | expression otherOffset other =>
      have closes (after : List Char) : Expr.Closes (';' :: after) :=
        Expr.closes_mark (by simp) after
      rw [chars_expression, chars_expression, List.append_assoc, List.append_assoc] at same
      obtain ⟨sameExpr, same⟩ := separable.reads (every_expression.mp legible).2
        (every_expression.mp otherLegible).2 (closes rest) (closes otherRest) same
      rw [skeleton, skeleton, sameExpr]
      exact ⟨rfl, List.tail_eq_of_cons_eq same⟩
  | _ => cases sameKind

theorem reads {stmt : Stmt} (legible : stmt.Every (Node.Legible holds)) : stmt.Reads holds := by
  induction stmt with
  | conditional offset isStatic test ifTrue ifFalse ihTrue ihFalse =>
      obtain ⟨-, -, legibleTrue, legibleFalse⟩ := every_conditional.mp legible
      exact reads_conditional separable legible (ihTrue legibleTrue)
        fun stmt member => ihFalse stmt member (legibleFalse stmt member)
  | block offset body ih =>
      have legibleBody := (every_block.mp legible).2
      exact reads_block separable legible
        fun stmt member => ih stmt member (legibleBody stmt member)
  | expression offset expr => exact reads_expression separable legible
  | nop offset =>
      intro second rest otherRest otherLegible _ _ same
      have sameKind := kind_of_chars separable legible otherLegible same
      cases second with
      | nop =>
          rw [chars_nop, chars_nop] at same
          exact ⟨rfl, List.append_cancel_left same⟩
      | _ => cases sameKind

/-- The text of a statement shows the statement, up to the conditional each `else` belongs to. -/
theorem text_iff_attached {first second : Stmt} (within : first.Every (Node.Within holds))
    (otherWithin : second.Every (Node.Within holds)) :
    first.text = second.text ↔ first.attached.skeleton = second.attached.skeleton := by
  constructor
  · intro same
    have nothing (stmt : Stmt) : stmt.Follows [] := fun _ => nofun
    have sameChars : first.attached.chars ++ [] = second.attached.chars ++ [] := by
      rw [chars, chars, text_attached, text_attached, same]
    exact (reads separable within.legible_attached otherWithin.legible_attached (nothing _)
      (nothing _) sameChars).1
  · intro same
    have sameText := text_of_skeleton same
    rwa [text_attached, text_attached] at sameText

end Reading

end Stmt

/-! ## Which expressions can be told apart -/

namespace Expr

theorem separable_legible : Stmt.Separable Legible where
  reads legible otherLegible closes otherCloses same :=
    reads legible otherLegible closes otherCloses same
  firstWord := exists_firstWord

/-- Literals and variables, with names that are no literals among these. -/
def Atomic : Expr → Prop
  | .int .. | .bool .. => True
  | .reference _ _ var _ => isIdentifier var.name.toList = true ∧ var.name ∉ ["true", "false"]
  | _ => False

theorem Atomic.isWord {expr : Expr} (atomic : expr.Atomic) : IsWord expr.chars := by
  cases expr with
  | int => exact isWord_toString_int _
  | bool => exact isWord_bool _
  | reference => exact isWord_of_isIdentifier atomic.1
  | float | construct | unary => cases atomic

theorem Atomic.nonempty {expr : Expr} (atomic : expr.Atomic) : expr.chars ≠ [] := by
  cases expr with
  | int => exact toString_int_ne_nil _
  | bool offset ty value =>
      rw [chars, text]
      cases value <;> decide
  | reference => exact ne_nil_of_isIdentifier atomic.1
  | float | construct | unary => cases atomic

theorem Atomic.isLeaf {expr : Expr} (atomic : expr.Atomic) :
    expr.kind ≠ .constructor ∧ expr.kind ≠ .unary := by
  cases expr with
  | int | bool | reference => exact ⟨nofun, nofun⟩
  | float | construct | unary => cases atomic

/-- A word that would be a float among all expressions is a name among these. -/
theorem Atomic.kind_eq {expr : Expr} (atomic : expr.Atomic) :
    expr.kind = if wordKind expr.chars = .floatLiteral then .reference
      else wordKind expr.chars := by
  cases expr with
  | int offset ty value =>
      have word : wordKind (Expr.int offset ty value).chars = .intLiteral := wordKind_int _
      rw [word]
      rfl
  | bool offset ty value =>
      have word : wordKind (Expr.bool offset ty value).chars = .boolLiteral := wordKind_bool value
      rw [word]
      rfl
  | reference offset ty var access =>
      have notBool : var.name.toList ∉ ["true", "false"].map String.toList := by
        rw [List.mem_map_of_injective fun _ _ => String.toList_inj.mp]
        exact atomic.2
      have word : wordKind (Expr.reference offset ty var access).chars = _ :=
        wordKind_identifier atomic.1 notBool
      rw [word]
      split <;> rfl
  | float | construct | unary => cases atomic

theorem separable_atomic : Stmt.Separable Atomic where
  reads {first second rest otherRest} every otherEvery closes otherCloses same := by
    have atomic := every.root
    have otherAtomic := otherEvery.root
    obtain ⟨sameWord, sameRest⟩ := eq_of_word_append atomic.isWord otherAtomic.isWord
      closes.marks.stops otherCloses.marks.stops same
    have sameKind : first.kind = second.kind := by
      rw [atomic.kind_eq, sameWord, ← otherAtomic.kind_eq]
    have sameText : first.text = second.text := String.toList_inj.mp sameWord
    exact ⟨skeleton_of_word sameKind atomic.isLeaf.1 atomic.isLeaf.2 sameText, sameRest⟩
  firstWord {expr} every :=
    ⟨expr.chars, [], by simp, every.root.nonempty, every.root.isWord, fun _ => Closes.marks⟩

end Expr

/-! ## The texts of statements -/

namespace Stmt

/-- A text shows all of a statement but the conditional that an `else` belongs to, and this too
among statements in which every `else` belongs to the nearest conditional. Any other statement has
the text of a different one. -/
theorem same_text_iff_same_attached {first second : Stmt}
    (atomic : first.Every (Node.Within Expr.Atomic))
    (otherAtomic : second.Every (Node.Within Expr.Atomic)) :
    (first.text = second.text ↔ first.attached.skeleton = second.attached.skeleton) ∧
      (first.Settled → second.Settled →
        (first.text = second.text ↔ first.skeleton = second.skeleton)) ∧
      (¬first.Settled →
        first.attached.text = first.text ∧ first.attached.skeleton ≠ first.skeleton) := by
  have sameText := text_iff_attached Expr.separable_atomic atomic otherAtomic
  refine ⟨sameText, fun settled otherSettled => ?_, fun unsettled => ?_⟩
  · rwa [settled.attached_eq, otherSettled.attached_eq] at sameText
  · exact ⟨text_attached first, skeleton_attached_ne unsettled⟩

/-- A chain of conditionals and a block in a branch. The last `else` was built as the outer
conditional's and is read as the inner one's. -/
theorem same_text_iff_same_attached_chain :
    let read (offset : Offset) (name : String) : Expr :=
      .reference offset .bool ⟨0, name, .bool, ⟨false, false⟩⟩ .read
    let body : Stmt := .block 6 [.expression 7 (read 7 "if"), .nop 8]
    let last : Stmt := .conditional 9 true (read 9 "c") (.expression 10 (.int 10 .int (-1))) none
    let first : Stmt :=
      .conditional 1 false (read 2 "a") (.conditional 3 false (read 4 "b") body none) (some last)
    let second : Stmt :=
      .conditional 1 false (read 2 "a") (.conditional 3 false (read 4 "b") body (some last)) none
    first.Every (Node.Within Expr.Atomic) ∧ second.Every (Node.Within Expr.Atomic) ∧
      first.text = "if (a) if (b) \x7b\nif;\n;\n\x7d else @if (c) -1;" ∧ first.attached = second ∧
      ¬first.Settled ∧ second.Settled ∧
      (first.text = second.text ↔ first.attached.skeleton = second.attached.skeleton) ∧
      first.attached.skeleton ≠ first.skeleton := by
  intro read body last first second
  have atomic : first.Every (Node.Within Expr.Atomic) := by
    simp +decide [first, last, body, read, Node.Within, Expr.Atomic]
  have otherAtomic : second.Every (Node.Within Expr.Atomic) := by
    simp +decide [second, last, body, read, Node.Within, Expr.Atomic]
  have unsettled : ¬first.Settled := by
    simp [Settled, first, Node.Settled, isOpen]
  have settled : second.Settled := by
    simp [Settled, second, last, body, read, Node.Settled, isOpen]
  obtain ⟨sameText, -, different⟩ := same_text_iff_same_attached atomic otherAtomic
  exact ⟨atomic, otherAtomic, by decide, rfl, unsettled, settled, sameText,
    (different unsettled).2⟩

/-- An `else` after two conditionals can have been built as that of either. -/
theorem else_belongs_to_either_conditional :
    let a : Variable := ⟨0, "a", .bool, ⟨false, false⟩⟩
    let b : Variable := ⟨1, "b", .bool, ⟨false, false⟩⟩
    let inner (ifFalse : Option Stmt) : Stmt :=
      .conditional 3 false (.reference 4 .bool b .read) (.nop 5) ifFalse
    let first : Stmt :=
      .conditional 1 false (.reference 2 .bool a .read) (inner (some (.nop 6))) none
    let second : Stmt :=
      .conditional 1 false (.reference 2 .bool a .read) (inner none) (some (.nop 6))
    Obtainable (.stmt first) ∧ Obtainable (.stmt second) ∧
      first.Every (Node.Within Expr.Atomic) ∧ second.Every (Node.Within Expr.Atomic) ∧
      first.text = "if (a) if (b) ; else ;" ∧ second.text = "if (a) if (b) ; else ;" ∧
      first.skeleton ≠ second.skeleton := by
  intro a b inner first second
  have nothing : ∀ stmt ∈ (none : Option Stmt), Obtainable (.stmt stmt) :=
    fun _ absent => nomatch absent
  have nop : ∀ stmt ∈ some (Stmt.nop 6), Obtainable (.stmt stmt) := by
    rintro _ ⟨⟩
    exact .nop 6
  have obtained : Obtainable (.stmt first) :=
    .branch 1 false (.referTo 2 a .read) (.branch 3 false (.referTo 4 b .read) (.nop 5) nop) nothing
  have otherObtained : Obtainable (.stmt second) :=
    .branch 1 false (.referTo 2 a .read) (.branch 3 false (.referTo 4 b .read) (.nop 5) nothing) nop
  have atomic : first.Every (Node.Within Expr.Atomic) := by
    simp +decide [first, inner, a, b, Node.Within, Expr.Atomic]
  have otherAtomic : second.Every (Node.Within Expr.Atomic) := by
    simp +decide [second, inner, a, b, Node.Within, Expr.Atomic]
  refine ⟨obtained, otherObtained, atomic, otherAtomic, by decide, by decide, ?_⟩
  simp [first, second, inner, skeleton, elseSkeleton]

end Stmt

/-- As `Stmt.same_text_iff_same_attached`, with all expressions. -/
theorem Obtainable.same_statement_text_iff {first second : Stmt}
    (obtained : Obtainable (.stmt first)) (otherObtained : Obtainable (.stmt second))
    (named : first.Every (Stmt.Node.Within Expr.Named))
    (otherNamed : second.Every (Stmt.Node.Within Expr.Named)) :
    first.text = second.text ↔ first.attached.skeleton = second.attached.skeleton := by
  have within {stmt : Stmt} (obtained : Obtainable (.stmt stmt))
      (named : stmt.Every (Stmt.Node.Within Expr.Named)) :
      stmt.Every (Stmt.Node.Within Expr.Legible) := by
    intro node member
    cases node with
    | stmt => exact trivial
    | expr => exact ⟨obtained.artifact_sound _ member, named _ member⟩
  exact Stmt.text_iff_attached Expr.separable_legible (within obtained named)
    (within otherObtained otherNamed)

end ShaderIR
