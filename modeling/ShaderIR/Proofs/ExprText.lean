import ShaderIR.Proofs.Representation
import ShaderIR.Proofs.Words

/-!
The text of an expression can be read in one way only. What the text does not show is left out of
the `Skeleton` of an expression; two expressions have the same text exactly if they have the same
skeleton. A sign could be read as part of a number or as an operator, and two signs as one
operator; that they cannot be confused rests on what holds of every tree that can be obtained: no
sign stands before a number, and steps stand before variables.
-/

namespace ShaderIR

namespace Expr

/-- What of an expression shows in its text. A float without a value is not a number. -/
inductive Skeleton where
  | int (value : Int64)
  | float (value : Option Binary64)
  | bool (value : Bool)
  | construct (typeName : String) (arguments : List Skeleton)
  | unary (operator : Operator) (operand : Skeleton)
  | reference (name : String)

mutual

def skeleton : Expr → Skeleton
  | .int _ _ value => .int value
  | .float _ _ value => .float (if value.isNaN then none else some value)
  | .bool _ _ value => .bool value
  | .construct _ ty arguments => .construct ty.displayName (skeletons arguments)
  | .unary _ _ operator operand => .unary operator operand.skeleton
  | .reference _ _ var _ => .reference var.name

def skeletons : List Expr → List Skeleton
  | [] => []
  | argument :: arguments => argument.skeleton :: skeletons arguments

end

def chars (expr : Expr) : List Char :=
  expr.text.toList

def argumentsChars (arguments : List Expr) : List Char :=
  (argumentsText arguments).toList

section Chars

variable {offset : Offset} {ty : Ty}

theorem chars_construct (arguments : List Expr) :
    (Expr.construct offset ty arguments).chars =
      ty.displayName.toList ++ '(' :: (argumentsChars arguments ++ [')']) := by
  simp [chars, text, argumentsChars]

theorem chars_unary (operator : Operator) (operand : Expr) :
    (Expr.unary offset ty operator operand).chars =
      operator.text.toList ++
        if operand.isUnary then '(' :: (operand.chars ++ [')']) else operand.chars := by
  unfold chars
  rw [text]
  split <;> simp

theorem argumentsChars_cons (argument : Expr) (arguments : List Expr) :
    argumentsChars (argument :: arguments) =
      argument.chars ++ arguments.flatMap fun next => ',' :: ' ' :: next.chars := by
  induction arguments generalizing argument with
  | nil => simp [argumentsChars, argumentsText, chars]
  | cons second arguments ih =>
      have tail := ih second
      simp only [argumentsChars, chars] at tail ⊢
      simp [argumentsText, tail]

end Chars

/-! ## What a text starts with -/

/-- What comes after the first word of an expression: nothing, or a mark. -/
def Marks (rest : List Char) : Prop :=
  ∀ c ∈ rest.head?, c ∈ ['(', ',', ')', ';']

theorem Marks.stops {rest : List Char} (marks : Marks rest) : Stops rest := by
  intro c member
  have mark := marks c member
  fin_cases mark <;> rfl

/-- What comes after an expression: nothing, or a mark that opens nothing. -/
def Closes (rest : List Char) : Prop :=
  ∀ c ∈ rest.head?, c ∈ [',', ')', ';']

theorem closes_mark {mark : Char} (closing : mark ∈ [',', ')', ';']) (rest : List Char) :
    Closes (mark :: rest) := by
  rintro c ⟨⟩
  exact closing

theorem Closes.marks {rest : List Char} (closes : Closes rest) : Marks rest :=
  fun c member => List.mem_cons_of_mem _ (closes c member)

theorem Closes.not_open {rest : List Char} (closes : Closes rest) : rest.head? ≠ some '(' := by
  intro opens
  exact absurd (closes '(' opens) (by decide)

/-- The kind of the expression that a text starts with. -/
def kindOf (text : List Char) : ExprKind :=
  match wordKind (text.takeWhile isWordChar) with
  | .reference =>
      if (text.dropWhile isWordChar).head? = some '(' then .constructor else .reference
  | kind => kind

/-- The operator that a text starts with. -/
def operatorOf : List Char → Operator
  | '!' :: _ => .logicalNot
  | '~' :: _ => .bitwiseNot
  | '+' :: _ => .increment
  | '-' :: '-' :: _ => .decrement
  | _ => .minus

def Named : Expr → Prop
  | .reference _ _ var _ => IsFreeName var.name
  | _ => True

/-- What is needed of a node for its text to be read. -/
def Legible (node : Expr) : Prop :=
  node.Sound ∧ node.Named

/-- The first word of a text that starts with no operator. -/
structure LeadingWord (expr : Expr) (word tail : List Char) : Prop where
  chars_eq : expr.chars = word ++ tail
  isWord : IsWord word
  nonempty : word ≠ []
  wordKind_eq : tail = [] ∧ wordKind word = expr.kind ∨
    tail.head? = some '(' ∧ wordKind word = .reference ∧ expr.kind = .constructor
  name : expr.kind ≠ .intLiteral → expr.kind ≠ .floatLiteral →
    isIdentifier word = true ∧ word ≠ ['i', 'n', 'f']

theorem leadingWord_of_name {expr : Expr} {name : String} {tail : List Char}
    (free : IsFreeName name) (chars_eq : expr.chars = name.toList ++ tail)
    (kind : tail = [] ∧ expr.kind = .reference ∨
      tail.head? = some '(' ∧ expr.kind = .constructor) :
    expr.LeadingWord name.toList tail where
  chars_eq := chars_eq
  isWord := isWord_of_isIdentifier free.1
  nonempty := ne_nil_of_isIdentifier free.1
  wordKind_eq := by
    rw [free.wordKind_eq]
    rcases kind with ⟨empty, isReference⟩ | ⟨opens, isConstructor⟩
    · exact .inl ⟨empty, isReference.symm⟩
    · exact .inr ⟨opens, rfl, isConstructor⟩
  name _ _ := ⟨free.1, free.ne_inf⟩

theorem exists_leadingWord {expr : Expr} (legible : expr.Legible)
    (notUnary : expr.isUnary = false) : ∃ word tail, expr.LeadingWord word tail := by
  cases expr with
  | int offset ty value =>
      refine ⟨(toString value.toInt).toList, [], ?_⟩
      exact
        { chars_eq := by simp [chars, text]
          isWord := isWord_toString_int _
          nonempty := toString_int_ne_nil _
          wordKind_eq := .inl ⟨rfl, wordKind_int _⟩
          name := fun notInt _ => absurd rfl notInt }
  | float offset ty value =>
      refine ⟨(value.text .literal).toList, [], ?_⟩
      exact
        { chars_eq := by simp [chars, text]
          isWord := value.isWord_text .literal
          nonempty := by
            intro empty
            have kind := value.wordKind_text .literal
            rw [empty] at kind
            cases kind
          wordKind_eq := .inl ⟨rfl, value.wordKind_text .literal⟩
          name := fun _ notFloat => absurd rfl notFloat }
  | bool offset ty value =>
      refine ⟨(if value then "true" else "false").toList, [], ?_⟩
      exact
        { chars_eq := by simp [chars, text]
          isWord := isWord_bool value
          nonempty := by cases value <;> decide
          wordKind_eq := .inl ⟨rfl, wordKind_bool value⟩
          name := fun _ _ => by cases value <;> decide }
  | construct offset ty arguments =>
      exact ⟨_, _, leadingWord_of_name (isFreeName_displayName ty) (chars_construct arguments)
        (.inr ⟨rfl, rfl⟩)⟩
  | unary => cases notUnary
  | reference offset ty var access =>
      exact ⟨_, [], leadingWord_of_name legible.2 (by simp [chars, text]) (.inl ⟨rfl, rfl⟩)⟩

theorem marks_of_open {tail : List Char} (opens : tail.head? = some '(') (rest : List Char) :
    Marks (tail ++ rest) := by
  intro c member
  rw [List.head?_append, opens] at member
  cases member
  decide

theorem LeadingWord.marks_tail {expr : Expr} {word tail rest : List Char}
    (leads : expr.LeadingWord word tail) (closes : Closes rest) : Marks (tail ++ rest) := by
  rcases leads.wordKind_eq with ⟨rfl, _⟩ | ⟨opens, _⟩
  · exact closes.marks
  · exact marks_of_open opens rest

theorem LeadingWord.kindOf_eq {expr : Expr} {word tail rest : List Char}
    (leads : expr.LeadingWord word tail) (closes : Closes rest) :
    kindOf (expr.chars ++ rest) = expr.kind := by
  have stops := (leads.marks_tail closes).stops
  rw [leads.chars_eq, List.append_assoc, kindOf, takeWhile_word leads.isWord stops,
    dropWhile_word leads.isWord stops]
  rcases leads.wordKind_eq with ⟨rfl, kind⟩ | ⟨opens, kind, isConstructor⟩
  · rw [kind]
    split
    next isReference => rw [List.nil_append, if_neg closes.not_open, isReference]
    next => rfl
  · rw [kind, List.head?_append, opens, isConstructor]
    rfl

/-! ## Operators -/

/-- An operand as it is written after its operator. -/
def operandChars (operand : Expr) : List Char :=
  if operand.isUnary then '(' :: (operand.chars ++ [')']) else operand.chars

/-- The word that an operand adds to that of its operator, which is none in parentheses. -/
theorem exists_operandWord {operand : Expr} (legible : operand.Legible) :
    ∃ word tail, operand.operandChars = word ++ tail ∧ IsWord word ∧
      (∀ rest, Closes rest → Marks (tail ++ rest)) ∧
      (operand.kind ≠ .intLiteral → operand.kind ≠ .floatLiteral →
        word = [] ∧ tail.head? = some '(' ∨ isIdentifier word = true ∧ word ≠ ['i', 'n', 'f']) := by
  unfold operandChars
  cases isUnary : operand.isUnary with
  | true =>
      exact ⟨[], _, rfl, fun _ absent => (nomatch absent), fun rest _ => marks_of_open rfl rest,
        fun _ _ => .inl ⟨rfl, rfl⟩⟩
  | false =>
      obtain ⟨word, tail, leads⟩ := exists_leadingWord legible isUnary
      exact ⟨word, tail, leads.chars_eq, leads.isWord, fun _ => leads.marks_tail,
        fun notInt notFloat => .inr (leads.name notInt notFloat)⟩

theorem isWord_operator {operand : Expr} {operator : Operator}
    (stands : operand.StandsOn operator) : IsWord operator.text.toList := by
  apply isWord_of_all
  cases operator with
  | minus | logicalNot | bitwiseNot | increment | decrement => decide
  | _ => cases stands

theorem wordKind_of_standsOn {operand : Expr} {operator : Operator} {word : List Char}
    (stands : operand.StandsOn operator)
    (name : operand.kind ≠ .intLiteral → operand.kind ≠ .floatLiteral →
      word = [] ∨ isIdentifier word = true ∧ word ≠ ['i', 'n', 'f']) :
    wordKind (operator.text.toList ++ word) = .unary := by
  cases operator with
  | minus =>
      rcases name stands.1 stands.2 with rfl | ⟨identifier, notInfinite⟩
      · decide
      · exact wordKind_signed_identifier identifier notInfinite
  | logicalNot => exact @wordKind_operator '!' (by simp) word
  | bitwiseNot => exact @wordKind_operator '~' (by simp) word
  | increment => exact @wordKind_operator '+' (by simp) _
  | decrement => exact wordKind_two_signs word
  | _ => cases stands

theorem exists_unaryWord {offset : Offset} {ty : Ty} {operator : Operator} {operand : Expr}
    (stands : operand.StandsOn operator) (legible : operand.Legible) :
    ∃ word tail, (Expr.unary offset ty operator operand).chars = word ++ tail ∧ IsWord word ∧
      (∀ rest, Closes rest → Marks (tail ++ rest)) ∧ wordKind word = .unary := by
  obtain ⟨word, tail, form, isWord, marks, name⟩ := exists_operandWord legible
  refine ⟨operator.text.toList ++ word, tail, ?_, ?_, marks, ?_⟩
  · rw [chars_unary, ← operandChars, form, List.append_assoc]
  · intro c member
    rcases List.mem_append.mp member with inOperator | inWord
    · exact isWord_operator stands c inOperator
    · exact isWord c inWord
  · apply wordKind_of_standsOn stands
    intro notInt notFloat
    exact (name notInt notFloat).imp_left And.left

theorem operatorOf_unary {offset : Offset} {ty : Ty} {operator : Operator} {operand : Expr}
    (stands : operand.StandsOn operator) (legible : operand.Legible) (rest : List Char) :
    operatorOf ((Expr.unary offset ty operator operand).chars ++ rest) = operator := by
  rw [chars_unary, ← operandChars]
  cases operator with
  | minus =>
      obtain ⟨word, tail, form, _, _, name⟩ := exists_operandWord legible
      have notSign : ∀ c ∈ (operand.operandChars ++ rest).head?, c ≠ '-' := by
        rw [form]
        rcases name stands.1 stands.2 with ⟨rfl, opens⟩ | ⟨identifier, _⟩
        · rw [List.nil_append, List.head?_append, opens]
          rintro c member rfl
          cases member
        · obtain ⟨first, after, rfl, start⟩ := isIdentifier_leads identifier
          rintro c member rfl
          cases member
          exact absurd start (by decide)
      change operatorOf ('-' :: (operand.operandChars ++ rest)) = .minus
      cases below : operand.operandChars ++ rest with
      | nil => rfl
      | cons first after =>
          rw [below] at notSign
          unfold operatorOf
          split <;> simp_all
  | logicalNot | bitwiseNot | increment | decrement => rfl
  | _ => cases stands

theorem kindOf_chars {expr : Expr} (legible : expr.Every Legible) {rest : List Char}
    (closes : Closes rest) : kindOf (expr.chars ++ rest) = expr.kind := by
  cases isUnary : expr.isUnary with
  | false =>
      obtain ⟨word, tail, leads⟩ := exists_leadingWord legible.root isUnary
      exact leads.kindOf_eq closes
  | true =>
      cases expr with
      | unary offset ty operator operand =>
          obtain ⟨⟨sound, _⟩, below⟩ := every_unary.mp legible
          obtain ⟨word, tail, form, isWord, marks, kind⟩ := exists_unaryWord sound.2 below.root
          have stops := (marks rest closes).stops
          rw [form, List.append_assoc, kindOf, takeWhile_word isWord stops, kind]
          rfl
      | int | float | bool | construct | reference => cases isUnary

theorem exists_firstWord {expr : Expr} (legible : expr.Every Legible) :
    ∃ word tail, expr.chars = word ++ tail ∧ word ≠ [] ∧ IsWord word ∧
      ∀ rest, Closes rest → Marks (tail ++ rest) := by
  cases isUnary : expr.isUnary with
  | false =>
      obtain ⟨word, tail, leads⟩ := exists_leadingWord legible.root isUnary
      exact ⟨word, tail, leads.chars_eq, leads.nonempty, leads.isWord, fun _ => leads.marks_tail⟩
  | true =>
      cases expr with
      | unary offset ty operator operand =>
          obtain ⟨⟨sound, _⟩, below⟩ := every_unary.mp legible
          obtain ⟨word, tail, form, isWord, marks, kind⟩ := exists_unaryWord sound.2 below.root
          have nonempty : word ≠ [] := by
            rintro rfl
            cases kind
          exact ⟨word, tail, form, nonempty, isWord, marks⟩
      | int | float | bool | construct | reference => cases isUnary

/-- No text starts with a mark. -/
theorem chars_append_ne {expr : Expr} (legible : expr.Every Legible) {mark : Char}
    (notWordChar : isWordChar mark = false) {rest after : List Char} :
    expr.chars ++ rest ≠ mark :: after := by
  obtain ⟨word, tail, form, nonempty, isWord, _⟩ := exists_firstWord legible
  obtain ⟨first, word, rfl⟩ := List.exists_cons_of_ne_nil nonempty
  rw [form]
  rintro ⟨⟩
  have isWordChar := isWord mark (by simp)
  exact absurd isWordChar (by simp [notWordChar])

/-! ## Reading back -/

/-- Whatever comes after it, the text of the expression is not the start of another's. -/
def Reads (first : Expr) : Prop :=
  ∀ ⦃second : Expr⦄ ⦃rest otherRest : List Char⦄, second.Every Legible → Closes rest →
    Closes otherRest → first.chars ++ rest = second.chars ++ otherRest →
    first.skeleton = second.skeleton ∧ rest = otherRest

/-- One word tells two expressions of a kind apart, if they have no parts. -/
theorem skeleton_of_word {first second : Expr} (sameKind : first.kind = second.kind)
    (notConstructor : first.kind ≠ .constructor) (notUnary : first.kind ≠ .unary)
    (same : first.text = second.text) : first.skeleton = second.skeleton := by
  cases first with
  | int offset ty value =>
      cases second with
      | int otherOffset otherTy other =>
          have sameValue : value = other := Int64.toInt_inj.mp (eq_of_toString_int same)
          rw [skeleton, skeleton, sameValue]
      | _ => cases sameKind
  | float offset ty value =>
      cases second with
      | float otherOffset otherTy other =>
          have sameText : value.text .literal = other.text .literal := same
          have sameNaN := Binary64.isNaN_eq_of_text sameText
          rw [skeleton, skeleton, sameNaN]
          cases isNaN : other.isNaN with
          | true => rfl
          | false => rw [Binary64.eq_of_text (sameNaN.trans isNaN) isNaN sameText]
      | _ => cases sameKind
  | bool offset ty value =>
      cases second with
      | bool otherOffset otherTy other =>
          have sameValue : value = other := by
            rw [text, text] at same
            revert same
            cases value <;> cases other <;> decide
          rw [skeleton, skeleton, sameValue]
      | _ => cases sameKind
  | construct => exact absurd rfl notConstructor
  | unary => exact absurd rfl notUnary
  | reference =>
      cases second with
      | reference => exact congrArg Skeleton.reference same
      | _ => cases sameKind

theorem isWord_chars {expr : Expr} (legible : expr.Legible)
    (notConstructor : expr.kind ≠ .constructor) (notUnary : expr.kind ≠ .unary) :
    IsWord expr.chars := by
  cases expr with
  | int => exact isWord_toString_int _
  | float => exact Binary64.isWord_text _ _
  | bool => exact isWord_bool _
  | construct => exact absurd rfl notConstructor
  | unary => exact absurd rfl notUnary
  | reference => exact isWord_of_isIdentifier legible.2.1

theorem reads_word {expr : Expr} (legible : expr.Every Legible)
    (notConstructor : expr.kind ≠ .constructor) (notUnary : expr.kind ≠ .unary) : expr.Reads := by
  intro other rest otherRest otherLegible closes otherCloses same
  have sameKind : expr.kind = other.kind := by
    rw [← kindOf_chars legible closes, same, kindOf_chars otherLegible otherCloses]
  have isWord := isWord_chars legible.root notConstructor notUnary
  have isOtherWord := isWord_chars otherLegible.root (sameKind ▸ notConstructor)
    (sameKind ▸ notUnary)
  obtain ⟨sameWord, sameRest⟩ := eq_of_word_append isWord isOtherWord closes.marks.stops
    otherCloses.marks.stops same
  have sameText : expr.text = other.text := String.toList_inj.mp sameWord
  exact ⟨skeleton_of_word sameKind notConstructor notUnary sameText, sameRest⟩

/-! Arguments are told apart by the mark that comes after each of them. -/

theorem closes_arguments (arguments : List Expr) (rest : List Char) :
    Closes ((arguments.flatMap fun next => ',' :: ' ' :: next.chars) ++ ')' :: rest) := by
  cases arguments with
  | nil => exact closes_mark (by simp) rest
  | cons => exact closes_mark (by simp) _

theorem skeletons_eq_of_flatMap {arguments others : List Expr} {rest otherRest : List Char}
    (otherLegible : ∀ other ∈ others, other.Every Legible)
    (read : ∀ argument ∈ arguments, argument.Reads)
    (same : (arguments.flatMap fun next => ',' :: ' ' :: next.chars) ++ ')' :: rest =
      (others.flatMap fun next => ',' :: ' ' :: next.chars) ++ ')' :: otherRest) :
    skeletons arguments = skeletons others ∧ rest = otherRest := by
  induction arguments generalizing others with
  | nil =>
      cases others with
      | nil => exact ⟨rfl, List.tail_eq_of_cons_eq same⟩
      | cons => cases same
  | cons argument arguments ih =>
      cases others with
      | nil => cases same
      | cons other others =>
          simp only [List.flatMap_cons, List.cons_append, List.append_assoc, List.cons.injEq,
            true_and] at same
          obtain ⟨sameArgument, sameTail⟩ := read argument (by simp) (otherLegible other (by simp))
            (closes_arguments arguments rest) (closes_arguments others otherRest) same
          obtain ⟨sameArguments, sameRest⟩ := ih
            (fun other member => otherLegible other (List.mem_cons_of_mem _ member))
            (fun argument member => read argument (List.mem_cons_of_mem _ member)) sameTail
          rw [skeletons, skeletons, sameArgument, sameArguments]
          exact ⟨rfl, sameRest⟩

theorem skeletons_eq_of_argumentsChars {arguments others : List Expr} {rest otherRest : List Char}
    (legible : ∀ argument ∈ arguments, argument.Every Legible)
    (otherLegible : ∀ other ∈ others, other.Every Legible)
    (read : ∀ argument ∈ arguments, argument.Reads)
    (same : argumentsChars arguments ++ ')' :: rest = argumentsChars others ++ ')' :: otherRest) :
    skeletons arguments = skeletons others ∧ rest = otherRest := by
  cases arguments with
  | nil =>
      cases others with
      | nil => exact ⟨rfl, List.tail_eq_of_cons_eq same⟩
      | cons other others =>
          rw [argumentsChars_cons, List.append_assoc] at same
          exact absurd same.symm (chars_append_ne (otherLegible other (by simp)) rfl)
  | cons argument arguments =>
      cases others with
      | nil =>
          rw [argumentsChars_cons, List.append_assoc] at same
          exact absurd same (chars_append_ne (legible argument (by simp)) rfl)
      | cons other others =>
          refine skeletons_eq_of_flatMap otherLegible read ?_
          rw [argumentsChars_cons, argumentsChars_cons] at same
          simpa using same

/-- Parentheses stand around an operand exactly if it is written with an operator. -/
theorem Reads.operand {first second : Expr} {rest otherRest : List Char} (read : first.Reads)
    (legible : first.Every Legible) (otherLegible : second.Every Legible) (closes : Closes rest)
    (otherCloses : Closes otherRest)
    (same : first.operandChars ++ rest = second.operandChars ++ otherRest) :
    first.skeleton = second.skeleton ∧ rest = otherRest := by
  unfold operandChars at same
  cases isUnary : first.isUnary <;> cases otherUnary : second.isUnary <;>
    simp only [isUnary, otherUnary, Bool.false_eq_true, if_true, if_false, List.cons_append,
      List.append_assoc, List.nil_append] at same
  · exact read otherLegible closes otherCloses same
  · exact absurd same (chars_append_ne legible rfl)
  · exact absurd same.symm (chars_append_ne otherLegible rfl)
  · obtain ⟨sameOperand, sameRest⟩ := read otherLegible (closes_mark (by simp) rest)
      (closes_mark (by simp) otherRest) (List.tail_eq_of_cons_eq same)
    exact ⟨sameOperand, List.tail_eq_of_cons_eq sameRest⟩

theorem reads_construct {offset : Offset} {ty : Ty} {arguments : List Expr}
    (legible : (Expr.construct offset ty arguments).Every Legible)
    (read : ∀ argument ∈ arguments, argument.Reads) :
    (Expr.construct offset ty arguments).Reads := by
  intro second rest otherRest otherLegible closes otherCloses same
  have sameKind := kindOf_chars otherLegible otherCloses
  rw [← same, kindOf_chars legible closes] at sameKind
  cases second with
  | construct otherOffset otherTy others =>
      have isWord (ty : Ty) : IsWord ty.displayName.toList :=
        isWord_of_isIdentifier (isFreeName_displayName ty).1
      simp only [chars_construct, List.append_assoc, List.cons_append, List.nil_append] at same
      obtain ⟨sameName, sameTail⟩ := eq_of_word_append (isWord ty) (isWord otherTy)
        (by rintro _ ⟨⟩; rfl) (by rintro _ ⟨⟩; rfl) same
      obtain ⟨sameArguments, sameRest⟩ := skeletons_eq_of_argumentsChars
        (every_construct.mp legible).2 (every_construct.mp otherLegible).2 read
        (List.cons_inj_right _ |>.mp sameTail)
      rw [skeleton, skeleton, String.toList_inj.mp sameName, sameArguments]
      exact ⟨rfl, sameRest⟩
  | _ => cases sameKind

theorem reads_unary {offset : Offset} {ty : Ty} {operator : Operator} {operand : Expr}
    (legible : (Expr.unary offset ty operator operand).Every Legible) (read : operand.Reads) :
    (Expr.unary offset ty operator operand).Reads := by
  intro second rest otherRest otherLegible closes otherCloses same
  have sameKind := kindOf_chars otherLegible otherCloses
  rw [← same, kindOf_chars legible closes] at sameKind
  cases second with
  | unary otherOffset otherTy otherOperator other =>
      obtain ⟨⟨sound, _⟩, below⟩ := every_unary.mp legible
      obtain ⟨⟨otherSound, _⟩, otherBelow⟩ := every_unary.mp otherLegible
      have sameOperator : operatorOf ((Expr.unary offset ty operator operand).chars ++ rest) =
          operator := operatorOf_unary sound.2 below.root rest
      rw [same, operatorOf_unary otherSound.2 otherBelow.root] at sameOperator
      subst sameOperator
      rw [chars_unary, chars_unary, ← operandChars, ← operandChars, List.append_assoc,
        List.append_assoc, List.append_cancel_left_eq] at same
      obtain ⟨sameOperand, sameRest⟩ := read.operand below otherBelow closes otherCloses same
      rw [skeleton, skeleton, sameOperand]
      exact ⟨rfl, sameRest⟩
  | _ => cases sameKind

/-- The text of an expression can be read in one way. -/
theorem reads {expr : Expr} (legible : expr.Every Legible) : expr.Reads := by
  induction expr with
  | construct offset ty arguments ih =>
      have below := (every_construct.mp legible).2
      exact reads_construct legible
        fun argument member => ih argument member (below argument member)
  | unary offset ty operator operand ih =>
      exact reads_unary legible (ih (every_unary.mp legible).2)
  | int | float | bool | reference => exact reads_word legible nofun nofun

/-! ## What a text shows -/

theorem isUnary_of_skeleton {first second : Expr} (same : first.skeleton = second.skeleton) :
    first.isUnary = second.isUnary := by
  cases first <;> cases second <;> first | rfl | cases same

theorem argumentsText_of_skeletons {arguments others : List Expr}
    (text_eq : ∀ argument ∈ arguments, ∀ {other : Expr}, argument.skeleton = other.skeleton →
      argument.text = other.text)
    (same : skeletons arguments = skeletons others) :
    argumentsText arguments = argumentsText others := by
  induction arguments generalizing others with
  | nil =>
      cases others with
      | nil => rfl
      | cons => cases same
  | cons argument arguments ih =>
      cases others with
      | nil => cases same
      | cons other others =>
          obtain ⟨sameFirst, sameRest⟩ := List.cons.inj same
          have firstText := text_eq argument (by simp) sameFirst
          have restText := ih (fun argument member => text_eq argument (by simp [member])) sameRest
          cases arguments <;> cases others
          · rw [argumentsText, argumentsText, firstText]
          · cases sameRest
          · cases sameRest
          · simp only [argumentsText, firstText, restText]

theorem text_of_skeleton {first second : Expr} (same : first.skeleton = second.skeleton) :
    first.text = second.text := by
  induction first generalizing second with
  | int offset ty value =>
      cases second with
      | int => rw [text, text, Skeleton.int.inj same]
      | _ => cases same
  | float offset ty value =>
      cases second with
      | float otherOffset otherTy other =>
          have sameValue := Skeleton.float.inj same
          rw [text, text]
          cases isNaN : value.isNaN <;> cases otherNaN : other.isNaN <;>
            simp only [isNaN, otherNaN, Bool.false_eq_true, if_true, if_false, reduceCtorEq,
              Option.some.injEq] at sameValue
          · rw [sameValue]
          · rw [Binary64.text, if_pos isNaN, Binary64.text, if_pos otherNaN]
      | _ => cases same
  | bool offset ty value =>
      cases second with
      | bool => rw [text, text, Skeleton.bool.inj same]
      | _ => cases same
  | construct offset ty arguments ih =>
      cases second with
      | construct otherOffset otherTy others =>
          obtain ⟨sameName, sameArguments⟩ := Skeleton.construct.inj same
          rw [text, text, sameName, argumentsText_of_skeletons ih sameArguments]
      | _ => cases same
  | unary offset ty operator operand ih =>
      cases second with
      | unary otherOffset otherTy otherOperator other =>
          obtain ⟨sameOperator, sameOperand⟩ := Skeleton.unary.inj same
          rw [text, text, sameOperator, isUnary_of_skeleton sameOperand, ih sameOperand]
      | _ => cases same
  | reference offset ty var access =>
      cases second with
      | reference => rw [text, text, Skeleton.reference.inj same]
      | _ => cases same

/-- Two texts that are the same were read from expressions that differ only in what no text
shows. -/
theorem skeleton_of_text {first second : Expr} (legible : first.Every Legible)
    (otherLegible : second.Every Legible) (same : first.text = second.text) :
    first.skeleton = second.skeleton := by
  have ended : Closes [] := fun _ absent => nomatch absent
  have sameChars : first.chars ++ [] = second.chars ++ [] :=
    congrArg (·.toList ++ []) same
  exact (reads legible otherLegible ended ended sameChars).1

end Expr

/-- The text of an expression is unambiguous: it shows the whole tree, but for what the skeleton
leaves out. -/
theorem Obtainable.same_expression_text_iff {first second : Expr}
    (obtained : Obtainable (.expr first)) (otherObtained : Obtainable (.expr second))
    (named : first.Every Expr.Named) (otherNamed : second.Every Expr.Named) :
    first.text = second.text ↔ first.skeleton = second.skeleton := by
  have legible : first.Every Expr.Legible := fun node member =>
    ⟨obtained.artifact_sound node member, named node member⟩
  have otherLegible : second.Every Expr.Legible := fun node member =>
    ⟨otherObtained.artifact_sound node member, otherNamed node member⟩
  exact ⟨Expr.skeleton_of_text legible otherLegible, Expr.text_of_skeleton⟩

/-- Two values that are not a number, each beside a sign before a step back. The constructors have
different types, and so have the variables called `x`. -/
theorem Obtainable.same_expression_text_iff_sign_and_step :
    let x (identity : Nat) (ty : Ty) : Variable := ⟨identity, "x", ty, ⟨false, false⟩⟩
    let back (var : Variable) : Expr :=
      .unary 5 var.ty .decrement (.reference 5 var.ty var .readWrite)
    let first : Expr := .construct 1 .float
      [.float 3 .float ⟨0x7FF0000000000001⟩, .unary 5 .int .minus (back (x 0 .int))]
    let second : Expr := .construct 2 (.literal .float)
      [.float 4 .float ⟨0xFFF8000000000000⟩,
        .unary 5 (.scalar .half) .minus (back (x 7 (.scalar .half)))]
    Obtainable (.expr first) ∧ Obtainable (.expr second) ∧ first.Every Expr.Named ∧
      second.Every Expr.Named ∧ first.text = "float(NaN, -(--x))" ∧
      (first.text = second.text ↔ first.skeleton = second.skeleton) := by
  intro x back first second
  have stepped : Obtainable (.expr (back (x 0 .int))) :=
    @Obtainable.buildUnary _ _ {} {} .decrement (.referTo 5 (x 0 .int) .read) rfl
  have otherStepped : Obtainable (.expr (back (x 7 (.scalar .half)))) :=
    @Obtainable.buildUnary _ _ {} {} .decrement (.referTo 5 (x 7 (.scalar .half)) .read) rfl
  have obtained : Obtainable (.expr first) := by
    apply Obtainable.construct
    intro argument member
    fin_cases member
    · exact .float ..
    · exact .negate {} stepped
  have otherObtained : Obtainable (.expr second) := by
    apply Obtainable.construct
    intro argument member
    fin_cases member
    · exact .float ..
    · exact .negate {} otherStepped
  have free : IsFreeName "x" := by
    unfold IsFreeName
    decide
  have named : first.Every Expr.Named := by
    simp [first, back, x, Expr.Named, free]
  have otherNamed : second.Every Expr.Named := by
    simp [second, back, x, Expr.Named, free]
  exact ⟨obtained, otherObtained, named, otherNamed, by decide,
    Obtainable.same_expression_text_iff obtained otherObtained named otherNamed⟩

end ShaderIR
