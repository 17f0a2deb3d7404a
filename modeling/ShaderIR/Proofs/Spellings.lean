import Mathlib.Data.List.Nodup
import ShaderIR.Proofs.JsonSkipping
import ShaderIR.Settings.Load

/-!
The many ways to write down the same settings. Known members may come in any order, among unknown
ones with any values, and a kind has two forms; the fields given decide what is loaded. The values
of the first fields may also stand in an array.
-/

namespace ShaderIR

namespace Settings

open Json (Blank Item Member Written meaning? skipSpace)

/-- A value for a field. -/
inductive Assignment where
  | optimize (value : Bool)
  | enforceRestrictions (value : Bool)
  | kind (value : ProgramKind)
deriving DecidableEq

def Assignment.field : Assignment → Field
  | .optimize _ => .optimize
  | .enforceRestrictions _ => .enforceRestrictions
  | .kind _ => .kind

namespace Draft

def assign (draft : Draft) : Assignment → Draft
  | .optimize value => { draft with optimize := some value }
  | .enforceRestrictions value => { draft with enforceRestrictions := some value }
  | .kind value => { draft with kind := some value }

/-- The fields that are given, in the order of an array. -/
def assignments (draft : Draft) : List Assignment :=
  (draft.optimize.map .optimize).toList ++
    ((draft.enforceRestrictions.map .enforceRestrictions).toList ++
      (draft.kind.map .kind).toList)

end Draft

/-- How the value of a field may be written. A kind is its name, or an object with that name as its
only key and nothing as the value. -/
inductive Writes : Written → Assignment → Prop where
  | optimize (value : Bool) : Writes (.bool value) (.optimize value)
  | enforceRestrictions (value : Bool) : Writes (.bool value) (.enforceRestrictions value)
  | kindName {pieces : List Json.Piece} {kind : ProgramKind}
      (named : meaning? pieces = some kind.name) : Writes (.string pieces) (.kind kind)
  | kindObject {blank : Blank} {member : Member Written} {kind : ProgramKind}
      (named : meaning? member.name = some kind.name) (nothing : member.item.value = .null) :
      Writes (.object blank [member]) (.kind kind)

/-- The members of an object set fields, one after the other. A member with another name sets none,
whatever its value is. -/
inductive Lists : List (Member Written) → List Assignment → Prop where
  | nil : Lists [] []
  | known {member : Member Written} {members : List (Member Written)} {assignment : Assignment}
      {assignments : List Assignment} (named : meaning? member.name = some assignment.field.name)
      (writes : Writes member.item.value assignment) (lists : Lists members assignments) :
      Lists (member :: members) (assignment :: assignments)
  | unknown {member : Member Written} {members : List (Member Written)}
      {assignments : List Assignment}
      (other : ∀ field : Field, meaning? member.name ≠ some field.name)
      (lists : Lists members assignments) : Lists (member :: members) assignments

@[simp]
theorem liftM_flaw_ok {α : Type} (value : α) :
    (liftM (.ok value : Except Json.Flaw α) : Except LoadError α) = .ok value :=
  rfl

@[simp]
theorem liftM_mismatch_ok {α : Type} (value : α) :
    (liftM (.ok value : Except Mismatch α) : Except LoadError α) = .ok value :=
  rfl

/-! ## Names -/

theorem ofName?_name (field : Field) : Field.ofName? field.name = some field := by
  cases field <;> decide

theorem name_injective {first second : Field} (same : first.name = second.name) :
    first = second := by
  rw [← Option.some_inj, ← ofName?_name, ← ofName?_name, same]

theorem ofName?_of_ne {name : String} (other : ∀ field : Field, name ≠ field.name) :
    Field.ofName? name = none := by
  rw [Field.ofName?, List.find?_eq_none]
  intro field _ same
  exact other field (beq_iff_eq.mp same).symm

theorem kindOfName_name (kind : ProgramKind) : kindOfName kind.name = .ok kind := by
  cases kind <;> decide

/-! ## Values -/

variable {draft : Draft} {assignment : Assignment} {assignments : List Assignment}
  {rest : List Char}

theorem readBool_bool (before : Blank) (value : Bool) :
    readBool (before.chars ++ ((Written.bool value).chars ++ rest)) = .ok (value, rest) := by
  rw [readBool, Json.skipSpace_blank]
  cases value <;> rfl

theorem readNothing_item {item : Item Written} (holds : item.value = .null) :
    readNothing (item.chars ++ rest) = .ok (item.after.chars ++ rest) := by
  rw [Item.chars, holds, List.append_assoc, List.append_assoc, readNothing, Json.skipSpace_blank]
  rfl

theorem readKindName_spelled {pieces : List Json.Piece} {kind : ProgramKind}
    (named : meaning? pieces = some kind.name) :
    readKindName (Json.spelled pieces ++ '"' :: rest) = .ok (kind, rest) := by
  rw [readKindName, Json.readString_spelled named]
  simp only [liftM_flaw_ok, liftM_mismatch_ok, bind, Except.bind, kindOfName_name]
  rfl

theorem readKind_string {before : Blank} {pieces : List Json.Piece} {kind : ProgramKind}
    (named : meaning? pieces = some kind.name) :
    readKind (before.chars ++ ((Written.string pieces).chars ++ rest)) = .ok (kind, rest) := by
  rw [readKind, Json.skipSpace_blank, Written.chars, List.cons_append, List.append_assoc]
  exact readKindName_spelled named

theorem readKind_object {before blank : Blank} {member : Member Written} {kind : ProgramKind}
    (named : meaning? member.name = some kind.name) (nothing : member.item.value = .null) :
    readKind (before.chars ++ ((Written.object blank [member]).chars ++ rest)) =
      .ok (kind, rest) := by
  rw [readKind, Json.skipSpace_blank, Written.chars, Json.memberChars_eq_map, List.map_singleton,
    List.intercalate_singleton, Member.chars, Member.tailChars]
  simp (disch := decide) only [List.cons_append, List.append_assoc, List.nil_append,
    Json.skipSpace_of_not_isSpace, Json.expectMark_blank_append _ blank, Json.expectMark_blank,
    readKindName_spelled named, readNothing_item nothing, liftM_flaw_ok, bind, Except.bind]
  rfl

/-- The value of a field is read to its last character and sets the field. -/
theorem readField_item {item : Item Written} (writes : Writes item.value assignment) :
    readField draft assignment.field (item.chars ++ rest) =
      .ok (draft.assign assignment, item.after.chars ++ rest) := by
  obtain ⟨before, value, after⟩ := item
  change Writes value assignment at writes
  rw [Item.chars, List.append_assoc, List.append_assoc]
  cases writes with
  | optimize value | enforceRestrictions value =>
      simp only [Assignment.field, readField, readBool_bool, bind, Except.bind]
      rfl
  | kindName named =>
      simp only [Assignment.field, readField, readKind_string named, bind, Except.bind]
      rfl
  | kindObject named nothing =>
      simp only [Assignment.field, readField, readKind_object named nothing, bind, Except.bind]
      rfl

/-! ## Members -/

/-- Reading a member turns one draft into another and stops behind the value. -/
def Reads (draft : Draft) (member : Member Written) (result : Draft) : Prop :=
  ∀ rest, Json.EndsNumber rest →
    readMember draft (member.tailChars ++ rest) = .ok (result, member.item.after.chars ++ rest)

theorem reads_known {member : Member Written}
    (named : meaning? member.name = some assignment.field.name)
    (writes : Writes member.item.value assignment) (absent : draft.has assignment.field = false) :
    Reads draft member (draft.assign assignment) := by
  intro rest _
  rw [readMember, Member.tailChars, List.append_assoc, List.cons_append,
    Json.readString_spelled named]
  simp (disch := decide) only [liftM_flaw_ok, bind, Except.bind, ofName?_name, absent,
    List.append_assoc, List.cons_append, Json.expectMark_blank]
  exact readField_item writes

theorem reads_unknown {member : Member Written} (readable : member.isReadable = true)
    (other : ∀ field : Field, meaning? member.name ≠ some field.name) :
    Reads draft member draft := by
  intro rest ends
  obtain ⟨name, named⟩ := Option.isSome_iff_exists.mp readable
  have unknown : Field.ofName? name = none :=
    ofName?_of_ne fun field same => other field (same ▸ named)
  rw [readMember, Member.tailChars, List.append_assoc, List.cons_append,
    Json.readString_spelled named]
  simp (disch := decide) only [liftM_flaw_ok, bind, Except.bind, unknown, List.append_assoc,
    List.cons_append, Json.expectMark_blank, Json.skipValue_item member.item ends]
  rfl

theorem readMember_unreadable {member : Member Written} (unreadable : member.isReadable = false)
    (rest : List Char) :
    readMember draft (member.tailChars ++ rest) = .error (.flaw .malformed) := by
  have unnamed : meaning? member.name = none :=
    Option.isNone_iff_eq_none.mp (Option.isSome_eq_false_iff.mp unreadable)
  rw [readMember, Member.tailChars, List.append_assoc, List.cons_append,
    Json.readString_unpaired unnamed]
  rfl

/-- The value of a field that is given again is not looked at. -/
theorem readMember_repeated {member : Member Written} {field : Field}
    (named : meaning? member.name = some field.name) (present : draft.has field = true)
    (rest : List Char) :
    readMember draft (member.tailChars ++ rest) = .error (.mismatch (.repeatedField field)) := by
  rw [readMember, Member.tailChars, List.append_assoc, List.cons_append,
    Json.readString_spelled named]
  simp only [liftM_flaw_ok, bind, Except.bind, ofName?_name, present, if_true]
  rfl

/-- The members of an object from behind the opening quote of the first name. -/
def tailsChars : List (Member Written) → List Char
  | [] => []
  | member :: members => member.tailChars ++ (members.map Member.chars).flatMap (',' :: ·)

theorem intercalate_members (member : Member Written) (members : List (Member Written)) :
    [','].intercalate ((member :: members).map Member.chars) =
      member.before.chars ++ '"' :: tailsChars (member :: members) := by
  rw [List.map_cons, Json.intercalate_comma, Member.chars, List.append_assoc]
  rfl

theorem length_le_tailsChars (members : List (Member Written)) :
    members.length ≤ (tailsChars members).length := by
  cases members with
  | nil => exact Nat.le_refl 0
  | cons member members =>
      have others : members.length ≤ ((members.map Member.chars).flatMap (',' :: ·)).length := by
        induction members with
        | nil => exact Nat.le_refl 0
        | cons next members ih =>
            simp only [List.map_cons, List.flatMap_cons, List.length_append, List.length_cons]
            omega
      simp only [tailsChars, Member.tailChars, List.length_append, List.length_cons]
      omega

variable {member : Member Written} {result : Draft}

/-- One member is read, and there are more. -/
theorem readMembersWithin_more (reads : Reads draft member result) (count : Nat)
    {later : List (Member Written)} (more : later ≠ []) (rest : List Char) :
    readMembersWithin (count + 1) draft (tailsChars (member :: later) ++ rest) =
      readMembersWithin count result (tailsChars later ++ rest) := by
  obtain ⟨next, later, rfl⟩ := List.exists_cons_of_ne_nil more
  have following : tailsChars (member :: next :: later) ++ rest = member.tailChars ++
      ',' :: (next.before.chars ++ '"' :: (tailsChars (next :: later) ++ rest)) := by
    simp [tailsChars, Member.chars]
  rw [following, readMembersWithin, reads _ (Json.endsNumber_cons (by simp) _)]
  simp (disch := decide) only [bind, Except.bind, Json.skipSpace_blank,
    Json.skipSpace_of_not_isSpace, Json.expectMark_blank, liftM_flaw_ok]

theorem readMembersWithin_last (reads : Reads draft member result) (count : Nat)
    (rest : List Char) :
    readMembersWithin (count + 1) draft (tailsChars [member] ++ '\x7d' :: rest) =
      .ok (result, rest) := by
  have following : tailsChars [member] ++ '\x7d' :: rest = member.tailChars ++ '\x7d' :: rest := by
    simp [tailsChars]
  rw [following, readMembersWithin, reads _ (Json.endsNumber_cons (by simp) _)]
  simp (disch := decide) only [bind, Except.bind, Json.skipSpace_blank,
    Json.skipSpace_of_not_isSpace]
  rfl

theorem readMembersWithin_stop {error : LoadError}
    (stops : ∀ rest, readMember draft (member.tailChars ++ rest) = .error error) (count : Nat)
    (later : List (Member Written)) (rest : List Char) :
    readMembersWithin (count + 1) draft (tailsChars (member :: later) ++ rest) = .error error := by
  rw [tailsChars, List.append_assoc, readMembersWithin, stops]
  rfl

/-! ## Fields given once -/

/-- Fields that a draft does not have yet, each given once. -/
structure Fresh (draft : Draft) (assignments : List Assignment) : Prop where
  distinct : (assignments.map Assignment.field).Nodup
  absent : ∀ assignment ∈ assignments, draft.has assignment.field = false

theorem has_assign (draft : Draft) (assignment : Assignment) (field : Field) :
    (draft.assign assignment).has field =
      (draft.has field || decide (assignment.field = field)) := by
  cases assignment <;> cases field <;> simp [Draft.assign, Draft.has, Assignment.field]

theorem has_foldl_assign (draft : Draft) (assignments : List Assignment) (field : Field) :
    (assignments.foldl Draft.assign draft).has field =
      (draft.has field || assignments.any fun assignment => assignment.field = field) := by
  induction assignments generalizing draft with
  | nil => simp
  | cons assignment assignments ih =>
      rw [List.foldl_cons, ih, has_assign, List.any_cons, Bool.or_assoc]

theorem Fresh.earlier {later : List Assignment} (fresh : Fresh draft (assignments ++ later)) :
    Fresh draft assignments := by
  obtain ⟨distinct, absent⟩ := fresh
  rw [List.map_append] at distinct
  exact ⟨distinct.of_append_left,
    fun assignment inside => absent assignment (List.mem_append_left _ inside)⟩

/-- What is still to be given stays fresh while the fields before it are given. -/
theorem Fresh.later {later : List Assignment} (fresh : Fresh draft (assignments ++ later)) :
    Fresh (assignments.foldl Draft.assign draft) later := by
  obtain ⟨distinct, absent⟩ := fresh
  rw [List.map_append] at distinct
  refine ⟨distinct.of_append_right, fun assignment inside => ?_⟩
  rw [has_foldl_assign, absent assignment (List.mem_append_right _ inside), Bool.false_or,
    List.any_eq_false]
  intro other before same
  rw [decide_eq_true_eq] at same
  exact List.disjoint_of_nodup_append distinct (List.mem_map_of_mem before)
    (same ▸ List.mem_map_of_mem inside)

theorem assign_comm {first second : Assignment} (different : first.field ≠ second.field)
    (draft : Draft) :
    (draft.assign first).assign second = (draft.assign second).assign first := by
  cases first <;> cases second <;> first | rfl | exact absurd rfl different

/-- The order in which fields are given does not matter. -/
theorem foldl_assign_perm {others : List Assignment} (same : assignments.Perm others)
    (distinct : (assignments.map Assignment.field).Nodup) (draft : Draft) :
    assignments.foldl Draft.assign draft = others.foldl Draft.assign draft := by
  refine same.foldl_eq' (fun first inside second inside' draft => ?_) draft
  by_cases field : first.field = second.field
  · rw [List.inj_on_of_nodup_map distinct inside inside' field]
  · exact assign_comm field draft

theorem foldl_assignments (given : Draft) : given.assignments.foldl Draft.assign {} = given := by
  obtain ⟨optimize, enforceRestrictions, kind⟩ := given
  cases optimize <;> cases enforceRestrictions <;> cases kind <;> rfl

theorem nodup_assignments (given : Draft) : (given.assignments.map Assignment.field).Nodup := by
  obtain ⟨optimize, enforceRestrictions, kind⟩ := given
  cases optimize <;> cases enforceRestrictions <;> cases kind <;>
    simp [Draft.assignments, Assignment.field]

theorem fresh_of_perm {given : Draft} (exactly : assignments.Perm given.assignments) :
    Fresh {} assignments := by
  refine ⟨(exactly.map _).nodup_iff.mpr (nodup_assignments given), fun assignment _ => ?_⟩
  cases assignment <;> rfl

/-! ## Objects -/

theorem Lists.split {earlier later : List (Member Written)}
    (lists : Lists (earlier ++ later) assignments) :
    ∃ first second, assignments = first ++ second ∧ Lists earlier first ∧ Lists later second := by
  induction earlier generalizing assignments with
  | nil => exact ⟨[], assignments, rfl, .nil, lists⟩
  | cons member earlier ih =>
      cases lists with
      | known named writes lists =>
          obtain ⟨first, second, rfl, before, after⟩ := ih lists
          exact ⟨_ :: first, second, rfl, .known named writes before, after⟩
      | unknown other lists =>
          obtain ⟨first, second, rfl, before, after⟩ := ih lists
          exact ⟨first, second, rfl, .unknown other before, after⟩

theorem Lists.any_of_mem {members : List (Member Written)} (lists : Lists members assignments)
    (inside : member ∈ members) {field : Field} (named : meaning? member.name = some field.name) :
    (assignments.any fun assignment => assignment.field = field) = true := by
  induction lists with
  | nil => simp at inside
  | @known first members assignment assignments firstNamed writes lists ih =>
      rcases List.mem_cons.mp inside with rfl | inside
      · have same := name_injective (Option.some_inj.mp (firstNamed.symm.trans named))
        simp [same]
      · simp [ih inside]
  | @unknown first members assignments other lists ih =>
      rcases List.mem_cons.mp inside with rfl | inside
      · exact absurd named (other field)
      · exact ih inside

/-- A member that can be read gives the field it names, if it names one. -/
theorem Lists.reads (lists : Lists [member] assignments) (readable : member.isReadable = true)
    (fresh : Fresh draft assignments) :
    Reads draft member (assignments.foldl Draft.assign draft) := by
  cases lists with
  | known named writes ends =>
      cases ends
      exact reads_known named writes (fresh.absent _ List.mem_cons_self)
  | unknown other ends =>
      cases ends
      exact reads_unknown readable other

/-- Members that can be read are read one after the other, up to a member that follows them. -/
theorem readMembersWithin_lists {earlier : List (Member Written)}
    (lists : Lists earlier assignments) (readable : ∀ member ∈ earlier, member.isReadable = true)
    (fresh : Fresh draft assignments) (count : Nat) (next : Member Written)
    (later : List (Member Written)) (rest : List Char) :
    readMembersWithin (earlier.length + count) draft
        (tailsChars (earlier ++ next :: later) ++ rest) =
      readMembersWithin count (assignments.foldl Draft.assign draft)
        (tailsChars (next :: later) ++ rest) := by
  induction earlier generalizing draft assignments with
  | nil =>
      cases lists
      rw [List.length_nil, Nat.zero_add]
      rfl
  | cons member earlier ih =>
      -- What the first member gives is given before the rest is read, and the rest stays fresh.
      obtain ⟨first, second, rfl, single, others⟩ :=
        Lists.split (show Lists ([member] ++ earlier) assignments from lists)
      obtain ⟨head, tail⟩ := List.forall_mem_cons.mp readable
      rw [List.length_cons, Nat.add_right_comm, List.cons_append,
        readMembersWithin_more (single.reads head fresh.earlier) _ (by simp), List.foldl_append]
      exact ih others tail fresh.later

/-- An object is read up to any of its members if those before it can be read. -/
theorem readObject_up_to {earlier : List (Member Written)} (lists : Lists earlier assignments)
    (readable : ∀ member ∈ earlier, member.isReadable = true) (fresh : Fresh {} assignments)
    (blank : Blank) (next : Member Written) (later : List (Member Written)) (rest : List Char) :
    ∃ count, readObject (blank.chars ++
        ([','].intercalate ((earlier ++ next :: later).map Member.chars) ++ rest)) =
      readMembersWithin (count + 1) (assignments.foldl Draft.assign {})
        (tailsChars (next :: later) ++ rest) := by
  obtain ⟨member, members, all⟩ : ∃ member members, earlier ++ next :: later = member :: members :=
    List.exists_cons_of_ne_nil (by simp)
  have opened : readObject (blank.chars ++
        ([','].intercalate ((earlier ++ next :: later).map Member.chars) ++ rest)) =
      readMembersWithin ((tailsChars (earlier ++ next :: later) ++ rest).length + 1) {}
        (tailsChars (earlier ++ next :: later) ++ rest) := by
    rw [all, intercalate_members, readObject, Json.skipSpace_blank, List.append_assoc,
      Json.skipSpace_blank]
    rfl
  have enough : (tailsChars (earlier ++ next :: later) ++ rest).length + 1 =
      earlier.length +
        ((tailsChars (earlier ++ next :: later) ++ rest).length - earlier.length + 1) := by
    -- A member has a character at least, so the bound on their number is never reached.
    have atLeast := length_le_tailsChars (earlier ++ next :: later)
    simp only [List.length_append, List.length_cons] at atLeast ⊢
    omega
  rw [opened, enough, readMembersWithin_lists lists readable fresh]
  exact ⟨_, rfl⟩

/-! ## Texts -/

variable (before blank after : Blank) {members : List (Member Written)}

/-- An object stands for what it is read as, and only blanks may follow it. -/
theorem ofText_object {given : Draft} (read : readObject (blank.chars ++
      ([','].intercalate (members.map Member.chars) ++ '\x7d' :: after.chars)) =
        .ok (given, after.chars)) :
    ofText (⟨before, .object blank members, after⟩ : Item Written).text = .ok given.finish := by
  rw [ofText, Item.text, String.toList_ofList, Item.chars, Written.chars, Json.memberChars_eq_map,
    List.append_assoc, Json.skipSpace_blank]
  simp (disch := decide) only [List.cons_append, List.append_assoc, List.nil_append,
    Json.skipSpace_of_not_isSpace, read, bind, Except.bind, Json.skipSpace_blank_end]
  rfl

theorem ofText_object_error {error : LoadError} (read : readObject (blank.chars ++
      ([','].intercalate (members.map Member.chars) ++ '\x7d' :: after.chars)) = .error error) :
    ofText (⟨before, .object blank members, after⟩ : Item Written).text = .error error := by
  rw [ofText, Item.text, String.toList_ofList, Item.chars, Written.chars, Json.memberChars_eq_map,
    List.append_assoc, Json.skipSpace_blank]
  simp (disch := decide) only [List.cons_append, List.append_assoc, List.nil_append,
    Json.skipSpace_of_not_isSpace, read, bind, Except.bind]

/-- Members that can be read load as the fields they give, in whatever order. -/
theorem ofText_readable (lists : Lists members assignments)
    (readable : ∀ member ∈ members, member.isReadable = true) (fresh : Fresh {} assignments) :
    ofText (⟨before, .object blank members, after⟩ : Item Written).text =
      .ok (assignments.foldl Draft.assign {}).finish := by
  apply ofText_object
  rcases List.eq_nil_or_concat' members with rfl | ⟨earlier, last, rfl⟩
  · cases lists
    rw [List.map_nil, List.intercalate_nil, List.nil_append, readObject, Json.skipSpace_blank]
    rfl
  · obtain ⟨first, second, rfl, others, single⟩ := lists.split
    obtain ⟨earlierReadable, lastReadable⟩ := List.forall_mem_append.mp readable
    obtain ⟨count, read⟩ := readObject_up_to others earlierReadable fresh.earlier blank last []
      ('\x7d' :: after.chars)
    have reads := single.reads (lastReadable last List.mem_cons_self) fresh.later
    rw [read, readMembersWithin_last reads, List.foldl_append]

/-- The first member that cannot be taken ends the reading, whatever follows. -/
theorem ofText_stop {earlier : List (Member Written)} (lists : Lists earlier assignments)
    (readable : ∀ member ∈ earlier, member.isReadable = true) (fresh : Fresh {} assignments)
    {error : LoadError}
    (stops : ∀ rest, readMember (assignments.foldl Draft.assign {}) (member.tailChars ++ rest) =
      .error error)
    (later : List (Member Written)) :
    ofText (⟨before, .object blank (earlier ++ member :: later), after⟩ : Item Written).text =
      .error error := by
  obtain ⟨count, read⟩ := readObject_up_to lists readable fresh blank member later
    ('\x7d' :: after.chars)
  apply ofText_object_error
  rw [read, readMembersWithin_stop stops]

theorem exists_first_unreadable
    (unreadable : ¬ ∀ member ∈ members, member.isReadable = true) :
    ∃ earlier next later, members = earlier ++ next :: later ∧
      (∀ member ∈ earlier, member.isReadable = true) ∧ next.isReadable = false := by
  have exists_one : (members.find? fun member => !member.isReadable).isSome := by
    simpa [List.find?_isSome] using unreadable
  obtain ⟨next, found⟩ := Option.isSome_iff_exists.mp exists_one
  obtain ⟨stuck, earlier, later, all, readable⟩ := List.find?_eq_some_iff_append.mp found
  exact ⟨earlier, next, later, all, by simpa using readable, by simpa using stuck⟩

/-- A name that cannot be read ends the reading before anything that follows it. -/
theorem ofText_unreadable (lists : Lists members assignments)
    (unreadable : ¬ ∀ member ∈ members, member.isReadable = true) (fresh : Fresh {} assignments)
    (later : List (Member Written)) :
    ofText (⟨before, .object blank (members ++ later), after⟩ : Item Written).text =
      .error (.flaw .malformed) := by
  obtain ⟨earlier, next, others, rfl, readable, stuck⟩ := exists_first_unreadable unreadable
  obtain ⟨first, second, rfl, listed, -⟩ := lists.split
  rw [List.append_assoc, List.cons_append]
  exact ofText_stop before blank after listed readable fresh.earlier
    (readMember_unreadable stuck) _

/-! ## Arrays -/

theorem readField_skipSpace (draft : Draft) (field : Field) (text : List Char) :
    readField draft field (skipSpace text) = readField draft field text := by
  cases field <;> simp only [readField, readBool, readKind, Json.skipSpace_skipSpace]

theorem readValues_blank_append (isFirst : Bool) (draft : Draft) (fields : List Field)
    (blank : Blank) (text : List Char) :
    readValues isFirst draft fields (blank.chars ++ text) =
      readValues isFirst draft fields text := by
  cases fields with
  | nil => rw [readValues, readValues, Json.expectMark_blank_append]
  | cons field fields => rw [readValues, readValues, Json.skipSpace_blank]

theorem readValues_end (isFirst : Bool) (draft : Draft) (fields : List Field) (blank : Blank)
    (rest : List Char) :
    readValues isFirst draft fields (blank.chars ++ ']' :: rest) = .ok (draft, rest) := by
  rw [readValues_blank_append]
  cases fields <;> rfl

theorem readValues_first {item : Item Written} (writes : Writes item.value assignment)
    (draft : Draft) (fields : List Field) (rest : List Char) :
    readValues true draft (assignment.field :: fields) (item.chars ++ rest) =
      readValues false (draft.assign assignment) fields (item.after.chars ++ rest) := by
  obtain ⟨char, later, start, inside⟩ := Json.skipSpace_item item rest
  have read : readField draft assignment.field (char :: later) =
      .ok (draft.assign assignment, item.after.chars ++ rest) := by
    rw [← start, readField_skipSpace, readField_item writes]
  rw [readValues, start]
  simp only [read, bind, Except.bind, if_true]

theorem readValues_next {item : Item Written} (writes : Writes item.value assignment)
    (draft : Draft) (fields : List Field) (blank : Blank) (rest : List Char) :
    readValues false draft (assignment.field :: fields)
        (blank.chars ++ ',' :: (item.chars ++ rest)) =
      readValues false (draft.assign assignment) fields (item.after.chars ++ rest) := by
  obtain ⟨char, later, start, inside⟩ := Json.skipSpace_item item rest
  have comma : Json.expect [','] (',' :: (item.chars ++ rest)) = .ok (item.chars ++ rest) := by
    simp [Json.expect]
  rw [readValues_blank_append, readValues, Json.skipSpace_of_not_isSpace (by decide)]
  simp [comma, start, inside, readField_item writes, bind, Except.bind]

/-- Values by position give the fields they stand for, however many of them there are. -/
theorem readValues_false {items : List (Item Written)} {fields : List Field}
    (written : List.Forall₂ (fun item assignment => Writes item.value assignment) items assignments)
    (leading : assignments.map Assignment.field <+: fields) (draft : Draft) (blank : Blank)
    (rest : List Char) :
    readValues false draft fields
        (blank.chars ++ ((items.map Item.chars).flatMap (',' :: ·) ++ ']' :: rest)) =
      .ok (assignments.foldl Draft.assign draft, rest) := by
  induction written generalizing draft fields blank with
  | nil => exact readValues_end false draft fields blank rest
  | @cons item assignment items assignments writes written ih =>
      obtain ⟨others, rfl⟩ := leading
      simp only [List.map_cons, List.flatMap_cons, List.cons_append, List.append_assoc]
      rw [readValues_next writes]
      exact ih (List.prefix_append _ _) (draft.assign assignment) item.after

theorem ofText_array {items : List (Item Written)}
    (written : List.Forall₂ (fun item assignment => Writes item.value assignment) items assignments)
    (leading : assignments.map Assignment.field <+: [.optimize, .enforceRestrictions, .kind]) :
    ofText (⟨before, .array blank items, after⟩ : Item Written).text =
      .ok (assignments.foldl Draft.assign {}).finish := by
  have read : readValues true {} [.optimize, .enforceRestrictions, .kind] (blank.chars ++
      ([','].intercalate (items.map Item.chars) ++ ']' :: after.chars)) =
        .ok (assignments.foldl Draft.assign {}, after.chars) := by
    cases written with
    | nil => exact readValues_end true {} _ blank after.chars
    | @cons item assignment items assignments writes written =>
        obtain ⟨others, fields⟩ := leading
        rw [← fields, List.map_cons, List.cons_append, List.map_cons, Json.intercalate_comma,
          List.append_assoc, readValues_blank_append, readValues_first writes]
        exact readValues_false written (List.prefix_append _ _) _ item.after after.chars
  rw [ofText, Item.text, String.toList_ofList, Item.chars, Written.chars, Json.itemChars_eq_map,
    List.append_assoc, Json.skipSpace_blank]
  simp (disch := decide) only [List.cons_append, List.append_assoc, List.nil_append,
    Json.skipSpace_of_not_isSpace, read, bind, Except.bind, Json.skipSpace_blank_end]
  rfl

/-! ## A document -/

def noBlank : Blank :=
  ⟨[], by simp⟩

def newline : Blank :=
  ⟨['\r', '\n'], by simp⟩

def letters (chars : List Char)
    (allowed : ∀ char ∈ chars, char ≠ '"' ∧ char ≠ '\\' ∧ 0x20 ≤ char.toNat) : List Json.Piece :=
  chars.pmap .plain allowed

/-- Half of a character beyond sixteen bits. -/
def highSurrogate : Json.CodeUnit :=
  ⟨⟨13, false⟩, ⟨8, false⟩, ⟨3, false⟩, ⟨13, false⟩⟩

def figureOne : Json.Figure :=
  ⟨false, ⟨['1'], by simp, by simp⟩, by simp, none, none⟩

/-- A member with the same blank wherever there can be one. -/
def memberWith (blank : Blank) (name : List Json.Piece) (value : Written) : Member Written :=
  ⟨blank, name, blank, ⟨blank, value, blank⟩⟩

/-- The first letter of the name is written as a code unit. -/
def optimizeOff : Member Written :=
  memberWith newline
    (.unit ⟨⟨0, false⟩, ⟨0, false⟩, ⟨6, false⟩, ⟨15, true⟩⟩ ::
      letters ['p', 't', 'i', 'm', 'i', 'z', 'e'] (by simp)) (.bool false)

def vertexKind : Member Written :=
  memberWith noBlank (letters ['k', 'i', 'n', 'd'] (by simp))
    (.object newline
      [memberWith newline (letters ['v', 'e', 'r', 't', 'e', 'x'] (by simp)) .null])

/-- Two fields, and an unknown name twice. Inside an unknown value, half a character is a name. -/
def scattered : List (Member Written) :=
  [memberWith noBlank (letters ['k'] (by simp))
      (.object noBlank [memberWith newline [.unit highSurrogate] (.number figureOne)]),
    vertexKind, memberWith newline (letters ['k'] (by simp)) .null, optimizeOff]

theorem lists_scattered : Lists scattered [.kind .vertex, .optimize false] := by
  refine .unknown (fun field => ?_) (.known (by decide) (.kindObject (by decide) rfl)
    (.unknown (fun field => ?_) (.known (by decide) (.optimize false) .nil)))
  all_goals cases field <;> decide

/-! ## Every spelling -/

/-- The fields that the members of an object give decide what it loads as, whatever the blanks, the
order, the escapes and the other members are; what is not given has its default. An array of the
same values loads alike if the fields given are the first of the three. A field given again is
refused by its name, whatever its value is. Only a name that stands for no string is refused
earlier. -/
theorem every_spelling_loads (before blank after : Blank) {members : List (Member Written)}
    {assignments : List Assignment} (lists : Lists members assignments) {given : Draft}
    (exactly : assignments.Perm given.assignments) :
    ofText (⟨before, .object blank members, after⟩ : Item Written).text =
      (if ∀ member ∈ members, member.isReadable = true then
        .ok ⟨given.optimize.getD true, given.enforceRestrictions.getD true,
          given.kind.getD .fragment⟩
      else
        .error (.flaw .malformed)) ∧
    (∀ items, List.Forall₂ (fun item assignment => Writes item.value assignment) items
        given.assignments →
      given.assignments.map Assignment.field <+: [.optimize, .enforceRestrictions, .kind] →
      ofText (⟨before, .array blank items, after⟩ : Item Written).text =
        .ok ⟨given.optimize.getD true, given.enforceRestrictions.getD true,
          given.kind.getD .fragment⟩) ∧
    ∀ earlier later field, members = earlier ++ later →
      (∃ member ∈ earlier, meaning? member.name = some field.name) →
      ∀ again : Member Written, meaning? again.name = some field.name →
        ofText (⟨before, .object blank (earlier ++ again :: later), after⟩ : Item Written).text =
          .error (if ∀ member ∈ earlier, member.isReadable = true then
            .mismatch (.repeatedField field)
          else
            .flaw .malformed) := by
  have fresh := fresh_of_perm exactly
  have loaded : assignments.foldl Draft.assign {} = given := by
    rw [foldl_assign_perm exactly fresh.distinct, foldl_assignments]
  refine ⟨?_, fun items written leading => ?_, ?_⟩
  · split
    next readable =>
      rw [ofText_readable before blank after lists readable fresh, loaded]
      rfl
    next unreadable =>
      rw [← List.append_nil members]
      exact ofText_unreadable before blank after lists unreadable fresh []
  · rw [ofText_array before blank after written leading, foldl_assignments]
    rfl
  · rintro earlier later field rfl ⟨member, inside, named⟩ again sameName
    obtain ⟨first, second, rfl, listed, -⟩ := lists.split
    split
    next readable =>
      -- The draft has the field, since the member that gave it has been read.
      have present : (first.foldl Draft.assign {}).has field = true := by
        rw [has_foldl_assign, listed.any_of_mem inside named, Bool.or_true]
      exact ofText_stop before blank after listed readable fresh.earlier
        (readMember_repeated sameName present) later
    next unreadable =>
      exact ofText_unreadable before blank after listed unreadable fresh.earlier _

theorem every_spelling_loads_scattered :
    Lists scattered [.kind .vertex, .optimize false] ∧
    ofText (⟨noBlank, .object noBlank scattered, newline⟩ : Item Written).text =
      .ok ⟨false, true, .vertex⟩ ∧
    ofText (⟨noBlank, .object noBlank (scattered ++ [vertexKind]), newline⟩ : Item Written).text =
      .error (.mismatch (.repeatedField .kind)) ∧
    ofText (⟨noBlank, .array newline [⟨noBlank, .bool false, newline⟩], noBlank⟩ :
      Item Written).text = .ok ⟨false, true, .fragment⟩ := by
  have given : [Assignment.kind .vertex, .optimize false].Perm
      (Draft.assignments ⟨some false, none, some .vertex⟩) := by decide
  have loads := every_spelling_loads noBlank noBlank newline lists_scattered given
  have alone : Lists [optimizeOff] [.optimize false] := .known (by decide) (.optimize false) .nil
  have inArray := every_spelling_loads noBlank newline noBlank alone
    (List.Perm.refl (Draft.assignments ⟨some false, none, none⟩))
  refine ⟨lists_scattered, ?_, ?_, ?_⟩
  · rw [loads.1, if_pos (by decide)]
    rfl
  · rw [loads.2.2 scattered [] .kind (List.append_nil _).symm
      ⟨vertexKind, by simp [scattered], by decide⟩ vertexKind (by decide), if_pos (by decide)]
  · exact inArray.2.1 _ (.cons (.optimize false) .nil) (by decide)

/-- An unknown name is read all the same, and half a character is no part of a name. -/
theorem half_character_in_name :
    let members := [memberWith noBlank [.unit highSurrogate] (.number figureOne)]
    let document : Item Written := ⟨noBlank, .object noBlank members, noBlank⟩
    document.text = "\x7b\"\\ud83d\":1\x7d" ∧ Lists members [] ∧
      ofText document.text = .error (.flaw .malformed) := by
  refine ⟨by decide, .unknown (fun field => ?_) .nil, by decide⟩
  cases field <;> decide

end Settings

end ShaderIR
