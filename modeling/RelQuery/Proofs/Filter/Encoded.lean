/-
Module: RelQuery.Proofs.Filter.Encoded
Purpose: Filters written as JSON. A connective is an object with the one member AND, OR or NOT; a condition on
  a column is its operator with the operand, under the name of the column; conditions on related rows are
  their operators, under the name of the relation. Reading gives the filter back, whatever the columns and
  relations are called, unless like a connective.
Main exports: Filter.encode, Filter.Expressible, Filter.ofJson_encode
-/
import RelQuery.Filter.Json
import RelQuery.Proofs.Filter.Meaning

namespace RelQuery

open Sql

/-! ### Writing -/

/-- The operand of the operator of a condition. -/
def FieldOp.operand : FieldOp → Json
  | .compare _ value => value.toJson
  | .isIn values _ => .array (values.map Literal.toJson)
  | .holds _ text => .string text
  | .isNull flag => .bool flag

/-- The member for a flag, if there is one. -/
def flagMember (operator : String) : Option Bool → Json.Members
  | none => []
  | some flag => [(operator, .bool flag)]

mutual

/-- The filter as JSON. -/
def Filter.encode : Filter → Json
  | .all parts => .object [("AND", .array (Filter.encodeEach parts))]
  | .any parts => .object [("OR", .array (Filter.encodeEach parts))]
  | .not part => .object [("NOT", part.encode)]
  | .field column op => .object [(column, .object [(op.name, op.operand)])]
  | .relation name conditions => .object [(name, .object conditions.encode)]

/-- Filters as JSON. -/
def Filter.encodeEach : List Filter → List Json
  | [] => []
  | part :: parts => part.encode :: Filter.encodeEach parts

/-- The member for a filter on related rows, if there is one. -/
def Filter.encodeMember (operator : String) : Option Filter → Json.Members
  | none => []
  | some part => [(operator, part.encode)]

/-- The operators of conditions on related rows, with their operands. -/
def RelationFilter.encode : RelationFilter → Json.Members
  | ⟨someRow, noRow, everyRow, isEmpty, isNotEmpty⟩ =>
    Filter.encodeMember "some" someRow ++ (Filter.encodeMember "none" noRow ++
      (Filter.encodeMember "every" everyRow ++ (flagMember "isEmpty" isEmpty ++
        flagMember "isNotEmpty" isNotEmpty)))

end

/-! ### What can be written -/

/-- The literal is a JSON scalar: an integer of a signed 64-bit word, a finite number, a text, a truth value or
    null. -/
def Sql.Literal.IsJson : Literal → Prop
  | .int n => Json.minSigned ≤ n ∧ n ≤ Json.maxSigned
  | .float x => x.isFinite = true
  | .text _ | .bool _ | .null => True
  | .date _ | .timestamp _ => False

/-- All values of the condition are JSON scalars, and it does not compare for equality with null. -/
def FieldOp.Expressible : FieldOp → Prop
  | .compare operator value =>
    value.IsJson ∧ (operator = .eq ∨ operator = .ne → value ≠ .null)
  | .isIn values _ => ∀ value ∈ values, value.IsJson
  | .holds _ _ => True
  | .isNull _ => True

/-- The name is not one of a connective. -/
def IsPlainName (name : String) : Prop := name ≠ "AND" ∧ name ≠ "OR" ∧ name ≠ "NOT"

instance (name : String) : Decidable (IsPlainName name) :=
  inferInstanceAs (Decidable (name ≠ "AND" ∧ name ≠ "OR" ∧ name ≠ "NOT"))

/-- All names in the filter differ from those of connectives, and all conditions can be written. -/
inductive Filter.Expressible : Filter → Prop where
  | all {parts} : (∀ part ∈ parts, Expressible part) → Expressible (.all parts)
  | any {parts} : (∀ part ∈ parts, Expressible part) → Expressible (.any parts)
  | not {part} : Expressible part → Expressible (.not part)
  | field {column op} : IsPlainName column → op.Expressible → Expressible (.field column op)
  | relation {name conditions} : IsPlainName name → (∀ part ∈ conditions.parts, Expressible part) →
      Expressible (.relation name conditions)

/-! ### Reading back -/

namespace Filter

theorem connective_plain {name : String} (plain : IsPlainName name) : connective? name = none := by
  obtain ⟨and, or, not⟩ := plain
  unfold connective?
  split
  · exact absurd rfl and
  · exact absurd rfl or
  · exact absurd rfl not
  · rfl

/-- A scalar is read back as the literal that it stands for. -/
theorem scalar_toJson {value : Literal} (json : value.IsJson) (path : String) :
    scalar path value.toJson = .ok value := by
  have same : Literal.ofJson? value.toJson = some value := by
    cases value with
    | int n => simp [Literal.toJson, Literal.ofJson?, Literal.ofNumber, json.1, json.2]
    | float x => simp [Literal.toJson, Literal.ofJson?, Literal.ofNumber, show x.isFinite = true from json]
    | text s => rfl
    | bool b => rfl
    | date s => exact json.elim
    | timestamp s => exact json.elim
    | null => rfl
  rw [scalar, same]

theorem scalars_map_toJson {values : List Literal} (json : ∀ value ∈ values, value.IsJson) (path : String) :
    scalars path (.array (values.map Literal.toJson)) = .ok values := by
  rw [scalars]
  induction values with
  | nil => rfl
  | cons value values ih =>
      obtain ⟨first, others⟩ := List.forall_mem_cons.1 json
      rw [List.map_cons, List.mapM_cons, scalar_toJson first, ih others]
      rfl

/-- A literal other than null that is a scalar is no object. -/
theorem toJson_plain {value : Literal} (present : value ≠ .null) (json : value.IsJson) :
    value.toJson ≠ .null ∧ ∀ members, value.toJson ≠ .object members := by
  cases value with
  | float x => simp [Literal.toJson, show x.isFinite = true from json]
  | null => contradiction
  | _ => simp [Literal.toJson]

/-- A single operator other than `not` is one condition. -/
theorem fieldFilters_single {operator : String} (other : operator ≠ "not") (column path : String)
    (value : Json) : fieldFilters column path [(operator, value)] =
      (fieldFilter column path operator value).map fun filter => [filter] := by
  have nothing : fieldFilters column path [] = .ok [] := fieldFilters.eq_1 column path
  rw [fieldFilters.eq_def]
  simp only [if_neg other, nothing]
  cases fieldFilter column path operator value <;> rfl

/-- A single `not` is one condition if its operand is a scalar other than null. -/
theorem fieldFilters_not {value : Json} (notNull : value ≠ .null)
    (noObject : ∀ members, value ≠ .object members) (column path : String) :
    fieldFilters column path [("not", value)] =
      (scalar path value).map fun literal => [.field column (.compare .ne literal)] := by
  have nothing : fieldFilters column path [] = .ok [] := fieldFilters.eq_1 column path
  rw [fieldFilters.eq_def]
  cases value with
  | null => contradiction
  | object members => exact absurd rfl (noObject members)
  | _ =>
      simp only [if_pos, nothing]
      rfl

/-- The condition on a column is read back from its operator and operand. -/
theorem fieldFilters_operand {op : FieldOp} (expressible : op.Expressible) (column path : String) :
    fieldFilters column path [(op.name, op.operand)] = .ok [.field column op] := by
  cases op with
  | compare operator value =>
      obtain ⟨json, comparable⟩ := expressible
      have read := scalar_toJson json path
      cases operator with
      | eq =>
          have present : value.isNull = false := by
            cases value <;> simp_all [Literal.isNull]
          rw [FieldOp.name, fieldFilters_single (by decide), FieldOp.operand, fieldFilter, read]
          simp [Except.map, Filter.eq, present]
      | ne =>
          obtain ⟨notNull, noObject⟩ := toJson_plain (comparable (.inr rfl)) json
          rw [FieldOp.name, FieldOp.operand, fieldFilters_not notNull noObject, read]
          rfl
      | _ =>
          rw [FieldOp.name, fieldFilters_single (by decide), FieldOp.operand, fieldFilter, read]
          rfl
  | isIn values negated =>
      have read := scalars_map_toJson expressible path
      cases negated <;>
        rw [FieldOp.name, fieldFilters_single (by decide), FieldOp.operand, fieldFilter, read] <;> rfl
  | holds position text =>
      cases position <;>
        rw [FieldOp.name, fieldFilters_single (by decide)] <;> rfl
  | isNull flag =>
      rw [FieldOp.name, fieldFilters_single (by decide)]
      rfl

theorem name_mem_fieldOperators (op : FieldOp) : op.name ∈ fieldOperators := by
  cases op with
  | compare operator value => cases operator <;> simp [FieldOp.name, fieldOperators]
  | isIn values negated => cases negated <;> simp [FieldOp.name, fieldOperators]
  | holds position text => cases position <;> simp [FieldOp.name, fieldOperators]
  | isNull flag => simp [FieldOp.name, fieldOperators]

/-- No operator is one on columns and on relations. -/
theorem not_mem_relationOperators {operator : String} (known : operator ∈ fieldOperators) :
    operator ∉ relationOperators := by
  revert operator
  decide

/-- An object with the operator of a condition on a column is read as that condition. -/
theorem entry_field {column : String} {op : FieldOp} (plain : IsPlainName column) (expressible : op.Expressible)
    (path : String) :
    entry path column (.object [(op.name, op.operand)]) = .ok [.field column op] := by
  have known := name_mem_fieldOperators op
  rw [entry]
  simp only [connective_plain plain]
  simp [known, not_mem_relationOperators known, fieldFilters_operand expressible]

/-- The filter is read back, wherever it stands. -/
def ReadsBack (filter : Filter) : Prop := ∀ path, ofJsonAt path filter.encode = .ok filter

theorem items_encodeEach {parts : List Filter} (each : ∀ part ∈ parts, part.ReadsBack) (path : String)
    (index : Nat) : items path index (encodeEach parts) = .ok parts := by
  induction parts generalizing index with
  | nil => rfl
  | cons part parts ih =>
      obtain ⟨first, others⟩ := List.forall_mem_cons.1 each
      rw [encodeEach, items, first, ih others]
      rfl

/-- An operator whose operand is a filter on related rows fills one place of the conditions. -/
theorem relationConditions_member {operator path : String} {part? : Option Filter}
    (each : ∀ part ∈ part?, part.ReadsBack) (filled : Option Filter → RelationFilter)
    (reads : ∀ value rest, relationConditions path (filled none) ((operator, value) :: rest) =
      ofJsonAt path value >>= fun part => relationConditions path (filled (some part)) rest)
    (rest : Json.Members) :
    relationConditions path (filled none) (encodeMember operator part? ++ rest) =
      relationConditions path (filled part?) rest := by
  cases part? with
  | none => rfl
  | some part =>
      rw [encodeMember, List.singleton_append, reads, each part rfl path]
      rfl

/-- So does an operator whose operand is a flag. -/
theorem relationConditions_flag {operator path : String} {flag : Option Bool}
    (filled : Option Bool → RelationFilter)
    (reads : ∀ value rest, relationConditions path (filled none) ((operator, value) :: rest) =
      boolean path operator value >>= fun flag => relationConditions path (filled (some flag)) rest)
    (rest : Json.Members) :
    relationConditions path (filled none) (flagMember operator flag ++ rest) =
      relationConditions path (filled flag) rest := by
  cases flag with
  | none => rfl
  | some b =>
      rw [flagMember, List.singleton_append, reads]
      rfl

/-- Conditions on related rows are read back, operator by operator. -/
theorem relationConditions_encode {conditions : RelationFilter}
    (each : ∀ part ∈ conditions.parts, part.ReadsBack) (path : String) :
    relationConditions path .empty conditions.encode = .ok conditions := by
  obtain ⟨someRow, noRow, everyRow, isEmpty, isNotEmpty⟩ := conditions
  simp only [RelationFilter.parts, List.forall_mem_append, Option.mem_toList] at each
  obtain ⟨⟨eachSome, eachNo⟩, eachEvery⟩ := each
  rw [RelationFilter.encode, RelationFilter.empty]
  rw [relationConditions_member eachSome (fun part? => ⟨part?, none, none, none, none⟩)
    fun value rest => by rw [relationConditions]]
  rw [relationConditions_member eachNo (fun part? => ⟨someRow, part?, none, none, none⟩)
    fun value rest => by rw [relationConditions]]
  rw [relationConditions_member eachEvery (fun part? => ⟨someRow, noRow, part?, none, none⟩)
    fun value rest => by rw [relationConditions]]
  rw [relationConditions_flag (fun flag => ⟨someRow, noRow, everyRow, flag, none⟩)
    fun value rest => by rw [relationConditions]]
  rw [← List.append_nil (flagMember "isNotEmpty" isNotEmpty)]
  rw [relationConditions_flag (fun flag => ⟨someRow, noRow, everyRow, isEmpty, flag⟩)
    fun value rest => by rw [relationConditions]]
  rw [relationConditions]

/-- Every condition on related rows is written under an operator on relations. -/
theorem any_encode (conditions : RelationFilter) :
    (conditions.encode.any fun member => member.1 ∈ relationOperators) = !conditions.hasNoOperator := by
  have filters : ∀ operator ∈ relationOperators, ∀ part? : Option Filter,
      ((encodeMember operator part?).any fun member => member.1 ∈ relationOperators) = part?.isSome := by
    intro operator known part?
    cases part? <;> simp [encodeMember, known]
  have flags : ∀ operator ∈ relationOperators, ∀ flag : Option Bool,
      ((flagMember operator flag).any fun member => member.1 ∈ relationOperators) = flag.isSome := by
    intro operator known flag
    cases flag <;> simp [flagMember, known]
  obtain ⟨someRow, noRow, everyRow, isEmpty, isNotEmpty⟩ := conditions
  rw [RelationFilter.encode]
  simp only [List.any_append]
  rw [filters "some" (by decide), filters "none" (by decide), filters "every" (by decide),
    flags "isEmpty" (by decide), flags "isNotEmpty" (by decide)]
  simp [RelationFilter.hasNoOperator, ← Option.not_isSome, Bool.not_and, Bool.or_assoc]

/-- An object with the operators of conditions on related rows is read as these conditions. -/
theorem entry_relation {name : String} {conditions : RelationFilter} (plain : IsPlainName name)
    (each : ∀ part ∈ conditions.parts, part.ReadsBack) (path : String) :
    entry path name (.object conditions.encode) = .ok [.relation name conditions] := by
  have operators := any_encode conditions
  rw [entry]
  simp only [connective_plain plain]
  by_cases missing : conditions.hasNoOperator
  · -- without operators it is not even known to be about a relation
    obtain rfl : conditions = .empty := by
      obtain ⟨someRow, noRow, everyRow, isEmpty, isNotEmpty⟩ := conditions
      simpa [RelationFilter.hasNoOperator, RelationFilter.empty, and_assoc] using missing
    rfl
  · rw [if_pos (by simpa [missing] using operators), relationConditions_encode each]
    rfl

theorem exists_encode_eq_object (filter : Filter) : ∃ members, filter.encode = .object members := by
  cases filter <;> exact ⟨_, rfl⟩

/-- A filter under a connective is read as what that makes of it alone. -/
theorem entry_encode {key : String} {combine : List Filter → Filter}
    (connective : connective? key = some combine) {part : Filter} (reads : part.ReadsBack) (path : String) :
    entry path key part.encode = .ok [combine [part]] := by
  have inside := reads (joinPath path key)
  obtain ⟨members, object⟩ := exists_encode_eq_object part
  rw [object, ofJsonAt] at inside
  rw [object, entry]
  simp only [connective]
  cases found : entries (joinPath path key) members with
  | error fault =>
      rw [found] at inside
      contradiction
  | ok parts =>
      rw [found] at inside
      rw [Except.map, Except.ok.inj inside]

/-- Filters in a list under a connective are read as what that makes of them. -/
theorem entry_encodeEach {key : String} {combine : List Filter → Filter}
    (connective : connective? key = some combine) {parts : List Filter}
    (each : ∀ part ∈ parts, part.ReadsBack) (path : String) :
    entry path key (.array (encodeEach parts)) = .ok [combine parts] := by
  rw [entry]
  simp only [connective, items_encodeEach each]
  rfl

/-- An object of one member is read as what the member is. -/
theorem ofJsonAt_single {path key : String} {value : Json} {filter : Filter}
    (read : entry path key value = .ok [filter]) : ofJsonAt path (.object [(key, value)]) = .ok filter := by
  have nothing : entries path [] = .ok [] := entries.eq_1 path
  rw [ofJsonAt, entries, read, nothing]
  rfl

theorem readsBack {filter : Filter} (expressible : filter.Expressible) : filter.ReadsBack := by
  induction expressible with
  | all _ each =>
      intro path
      exact ofJsonAt_single (entry_encodeEach rfl each path)
  | any _ each =>
      intro path
      exact ofJsonAt_single (entry_encodeEach rfl each path)
  | not _ reads =>
      intro path
      have negation : connective? "NOT" = some fun parts => .not (ofParts parts) := rfl
      exact ofJsonAt_single (entry_encode negation reads path)
  | field plain expressible =>
      intro path
      exact ofJsonAt_single (entry_field plain expressible path)
  | relation plain _ each =>
      intro path
      exact ofJsonAt_single (entry_relation plain each path)

/-- Reading the JSON of a filter gives the filter back, also where columns and relations are called like
    operators. -/
theorem ofJson_encode {filter : Filter} (expressible : filter.Expressible) :
    ofJson filter.encode = .ok filter :=
  readsBack expressible ""

end Filter

namespace Blog

/-- A filter whose column and relations are called like operators. -/
def operatorNames : Filter :=
  .all [.any [], .not (.field "equals" (.compare .ne (.int 1))),
    .relation "some" { RelationFilter.empty with
      noRow := some (.field "isEmpty" (.isIn [.text "not", .null] true))
      isNotEmpty := some true },
    .relation "in" .empty]

theorem ofJson_encode_operatorNames :
    operatorNames.Expressible ∧ Filter.ofJson operatorNames.encode = .ok operatorNames := by
  have expressible : operatorNames.Expressible := by
    apply Filter.Expressible.all
    simp only [List.forall_mem_cons]
    have inner : (Filter.field "isEmpty" (.isIn [.text "not", .null] true)).Expressible :=
      .field (by decide) (by simp [FieldOp.Expressible, Literal.IsJson])
    refine ⟨.any (by simp), .not (.field (by decide) ?_), .relation (by decide) ?_,
      .relation (by decide) ?_, by simp⟩
    · exact ⟨by simp [Literal.IsJson, Json.minSigned, Json.maxSigned], by simp⟩
    · simpa [RelationFilter.parts, RelationFilter.empty] using inner
    · simp [RelationFilter.parts, RelationFilter.empty]
  exact ⟨expressible, Filter.ofJson_encode expressible⟩

end Blog

end RelQuery
