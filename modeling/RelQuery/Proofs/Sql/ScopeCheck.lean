/-
Module: RelQuery.Proofs.Sql.ScopeCheck
Purpose: What the scope check finds. Every qualifier of a statement is collected with the names that SQL shows
  it: an ON condition sees the items up to its own, a derived table the enclosing scopes, any other clause all
  items of its query, each besides the enclosing scopes. The check looks at all items of a query alike, so that
  it lists exactly the qualifiers that neither a visible item nor one further on in the same FROM clause exposes.
Main exports: NameScope, Use, Query.uses, Query.Resolves, Query.mem_unresolved, Query.joinsAhead
-/
import RelQuery.Proofs.Sql.References

namespace RelQuery.Sql

/-- The names that may be used at some place, and those that only items behind an ON condition around it
    expose. -/
structure NameScope where
  visible : List String
  ahead : List String

/-- The place of a statement that stands by itself. -/
def NameScope.outermost : NameScope := ⟨[], []⟩

/-- The place with more names to use. -/
def NameScope.enter (scope : NameScope) (names : List String) : NameScope :=
  ⟨scope.visible ++ names, scope.ahead⟩

/-- The place of an ON condition that has items before and behind it. -/
def NameScope.between (scope : NameScope) (before behind : List String) : NameScope :=
  ⟨scope.visible ++ before, scope.ahead ++ behind⟩

/-- A qualifier and the place where it is used. -/
structure Use where
  qualifier : String
  scope : NameScope

/-- An item that may be used exposes the qualifier. -/
def Use.Resolves (use : Use) : Prop := use.qualifier ∈ use.scope.visible

/-- An item behind the ON condition exposes the qualifier. -/
def Use.Ahead (use : Use) : Prop := use.qualifier ∈ use.scope.ahead

/-! ### Collecting the uses -/

mutual

/-- The qualifiers of an expression. -/
def Expr.uses (scope : NameScope) : Expr → List Use
  | .column (some qualifier) _ => [⟨qualifier, scope⟩]
  | .column none _ => []
  | .star (some qualifier) => [⟨qualifier, scope⟩]
  | .star none => []
  | .literal _ => []
  | .param _ => []
  | .binary _ left right => left.uses scope ++ right.uses scope
  | .not operand => operand.uses scope
  | .isNull operand _ => operand.uses scope
  | .paren inner => inner.uses scope
  | .call _ arguments _ => Expr.usesOfEach scope arguments
  | .caseWhen subject branches otherwise =>
    Expr.usesOfOption scope subject ++ Expr.usesOfBranches scope branches ++ Expr.usesOfOption scope otherwise
  | .subquery query => query.uses scope
  | .existsQuery query _ => query.uses scope
  | .inList operand values _ => operand.uses scope ++ Expr.usesOfEach scope values
  | .inQuery operand query _ => operand.uses scope ++ query.uses scope
  | .likeEscape operand pattern _ _ => operand.uses scope ++ pattern.uses scope

/-- The qualifiers of a list of expressions. -/
def Expr.usesOfEach (scope : NameScope) : List Expr → List Use
  | [] => []
  | e :: es => e.uses scope ++ Expr.usesOfEach scope es

/-- The qualifiers of an expression that may be missing. -/
def Expr.usesOfOption (scope : NameScope) : Option Expr → List Use
  | none => []
  | some e => e.uses scope

/-- The qualifiers of the branches of a case distinction. -/
def Expr.usesOfBranches (scope : NameScope) : List (Expr × Expr) → List Use
  | [] => []
  | (condition, result) :: branches =>
    condition.uses scope ++ result.uses scope ++ Expr.usesOfBranches scope branches

/-- The qualifiers of a derived table, which sees the scopes around its query alone. -/
def TableRef.uses (scope : NameScope) : TableRef → List Use
  | ⟨.stored _ _, _⟩ => []
  | ⟨.derived query, _⟩ => query.uses scope

/-- The qualifiers of the first item of a query. -/
def TableRef.usesOfOption (scope : NameScope) : Option TableRef → List Use
  | none => []
  | some table => table.uses scope

/-- The qualifiers of joined derived tables. -/
def Join.usesOfTables (scope : NameScope) : List Join → List Use
  | [] => []
  | ⟨_, table, _⟩ :: joins => table.uses scope ++ Join.usesOfTables scope joins

/-- The qualifiers of join conditions. Each sees the names before its join, that of its own table and the
    scopes around the query. -/
def Join.usesOfConditions (scope : NameScope) (before : List String) : List Join → List Use
  | [] => []
  | ⟨_, table, condition⟩ :: joins =>
    Expr.usesOfOption (scope.between (before ++ [table.exposedName])
        (joins.map fun join => join.table.exposedName)) condition
      ++ Join.usesOfConditions scope (before ++ [table.exposedName]) joins

/-- The qualifiers of a SELECT list. -/
def SelectItem.usesOfEach (scope : NameScope) : List SelectItem → List Use
  | [] => []
  | ⟨e, _⟩ :: items => e.uses scope ++ SelectItem.usesOfEach scope items

/-- The qualifiers of an ORDER BY list. -/
def OrderItem.usesOfEach (scope : NameScope) : List OrderItem → List Use
  | [] => []
  | ⟨e, _, _⟩ :: items => e.uses scope ++ OrderItem.usesOfEach scope items

/-- The qualifiers of a query at a place. -/
def Query.uses (outer : NameScope) : Query → List Use
  | ⟨select, _, source, joins, condition, groupBy, having, orderBy, _, _⟩ =>
    let first := source.toList.map TableRef.exposedName
    let scope := outer.enter (first ++ joins.map fun join => join.table.exposedName)
    TableRef.usesOfOption outer source ++ Join.usesOfTables outer joins
      ++ SelectItem.usesOfEach scope select ++ Join.usesOfConditions outer first joins
      ++ Expr.usesOfOption scope condition ++ Expr.usesOfEach scope groupBy
      ++ Expr.usesOfOption scope having ++ OrderItem.usesOfEach scope orderBy

end

/-- Every qualifier of the statement resolves. -/
def Query.Resolves (q : Query) : Prop := ∀ use ∈ q.uses .outermost, use.Resolves

/-! ### What the check adds -/

/-- The check looks for names among these, whether they are visible or ahead. -/
def NameScope.Lists (scope : NameScope) (names : List String) : Prop :=
  ∀ name, name ∈ names ↔ name ∈ scope.visible ∨ name ∈ scope.ahead

theorem NameScope.Lists.enter {scope : NameScope} {names : List String} (lists : scope.Lists names)
    (more : List String) : (scope.enter more).Lists (names ++ more) := by
  intro name
  rw [List.mem_append, lists name]
  show _ ↔ name ∈ scope.visible ++ more ∨ name ∈ scope.ahead
  rw [List.mem_append, or_right_comm]

/-- To the check all items of a FROM clause are alike. -/
theorem NameScope.Lists.between {scope : NameScope} {names : List String} (lists : scope.Lists names)
    (before behind : List String) :
    (scope.between before behind).Lists (names ++ (before ++ behind)) := by
  intro name
  rw [List.mem_append, List.mem_append, lists name, NameScope.between, List.mem_append, List.mem_append]
  exact or_or_or_comm

/-- Besides the names found before, the result has those of the uses that neither resolve nor are ahead. -/
def Finds (found result : List String) (uses : List Use) : Prop :=
  ∀ name, name ∈ result ↔
    name ∈ found ∨ ∃ use ∈ uses, use.qualifier = name ∧ ¬ use.Resolves ∧ ¬ use.Ahead

namespace Finds

variable {found between result : List String} {uses more : List Use}

theorem nothing (found : List String) : Finds found found [] := by simp [Finds]

/-- What is found first and what is found next is found in all. -/
theorem append (first : Finds found between uses) (next : Finds between result more) :
    Finds found result (uses ++ more) := by
  intro name
  rw [next name, first name]
  constructor
  · rintro ((before | ⟨use, used, missed⟩) | ⟨use, used, missed⟩)
    · exact .inl before
    · exact .inr ⟨use, List.mem_append_left _ used, missed⟩
    · exact .inr ⟨use, List.mem_append_right _ used, missed⟩
  · rintro (before | ⟨use, used, missed⟩)
    · exact .inl (.inl before)
    · rcases List.mem_append.1 used with used | used
      · exact .inl (.inr ⟨use, used, missed⟩)
      · exact .inr ⟨use, used, missed⟩

/-- A qualifier is noted unless the check knows it. -/
theorem note {scope : NameScope} {names : List String} (lists : scope.Lists names) (qualifier : String)
    (found : List String) :
    Finds found (noteUnresolved names (some qualifier) found) [⟨qualifier, scope⟩] := by
  intro name
  have missed : (∃ use ∈ [Use.mk qualifier scope], use.qualifier = name ∧ ¬ use.Resolves ∧ ¬ use.Ahead) ↔
      qualifier = name ∧ qualifier ∉ names := by
    rw [lists qualifier, not_or]
    simp only [List.mem_singleton, exists_eq_left]
    exact Iff.rfl
  rw [missed]
  simp only [noteUnresolved]
  split
  · rename_i known
    constructor
    · exact .inl
    · rintro (before | ⟨rfl, unknown⟩)
      · exact before
      · exact known.resolve_left unknown
  · rename_i unknown
    rw [List.mem_append, List.mem_singleton]
    constructor
    · rintro (before | rfl)
      · exact .inl before
      · exact .inr ⟨rfl, fun listed => unknown (.inl listed)⟩
    · rintro (before | ⟨rfl, -⟩)
      · exact .inl before
      · exact .inr rfl

end Finds

mutual

theorem Expr.finds {scope : NameScope} {names : List String} (lists : scope.Lists names) :
    ∀ (e : Expr) (found : List String), Finds found (e.addUnresolved names found) (e.uses scope)
  | .column (some qualifier) _, found => .note lists qualifier found
  | .column none _, found => .nothing found
  | .star (some qualifier), found => .note lists qualifier found
  | .star none, found => .nothing found
  | .literal _, found => .nothing found
  | .param _, found => .nothing found
  | .binary _ left right, found => (Expr.finds lists left found).append (Expr.finds lists right _)
  | .not operand, found => Expr.finds lists operand found
  | .isNull operand _, found => Expr.finds lists operand found
  | .paren inner, found => Expr.finds lists inner found
  | .call _ arguments _, found => Expr.findsOfEach lists arguments found
  | .caseWhen subject branches otherwise, found => by
      rw [Expr.addUnresolved_caseWhen]
      exact ((Expr.findsOfOption lists subject found).append
        (Expr.findsOfBranches lists branches _)).append (Expr.findsOfOption lists otherwise _)
  | .subquery query, found => Query.finds lists query found
  | .existsQuery query _, found => Query.finds lists query found
  | .inList operand values _, found =>
      (Expr.finds lists operand found).append (Expr.findsOfEach lists values _)
  | .inQuery operand query _, found =>
      (Expr.finds lists operand found).append (Query.finds lists query _)
  | .likeEscape operand pattern _ _, found =>
      (Expr.finds lists operand found).append (Expr.finds lists pattern _)

theorem Expr.findsOfEach {scope : NameScope} {names : List String} (lists : scope.Lists names) :
    ∀ (es : List Expr) (found : List String),
      Finds found (Expr.addUnresolvedOfEach names found es) (Expr.usesOfEach scope es)
  | [], found => .nothing found
  | e :: es, found => (Expr.finds lists e found).append (Expr.findsOfEach lists es _)

theorem Expr.findsOfOption {scope : NameScope} {names : List String} (lists : scope.Lists names) :
    ∀ (e? : Option Expr) (found : List String),
      Finds found (Expr.addUnresolvedOfOption names found e?) (Expr.usesOfOption scope e?)
  | none, found => .nothing found
  | some e, found => Expr.finds lists e found

theorem Expr.findsOfBranches {scope : NameScope} {names : List String} (lists : scope.Lists names) :
    ∀ (branches : List (Expr × Expr)) (found : List String),
      Finds found (Expr.addUnresolvedOfBranches names found branches) (Expr.usesOfBranches scope branches)
  | [], found => .nothing found
  | (condition, result) :: branches, found =>
      ((Expr.finds lists condition found).append (Expr.finds lists result _)).append
        (Expr.findsOfBranches lists branches _)

theorem TableRef.finds {scope : NameScope} {names : List String} (lists : scope.Lists names) :
    ∀ (table : TableRef) (found : List String),
      Finds found (table.addUnresolved names found) (table.uses scope)
  | ⟨.stored _ _, _⟩, found => .nothing found
  | ⟨.derived query, _⟩, found => Query.finds lists query found

theorem TableRef.findsOfOption {scope : NameScope} {names : List String} (lists : scope.Lists names) :
    ∀ (table? : Option TableRef) (found : List String),
      Finds found (TableRef.addUnresolvedOfOption names found table?) (TableRef.usesOfOption scope table?)
  | none, found => .nothing found
  | some table, found => TableRef.finds lists table found

theorem Join.findsOfTables {scope : NameScope} {names : List String} (lists : scope.Lists names) :
    ∀ (joins : List Join) (found : List String),
      Finds found (Join.addUnresolvedOfTables names found joins) (Join.usesOfTables scope joins)
  | [], found => .nothing found
  | ⟨_, table, _⟩ :: joins, found =>
      (TableRef.finds lists table found).append (Join.findsOfTables lists joins _)

/-- The names before a join, that of its own table and those behind it are all names of its query. -/
theorem Join.findsOfConditions {outer : NameScope} {around : List String} (lists : outer.Lists around) :
    ∀ (joins : List Join) (before : List String) (found : List String),
      Finds found
        (Join.addUnresolvedOfConditions
          (around ++ (before ++ joins.map fun join => join.table.exposedName)) found joins)
        (Join.usesOfConditions outer before joins)
  | [], _, found => .nothing found
  | ⟨_, table, condition⟩ :: joins, before, found => by
      have own := lists.between (before ++ [table.exposedName])
        (joins.map fun join => join.table.exposedName)
      have rest := Join.findsOfConditions lists joins (before ++ [table.exposedName])
      rw [List.map_cons, List.append_cons]
      cases condition with
      | none => exact rest found
      | some e => exact (Expr.finds own e found).append (rest _)

theorem SelectItem.findsOfEach {scope : NameScope} {names : List String} (lists : scope.Lists names) :
    ∀ (items : List SelectItem) (found : List String),
      Finds found (SelectItem.addUnresolvedOfEach names found items) (SelectItem.usesOfEach scope items)
  | [], found => .nothing found
  | ⟨e, _⟩ :: items, found => (Expr.finds lists e found).append (SelectItem.findsOfEach lists items _)

theorem OrderItem.findsOfEach {scope : NameScope} {names : List String} (lists : scope.Lists names) :
    ∀ (items : List OrderItem) (found : List String),
      Finds found (OrderItem.addUnresolvedOfEach names found items) (OrderItem.usesOfEach scope items)
  | [], found => .nothing found
  | ⟨e, _, _⟩ :: items, found => (Expr.finds lists e found).append (OrderItem.findsOfEach lists items _)

theorem Query.finds {outer : NameScope} {around : List String} (lists : outer.Lists around) :
    ∀ (q : Query) (found : List String), Finds found (q.addUnresolved around found) (q.uses outer)
  | ⟨select, distinct, source, joins, condition, groupBy, having, orderBy, limit, offset⟩, found => by
      have all := lists.enter (source.toList.map TableRef.exposedName ++
        joins.map fun join => join.table.exposedName)
      rw [Query.addUnresolved_mk _ _ _ _ _ _ _ _ _ _ _ _ rfl]
      have tables := (TableRef.findsOfOption lists source found).append (Join.findsOfTables lists joins _)
      have joined := (tables.append (SelectItem.findsOfEach all select _)).append
        (Join.findsOfConditions lists joins (source.toList.map TableRef.exposedName) _)
      have filtered := joined.append (Expr.findsOfOption all condition _)
      have grouped := (filtered.append (Expr.findsOfEach all groupBy _)).append
        (Expr.findsOfOption all having _)
      exact grouped.append (OrderItem.findsOfEach all orderBy _)

end

/-! ### Soundness -/

/-- The check lists exactly the qualifiers that no item exposes which is visible or ahead. -/
theorem Query.mem_unresolved (q : Query) (name : String) :
    name ∈ q.unresolved ↔ ∃ use ∈ q.uses .outermost, use.qualifier = name ∧ ¬ use.Resolves ∧ ¬ use.Ahead := by
  have none : NameScope.outermost.Lists [] := by simp [NameScope.Lists, NameScope.outermost]
  have found := Query.finds none q [] name
  simpa [Query.unresolved] using found

/-- All qualifiers of a statement resolve exactly if the check finds none and no ON condition uses a name that
    only the items behind it expose. -/
theorem Query.resolves_iff_unresolved_eq_nil (q : Query) :
    q.Resolves ↔ q.unresolved = [] ∧ ∀ use ∈ q.uses .outermost, use.Ahead → use.Resolves := by
  constructor
  · intro resolves
    refine ⟨?_, fun use used _ => resolves use used⟩
    apply List.eq_nil_iff_forall_not_mem.2
    intro name listed
    obtain ⟨use, used, _, unresolved, _⟩ := (q.mem_unresolved name).1 listed
    exact unresolved (resolves use used)
  · intro ⟨clean, lookingBack⟩ use used
    refine Classical.byContradiction fun unresolved => ?_
    have notAhead : ¬ use.Ahead := fun ahead => unresolved (lookingBack use used ahead)
    have listed := (q.mem_unresolved use.qualifier).2 ⟨use, used, rfl, unresolved, notAhead⟩
    rw [clean] at listed
    contradiction

/-- A join whose condition names the table of the next join. -/
def Query.joinsAhead : Query :=
  { Query.empty with
    select := [.plain (.of "a" "id")]
    source := some (.stored none "a")
    joins := [.left (.stored none "b") (.eq (.of "b" "id") (.of "c" "id")),
      .left (.stored none "c") (.eq (.of "c" "id") (.of "a" "id"))] }

/-- The check finds nothing wrong with it, although the first condition cannot see `c`. -/
theorem Query.joinsAhead_passes : Query.joinsAhead.unresolved = [] ∧ ¬ Query.joinsAhead.Resolves := by
  refine ⟨by decide, fun resolves => ?_⟩
  have used : ⟨"c", ⟨["a", "b"], ["c"]⟩⟩ ∈ Query.joinsAhead.uses .outermost := by
    simp [Query.joinsAhead, Query.empty, Query.uses, Join.left, Join.usesOfConditions, Expr.usesOfOption,
      Expr.eq, Expr.compare, Expr.of, Expr.uses, TableRef.stored, TableRef.exposedName,
      NameScope.outermost, NameScope.between]
  have visible : "c" ∈ ["a", "b"] := resolves _ used
  revert visible
  decide

end RelQuery.Sql
