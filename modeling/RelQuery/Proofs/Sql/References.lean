/-
Module: RelQuery.Proofs.Sql.References
Purpose: The column references of a statement, each with the items that it may refer to. Clauses are read
  from left to right: an ON condition may use the items up to its own alone, any other clause all items of
  its query and of the enclosing ones, and a derived table no item outside of it.
Main exports: Reference, Query.references, Reference.Resolves, Query.WellScoped,
  Query.WellScoped.unresolved_eq_nil, Query.WellScoped.derived, Query.items_subset
-/
import RelQuery.Proofs.Sql.Occurrences

namespace RelQuery.Sql

/-- A use of a qualifier and the items that it may refer to. -/
structure Reference where
  items : List TableRef
  qualifier : String
  /-- The column that is meant; none where all columns are. -/
  column : Option String

/-! ### Collecting the references -/

mutual

/-- The references of an expression that may use the given items. -/
def Expr.references (items : List TableRef) : Expr → List Reference
  | .column (some qualifier) name => [⟨items, qualifier, some name⟩]
  | .column none _ => []
  | .star (some qualifier) => [⟨items, qualifier, none⟩]
  | .star none => []
  | .literal _ => []
  | .param _ => []
  | .binary _ left right => left.references items ++ right.references items
  | .not operand => operand.references items
  | .isNull operand _ => operand.references items
  | .paren inner => inner.references items
  | .call _ arguments _ => Expr.referencesOfEach items arguments
  | .caseWhen subject branches otherwise =>
    Expr.referencesOfOption items subject ++ Expr.referencesOfBranches items branches
      ++ Expr.referencesOfOption items otherwise
  | .subquery query => query.references items
  | .existsQuery query _ => query.references items
  | .inList operand values _ => operand.references items ++ Expr.referencesOfEach items values
  | .inQuery operand query _ => operand.references items ++ query.references items
  | .likeEscape operand pattern _ _ => operand.references items ++ pattern.references items

/-- The references of a list of expressions. -/
def Expr.referencesOfEach (items : List TableRef) : List Expr → List Reference
  | [] => []
  | e :: es => e.references items ++ Expr.referencesOfEach items es

/-- The references of an expression that may be missing. -/
def Expr.referencesOfOption (items : List TableRef) : Option Expr → List Reference
  | none => []
  | some e => e.references items

/-- The references of the branches of a case distinction. -/
def Expr.referencesOfBranches (items : List TableRef) : List (Expr × Expr) → List Reference
  | [] => []
  | (condition, result) :: branches =>
    condition.references items ++ result.references items ++ Expr.referencesOfBranches items branches

/-- The references of a derived table, which is a statement of its own. -/
def TableRef.references : TableRef → List Reference
  | ⟨.stored _ _, _⟩ => []
  | ⟨.derived query, _⟩ => query.references []

/-- The references of the first item of a query. -/
def TableRef.referencesOfOption : Option TableRef → List Reference
  | none => []
  | some table => table.references

/-- The references of joins that follow the given items of their query. -/
def Join.referencesOfEach (before : List TableRef) : List Join → List Reference
  | [] => []
  | ⟨_, table, condition⟩ :: joins =>
    table.references ++ Expr.referencesOfOption (before ++ [table]) condition
      ++ Join.referencesOfEach (before ++ [table]) joins

/-- The references of a SELECT list. -/
def SelectItem.referencesOfEach (items : List TableRef) : List SelectItem → List Reference
  | [] => []
  | ⟨e, _⟩ :: selected => e.references items ++ SelectItem.referencesOfEach items selected

/-- The references of an ORDER BY list. -/
def OrderItem.referencesOfEach (items : List TableRef) : List OrderItem → List Reference
  | [] => []
  | ⟨e, _, _⟩ :: sorted => e.references items ++ OrderItem.referencesOfEach items sorted

/-- The references of a query inside queries with the given items. -/
def Query.references (outer : List TableRef) : Query → List Reference
  | ⟨select, _, source, joins, condition, groupBy, having, orderBy, _, _⟩ =>
    let items := source.toList ++ joins.map Join.table ++ outer
    TableRef.referencesOfOption source ++ Join.referencesOfEach source.toList joins
      ++ SelectItem.referencesOfEach items select ++ Expr.referencesOfOption items condition
      ++ Expr.referencesOfEach items groupBy ++ Expr.referencesOfOption items having
      ++ OrderItem.referencesOfEach items orderBy

end

/-- One of the items exposes the qualifier, and it offers the column. -/
def Reference.Resolves (offers : TableRef → String → Prop) (reference : Reference) : Prop :=
  ∃ item ∈ reference.items, item.exposedName = reference.qualifier ∧
    ∀ column ∈ reference.column, offers item column

/-- One of the items exposes the qualifier. -/
def Reference.InScope (reference : Reference) : Prop :=
  ∃ item ∈ reference.items, item.exposedName = reference.qualifier

/-- Every qualifier is exposed by an item that may be used where it stands. -/
def Query.WellScoped (q : Query) : Prop := ∀ reference ∈ q.references [], reference.InScope

theorem Reference.Resolves.inScope {offers : TableRef → String → Prop} {reference : Reference}
    (resolves : reference.Resolves offers) : reference.InScope := by
  obtain ⟨item, usable, exposes, -⟩ := resolves
  exact ⟨item, usable, exposes⟩

/-! ### Unresolved qualifiers

A reader of qualifiers that does not mind the order of joins finds nothing that is not in scope either. -/

/-- The scope has the names of all items. -/
def Exposes (scope : List String) (items : List TableRef) : Prop :=
  ∀ item ∈ items, item.exposedName ∈ scope

theorem Reference.InScope.mem {reference : Reference} {scope : List String} (inScope : reference.InScope)
    (exposes : Exposes scope reference.items) : reference.qualifier ∈ scope := by
  obtain ⟨item, usable, same⟩ := inScope
  exact same ▸ exposes item usable

/-- The names of its own items are in the scope of a query. -/
theorem exposes_own (outer : List String) (source : Option TableRef) (joins : List Join) :
    Exposes (outer ++ (source.toList.map TableRef.exposedName ++ joins.map fun join => join.table.exposedName))
      (source.toList ++ joins.map Join.table) := by
  intro item member
  simp only [List.mem_append, List.mem_map] at member ⊢
  rcases member with first | ⟨join, inside, rfl⟩
  · exact .inr (.inl ⟨item, first, rfl⟩)
  · exact .inr (.inr ⟨join, inside, rfl⟩)

/-- So are the names of the items around it. -/
theorem exposes_all {outer : List String} {items : List TableRef} (exposes : Exposes outer items)
    (source : Option TableRef) (joins : List Join) :
    Exposes (outer ++ (source.toList.map TableRef.exposedName ++ joins.map fun join => join.table.exposedName))
      (source.toList ++ joins.map Join.table ++ items) := by
  intro item member
  rcases List.mem_append.1 member with mine | theirs
  · exact exposes_own outer source joins item mine
  · exact List.mem_append_left _ (exposes item theirs)

/-- Adds the qualifiers of an expression that may be missing. -/
def Expr.addUnresolvedOfOption (scope found : List String) : Option Expr → List String
  | none => found
  | some e => e.addUnresolved scope found

/-- Adds the qualifiers of the first item of a query. -/
def TableRef.addUnresolvedOfOption (scope found : List String) : Option TableRef → List String
  | none => found
  | some table => table.addUnresolved scope found

theorem Expr.addUnresolved_caseWhen (scope found : List String) (subject otherwise : Option Expr)
    (branches : List (Expr × Expr)) :
    (Expr.caseWhen subject branches otherwise).addUnresolved scope found =
      addUnresolvedOfOption scope
        (addUnresolvedOfBranches scope (addUnresolvedOfOption scope found subject) branches) otherwise := by
  cases subject <;> cases otherwise <;> rfl

theorem Query.addUnresolved_mk (outer found : List String) (select : List SelectItem) (distinct : Bool)
    (source : Option TableRef) (joins : List Join) (condition : Option Expr) (groupBy : List Expr)
    (having : Option Expr) (orderBy : List OrderItem) (limit offset : Option UInt64) {scope : List String}
    (all : scope = outer ++ (source.toList.map TableRef.exposedName ++
      joins.map fun join => join.table.exposedName)) :
    (Query.mk select distinct source joins condition groupBy having orderBy limit offset).addUnresolved outer
        found =
      OrderItem.addUnresolvedOfEach scope
        (Expr.addUnresolvedOfOption scope
          (Expr.addUnresolvedOfEach scope
            (Expr.addUnresolvedOfOption scope
              (Join.addUnresolvedOfConditions scope
                (SelectItem.addUnresolvedOfEach scope
                  (Join.addUnresolvedOfTables outer (TableRef.addUnresolvedOfOption outer found source)
                    joins) select) joins) condition) groupBy) having) orderBy := by
  subst all
  cases source <;> cases condition <;> cases having <;> rfl

mutual

theorem Expr.addUnresolved_eq {items : List TableRef} {scope : List String}
    (exposes : Exposes scope items) : ∀ (e : Expr) (found : List String),
      (∀ reference ∈ e.references items, reference.InScope) → e.addUnresolved scope found = found
  | .column (some qualifier) _, _, inScope => by
      have known := (inScope _ (List.mem_singleton_self _)).mem exposes
      exact if_pos (.inl known)
  | .column none _, _, _ => rfl
  | .star (some qualifier), _, inScope => by
      have known := (inScope _ (List.mem_singleton_self _)).mem exposes
      exact if_pos (.inl known)
  | .star none, _, _ => rfl
  | .literal _, _, _ => rfl
  | .param _, _, _ => rfl
  | .binary _ left right, found, inScope => by
      obtain ⟨inLeft, inRight⟩ := List.forall_mem_append.1 inScope
      show right.addUnresolved scope (left.addUnresolved scope found) = found
      rw [Expr.addUnresolved_eq exposes left found inLeft, Expr.addUnresolved_eq exposes right found inRight]
  | .not operand, found, inScope => Expr.addUnresolved_eq exposes operand found inScope
  | .isNull operand _, found, inScope => Expr.addUnresolved_eq exposes operand found inScope
  | .paren inner, found, inScope => Expr.addUnresolved_eq exposes inner found inScope
  | .call _ arguments _, found, inScope => Expr.addUnresolvedOfEach_eq exposes arguments found inScope
  | .caseWhen subject branches otherwise, found, inScope => by
      obtain ⟨inFirst, inOtherwise⟩ := List.forall_mem_append.1 inScope
      obtain ⟨inSubject, inBranches⟩ := List.forall_mem_append.1 inFirst
      rw [Expr.addUnresolved_caseWhen, Expr.addUnresolvedOfOption_eq exposes subject found inSubject,
        Expr.addUnresolvedOfBranches_eq exposes branches found inBranches,
        Expr.addUnresolvedOfOption_eq exposes otherwise found inOtherwise]
  | .subquery query, found, inScope => Query.addUnresolved_eq exposes query found inScope
  | .existsQuery query _, found, inScope => Query.addUnresolved_eq exposes query found inScope
  | .inList operand values _, found, inScope => by
      obtain ⟨inOperand, inValues⟩ := List.forall_mem_append.1 inScope
      show Expr.addUnresolvedOfEach scope (operand.addUnresolved scope found) values = found
      rw [Expr.addUnresolved_eq exposes operand found inOperand,
        Expr.addUnresolvedOfEach_eq exposes values found inValues]
  | .inQuery operand query _, found, inScope => by
      obtain ⟨inOperand, inQuery⟩ := List.forall_mem_append.1 inScope
      show query.addUnresolved scope (operand.addUnresolved scope found) = found
      rw [Expr.addUnresolved_eq exposes operand found inOperand,
        Query.addUnresolved_eq exposes query found inQuery]
  | .likeEscape operand pattern _ _, found, inScope => by
      obtain ⟨inOperand, inPattern⟩ := List.forall_mem_append.1 inScope
      show pattern.addUnresolved scope (operand.addUnresolved scope found) = found
      rw [Expr.addUnresolved_eq exposes operand found inOperand,
        Expr.addUnresolved_eq exposes pattern found inPattern]

theorem Expr.addUnresolvedOfEach_eq {items : List TableRef} {scope : List String}
    (exposes : Exposes scope items) : ∀ (es : List Expr) (found : List String),
      (∀ reference ∈ Expr.referencesOfEach items es, reference.InScope) →
        Expr.addUnresolvedOfEach scope found es = found
  | [], _, _ => rfl
  | e :: es, found, inScope => by
      obtain ⟨inFirst, inOthers⟩ := List.forall_mem_append.1 inScope
      show Expr.addUnresolvedOfEach scope (e.addUnresolved scope found) es = found
      rw [Expr.addUnresolved_eq exposes e found inFirst,
        Expr.addUnresolvedOfEach_eq exposes es found inOthers]

theorem Expr.addUnresolvedOfOption_eq {items : List TableRef} {scope : List String}
    (exposes : Exposes scope items) : ∀ (e? : Option Expr) (found : List String),
      (∀ reference ∈ Expr.referencesOfOption items e?, reference.InScope) →
        Expr.addUnresolvedOfOption scope found e? = found
  | none, _, _ => rfl
  | some e, found, inScope => Expr.addUnresolved_eq exposes e found inScope

theorem Expr.addUnresolvedOfBranches_eq {items : List TableRef} {scope : List String}
    (exposes : Exposes scope items) : ∀ (branches : List (Expr × Expr)) (found : List String),
      (∀ reference ∈ Expr.referencesOfBranches items branches, reference.InScope) →
        Expr.addUnresolvedOfBranches scope found branches = found
  | [], _, _ => rfl
  | (condition, result) :: branches, found, inScope => by
      obtain ⟨inFirst, inOthers⟩ := List.forall_mem_append.1 inScope
      obtain ⟨inCondition, inResult⟩ := List.forall_mem_append.1 inFirst
      show Expr.addUnresolvedOfBranches scope
        (result.addUnresolved scope (condition.addUnresolved scope found)) branches = found
      rw [Expr.addUnresolved_eq exposes condition found inCondition,
        Expr.addUnresolved_eq exposes result found inResult,
        Expr.addUnresolvedOfBranches_eq exposes branches found inOthers]

theorem TableRef.addUnresolved_eq (outer : List String) : ∀ (table : TableRef) (found : List String),
    (∀ reference ∈ table.references, reference.InScope) → table.addUnresolved outer found = found
  | ⟨.stored _ _, _⟩, _, _ => rfl
  | ⟨.derived query, _⟩, found, inScope =>
      have nothing : Exposes outer [] := fun _ member => nomatch member
      Query.addUnresolved_eq nothing query found inScope

theorem TableRef.addUnresolvedOfOption_eq (outer : List String) :
    ∀ (table? : Option TableRef) (found : List String),
      (∀ reference ∈ TableRef.referencesOfOption table?, reference.InScope) →
        TableRef.addUnresolvedOfOption outer found table? = found
  | none, _, _ => rfl
  | some table, found, inScope => TableRef.addUnresolved_eq outer table found inScope

theorem Join.addUnresolvedOfTables_eq (outer : List String) :
    ∀ (joins : List Join) (before : List TableRef) (found : List String),
      (∀ reference ∈ Join.referencesOfEach before joins, reference.InScope) →
        Join.addUnresolvedOfTables outer found joins = found
  | [], _, _, _ => rfl
  | ⟨_, table, _⟩ :: joins, before, found, inScope => by
      obtain ⟨inFirst, inOthers⟩ := List.forall_mem_append.1 inScope
      obtain ⟨inTable, -⟩ := List.forall_mem_append.1 inFirst
      show Join.addUnresolvedOfTables outer (table.addUnresolved outer found) joins = found
      rw [TableRef.addUnresolved_eq outer table found inTable,
        Join.addUnresolvedOfTables_eq outer joins _ found inOthers]

theorem Join.addUnresolvedOfConditions_eq {scope : List String} :
    ∀ (joins : List Join) (before : List TableRef) (found : List String),
      Exposes scope (before ++ joins.map Join.table) →
      (∀ reference ∈ Join.referencesOfEach before joins, reference.InScope) →
        Join.addUnresolvedOfConditions scope found joins = found
  | [], _, _, _, _ => rfl
  | ⟨_, table, condition⟩ :: joins, before, found, exposes, inScope => by
      obtain ⟨inFirst, inOthers⟩ := List.forall_mem_append.1 inScope
      obtain ⟨-, inCondition⟩ := List.forall_mem_append.1 inFirst
      rw [List.map_cons, List.append_cons] at exposes
      have visible : Exposes scope (before ++ [table]) := fun item member =>
        exposes item (List.mem_append_left _ member)
      have rest := Join.addUnresolvedOfConditions_eq joins (before ++ [table]) found exposes inOthers
      cases condition with
      | none => exact rest
      | some e =>
          show Join.addUnresolvedOfConditions scope (e.addUnresolved scope found) joins = found
          rw [Expr.addUnresolved_eq visible e found inCondition, rest]

theorem SelectItem.addUnresolvedOfEach_eq {items : List TableRef} {scope : List String}
    (exposes : Exposes scope items) : ∀ (selected : List SelectItem) (found : List String),
      (∀ reference ∈ SelectItem.referencesOfEach items selected, reference.InScope) →
        SelectItem.addUnresolvedOfEach scope found selected = found
  | [], _, _ => rfl
  | ⟨e, _⟩ :: selected, found, inScope => by
      obtain ⟨inFirst, inOthers⟩ := List.forall_mem_append.1 inScope
      show SelectItem.addUnresolvedOfEach scope (e.addUnresolved scope found) selected = found
      rw [Expr.addUnresolved_eq exposes e found inFirst,
        SelectItem.addUnresolvedOfEach_eq exposes selected found inOthers]

theorem OrderItem.addUnresolvedOfEach_eq {items : List TableRef} {scope : List String}
    (exposes : Exposes scope items) : ∀ (sorted : List OrderItem) (found : List String),
      (∀ reference ∈ OrderItem.referencesOfEach items sorted, reference.InScope) →
        OrderItem.addUnresolvedOfEach scope found sorted = found
  | [], _, _ => rfl
  | ⟨e, _, _⟩ :: sorted, found, inScope => by
      obtain ⟨inFirst, inOthers⟩ := List.forall_mem_append.1 inScope
      show OrderItem.addUnresolvedOfEach scope (e.addUnresolved scope found) sorted = found
      rw [Expr.addUnresolved_eq exposes e found inFirst,
        OrderItem.addUnresolvedOfEach_eq exposes sorted found inOthers]

theorem Query.addUnresolved_eq {items : List TableRef} {outer : List String}
    (exposes : Exposes outer items) : ∀ (q : Query) (found : List String),
      (∀ reference ∈ q.references items, reference.InScope) → q.addUnresolved outer found = found
  | ⟨select, distinct, source, joins, condition, groupBy, having, orderBy, limit, offset⟩, found, inScope => by
      obtain ⟨inScope, inOrderBy⟩ := List.forall_mem_append.1 inScope
      obtain ⟨inScope, inHaving⟩ := List.forall_mem_append.1 inScope
      obtain ⟨inScope, inGroupBy⟩ := List.forall_mem_append.1 inScope
      obtain ⟨inScope, inCondition⟩ := List.forall_mem_append.1 inScope
      obtain ⟨inScope, inSelect⟩ := List.forall_mem_append.1 inScope
      obtain ⟨inSource, inJoins⟩ := List.forall_mem_append.1 inScope
      have own := exposes_own outer source joins
      have all := exposes_all exposes source joins
      rw [Query.addUnresolved_mk _ _ _ _ _ _ _ _ _ _ _ _ rfl,
        TableRef.addUnresolvedOfOption_eq outer source found inSource,
        Join.addUnresolvedOfTables_eq outer joins _ found inJoins,
        SelectItem.addUnresolvedOfEach_eq all select found inSelect,
        Join.addUnresolvedOfConditions_eq joins _ found own inJoins,
        Expr.addUnresolvedOfOption_eq all condition found inCondition,
        Expr.addUnresolvedOfEach_eq all groupBy found inGroupBy,
        Expr.addUnresolvedOfOption_eq all having found inHaving,
        OrderItem.addUnresolvedOfEach_eq all orderBy found inOrderBy]

end

/-- A well-scoped statement leaves no qualifier unresolved. -/
theorem Query.WellScoped.unresolved_eq_nil {q : Query} (wellScoped : q.WellScoped) : q.unresolved = [] :=
  have nothing : Exposes [] [] := fun _ member => nomatch member
  Query.addUnresolved_eq nothing q [] wellScoped

/-! ### References and items -/

/-- The references use the listed items and those around them, and the references of each derived table are
    among them. -/
structure Traced (outer : List TableRef) (references : List Reference) (occurrences : List TableRef) :
    Prop where
  within : ∀ reference ∈ references, reference.items ⊆ occurrences ++ outer
  derived : ∀ query label, ⟨.derived query, label⟩ ∈ occurrences → query.references [] ⊆ references

namespace Traced

variable {outer wider items : List TableRef} {references more : List Reference}
  {occurrences others : List TableRef}

theorem nil (outer : List TableRef) : Traced outer [] [] := ⟨by simp, by simp⟩

theorem one (outer : List TableRef) (qualifier : String) (column : Option String) :
    Traced outer [⟨outer, qualifier, column⟩] [] := ⟨by simp, by simp⟩

theorem append (first : Traced outer references occurrences) (second : Traced outer more others) :
    Traced outer (references ++ more) (occurrences ++ others) where
  within := by
    intro reference member item usable
    rw [List.append_assoc, List.mem_append, List.mem_append]
    rcases List.mem_append.1 member with member | member
    · rcases List.mem_append.1 (first.within reference member usable) with inside | around
      · exact .inl inside
      · exact .inr (.inr around)
    · exact .inr (List.mem_append.1 (second.within reference member usable))
  derived := by
    intro query label member reference inQuery
    rcases List.mem_append.1 member with member | member
    · exact List.mem_append_left _ (first.derived query label member inQuery)
    · exact List.mem_append_right _ (second.derived query label member inQuery)

/-- More items may stand around. -/
theorem mono (traced : Traced outer references occurrences) (fewer : outer ⊆ wider) :
    Traced wider references occurrences where
  within := by
    intro reference member item usable
    rcases List.mem_append.1 (traced.within reference member usable) with inside | around
    · exact List.mem_append_left _ inside
    · exact List.mem_append_right _ (fewer around)
  derived := traced.derived

/-- Listed items need not stand around as well. -/
theorem absorb (traced : Traced (items ++ outer) references occurrences) (listed : items ⊆ occurrences) :
    Traced outer references occurrences where
  within := by
    intro reference member item usable
    simp only [List.mem_append]
    rcases List.mem_append.1 (traced.within reference member usable) with inside | around
    · exact .inl inside
    · rcases List.mem_append.1 around with own | around
      · exact .inl (listed own)
      · exact .inr around
  derived := traced.derived

/-- A stored table has no references. -/
theorem stored (outer : List TableRef) (schema : Option String) (name : String) (label : Option String) :
    Traced outer [] [⟨.stored schema name, label⟩] := ⟨by simp, by simp⟩

/-- A derived table is listed with what is inside it. -/
theorem table {query : Query} (traced : Traced [] (query.references []) query.occurrences)
    (outer : List TableRef) (label : Option String) :
    Traced outer (query.references []) (⟨.derived query, label⟩ :: query.occurrences) where
  within := by
    intro reference member item usable
    have inside := traced.within reference member usable
    rw [List.append_nil] at inside
    exact List.mem_append_left _ (List.mem_cons_of_mem _ inside)
  derived := by
    intro other name member
    rcases List.mem_cons.1 member with same | inside
    · obtain ⟨⟨rfl⟩, -⟩ := TableRef.mk.inj same
      exact List.Subset.refl _
    · exact traced.derived other name inside

end Traced

theorem TableRef.toList_subset (table? : Option TableRef) :
    table?.toList ⊆ TableRef.occurrencesOfOption table? := by
  cases table? with
  | none => exact List.Subset.refl _
  | some table => simp [occurrencesOfOption]

theorem Join.tables_subset (joins : List Join) : joins.map Join.table ⊆ occurrencesOfEach joins := by
  induction joins with
  | nil => exact List.Subset.refl _
  | cons join joins ih =>
      obtain ⟨kind, table, condition⟩ := join
      rw [List.map_cons, List.cons_subset]
      exact ⟨by simp [occurrencesOfEach], fun _ member => List.mem_append_right _ (ih member)⟩

mutual

theorem Expr.traced (items : List TableRef) : ∀ e : Expr, Traced items (e.references items) e.occurrences
  | .column (some qualifier) name => .one items qualifier (some name)
  | .column none _ => .nil items
  | .star (some qualifier) => .one items qualifier none
  | .star none => .nil items
  | .literal _ => .nil items
  | .param _ => .nil items
  | .binary _ left right => (Expr.traced items left).append (Expr.traced items right)
  | .not operand => Expr.traced items operand
  | .isNull operand _ => Expr.traced items operand
  | .paren inner => Expr.traced items inner
  | .call _ arguments _ => Expr.tracedOfEach items arguments
  | .caseWhen subject branches otherwise =>
      ((Expr.tracedOfOption items subject).append (Expr.tracedOfBranches items branches)).append
        (Expr.tracedOfOption items otherwise)
  | .subquery query => Query.traced items query
  | .existsQuery query _ => Query.traced items query
  | .inList operand values _ => (Expr.traced items operand).append (Expr.tracedOfEach items values)
  | .inQuery operand query _ => (Expr.traced items operand).append (Query.traced items query)
  | .likeEscape operand pattern _ _ => (Expr.traced items operand).append (Expr.traced items pattern)

theorem Expr.tracedOfEach (items : List TableRef) : ∀ es : List Expr,
    Traced items (Expr.referencesOfEach items es) (Expr.occurrencesOfEach es)
  | [] => .nil items
  | e :: es => (Expr.traced items e).append (Expr.tracedOfEach items es)

theorem Expr.tracedOfOption (items : List TableRef) : ∀ e? : Option Expr,
    Traced items (Expr.referencesOfOption items e?) (Expr.occurrencesOfOption e?)
  | none => .nil items
  | some e => Expr.traced items e

theorem Expr.tracedOfBranches (items : List TableRef) : ∀ branches : List (Expr × Expr),
    Traced items (Expr.referencesOfBranches items branches) (Expr.occurrencesOfBranches branches)
  | [] => .nil items
  | (condition, result) :: branches =>
      ((Expr.traced items condition).append (Expr.traced items result)).append
        (Expr.tracedOfBranches items branches)

theorem TableRef.traced (outer : List TableRef) : ∀ table : TableRef,
    Traced outer table.references (table :: table.innerOccurrences)
  | ⟨.stored schema name, label⟩ => .stored outer schema name label
  | ⟨.derived query, label⟩ => (Query.traced [] query).table outer label

theorem TableRef.tracedOfOption (outer : List TableRef) : ∀ table? : Option TableRef,
    Traced outer (TableRef.referencesOfOption table?) (TableRef.occurrencesOfOption table?)
  | none => .nil outer
  | some table => TableRef.traced outer table

theorem Join.tracedOfEach (items : List TableRef) : ∀ (joins : List Join) (before : List TableRef),
    before ++ joins.map Join.table ⊆ items →
      Traced items (Join.referencesOfEach before joins) (Join.occurrencesOfEach joins)
  | [], _, _ => .nil items
  | ⟨_, table, condition⟩ :: joins, before, usable => by
      rw [List.map_cons, List.append_cons] at usable
      have visible : before ++ [table] ⊆ items := fun _ member => usable (List.mem_append_left _ member)
      exact ((TableRef.traced items table).append
        ((Expr.tracedOfOption (before ++ [table]) condition).mono visible)).append
          (Join.tracedOfEach items joins (before ++ [table]) usable)

theorem SelectItem.tracedOfEach (items : List TableRef) : ∀ selected : List SelectItem,
    Traced items (SelectItem.referencesOfEach items selected) (SelectItem.occurrencesOfEach selected)
  | [] => .nil items
  | ⟨e, _⟩ :: selected => (Expr.traced items e).append (SelectItem.tracedOfEach items selected)

theorem OrderItem.tracedOfEach (items : List TableRef) : ∀ sorted : List OrderItem,
    Traced items (OrderItem.referencesOfEach items sorted) (OrderItem.occurrencesOfEach sorted)
  | [] => .nil items
  | ⟨e, _, _⟩ :: sorted => (Expr.traced items e).append (OrderItem.tracedOfEach items sorted)

theorem Query.traced (outer : List TableRef) : ∀ q : Query,
    Traced outer (q.references outer) q.occurrences
  | ⟨select, _, source, joins, condition, groupBy, having, orderBy, _, _⟩ => by
      have usable : source.toList ++ joins.map Join.table ⊆ source.toList ++ joins.map Join.table ++ outer :=
        List.subset_append_left _ _
      have clauses :=
        (((((((TableRef.tracedOfOption _ source).append (Join.tracedOfEach _ joins _ usable)).append
          (SelectItem.tracedOfEach _ select)).append (Expr.tracedOfOption _ condition)).append
          (Expr.tracedOfEach _ groupBy)).append (Expr.tracedOfOption _ having)).append
          (OrderItem.tracedOfEach _ orderBy))
      refine clauses.absorb fun item member => ?_
      simp only [List.append_assoc]
      rcases List.mem_append.1 member with first | joined
      · exact List.mem_append_left _ (TableRef.toList_subset source first)
      · exact List.mem_append_right _ (List.mem_append_left _ (Join.tables_subset joins joined))

end

/-- References refer to items of the statement. -/
theorem Query.items_subset {q : Query} {reference : Reference} (member : reference ∈ q.references []) :
    reference.items ⊆ q.occurrences := by
  have within := (Query.traced [] q).within reference member
  rwa [List.append_nil] at within

/-- The derived tables of a well-scoped statement are well-scoped by themselves. -/
theorem Query.WellScoped.derived {q derived : Query} {label : Option String} (wellScoped : q.WellScoped)
    (member : ⟨.derived derived, label⟩ ∈ q.occurrences) : derived.WellScoped := by
  intro reference inside
  exact wellScoped reference ((Query.traced [] q).derived derived label member inside)

/-- One more condition adds the references that it makes among the items of the query. -/
theorem Query.references_filter (outer : List TableRef) (q : Query) (e : Expr) :
    ((q.filter e).references outer).Perm
      (q.references outer ++ e.references (q.source.toList ++ q.joins.map Join.table ++ outer)) := by
  obtain ⟨select, distinct, source, joins, condition, groupBy, having, orderBy, limit, offset⟩ := q
  have strengthened : ∀ items, (Expr.strengthen condition e).references items =
      Expr.referencesOfOption items condition ++ e.references items := by
    intro items
    cases condition <;> rfl
  simp only [filter, references, Expr.referencesOfOption, strengthened, List.append_assoc]
  refine .append_left _ (.append_left _ (.append_left _ (.append_left _ ?_)))
  refine List.perm_append_comm.trans (.of_eq ?_)
  simp only [List.append_assoc]

end RelQuery.Sql
