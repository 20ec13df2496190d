/-
Module: RelQuery.Proofs.Filter.References
Purpose: What the references of emitted joins and predicates resolve to. A use of a relation refers to its
  source and to its own occurrences alone, each join to those before it; whether the columns exist is
  asked of a catalogue, so that the same argument serves with and without a schema that is known to be
  sound.
Main exports: Catalogue, AllResolve, resolve_joins, resolve_subquery, Emits.resolving
-/
import RelQuery.Proofs.Filter.Emitted
import RelQuery.Proofs.Sql.References

namespace RelQuery

open Sql

/-! ### Catalogues -/

/-- The columns of each pair are offered by the occurrences of two tables. -/
def KeyPairs.Offered (offers : TableRef → String → Prop) (left right : Table) (pairs : KeyPairs) : Prop :=
  ∀ pair ∈ pairs, ∀ label, offers (occurrence left label) pair.1 ∧ offers (occurrence right label) pair.2

/-- The key columns of a relation are offered by the occurrences of its tables. -/
def RelationKeys.Offered (offers : TableRef → String → Prop) (source : Table) : RelationKeys → Prop
  | .direct target pairs => KeyPairs.Offered offers target source pairs
  | .pivot middle target sourcePairs targetPairs =>
    KeyPairs.Offered offers middle source sourcePairs ∧ KeyPairs.Offered offers target middle targetPairs

/-- Which tables statements range over and which columns their items offer. -/
structure Catalogue (registry : Registry) where
  Ranges : Table → Prop
  Offers : TableRef → String → Prop
  column : ∀ {table column} label, Ranges table → table.hasColumn column = true →
    Offers (occurrence table label) column
  key : ∀ {table column} label, Ranges table → column ∈ table.primaryKey →
    Offers (occurrence table label) column
  target : ∀ {table name relation keys}, Ranges table →
    registry.relation table name = .ok (relation, keys) → Ranges keys.target
  keys : ∀ {table name relation keys}, Ranges table →
    registry.relation table name = .ok (relation, keys) → keys.Offered Offers table
  /-- A derived table offers what is selected under a name. -/
  output : ∀ {query label item column}, item ∈ query.select → item.label = some column →
    Offers ⟨.derived query, label⟩ column

/-- All of the references resolve. -/
def AllResolve (offers : TableRef → String → Prop) (references : List Reference) : Prop :=
  ∀ reference ∈ references, reference.Resolves offers

section

variable {offers : TableRef → String → Prop} {items before : List TableRef}

@[simp] theorem allResolve_nil : AllResolve offers [] := by simp [AllResolve]

@[simp] theorem allResolve_append {references more : List Reference} :
    AllResolve offers (references ++ more) ↔ AllResolve offers references ∧ AllResolve offers more :=
  List.forall_mem_append

/-- A column of an item resolves to it. -/
theorem resolve_column {item : TableRef} {label column : String} (usable : item ∈ items)
    (exposes : item.exposedName = label) (offered : offers item column) :
    AllResolve offers ((Expr.of label column).references items) := by
  intro reference member
  obtain rfl : reference = ⟨items, label, some column⟩ := List.mem_singleton.1 member
  refine ⟨item, usable, exposes, ?_⟩
  intro other same
  obtain rfl : column = other := Option.some.inj same
  exact offered

theorem resolve_of {table : Table} {label column : String} (usable : occurrence table label ∈ items)
    (offered : offers (occurrence table label) column) :
    AllResolve offers ((Expr.of label column).references items) :=
  resolve_column usable (exposedName_occurrence table label) offered

/-! ### Built conditions -/

@[simp] theorem referencesOfEach_append (es fs : List Expr) :
    Expr.referencesOfEach items (es ++ fs) =
      Expr.referencesOfEach items es ++ Expr.referencesOfEach items fs := by
  induction es with
  | nil => rfl
  | cons e es ih => rw [List.cons_append, Expr.referencesOfEach, ih, Expr.referencesOfEach, List.append_assoc]

@[simp] theorem referencesOfEach_toList (e? : Option Expr) :
    Expr.referencesOfEach items e?.toList = Expr.referencesOfOption items e? := by
  cases e? with
  | none => rfl
  | some e => exact List.append_nil _

/-- Expressions that are combined from the left have the references of all of them. -/
theorem references_foldl {combine : Expr → Expr → Expr}
    (both : ∀ e f, (combine e f).references items = e.references items ++ f.references items) (e : Expr)
    (es : List Expr) :
    (es.foldl combine e).references items = e.references items ++ Expr.referencesOfEach items es := by
  induction es generalizing e with
  | nil => exact (List.append_nil _).symm
  | cons f fs ih => rw [List.foldl_cons, ih, both, List.append_assoc, Expr.referencesOfEach]

@[simp] theorem referencesOfOption_conjunction (es : List Expr) :
    Expr.referencesOfOption items (Expr.conjunction? es) = Expr.referencesOfEach items es := by
  cases es with
  | nil => rfl
  | cons e es => exact references_foldl (fun _ _ => rfl) e es

@[simp] theorem referencesOfOption_disjunction (es : List Expr) :
    Expr.referencesOfOption items (disjunction? es) = Expr.referencesOfEach items es := by
  cases es with
  | nil => rfl
  | cons e es => exact references_foldl (fun _ _ => rfl) e es

@[simp] theorem referencesOfEach_params (values : List Literal) :
    Expr.referencesOfEach items (values.map .param) = [] := by
  induction values with
  | nil => rfl
  | cons value values ih => rw [List.map_cons, Expr.referencesOfEach, ih, Expr.references, List.append_nil]

@[simp] theorem referencesOfEach_joins_append (joins more : List Join) :
    Join.referencesOfEach before (joins ++ more) =
      Join.referencesOfEach before joins ++
        Join.referencesOfEach (before ++ joins.map Join.table) more := by
  induction joins generalizing before with
  | nil => simp [Join.referencesOfEach]
  | cons join joins ih =>
      obtain ⟨kind, table, condition⟩ := join
      simp [Join.referencesOfEach, ih, List.append_assoc]

/-- Predicates on a column refer to it alone. -/
theorem references_predicate (op : FieldOp) (column : Expr) :
    (op.predicate column).references items = column.references items := by
  cases op <;> simp [FieldOp.predicate, Expr.compare, Expr.references]

/-! ### Uses of a relation -/

/-- A link of key columns refers to two items. -/
theorem resolve_link {left right : TableRef} {leftLabel rightLabel : String} {pairs : KeyPairs}
    (usableLeft : left ∈ items) (exposesLeft : left.exposedName = leftLabel)
    (usableRight : right ∈ items) (exposesRight : right.exposedName = rightLabel)
    (offered : ∀ pair ∈ pairs, offers left pair.1 ∧ offers right pair.2) :
    AllResolve offers ((keyLink leftLabel rightLabel pairs).references items) := by
  have each : ∀ more : KeyPairs, (∀ pair ∈ more, offers left pair.1 ∧ offers right pair.2) →
      AllResolve offers (Expr.referencesOfEach items
        (more.map fun pair => (Expr.of leftLabel pair.1).eq (Expr.of rightLabel pair.2))) := by
    intro more offered
    induction more with
    | nil => exact allResolve_nil
    | cons pair more ih =>
        obtain ⟨first, others⟩ := List.forall_mem_cons.1 offered
        have compared := allResolve_append.2 ⟨resolve_column usableLeft exposesLeft first.1,
          resolve_column usableRight exposesRight first.2⟩
        exact allResolve_append.2 ⟨compared, ih others⟩
  cases pairs with
  | nil => exact allResolve_nil
  | cons pair pairs =>
      have all := each _ offered
      rw [keyLink, List.map_cons, Expr.conjunction?, Option.getD_some, references_foldl fun _ _ => rfl]
      exact all

theorem resolve_keyLink {left right : Table} {leftLabel rightLabel : String} {pairs : KeyPairs}
    (usableLeft : occurrence left leftLabel ∈ items) (usableRight : occurrence right rightLabel ∈ items)
    (offered : KeyPairs.Offered offers left right pairs) :
    AllResolve offers ((keyLink leftLabel rightLabel pairs).references items) :=
  resolve_link usableLeft (exposedName_occurrence _ _) usableRight (exposedName_occurrence _ _)
    fun pair member => ⟨(offered pair member leftLabel).1, (offered pair member rightLabel).2⟩

end

section

variable {offers : TableRef → String → Prop} {items before : List TableRef} {names : Names} {table : Table}
  {label name : String} {keys : RelationKeys} {condition : Option Expr}

/-- The target of a use of a relation is among its joins. -/
theorem target_mem_joins : occurrence keys.target (reach names label name keys).label ∈
    ((reach names label name keys).joins condition).map Join.table := by
  cases keys <;> simp [reach, Reach.joins, Join.left, RelationKeys.target]

/-- A condition that strengthens the link of a target refers to both. -/
theorem resolve_narrowed {link : Expr} (links : AllResolve offers (link.references items)) :
    AllResolve offers (Expr.referencesOfOption items condition) →
      AllResolve offers (Expr.referencesOfOption items
        (some (match condition with
          | some e => link.and e
          | none => link))) := by
  intro narrows
  cases condition with
  | none => exact links
  | some e => exact allResolve_append.2 ⟨links, narrows⟩

/-- A left join of a stored table refers to what its condition does. -/
theorem resolve_left {source : Table} {sourceLabel : String} {condition : Expr} {joins : List Join}
    (conditioned : AllResolve offers (Expr.referencesOfOption (before ++ [occurrence source sourceLabel])
      (some condition)))
    (rest : AllResolve offers (Join.referencesOfEach (before ++ [occurrence source sourceLabel]) joins)) :
    AllResolve offers
      (Join.referencesOfEach before (Join.left (occurrence source sourceLabel) condition :: joins)) :=
  allResolve_append.2 ⟨allResolve_append.2 ⟨allResolve_nil, conditioned⟩, rest⟩

/-- The joins of a use of a relation refer to its source and to each other, in their order. -/
theorem resolve_joins (usable : occurrence table label ∈ before) (offered : keys.Offered offers table)
    (narrows : ∀ items, occurrence keys.target (reach names label name keys).label ∈ items →
      AllResolve offers (Expr.referencesOfOption items condition)) :
    AllResolve offers (Join.referencesOfEach before ((reach names label name keys).joins condition)) := by
  cases keys with
  | direct target pairs =>
      apply resolve_left
      · apply resolve_narrowed
        · exact resolve_keyLink List.mem_concat_self (List.mem_append_left _ usable) offered
        · exact narrows _ List.mem_concat_self
      · exact allResolve_nil
  | pivot middle target sourcePairs targetPairs =>
      apply resolve_left
      · exact resolve_keyLink List.mem_concat_self (List.mem_append_left _ usable) offered.1
      · apply resolve_left
        · apply resolve_narrowed
          · exact resolve_keyLink List.mem_concat_self (List.mem_append_left _ List.mem_concat_self) offered.2
          · exact narrows _ List.mem_concat_self
        · exact allResolve_nil

/-- A query of a constant refers to what its joins and its condition do. -/
theorem resolve_constant {source : Table} {sourceLabel : String} {joins : List Join} {link : Expr}
    (joined : AllResolve offers (Join.referencesOfEach [occurrence source sourceLabel] joins))
    (conditioned : AllResolve offers (Expr.referencesOfOption
      (occurrence source sourceLabel :: joins.map Join.table ++ items) (some link))) :
    AllResolve offers
      ({ Query.empty with
          select := [.plain (Expr.int 1)]
          source := some (occurrence source sourceLabel)
          joins := joins
          condition := some link : Query }.references items) := by
  intro reference member
  simp only [Query.references, Query.empty, SelectItem.plain, Expr.int, TableRef.referencesOfOption,
    SelectItem.referencesOfEach, Expr.references, Expr.referencesOfEach, Expr.referencesOfOption,
    OrderItem.referencesOfEach, List.append_nil, Option.toList_some, List.singleton_append] at member
  rcases List.mem_append.1 member with member | member
  · exact joined reference member
  · exact conditioned reference member

/-- The correlated query of a use of a relation refers to its source and to its own items. -/
theorem resolve_subquery (usable : occurrence table label ∈ items) (offered : keys.Offered offers table)
    (narrows : ∀ items, occurrence keys.target (reach names label name keys).label ∈ items →
      AllResolve offers (Expr.referencesOfOption items condition)) :
    AllResolve offers (((reach names label name keys).subquery condition).references items) := by
  have around : ∀ own, occurrence table label ∈ own ++ items := fun _ => List.mem_append_right _ usable
  cases keys with
  | direct target pairs =>
      have narrowed := resolve_narrowed
        (resolve_keyLink List.mem_cons_self (around [occurrence target _]) offered)
        (narrows _ List.mem_cons_self)
      cases condition <;> exact resolve_constant allResolve_nil narrowed
  | pivot middle target sourcePairs targetPairs =>
      have joined : ∀ targetLabel, AllResolve offers
          (Join.referencesOfEach [occurrence middle (pivotLabel names name middle)] [⟨.inner,
            occurrence target targetLabel, keyLink targetLabel (pivotLabel names name middle) targetPairs⟩]) := by
        intro targetLabel
        have usablePivot : occurrence middle (pivotLabel names name middle) ∈
            [occurrence middle (pivotLabel names name middle)] ++ [occurrence target targetLabel] :=
          List.mem_cons_self
        have links := resolve_keyLink List.mem_concat_self usablePivot offered.2
        exact allResolve_append.2 ⟨allResolve_append.2 ⟨allResolve_nil, links⟩, allResolve_nil⟩
      have narrowed := resolve_narrowed
        (resolve_keyLink List.mem_cons_self
          (around [occurrence middle (pivotLabel names name middle), occurrence target _]) offered.1)
        (narrows _ (List.mem_cons_of_mem _ List.mem_cons_self))
      cases condition <;> exact resolve_constant (joined _) narrowed

end

/-! ### Filters -/

/-- Joins and predicates that belong to an occurrence of a table refer to it, to joins before them, and
    within predicates to any of the joins. -/
structure Resolving (offers : TableRef → String → Prop) (source : TableRef) (joins : List Join)
    (predicates : List Expr) : Prop where
  ofJoins : ∀ before, source ∈ before → AllResolve offers (Join.referencesOfEach before joins)
  ofPredicates : ∀ items, source ∈ items → joins.map Join.table ⊆ items →
    AllResolve offers (Expr.referencesOfEach items predicates)

section

variable {offers : TableRef → String → Prop} {source : TableRef} {joins others : List Join}
  {predicates more : List Expr}

theorem Resolving.append (first : Resolving offers source joins predicates)
    (second : Resolving offers source others more) :
    Resolving offers source (joins ++ others) (predicates ++ more) where
  ofJoins := by
    intro before usable
    rw [referencesOfEach_joins_append, allResolve_append]
    exact ⟨first.ofJoins before usable, second.ofJoins _ (List.mem_append_left _ usable)⟩
  ofPredicates := by
    intro items usable inside
    rw [List.map_append, List.append_subset] at inside
    rw [referencesOfEach_append, allResolve_append]
    exact ⟨first.ofPredicates items usable inside.1, second.ofPredicates items usable inside.2⟩

/-- Other predicates with the same references belong to the occurrence just as well. -/
theorem Resolving.congr (resolving : Resolving offers source joins predicates)
    (same : ∀ items, Expr.referencesOfEach items more = Expr.referencesOfEach items predicates) :
    Resolving offers source joins more where
  ofJoins := resolving.ofJoins
  ofPredicates := by
    intro items usable inside
    rw [same]
    exact resolving.ofPredicates items usable inside

/-- Without joins, a single predicate that refers to the occurrence belongs to it. -/
theorem Resolving.one {e : Expr}
    (resolves : ∀ items, source ∈ items → AllResolve offers (e.references items)) :
    Resolving offers source [] [e] where
  ofJoins := fun _ _ => allResolve_nil
  ofPredicates := fun items usable _ => allResolve_append.2 ⟨resolves items usable, allResolve_nil⟩

/-- The condition that a list of predicates is combined to. -/
theorem Resolving.condition {e? : Option Expr} (resolving : Resolving offers source [] e?.toList) :
    ∀ items, source ∈ items → AllResolve offers (Expr.referencesOfOption items e?) := by
  intro items usable
  have resolves := resolving.ofPredicates items usable (List.nil_subset _)
  rwa [referencesOfEach_toList] at resolves

variable {registry : Registry} {table : Table} {label name : String} {joinable : Bool}
  {names names' : Names} {relation : Relation} {keys : RelationKeys}

/-- The test that a joined row is present refers to that row. -/
theorem resolve_presence {items : List TableRef} (offered : keys.Offered offers table)
    (usable : occurrence keys.target (reach names label name keys).label ∈ items) :
    AllResolve offers ((presence (reach names label name keys) keys).references items) := by
  unfold presence
  split
  · rename_i target column referenced pairs
    exact resolve_of usable (offered _ List.mem_cons_self _).1
  · exact allResolve_nil

/-- What lowering emits belongs to the occurrence that it is emitted for. -/
theorem Emits.resolving (catalogue : Catalogue registry)
    (emits : Emits registry table label joinable names predicates joins names') :
    catalogue.Ranges table → Resolving catalogue.Offers (occurrence table label) joins predicates := by
  induction emits with
  | nil =>
      intro ranges
      exact ⟨fun _ _ => allResolve_nil, fun _ _ _ => allResolve_nil⟩
  | append first second ihFirst ihSecond =>
      intro ranges
      exact (ihFirst ranges).append (ihSecond ranges)
  | conjunction parts ih =>
      intro ranges
      exact (ih ranges).congr fun items => by simp
  | disjunction parts ih =>
      intro ranges
      exact (ih ranges).congr fun items => by simp
  | dropped parts ih =>
      intro ranges
      exact ⟨fun _ _ => allResolve_nil, fun _ _ _ => allResolve_nil⟩
  | never =>
      intro ranges
      exact .one fun _ _ => allResolve_nil
  | negation part ih =>
      intro ranges
      exact (ih ranges).congr fun items => rfl
  | counterExample part ih =>
      intro ranges
      refine (ih ranges).congr fun items => ?_
      simp [Expr.referencesOfEach, Expr.references, RelQuery.counterExample, Expr.eq, Expr.compare,
        Expr.int, Expr.referencesOfOption, Expr.referencesOfBranches]
  | field op known =>
      intro ranges
      refine .one fun items usable => ?_
      rw [references_predicate]
      exact resolve_of usable (catalogue.column _ ranges known)
  | existsQuery negated found inner ih =>
      intro ranges
      have condition := (ih (catalogue.target ranges found)).condition
      exact .one fun items usable => resolve_subquery usable (catalogue.keys ranges found) condition
  | joined found joins_ok inner ih =>
      intro ranges
      have offered := catalogue.keys ranges found
      have below := ih (catalogue.target ranges found)
      constructor
      · intro before usable
        rw [referencesOfEach_joins_append, allResolve_append]
        refine ⟨resolve_joins usable offered fun _ _ => allResolve_nil, below.ofJoins _ ?_⟩
        exact List.mem_append_right _ target_mem_joins
      · intro items usable inside
        rw [List.map_append, List.append_subset] at inside
        have usableTarget := inside.1 target_mem_joins
        exact allResolve_append.2
          ⟨resolve_presence offered usableTarget, below.ofPredicates items usableTarget inside.2⟩

end

end RelQuery
