/-
Module: RelQuery.Proofs.Schema.Keys
Purpose: The keys of a relation: which columns link a table to the target of a relation, and that these are
  what is determined. There is at least one pair of columns on every side, and only a relation to many rows
  runs through a pivot.
Main exports: RelationKeys.Proper, Registry.Links, Registry.relationKeys_eq_ok, Registry.relation_eq_ok_iff,
  Registry.proper_of_relation, Registry.target_mem_of_relation, Registry.isDirect_of_relation
-/
import RelQuery.Schema.Registry

namespace RelQuery

/-- Every link of the relation compares at least one pair of columns. -/
def RelationKeys.Proper : RelationKeys → Prop
  | .direct _ pairs => pairs ≠ []
  | .pivot _ _ sourcePairs targetPairs => sourcePairs ≠ [] ∧ targetPairs ≠ []

/-- A computation that succeeds after another one has succeeded with the value that it goes on with. -/
theorem Except.bind_eq_ok {ε α β : Type} {x : Except ε α} {f : α → Except ε β} {b : β} :
    (x >>= f) = .ok b ↔ ∃ a, x = .ok a ∧ f a = .ok b := by
  cases x with
  | error e => simp [bind, Except.bind]
  | ok a => simp [bind, Except.bind]

/-- A computation fails if its first step does, or else the second. -/
theorem Except.bind_eq_error {ε α β : Type} {x : Except ε α} {f : α → Except ε β} {e : ε} :
    (x >>= f) = .error e ↔ x = .error e ∨ ∃ a, x = .ok a ∧ f a = .error e := by
  cases x with
  | error fault => simp [bind, Except.bind]
  | ok a => simp [bind, Except.bind]

/-- A second step that always succeeds leaves the failure to the first one. -/
theorem Except.bind_pure_eq_error {ε α β : Type} {x : Except ε α} {f : α → β} {e : ε} :
    (x >>= fun a => pure (f a)) = .error e ↔ x = .error e := by
  rw [Except.bind_eq_error]
  simp [pure, Except.pure]

/-- The columns that the foreign key of a relation points at: the primary key of a table unless others are
    declared. -/
def Relation.referenced (relation : Relation) (table : Table) : List String :=
  if relation.references = [] then table.primaryKey else relation.references

/-- The columns of two keys can be paired: there are some, and equally many on both sides. -/
def KeysFit (left right : List String) : Prop := left ≠ [] ∧ left.length = right.length

theorem KeysFit.zip_ne_nil {left right : List String} (fit : KeysFit left right) : left.zip right ≠ [] := by
  obtain ⟨filled, same⟩ := fit
  intro empty
  rw [List.zip_eq_nil_iff] at empty
  rcases empty with rfl | rfl
  · exact filled rfl
  · exact filled (List.length_eq_zero_iff.1 same)

namespace Registry

/-- A relation links a table to its target by the columns that it declares. The foreign key is held by the
    source, by the target or, one for each of them, by a pivot table. -/
inductive Links (registry : Registry) (source : Table) (relation : Relation) : RelationKeys → Prop
  | heldBySource {target : Table} (kind : relation.kind = .belongsTo)
      (known : registry.get? relation.target = some target)
      (fit : KeysFit (relation.referenced target) relation.foreignKey) :
      Links registry source relation (.direct target ((relation.referenced target).zip relation.foreignKey))
  | heldByTarget {target : Table} (kind : relation.kind = .hasOne ∨ relation.kind = .hasMany)
      (known : registry.get? relation.target = some target)
      (fit : KeysFit relation.foreignKey (relation.referenced source)) :
      Links registry source relation (.direct target (relation.foreignKey.zip (relation.referenced source)))
  | heldByPivot {target middle : Table} {pivot : Pivot} (kind : relation.kind = .belongsToMany)
      (known : registry.get? relation.target = some target) (declared : relation.pivot = some pivot)
      (through : registry.get? pivot.table = some middle)
      (fitSource : KeysFit pivot.sourceKey source.primaryKey)
      (fitTarget : KeysFit (relation.referenced target) pivot.targetKey) :
      Links registry source relation (.pivot middle target (pivot.sourceKey.zip source.primaryKey)
        ((relation.referenced target).zip pivot.targetKey))

variable {registry : Registry} {source : Table} {relation : Relation} {keys : RelationKeys}

/-- A linked table is registered under its name. -/
theorem linkedTable_eq_ok {name : String} {table : Table} :
    registry.linkedTable source.name relation name = .ok table ↔ registry.get? name = some table := by
  unfold linkedTable
  cases registry.get? name <;> simp

theorem keyOrPrimary_eq_ok {explicit key : List String} {table : Table} {name : String} :
    keyOrPrimary explicit table name relation = .ok key ↔
      key ≠ [] ∧ key = if explicit = [] then table.primaryKey else explicit := by
  unfold keyOrPrimary
  have given (known : List String) (filled : known ≠ []) :
      (.ok known : Except SchemaError (List String)) = .ok key ↔ key ≠ [] ∧ key = known := by
    rw [Except.ok.injEq]
    exact ⟨fun same => ⟨same ▸ filled, same.symm⟩, fun both => both.2.symm⟩
  cases explicit with
  | cons column columns => simpa using given (column :: columns) (List.cons_ne_nil _ _)
  | nil =>
      cases primary : table.primaryKey with
      | cons column columns => simpa using given (column :: columns) (List.cons_ne_nil _ _)
      | nil => simp

theorem pairKeys_eq_ok {left right : List String} {name : String} {pairs : KeyPairs} :
    pairKeys left right name relation = .ok pairs ↔ KeysFit left right ∧ pairs = left.zip right := by
  unfold pairKeys KeysFit
  split
  · rename_i misfit
    simp only [reduceCtorEq, false_iff, not_and]
    intro fit
    exact absurd fit.2 (misfit.resolve_left (by simpa using fit.1))
  · rename_i fit
    rw [not_or, Decidable.not_not, List.isEmpty_iff] at fit
    simp [fit, eq_comm]

/-- The keys of a relation are determined exactly as far as it links its table to the target. -/
theorem relationKeys_eq_ok : registry.relationKeys source relation = .ok keys ↔
    registry.Links source relation keys := by
  unfold relationKeys
  simp only [Except.bind_eq_ok, linkedTable_eq_ok]
  constructor
  · rintro ⟨target, known, resolved⟩
    split at resolved
    case h_1 kind =>
      simp only [Except.bind_eq_ok, keyOrPrimary_eq_ok, pairKeys_eq_ok] at resolved
      obtain ⟨_, ⟨-, rfl⟩, _, ⟨fit, rfl⟩, made⟩ := resolved
      obtain rfl := Except.ok.inj made
      exact .heldBySource kind known fit
    case h_2 kind | h_3 kind =>
      simp only [Except.bind_eq_ok, keyOrPrimary_eq_ok, pairKeys_eq_ok] at resolved
      obtain ⟨_, ⟨-, rfl⟩, _, ⟨fit, rfl⟩, made⟩ := resolved
      obtain rfl := Except.ok.inj made
      exact .heldByTarget (by simp [kind]) known fit
    case h_4 kind =>
      split at resolved
      · contradiction
      · rename_i pivot declared
        simp only [Except.bind_eq_ok, linkedTable_eq_ok, keyOrPrimary_eq_ok, pairKeys_eq_ok] at resolved
        obtain ⟨_, through, _, ⟨-, rfl⟩, _, ⟨-, rfl⟩, _, ⟨fitSource, rfl⟩, _, ⟨fitTarget, rfl⟩, made⟩ :=
          resolved
        obtain rfl := Except.ok.inj made
        exact .heldByPivot kind known declared through fitSource fitTarget
  · -- The referenced columns that are paired are not missing, so that nothing fails.
    have filled {left right : List String} (fit : KeysFit left right) : right ≠ [] := by
      rintro rfl
      exact fit.1 (List.length_eq_zero_iff.1 fit.2)
    rintro (⟨kind, known, fit⟩ | ⟨kind, known, fit⟩ | ⟨kind, known, declared, through, fitSource, fitTarget⟩)
    · refine ⟨_, known, ?_⟩
      simp only [kind, Except.bind_eq_ok, keyOrPrimary_eq_ok, pairKeys_eq_ok]
      exact ⟨_, ⟨fit.1, rfl⟩, _, ⟨fit, rfl⟩, rfl⟩
    · refine ⟨_, known, ?_⟩
      rcases kind with kind | kind
      all_goals
        simp only [kind, Except.bind_eq_ok, keyOrPrimary_eq_ok, pairKeys_eq_ok]
        exact ⟨_, ⟨filled fit, rfl⟩, _, ⟨fit, rfl⟩, rfl⟩
    · refine ⟨_, known, ?_⟩
      simp only [kind, declared, Except.bind_eq_ok, linkedTable_eq_ok, keyOrPrimary_eq_ok, pairKeys_eq_ok]
      exact ⟨_, through, _, ⟨filled fitSource, rfl⟩, _, ⟨fitTarget.1, rfl⟩, _, ⟨fitSource, rfl⟩, _,
        ⟨fitTarget, rfl⟩, rfl⟩

/-- The keys that a relation can have. -/
theorem relationKeys_cases (resolved : registry.relationKeys source relation = .ok keys) :
    (relation.kind ≠ .belongsToMany ∧ ∃ target pairs, keys = .direct target pairs ∧ pairs ≠ [] ∧
        registry.get? relation.target = some target) ∨
      (relation.kind = .belongsToMany ∧ ∃ pivot target sourcePairs targetPairs,
        keys = .pivot pivot target sourcePairs targetPairs ∧ sourcePairs ≠ [] ∧ targetPairs ≠ [] ∧
        registry.get? relation.target = some target ∧ ∃ name, registry.get? name = some pivot) := by
  cases relationKeys_eq_ok.1 resolved with
  | heldBySource kind known fit => exact .inl ⟨by simp [kind], _, _, rfl, fit.zip_ne_nil, known⟩
  | heldByTarget kind known fit =>
      exact .inl ⟨by rcases kind with kind | kind <;> simp [kind], _, _, rfl, fit.zip_ne_nil, known⟩
  | heldByPivot kind known declared through fitSource fitTarget =>
      exact .inr ⟨kind, _, _, _, _, rfl, fitSource.zip_ne_nil, fitTarget.zip_ne_nil, known, _, through⟩

/-- A registered table is among the tables. -/
theorem mem_of_get? {name : String} {table : Table} (found : registry.get? name = some table) :
    table ∈ registry.tables :=
  List.mem_of_find?_eq_some found

/-- What a relation of a table is once it has been found. -/
theorem relation_eq_ok {name : String} (found : registry.relation source name = .ok (relation, keys)) :
    source.relation? name = some relation ∧ registry.relationKeys source relation = .ok keys := by
  unfold Registry.relation at found
  split at found
  · contradiction
  · rename_i declared known
    split at found
    · rename_i determined resolved
      obtain ⟨rfl, rfl⟩ : declared = relation ∧ determined = keys := by simpa using found
      exact ⟨known, resolved⟩
    · contradiction

/-- A relation is found exactly if the table declares it and it links the table to its target. -/
theorem relation_eq_ok_iff {name : String} : registry.relation source name = .ok (relation, keys) ↔
    source.relation? name = some relation ∧ registry.Links source relation keys := by
  constructor
  · intro found
    obtain ⟨declared, resolved⟩ := relation_eq_ok found
    exact ⟨declared, relationKeys_eq_ok.1 resolved⟩
  · rintro ⟨declared, links⟩
    rw [Registry.relation, declared]
    simp only [relationKeys_eq_ok.2 links]

/-- A table declares a relation of a name and its keys in one way. -/
theorem relation_unique {name : String} {relation' : Relation} {keys' : RelationKeys}
    (found : registry.relation source name = .ok (relation, keys))
    (found' : registry.relation source name = .ok (relation', keys')) : relation = relation' ∧ keys = keys' :=
  Prod.mk.inj (Except.ok.inj (found.symm.trans found'))

theorem name_of_relation {name : String}
    (found : registry.relation source name = .ok (relation, keys)) : relation.name = name := by
  simpa using List.find?_some (relation_eq_ok found).1

theorem mem_relations_of_relation {name : String}
    (found : registry.relation source name = .ok (relation, keys)) : relation ∈ source.relations :=
  List.mem_of_find?_eq_some (relation_eq_ok found).1

theorem proper_of_relation {name : String}
    (found : registry.relation source name = .ok (relation, keys)) : keys.Proper := by
  rcases relationKeys_cases (relation_eq_ok found).2 with
    ⟨-, target, pairs, rfl, paired, -⟩ | ⟨-, pivot, target, sourcePairs, targetPairs, rfl, first, second, -⟩
  · exact paired
  · exact ⟨first, second⟩

theorem target_mem_of_relation {name : String}
    (found : registry.relation source name = .ok (relation, keys)) :
    keys.target ∈ registry.tables := by
  rcases relationKeys_cases (relation_eq_ok found).2 with
    ⟨-, target, pairs, rfl, -, registered⟩ |
      ⟨-, pivot, target, sourcePairs, targetPairs, rfl, -, -, registered, -⟩
  · exact mem_of_get? registered
  · exact mem_of_get? registered

/-- A relation to one row has no pivot. -/
theorem isDirect_of_relation {name : String}
    (found : registry.relation source name = .ok (relation, keys))
    (toOne : relation.kind.isToMany = false) :
    ∃ target pairs, keys = .direct target pairs ∧ pairs ≠ [] := by
  rcases relationKeys_cases (relation_eq_ok found).2 with
    ⟨-, target, pairs, rfl, paired, -⟩ | ⟨many, -⟩
  · exact ⟨target, pairs, rfl, paired⟩
  · simp [many, RelationKind.isToMany] at toOne

end Registry

end RelQuery
