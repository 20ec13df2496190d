/-
Module: RelQuery.Proofs.Session.Fetched
Purpose: The groups of one deferred relation. Its batch is answered by the targets of the keys, behind the
  rows of the pivot table if there is one, and the group of a key shows what the relation attaches to the
  rows with that key.
Main exports: LazyLoad.describe_cases, Executor.Serves, Deferral.Asks, rows_pivotQuery,
  showsRows_loadedValue, fetch_yields
-/
import RelQuery.Proofs.Session.Filled
import RelQuery.Proofs.Session.Matched
import RelQuery.Proofs.Session.Yields

namespace RelQuery

open Sql
open Json (Members)

variable {V σ : Type}

/-- A deferred relation has keys of one column each, and its load knows them. -/
theorem LazyLoad.describe_cases {relation : Relation} {keys : RelationKeys} {request : Include}
    {path : String} {load : LazyLoad}
    (described : LazyLoad.describe relation keys request path = .ok load) :
    (∃ target targetColumn parentColumn, keys = .direct target [(targetColumn, parentColumn)] ∧
      load = ⟨relation.name, path, relation.kind, target.name, parentColumn, .direct targetColumn,
        request.columns, request.filter, request.includes⟩) ∨
    (∃ middle target sourceColumn parentColumn targetKey targetColumn,
      keys = .pivot middle target [(sourceColumn, parentColumn)] [(targetKey, targetColumn)] ∧
      load = ⟨relation.name, path, relation.kind, target.name, parentColumn,
        .pivot middle.name sourceColumn targetColumn targetKey, request.columns, request.filter,
        request.includes⟩) := by
  unfold LazyLoad.describe at described
  simp only at described
  split at described
  · obtain rfl := Except.ok.inj described
    exact .inl ⟨_, _, _, rfl, rfl⟩
  · obtain rfl := Except.ok.inj described
    exact .inr ⟨_, _, _, _, _, _, rfl, rfl⟩
  · contradiction

/-! ### Statements -/

/-- The executor answers the statement of a query with the rows of its answer. -/
def Executor.Serves (executor : Executor σ) (db : Database V) (render : Rendering db.engine)
    (query : Query) : Prop :=
  ∃ statement, query.compile executor.dialect = .ok statement ∧
    ∀ state, ∃ state', executor.execute statement state = (.ok (render.rows (query.answer db [])), state')

/-- The targets that belong to a batch of keys are asked for by their link column. Behind a pivot table
    they are asked for by the values that this refers to them with. -/
inductive TargetBatch (db : Database V) (render : Rendering db.engine) (source : Table) :
    RelationKeys → String → List Json → Prop
  | direct {target : Table} {targetColumn parentColumn : String} {batch : List Json}
      (isBatch : IsBatch render (db.valuesOf source parentColumn) batch) :
      TargetBatch db render source (.direct target [(targetColumn, parentColumn)]) targetColumn batch
  | pivot {middle target : Table} {sourceColumn parentColumn targetKey targetColumn : String}
      {batch : List Json} (isBatch : IsBatch render (db.valuesOf middle targetColumn) batch) :
      TargetBatch db render source
        (.pivot middle target [(sourceColumn, parentColumn)] [(targetKey, targetColumn)]) targetKey batch

theorem TargetBatch.targetColumn?_eq {db : Database V} {render : Rendering db.engine} {source : Table}
    {keys : RelationKeys} {column : String} {batch : List Json}
    (isBatch : TargetBatch db render source keys column batch) : keys.targetColumn? = some column := by
  cases isBatch <;> rfl

/-- The queries that the loading of a deferred relation asks: for the rows of a pivot table, if there is
    one, and for the targets. -/
inductive Deferral.Asks (db : Database V) (render : Rendering db.engine) (registry : Registry)
    (deferral : Deferral) : Query → Prop
  | links {middle target : Table} {sourceColumn parentColumn targetKey targetColumn : String}
      {batch : List Json}
      (keys : deferral.keys = .pivot middle target [(sourceColumn, parentColumn)] [(targetKey, targetColumn)])
      (isBatch : IsBatch render (db.valuesOf deferral.source parentColumn) batch) :
      Asks db render registry deferral (pivotQuery middle sourceColumn targetColumn batch)
  | targets {described column : String} {load : LazyLoad} {batch : List Json} {built : BuiltQuery}
      (loads : LazyLoad.describe deferral.relation deferral.keys deferral.request described = .ok load)
      (isBatch : TargetBatch db render deferral.source deferral.keys column batch)
      (build : (targetSelection deferral.keys.target load column batch).build registry = .ok built) :
      Asks db render registry deferral built.query

section

variable {db : Database V} (render : Rendering db.engine) (middle : Table)
  (sourceColumn targetColumn : String) (batch : List Json)

/-- A condition on the values of a batch is true of those that it binds. -/
theorem any_keyLiterals_beq_yes (engine : Engine V) (batch : List Json) (value : V) :
    (Truth.any ((keyLiterals batch).map fun literal =>
      engine.compare .eq value (engine.ofLiteral literal)) == .yes) = inBatch engine batch value := by
  rw [Bool.eq_iff_iff, beq_iff_eq, Truth.any_eq_yes, inBatch, List.any_eq_true, List.mem_map]
  simp only [beq_iff_eq]

theorem matching_pivotQuery : (pivotQuery middle sourceColumn targetColumn batch).matching db [] =
    ((db.rowsOf middle).filter fun between =>
      inBatch db.engine batch (db.engine.read between sourceColumn)).map fun between =>
        [(middle.name, between)] := by
  have started : ((pivotQuery middle sourceColumn targetColumn batch).joined db []).scopes =
      (db.rowsOf middle).map fun between => [(middle.name, between)] := by
    simp [pivotQuery, Query.joined, Query.empty, TableRef.start_some, JoinKind.combine, extendMatching,
      Sql.Database.rowsOf]
  rw [Query.matching, started, List.filter_map]
  congr 1
  apply List.filter_congr
  intro between _
  rw [← any_keyLiterals_beq_yes]
  simp [pivotQuery, Expr.of, Function.comp_def]

/-- The statement for the rows of a pivot table is answered by those whose source is in the batch. -/
theorem rows_pivotQuery : ∃ betweens : List (Record V),
    betweens.Perm ((db.rowsOf middle).filter fun between =>
      inBatch db.engine batch (db.engine.read between sourceColumn)) ∧
    render.rows ((pivotQuery middle sourceColumn targetColumn batch).answer db []) =
      betweens.map (linkRow render sourceColumn targetColumn) := by
  have plain : (pivotQuery middle sourceColumn targetColumn batch).IsPlain db.engine := ⟨rfl, rfl⟩
  refine ⟨((pivotQuery middle sourceColumn targetColumn batch).ordered db []).map fun scope =>
    scope.get middle.name, ?_, ?_⟩
  · have perm := (Query.ordered_perm db [] (pivotQuery middle sourceColumn targetColumn batch)).map
      fun scope => scope.get middle.name
    rw [matching_pivotQuery, List.map_map] at perm
    simpa [Function.comp_def] using perm
  · rw [Rendering.rows, Query.rows_of_isPlain db [] _ plain]
    change List.map _ (List.map _ (Query.ordered db [] _)) = _
    rw [List.map_map, List.map_map]
    rfl

end

/-! ### Columns of loaded objects -/

section

variable {table : Table}

/-- The field of a column that is shown holds its value, in the form of its type. -/
theorem ShowsColumns.get? {engine : Engine V} {render : Rendering engine} {row : Record V}
    {names : List String} {shown rest : Members} {name : String}
    (shows : ShowsColumns render table row names shown) (listed : name ∈ names) :
    Members.get? (shown ++ rest) name =
      some (table.form name (render.toJson (engine.read row name))) := by
  obtain ⟨-, rfl⟩ := showsColumns_iff.1 shows
  clear shows
  induction names with
  | nil => contradiction
  | cons first names ih =>
      rw [Members.get?, List.map_cons, List.cons_append, List.lookup_cons]
      by_cases here : name = first
      · simp [here]
      · have apart : (name == first) = false := by simpa using here
        rw [apart]
        exact ih ((List.mem_cons.1 listed).resolve_left here)

/-- So does the field of an object that depicts a row. -/
theorem fieldOf?_of_depicts {db : Database V} {render : Rendering db.engine} {registry : Registry}
    {columns : Option (List String)} {requests : List Include} {pending : List String → Bool}
    {row : Record V} {value : Json} {name : String} (known : table.hasColumn name = true)
    (asked : ∀ names ∈ columns, name ∈ names)
    (depicts : Depicts db render registry table columns requests pending row value) :
    fieldOf? value name = some (table.form name (render.toJson (db.engine.read row name))) := by
  obtain ⟨shown, deferred, joined, shows, -, rfl⟩ := depicts
  rw [fieldOf?, List.append_assoc]
  refine shows.get? (List.mem_append_left _ ?_)
  cases columns with
  | none =>
      obtain ⟨declared, found⟩ := Option.isSome_iff_exists.1 known
      have same : declared.name = name := by simpa using List.find?_some found
      exact List.mem_map.2 ⟨declared, List.mem_of_find?_eq_some found, same⟩
  | some names => exact List.mem_append_right _ (asked names rfl)

end

/-! ### Groups -/

/-- A group that shows the attached rows makes what stands in the field of the relation. -/
theorem showsRows_loadedValue {kind : RelationKind} {rows order : List (Record V)}
    {shows : Record V → Json → Prop} {group : List Json} (perm : order.Perm rows)
    (matched : List.Forall₂ shows order group) (atMostOne : kind.isToMany = false → rows.length ≤ 1) :
    ShowsRows kind rows shows (loadedValue kind group) := by
  rw [showsRows_iff, loadedValue]
  cases many : kind.isToMany with
  | true => exact ⟨group, order, perm, matched, rfl⟩
  | false =>
      have few := atMostOne many
      rw [if_neg Bool.false_ne_true, if_neg Bool.false_ne_true]
      rcases rows with - | ⟨row, others⟩
      · obtain rfl := perm.eq_nil
        cases matched
        exact .inl ⟨rfl, rfl⟩
      · obtain rfl : others = [] := by simpa using few
        obtain rfl := List.perm_singleton.1 perm
        rcases matched with - | ⟨first, rest⟩
        cases rest
        exact .inr ⟨row, rfl, first⟩

/-- The column by which the rows of a deferred relation are found is always requested. -/
theorem mem_requestedColumns {keys : RelationKeys} {column : String}
    (found : keys.targetColumn? = some column) (columns : Option (List String)) :
    ∀ names ∈ requestedColumns keys true columns, column ∈ names := by
  intro names asked
  simp only [requestedColumns, found, Option.mem_def, Option.map_eq_some_iff] at asked
  obtain ⟨given, -, rfl⟩ := asked
  split
  · assumption
  · simp

section

variable (db : Database V) (render : Rendering db.engine) (registry : Registry)

/-- The objects that are loaded for the keys of a batch show the rows that have these. -/
def Delivers (request : Include) (keys : RelationKeys) (column : String) (batch values : List Json) : Prop :=
  ∃ rows : List (Record V), rows.Perm (batchRows db registry request.filter keys.target column batch) ∧
    List.Forall₂ (Depicts db render registry keys.target (requestedColumns keys true request.columns)
      request.includes fun _ => false) rows values

/-- The group of each key of a batch shows what a deferred relation attaches to the rows with the key. -/
def GroupsShow (deferral : Deferral) (load : LazyLoad) (batch : List Json) (groups : Groups) : Prop :=
  ∀ row ∈ db.rowsOf deferral.source, db.engine.isNull (db.engine.read row load.parentColumn) = false →
    (∃ key ∈ batch, key.text = (render.toJson (db.engine.read row load.parentColumn)).text) →
      ShowsDeferred db render registry deferral.request deferral.relation deferral.keys false row
        (loadedValue load.kind (groups.of (render.toJson (db.engine.read row load.parentColumn))))

end

section

variable {db : Database V} {render : Rendering db.engine} {registry : Registry} {source target : Table}
  {request : Include} {relation : Relation} {load : LazyLoad} {parentColumn : String}
  {batch values : List Json} (valid : registry.validate = .ok ()) (unique : db.LinksToOne registry)
  (registered : source ∈ registry.tables) (kind : load.kind = relation.kind)
  (parent : load.parentColumn = parentColumn) (asks : AsksFor render (db.valuesOf source parentColumn) batch)

include valid unique registered kind parent asks

/-- Targets that are grouped by their link column show what the relation attaches. -/
theorem groupsShow_direct {targetColumn : String}
    (found : registry.relation source request.relation =
      .ok (relation, .direct target [(targetColumn, parentColumn)]))
    (matched : MatchedByText db render registry source request.filter
      (.direct target [(targetColumn, parentColumn)]))
    (delivered : Delivers db render registry request (.direct target [(targetColumn, parentColumn)])
      targetColumn batch values) :
    GroupsShow db render registry ⟨source, request, relation, .direct target [(targetColumn, parentColumn)]⟩
      load batch (groupDirect targetColumn values) := by
  subst parent
  obtain ⟨rows, complete, shown⟩ := delivered
  have known := Registry.known_of_relation valid registered found
  have batched : ShowsBatch db render target targetColumn _ rows values :=
    ⟨shown, fun related value => fieldOf?_of_depicts (known _ List.mem_cons_self).1
      (mem_requestedColumns rfl _)⟩
  rintro row stored present ⟨key, inside, same⟩
  obtain ⟨order, perm, ofKey⟩ := attached_of_direct matched asks complete batched stored present inside same
  rw [kind]
  exact showsRows_loadedValue perm ofKey (length_attachedRows_le_one unique registered found (.inl stored))

/-- So do targets that are grouped through the rows of a pivot table. -/
theorem groupsShow_pivot {middle : Table} {sourceColumn targetKey targetColumn : String}
    (found : registry.relation source request.relation =
      .ok (relation, .pivot middle target [(sourceColumn, parentColumn)] [(targetKey, targetColumn)]))
    (keyed : db.Keyed target)
    (matched : MatchedByText db render registry source request.filter
      (.pivot middle target [(sourceColumn, parentColumn)] [(targetKey, targetColumn)]))
    {betweens : List (Record V)} (answered : betweens.Perm ((db.rowsOf middle).filter fun between =>
      inBatch db.engine batch (db.engine.read between sourceColumn)))
    (delivered : Delivers db render registry request
      (.pivot middle target [(sourceColumn, parentColumn)] [(targetKey, targetColumn)]) targetKey
      (childKeys (betweens.map (linkRow render sourceColumn targetColumn))) values) :
    GroupsShow db render registry
      ⟨source, request, relation,
        .pivot middle target [(sourceColumn, parentColumn)] [(targetKey, targetColumn)]⟩ load batch
      (groupPivot targetKey (betweens.map (linkRow render sourceColumn targetColumn)) values) := by
  subst parent
  obtain ⟨rows, complete, shown⟩ := delivered
  have known := Registry.known_of_relation valid registered found
  have batched : ShowsBatch db render target targetKey _ rows values :=
    ⟨shown, fun related value => fieldOf?_of_depicts (known.2 _ List.mem_cons_self).1
      (mem_requestedColumns rfl _)⟩
  rintro row stored present ⟨key, inside, same⟩
  obtain ⟨order, perm, ofKey⟩ := attached_of_pivot matched answered complete stored present keyed asks
    batched inside same
  rw [kind]
  exact showsRows_loadedValue perm ofKey (length_attachedRows_le_one unique registered found (.inl stored))

end

section

variable {db : Database V} {render : Rendering db.engine} {registry : Registry} {executor : Executor σ}
  {deferral : Deferral} {described : String} {load : LazyLoad} {loadAll : Output → SessionM σ Output}
  {batch : List Json}

/-- Without keys there is nothing to be shown. -/
theorem groupsShow_nil : GroupsShow db render registry deferral load [] [] := by
  rintro row - - ⟨key, member, -⟩
  contradiction

/-- Where a pivot table has no targets for a batch, no objects deliver these, and no groups do. -/
theorem GroupsShow.of_groupPivot_nil {column : String} {links : List Row}
    (shows : GroupsShow db render registry deferral load batch (groupPivot column links [])) :
    GroupsShow db render registry deferral load batch [] := by
  intro row stored present asked
  have shown := shows row stored present asked
  have nothing : links.filterMap (linkedTarget? column []
      (render.toJson (db.engine.read row load.parentColumn))) = [] := by
    apply List.filterMap_eq_nil_iff.2
    intro link _
    unfold linkedTarget?
    split
    · split <;> rfl
    · rfl
  rwa [Groups.of_groupPivot, nothing] at shown

theorem delivers_nil {request : Include} {keys : RelationKeys} {column : String} :
    Delivers db render registry request keys column [] [] := by
  have nothing : batchRows db registry request.filter keys.target column [] = [] :=
    List.filter_eq_nil_iff.2 fun related _ => by simp [inBatch, keyLiterals]
  exact ⟨[], by rw [nothing], .nil⟩

/-- The groups that are fetched show, for each key of the batch, what the relation attaches. -/
theorem fetch_yields (valid : registry.validate = .ok ()) (unique : db.LinksToOne registry)
    (registered : deferral.source ∈ registry.tables)
    (found : registry.relation deferral.source deferral.request.relation =
      .ok (deferral.relation, deferral.keys))
    (loads : LazyLoad.describe deferral.relation deferral.keys deferral.request described = .ok load)
    (keyed : db.Keyed deferral.keys.target)
    (matched : MatchedByText db render registry deferral.source deferral.request.filter deferral.keys)
    (asks : AsksFor render (db.valuesOf deferral.source load.parentColumn) batch)
    (nodup : (batch.map Json.text).Nodup)
    (serves : ∀ query, deferral.Asks db render registry query → executor.Serves db render query)
    (targets : ∀ column batch, TargetBatch db render deferral.source deferral.keys column batch →
      (loadTargets registry executor loadAll load column batch).Yields
        (Delivers db render registry deferral.request deferral.keys column batch)) :
    (fetch registry executor loadAll load batch).Yields
      (GroupsShow db render registry deferral load batch) := by
  obtain ⟨source, request, relation, keys⟩ := deferral
  rw [fetch]
  split
  · rename_i empty
    rw [List.isEmpty_iff.1 empty]
    exact .pure groupsShow_nil
  rename_i filled
  have nonempty : batch ≠ [] := fun empty => filled (by rw [empty, List.isEmpty_nil])
  rcases LazyLoad.describe_cases loads with
    ⟨target, targetColumn, parentColumn, rfl, rfl⟩ |
      ⟨middle, target, sourceColumn, parentColumn, targetKey, targetColumn, rfl, rfl⟩
  · refine (targets targetColumn batch (.direct ⟨asks, nodup, nonempty⟩)).bind
      fun values delivered => .pure ?_
    exact groupsShow_direct valid unique registered rfl rfl asks found matched delivered
  · have middleFound := (Registry.table_of_relation found).2 middle _ _ _ rfl
    obtain ⟨statement, compiled, answers⟩ := serves _ (.links rfl ⟨asks, nodup, nonempty⟩)
    refine (SessionM.Yields.ofExcept middleFound).bind ?_
    rintro _ rfl
    refine (SessionM.Yields.ofExcept compiled).bind ?_
    rintro _ rfl
    refine (SessionM.Yields.run answers).bind ?_
    rintro _ rfl
    obtain ⟨betweens, answered, rows⟩ := rows_pivotQuery render middle sourceColumn targetColumn batch
    rw [rows]
    simp only
    split
    · rename_i childless
      refine .pure (GroupsShow.of_groupPivot_nil (groupsShow_pivot valid unique registered rfl rfl asks found
        keyed matched answered ?_))
      rw [List.isEmpty_iff.1 childless]
      exact delivers_nil
    · rename_i children
      have stored : betweens ⊆ db.rowsOf middle := fun between member =>
        List.mem_of_mem_filter (answered.subset member)
      refine (targets targetKey _ (.pivot ⟨asksFor_childKeys stored, nodup_texts_distinctKeys _, ?_⟩)).bind
        fun values delivered => .pure ?_
      · intro empty
        exact children (by rw [empty, List.isEmpty_nil])
      · exact groupsShow_pivot valid unique registered rfl rfl asks found keyed matched answered delivered

end

end RelQuery
