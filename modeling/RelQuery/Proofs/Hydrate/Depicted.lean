/-
Module: RelQuery.Proofs.Hydrate.Depicted
Purpose: Nesting the rows of an answer depicts the rows of the database. Where scopes show rows of a table
  as an occurrence of a plan, however often and in whatever company, grouping finds each of them once,
  and by induction on the includes each group makes the object that depicts its row.
Main exports: Displays, Displays.exists_order, Displays.pairwise_firstSeen, Covers.value_nest, Covers.depicts
-/
import RelQuery.Proofs.Hydrate.Objects
import RelQuery.Proofs.Plan.Columns

namespace RelQuery

open Sql
open Json (Members)

variable {V : Type} {db : Database V} {render : Rendering db.engine} {row : Scope V → Row}

/-! ### Groups of scopes -/

/-- Some scopes show rows of a table as an occurrence of a plan, and nothing else but absent records. -/
structure Displays (render : Rendering db.engine) (row : Scope V → Row) (table : Table)
    (plan : Projection) (shown : List (Record V)) (scopes : List (Scope V)) : Prop where
  keyed : db.Keyed table
  stored : ∀ record ∈ shown, record ∈ db.rowsOf table
  distinct : shown.Nodup
  rowKey_eq : ∀ scope, rowKey plan (row scope) = render.keyText table.primaryKey (scope.get plan.label)
  sound : ∀ scope ∈ scopes, scope.get plan.label ∈ shown ∨ db.engine.IsAbsent (scope.get plan.label)
  complete : ∀ record ∈ shown, ∃ scope ∈ scopes, scope.get plan.label = record

namespace Displays

variable {table : Table} {plan : Projection} {shown : List (Record V)} {scopes : List (Scope V)}

/-- A scope has the key of a shown record exactly if it shows the record. -/
theorem rowKey_eq_iff (displays : Displays render row table plan shown scopes) {scope : Scope V}
    (member : scope ∈ scopes) {record : Record V} (isShown : record ∈ shown) :
    rowKey plan (row scope) = render.keyText table.primaryKey record ↔ scope.get plan.label = record := by
  rw [displays.rowKey_eq]
  constructor
  · intro same
    rcases displays.sound scope member with showsRow | absent
    · exact displays.keyed.keyText_injective render (displays.stored _ showsRow)
        (displays.stored _ isShown) same
    · have present := displays.keyed.keyText_isSome render (displays.stored _ isShown)
      rw [← same, keyText_absent render absent] at present
      simp at present
  · rintro rfl
    rfl

/-- Grouping by key finds each shown record once. -/
theorem exists_order (displays : Displays render row table plan shown scopes) :
    ∃ order : List (Record V), order.Perm shown ∧
      List.Forall₂ (fun record k => render.keyText table.primaryKey record = some k) order
        (keysOf (rowKey plan) (scopes.map row)) := by
  refine exists_order_of_keys (nodup_keysOf _) displays.distinct ?_ ?_ ?_
  · intro a memberA b memberB
    exact displays.keyed.keyText_injective render (displays.stored a memberA) (displays.stored b memberB)
  · intro k listed
    obtain ⟨_, inside, keyed⟩ := mem_keysOf.1 listed
    obtain ⟨scope, member, rfl⟩ := List.mem_map.1 inside
    rw [displays.rowKey_eq] at keyed
    rcases displays.sound scope member with showsRow | absent
    · exact ⟨_, showsRow, keyed⟩
    · rw [keyText_absent render absent] at keyed
      contradiction
  · intro record member
    obtain ⟨scope, inside, same⟩ := displays.complete record member
    obtain ⟨k, keyed⟩ := Option.isSome_iff_exists.1
      (displays.keyed.keyText_isSome render (displays.stored record member))
    refine ⟨k, mem_keysOf.2 ⟨row scope, List.mem_map_of_mem inside, ?_⟩, keyed⟩
    rw [← keyed, displays.rowKey_eq, same]

/-- Where scopes are sorted, so are the records as grouping finds them: some scope of an earlier record stands
    before all scopes of a later one. -/
theorem pairwise_firstSeen (displays : Displays render row table plan shown scopes)
    {before : Scope V → Scope V → Prop} (sorted : scopes.Pairwise before) {order : List (Record V)}
    (inside : ∀ record ∈ order, record ∈ shown)
    (matched : List.Forall₂ (fun record k => render.keyText table.primaryKey record = some k) order
      (keysOf (rowKey plan) (scopes.map row))) :
    order.Pairwise fun a b => ∃ scope ∈ scopes, scope.get plan.label = a ∧
      ∀ other ∈ scopes, other.get plan.label = b → before scope other := by
  have firstSeen : (keysOf (rowKey plan) (scopes.map row)).Pairwise fun j k =>
      ∃ scope ∈ scopes, rowKey plan (row scope) = some j ∧
        ∀ other ∈ scopes, rowKey plan (row other) = some k → before scope other := by
    rw [keysOf_map]
    exact keysOf_firstSeen sorted
  refine pairwise_of_forall₂ matched firstSeen ?_
  rintro a memberA b memberB j k keyA keyB ⟨scope, member, first, earlier⟩
  refine ⟨scope, member, ?_, fun other among same => earlier other among ?_⟩
  · exact (displays.rowKey_eq_iff member (inside a memberA)).1 (first.trans keyA.symm)
  · exact ((displays.rowKey_eq_iff among (inside b memberB)).2 same).trans keyB

/-- The rows of one key are made of the scopes that show one record. -/
theorem rowsOfKey_eq (displays : Displays render row table plan shown scopes) {record : Record V}
    (isShown : record ∈ shown) {k : String} (keyed : render.keyText table.primaryKey record = some k) :
    ∃ part : List (Scope V), part ≠ [] ∧ rowsOfKey (rowKey plan) (scopes.map row) k = part.map row ∧
      ∀ scope, scope ∈ part ↔ scope ∈ scopes ∧ scope.get plan.label = record := by
  refine ⟨scopes.filter fun scope => rowKey plan (row scope) == some k, ?_, ?_, ?_⟩
  · obtain ⟨scope, member, same⟩ := displays.complete record isShown
    refine List.ne_nil_of_mem (List.mem_filter.2 ⟨member, ?_⟩)
    rw [(displays.rowKey_eq_iff member isShown).2 same, keyed, beq_self_eq_true]
  · rw [rowsOfKey, List.filter_map]
    rfl
  · intro scope
    rw [List.mem_filter]
    refine and_congr_right fun member => ?_
    rw [beq_iff_eq, ← keyed]
    exact displays.rowKey_eq_iff member isShown

/-- The objects of the groups show the records whose keys these have. -/
theorem shows_groups (displays : Displays render row table plan shown scopes)
    {shows : Record V → Json → Prop}
    (each : ∀ record ∈ shown, ∀ part : List (Scope V), part ≠ [] →
      (∀ scope, scope ∈ part ↔ scope ∈ scopes ∧ scope.get plan.label = record) →
        shows record ((Cell.nest plan (part.map row)).value plan))
    {order : List (Record V)} (inside : ∀ record ∈ order, record ∈ shown) {keys : List String}
    (matched : List.Forall₂ (fun record k => render.keyText table.primaryKey record = some k) order keys) :
    List.Forall₂ shows order
      (keys.map fun k => (Cell.nest plan (rowsOfKey (rowKey plan) (scopes.map row) k)).value plan) := by
  induction matched with
  | nil => exact .nil
  | @cons record k order keys keyed matched ih =>
      obtain ⟨isShown, others⟩ := List.forall_mem_cons.1 inside
      obtain ⟨part, inhabited, made, member⟩ := displays.rowsOfKey_eq isShown keyed
      rw [List.map_cons, made]
      exact .cons (each record isShown part inhabited member) (ih others)

/-- No row is present where no record is shown. -/
theorem presentRows_nil (displays : Displays render row table plan [] scopes) :
    presentRows plan (scopes.map row) = [] := by
  refine List.filter_eq_nil_iff.2 fun _ inside => ?_
  obtain ⟨scope, member, rfl⟩ := List.mem_map.1 inside
  rcases displays.sound scope member with showsRow | absent
  · simp at showsRow
  · simp [displays.rowKey_eq, keyText_absent render absent]

/-- Where one record is shown, the present rows are made of the scopes that show it. -/
theorem presentRows_singleton {record : Record V}
    (displays : Displays render row table plan [record] scopes) :
    ∃ part : List (Scope V), part ≠ [] ∧ presentRows plan (scopes.map row) = part.map row ∧
      ∀ scope, scope ∈ part ↔ scope ∈ scopes ∧ scope.get plan.label = record := by
  have isShown : record ∈ [record] := List.mem_singleton_self _
  obtain ⟨k, keyed⟩ := Option.isSome_iff_exists.1
    (displays.keyed.keyText_isSome render (displays.stored record isShown))
  obtain ⟨part, inhabited, made, member⟩ := displays.rowsOfKey_eq isShown keyed
  refine ⟨part, inhabited, ?_, member⟩
  rw [← made, presentRows, rowsOfKey]
  refine List.filter_congr fun _ inside => ?_
  obtain ⟨scope, member, rfl⟩ := List.mem_map.1 inside
  rw [displays.rowKey_eq]
  rcases displays.sound scope member with showsRow | absent
  · rw [List.mem_singleton.1 showsRow, keyed]
    simp
  · simp [keyText_absent render absent]

/-- The field that is made of the scopes shows the records, at most one of them for a relation to one
    row. -/
theorem showsRows (displays : Displays render row table plan shown scopes) {kind : RelationKind}
    {shows : Record V → Json → Prop}
    (each : ∀ record ∈ shown, ∀ part : List (Scope V), part ≠ [] →
      (∀ scope, scope ∈ part ↔ scope ∈ scopes ∧ scope.get plan.label = record) →
        shows record ((Cell.nest plan (part.map row)).value plan))
    (atMostOne : kind.isToMany = false → shown.length ≤ 1) :
    ShowsRows kind shown shows (joinedValue kind plan (scopes.map row)) := by
  cases many : kind.isToMany with
  | true =>
      obtain ⟨order, perm, matched⟩ := displays.exists_order
      rw [showsRows_iff, if_pos many, joinedValue, if_pos many]
      refine ⟨_, order, perm, ?_, rfl⟩
      exact displays.shows_groups each (fun _ member => perm.subset member) matched
  | false =>
      rw [showsRows_iff, if_neg (by simp [many]), joinedValue, if_neg (by simp [many])]
      rcases shown with - | ⟨record, others⟩
      · left
        rw [displays.presentRows_nil]
        exact ⟨rfl, rfl⟩
      · obtain rfl : others = [] := by simpa using atMostOne many
        obtain ⟨part, inhabited, made, inPart⟩ := displays.presentRows_singleton
        right
        refine ⟨record, rfl, ?_⟩
        rw [made, if_neg (by simpa using inhabited)]
        exact each record (List.mem_singleton_self _) part inhabited inPart

end Displays

/-! ### Objects of covered rows -/

section

variable {registry : Registry} {table : Table} {requests : List Include} {nodes : List IncludeNode}
  {loads : List LazyLoad} {record : Record V} {covered : Scope V → Prop}

/-- The object that scopes make of a covered record. -/
theorem Covers.value_nest (covers : Covers db registry table requests nodes loads record covered)
    (valid : registry.validate = .ok ()) (apart : registry.NamesApart)
    (registered : table ∈ registry.tables) {requested : Option (List String)}
    {selected columns : List PlanColumn} (chosen : selectColumns table requested = .ok selected)
    (completed : ensureColumns table (loads.map LazyLoad.parentColumn) selected = .ok columns)
    {name label outputPath : String} {key : List String}
    (shows : RowsShow render row
      (Projection.selectItems ⟨name, label, outputPath, key, columns, nodes, loads⟩))
    {part : List (Scope V)} (inhabited : part ≠ []) (same : ∀ scope ∈ part, scope.get label = record) :
    (Cell.nest ⟨name, label, outputPath, key, columns, nodes, loads⟩ (part.map row)).value
        ⟨name, label, outputPath, key, columns, nodes, loads⟩ =
      .object (columnFields render columns record ++ loadFields render loads record ++
        joinedFields nodes (part.map row)) := by
  obtain ⟨-, parents, known⟩ := completedColumns_spec
    (Registry.hasColumn_of_validate valid registered) chosen completed
  obtain ⟨perm, nodup⟩ := covers.relations_perm
  have aliases := shows.distinct
  rw [Projection.selectItems, List.map_append] at aliases
  have columnsDistinct : (columns.map PlanColumn.name).Nodup := by
    have own := (List.nodup_append.1 aliases).1
    rw [Projection.ownItems, List.map_map] at own
    exact List.Nodup.of_map (fun column => some (extendOutputPath outputPath column))
      (by simpa [Function.comp_def, Projection.outputName] using own)
  have namesApart : List.Disjoint (columns.map PlanColumn.name)
      (loads.map LazyLoad.relation ++ nodes.map IncludeNode.relation) := by
    intro shared isColumn isRelation
    obtain ⟨column, member, rfl⟩ := List.mem_map.1 isColumn
    obtain ⟨relation, declared, same⟩ := covers.declared _ (perm.subset isRelation)
    have absent := apart table registered relation declared
    rw [same, known column member] at absent
    contradiction
  refine RelQuery.value_nest shows (fun load member => parents _ (List.mem_map_of_mem member)) ?_
    inhabited same
  rw [List.append_assoc, List.nodup_append']
  exact ⟨columnsDistinct, perm.nodup_iff.2 nodup, namesApart⟩

/-- It is an object with the columns of the record if the fields of its relations are what they ought to be. -/
theorem Covers.isObject (covers : Covers db registry table requests nodes loads record covered)
    (valid : registry.validate = .ok ()) (apart : registry.NamesApart)
    (registered : table ∈ registry.tables) {requested : Option (List String)}
    {selected columns : List PlanColumn} (chosen : selectColumns table requested = .ok selected)
    (completed : ensureColumns table (loads.map LazyLoad.parentColumn) selected = .ok columns)
    {name label outputPath : String} {key : List String}
    (shows : RowsShow render row
      (Projection.selectItems ⟨name, label, outputPath, key, columns, nodes, loads⟩))
    {part : List (Scope V)} (inhabited : part ≠ []) (same : ∀ scope ∈ part, scope.get label = record)
    {relations : (deferred joined : Members) → Prop}
    (related : relations (loadFields render loads record) (joinedFields nodes (part.map row))) :
    IsObject db render registry table requested requests record relations
      ((Cell.nest ⟨name, label, outputPath, key, columns, nodes, loads⟩ (part.map row)).value
        ⟨name, label, outputPath, key, columns, nodes, loads⟩) := by
  have made := covers.value_nest valid apart registered chosen completed shows inhabited same
  rw [covers.parentColumns_eq] at completed
  exact ⟨_, _, _, showsColumns_of_completed chosen completed record, related, made⟩

/-- Scopes that cover a row make the fields that depict its relations. -/
theorem Covers.depicts (covers : Covers db registry table requests nodes loads record covered)
    (valid : registry.validate = .ok ()) (apart : registry.NamesApart) (unique : db.LinksToOne registry)
    (registered : table ∈ registry.tables) (stored : record ∈ db.rowsOf table)
    (keyed : ∀ target, Included registry table requests target → db.Keyed target)
    (shows : RowsShow render row (Projection.selectItemsOfNodes nodes)) {scopes : List (Scope V)}
    (listed : ∀ scope, scope ∈ scopes ↔ covered scope) :
    DepictsRelations db render registry requests table (fun _ => true) record
      (loadFields render loads record) (joinedFields nodes (scopes.map row)) := by
  induction covers generalizing scopes with
  | nil =>
      rw [DepictsRelations]
      exact ⟨rfl, rfl⟩
  | @deferred table request requests nodes loads record covered relation keys load path found lazy described
      new rest ih =>
      have others := ih registered stored (fun target further => keyed target further.tail) shows listed
      obtain ⟨name, columns, filter, isLazy, includes⟩ := request
      obtain ⟨named, kind, parent⟩ := LazyLoad.describe_eq_ok described
      rw [Registry.name_of_relation found] at named
      rw [DepictsRelations]
      refine ⟨relation, keys, load.placeholder (render.toJson (db.engine.read record load.parentColumn)),
        Registry.relation_eq_ok_iff.1 found, ?_, ?_⟩
      · simp only [lazy, Bool.and_self, if_true]
        exact ⟨load.parentColumn, parent, kind ▸ standsFor_iff.2 rfl⟩
      · simp only [lazy, if_true]
        exact ⟨_, by rw [loadFields, List.map_cons, named]; rfl, others⟩
  | @joined table request requests inner nodes innerLoads loads record covered relation keys selected columns
      label outputPath found eager chosen completed new sound complete below rest ihBelow ih =>
      have others := ih registered stored (fun target further => keyed target further.tail)
        (RowsShow.right shows) listed
      have targetKeyed := keyed keys.target (.here List.mem_cons_self found)
      have targetRegistered := Registry.target_mem_of_relation found
      have childShows := RowsShow.left shows
      obtain ⟨keysSelected, -, -⟩ := completedColumns_spec
        (Registry.hasColumn_of_validate valid targetRegistered) chosen completed
      have displays : Displays render row keys.target
          ⟨keys.target.name, label, outputPath, keys.target.primaryKey, columns, inner, innerLoads⟩
          (attachedRows db registry keys request.filter record) scopes := {
        keyed := targetKeyed
        stored := fun _ member => attachedRows_subset member
        distinct := nodup_attachedRows targetKeyed.nodup
        rowKey_eq := rowKey_of_rowsShow childShows targetKeyed.hasKey keysSelected
        sound := fun scope member => sound scope ((listed scope).1 member)
        complete := fun related member => by
          obtain ⟨scope, inside, same⟩ := complete related member
          exact ⟨scope, (listed scope).2 inside, same⟩ }
      -- The scopes that show an attached row make its object, for they cover what hangs off it.
      have each : ∀ related ∈ attachedRows db registry keys request.filter record,
          ∀ part : List (Scope V), part ≠ [] →
            (∀ scope, scope ∈ part ↔ scope ∈ scopes ∧ scope.get label = related) →
            IsObject db render registry keys.target request.columns request.includes related
              (DepictsRelations db render registry request.includes keys.target (fun _ => true) related)
              ((Cell.nest ⟨keys.target.name, label, outputPath, keys.target.primaryKey, columns, inner,
                innerLoads⟩ (part.map row)).value ⟨keys.target.name, label, outputPath,
                  keys.target.primaryKey, columns, inner, innerLoads⟩) := by
        intro related member part inhabited inPart
        refine (below related member).isObject valid apart targetRegistered chosen completed childShows
          inhabited (fun scope inside => ((inPart scope).1 inside).2) ?_
        refine ihBelow related member targetRegistered (attachedRows_subset member)
          (fun target further => keyed target (.deeper List.mem_cons_self found further))
          (RowsShow.right childShows) fun scope => ?_
        rw [inPart, listed]
      have field := displays.showsRows each (length_attachedRows_le_one unique registered found (.inl stored))
      obtain ⟨name, requested, filter, isLazy, includes⟩ := request
      rw [joinedFields_cons, DepictsRelations]
      refine ⟨relation, keys, joinedValue relation.kind ⟨keys.target.name, label, outputPath,
        keys.target.primaryKey, columns, inner, innerLoads⟩ (scopes.map row),
        Registry.relation_eq_ok_iff.1 found, ?_, ?_⟩
      · simp only [eager, Bool.false_and, Bool.false_eq_true, if_false]
        exact field
      · simp only [eager, Bool.false_eq_true, if_false]
        exact ⟨_, rfl, others⟩

end

end RelQuery
