/-
Module: RelQuery.Proofs.Hydrate.Objects
Purpose: What the objects of an occurrence are made of when the rows of an answer show scopes: as long as
  names are distinct, each row hands out the columns of the records in its scope, and an object consists
  of the columns, the placeholders and the joined relations of its record.
Main exports: Rendering.row, Rendering.getD_row, RowsShow, rowKey_of_rowsShow, nodup_slotsOver, mem_slotsOver,
  value_nest
-/
import RelQuery.Proofs.Hydrate.Keyed
import RelQuery.Proofs.Json.Members
import RelQuery.Proofs.Plan.Columns

namespace RelQuery

open Sql
open Json (Members)

/-! ### Rows of scopes -/

section

variable {V : Type} {db : Database V} {render : Rendering db.engine}

/-- The row that a scope makes of a SELECT list, in the form in which it is handed out. -/
def Rendering.row (render : Rendering db.engine) (items : List SelectItem) (scope : Scope V) : Row :=
  (SelectItem.record db [] scope [] items).map fun (name, value) => (name, render.toJson value)

/-- Rows show what some items select of the scopes that they are made of, under distinct names. -/
structure RowsShow (render : Rendering db.engine) (row : Scope V → Row) (items : List SelectItem) :
    Prop where
  distinct : (items.map SelectItem.label).Nodup
  reads : ∀ label column name, ⟨Expr.of label column, some name⟩ ∈ items →
    ∀ scope, Members.getD (row scope) name = render.toJson (db.engine.read (scope.get label) column)

namespace RowsShow

variable {row : Scope V → Row} {items more : List SelectItem}

theorem left (shows : RowsShow render row (items ++ more)) : RowsShow render row items where
  distinct := (List.nodup_append.1 (List.map_append ▸ shows.distinct)).1
  reads := fun label column name member =>
    shows.reads label column name (List.mem_append_left _ member)

theorem right (shows : RowsShow render row (items ++ more)) : RowsShow render row more where
  distinct := (List.nodup_append.1 (List.map_append ▸ shows.distinct)).2.1
  reads := fun label column name member =>
    shows.reads label column name (List.mem_append_right _ member)

end RowsShow

/-- The items of a plan are columns under aliases. -/
theorem exists_of_mem_selectItems : ∀ (plan : Projection), ∀ item ∈ plan.selectItems,
    ∃ label column name, item = ⟨Expr.of label column, some name⟩ := by
  intro plan
  refine @Projection.rec
    (fun plan => ∀ item ∈ plan.selectItems, ∃ label column name, item = ⟨Expr.of label column, some name⟩)
    (fun node => ∀ item ∈ node.projection.selectItems,
      ∃ label column name, item = ⟨Expr.of label column, some name⟩)
    (fun nodes => ∀ item ∈ Projection.selectItemsOfNodes nodes,
      ∃ label column name, item = ⟨Expr.of label column, some name⟩) ?_ ?_ ?_ ?_ plan
  · intro table label outputPath key columns includes lazy ofNodes item member
    rw [Projection.selectItems, List.mem_append] at member
    rcases member with own | below
    · obtain ⟨column, -, rfl⟩ := List.mem_map.1 own
      exact ⟨_, _, _, rfl⟩
    · exact ofNodes item below
  · intro relation kind projection inner
    exact inner
  · simp [Projection.selectItemsOfNodes]
  · rintro ⟨relation, kind, projection⟩ nodes first rest item member
    rw [Projection.selectItemsOfNodes, List.mem_append] at member
    rcases member with member | member
    · exact first item member
    · exact rest item member

/-- A scope makes one cell of each item of a SELECT list of columns. -/
theorem Rendering.row_eq_map {items : List SelectItem}
    (columns : ∀ item ∈ items, ∃ label column name, item = ⟨Expr.of label column, some name⟩)
    (scope : Scope V) : render.row items scope = items.map fun item =>
      (item.label.getD "", render.toJson (item.expr.eval db scope [])) := by
  induction items with
  | nil => rfl
  | cons item items ih =>
      obtain ⟨⟨label, column, name, rfl⟩, others⟩ := List.forall_mem_cons.1 columns
      have rest := ih others
      simp only [Rendering.row] at rest
      simp [Rendering.row, Expr.of, Expr.star?, rest]

/-- The rows of a SELECT list of columns show what it selects if its aliases are distinct. -/
theorem rowsShow_row {items : List SelectItem}
    (columns : ∀ item ∈ items, ∃ label column name, item = ⟨Expr.of label column, some name⟩)
    (distinct : (items.map SelectItem.label).Nodup) : RowsShow render (render.row items) items := by
  refine ⟨distinct, fun label column name member scope => ?_⟩
  rw [Rendering.row_eq_map columns]
  refine getD_of_mem ?_ (List.mem_map.2 ⟨_, member, rfl⟩)
  rw [List.map_map]
  have aliased : items.map SelectItem.label = (items.map fun item => item.label.getD "").map some := by
    rw [List.map_map]
    refine List.map_congr_left fun item member => ?_
    obtain ⟨label, column, name, rfl⟩ := columns item member
    rfl
  exact List.Nodup.of_map some (aliased ▸ distinct)

/-- The cell under an alias is that of a column if no other column has the alias. -/
theorem Rendering.getD_row {items : List SelectItem}
    (columns : ∀ item ∈ items, ∃ label column name, item = ⟨Expr.of label column, some name⟩)
    {label column name : String} (member : ⟨Expr.of label column, some name⟩ ∈ items)
    (sole : ∀ label' column', ⟨Expr.of label' column', some name⟩ ∈ items →
      label' = label ∧ column' = column) (scope : Scope V) :
    Members.getD (render.row items scope) name =
      render.toJson (db.engine.read (scope.get label) column) := by
  rw [Rendering.row_eq_map columns]
  apply getD_of_mem_of_agree
  · exact List.mem_map.2 ⟨_, member, rfl⟩
  · intro value inside
    obtain ⟨item, among, same⟩ := List.mem_map.1 inside
    obtain ⟨label', column', name', rfl⟩ := columns item among
    obtain ⟨rfl, rfl⟩ := Prod.mk.inj same
    obtain ⟨rfl, rfl⟩ := sole label' column' among
    rfl

/-! ### Objects -/

/-- The placeholders of the deferred relations of a record. -/
def loadFields (render : Rendering db.engine) (loads : List LazyLoad) (record : Record V) : Members :=
  loads.map fun load =>
    (load.relation, load.placeholder (render.toJson (db.engine.read record load.parentColumn)))

/-- The fields of joined relations that some rows make. -/
def joinedFields (nodes : List IncludeNode) (rows : List Row) : Members :=
  (nodes.zip (Slot.nestEach nodes rows)).map fun (node, slot) =>
    (node.relation, slot.value node.projection)

theorem joinedFields_cons (name : String) (kind : RelationKind) (child : Projection)
    (nodes : List IncludeNode) (rows : List Row) :
    joinedFields (⟨name, kind, child⟩ :: nodes) rows =
      (name, joinedValue kind child rows) :: joinedFields nodes rows := by
  obtain ⟨slot, made, value⟩ := exists_nestEach_cons ⟨name, kind, child⟩ nodes rows
  rw [joinedFields, made, List.zip_cons_cons, List.map_cons]
  exact congrArg (fun value => (name, value) :: joinedFields nodes rows) value

theorem slotsOver_eq (nodes : List IncludeNode) (slots : List Slot) (fields : Members) :
    slotsOver nodes fields slots =
      (nodes.zip slots).foldl (fun members (node, slot) =>
        Members.set members node.relation (slot.value node.projection)) fields := by
  induction slots generalizing nodes fields with
  | nil => cases nodes <;> simp [slotsOver]
  | cons slot slots ih =>
      cases nodes with
      | nil => simp [slotsOver]
      | cons node nodes => simp [slotsOver, ih]

theorem length_nestEach (nodes : List IncludeNode) (rows : List Row) :
    (Slot.nestEach nodes rows).length = nodes.length := by
  induction nodes with
  | nil => simp [Slot.nestEach]
  | cons node nodes ih =>
      obtain ⟨relation, kind, child⟩ := node
      simp [Slot.nestEach, ih]

/-- Joined relations with names of their own follow the other fields. -/
theorem slotsOver_nestEach {nodes : List IncludeNode} {rows : List Row} {fields : Members}
    (distinct : (fields.map Prod.fst ++ nodes.map IncludeNode.relation).Nodup) :
    slotsOver nodes fields (Slot.nestEach nodes rows) = fields ++ joinedFields nodes rows := by
  have names : (nodes.zip (Slot.nestEach nodes rows)).map (fun pair => pair.1.relation) =
      nodes.map IncludeNode.relation := by
    have firsts := List.map_fst_zip (Nat.le_of_eq (length_nestEach nodes rows).symm)
    have mapped := congrArg (List.map IncludeNode.relation) firsts
    rwa [List.map_map] at mapped
  rw [slotsOver_eq]
  exact foldl_set (fun pair : IncludeNode × Slot => pair.1.relation)
    (fun pair => pair.2.value pair.1.projection) _ _ (by rwa [names])

theorem nodup_ownFields (plan : Projection) (row : Row) : ((ownFields plan row).map Prod.fst).Nodup :=
  nodup_foldl_set _ _ _ (nodup_foldl_set _ _ _ List.nodup_nil)

/-- Names stay distinct when the fields of joined relations are written, -/
theorem nodup_slotsOver (nodes : List IncludeNode) (rows : List Row) {fields : Members}
    (distinct : (fields.map Prod.fst).Nodup) :
    ((slotsOver nodes fields (Slot.nestEach nodes rows)).map Prod.fst).Nodup := by
  induction nodes generalizing fields with
  | nil => simpa [Slot.nestEach, slotsOver] using distinct
  | cons node nodes ih =>
      rw [slotsOver_nestEach_cons]
      exact ih (nodup_set _ _ distinct)

/-- and each of these holds what the rows make of its relation. -/
theorem mem_slotsOver {nodes : List IncludeNode} {rows : List Row} {fields : Members}
    (distinct : (fields.map Prod.fst).Nodup) {field : String × Json}
    (member : field ∈ slotsOver nodes fields (Slot.nestEach nodes rows)) :
    (∃ node ∈ nodes, field = (node.relation, joinedValue node.kind node.projection rows)) ∨
      field ∈ fields ∧ field.1 ∉ nodes.map IncludeNode.relation := by
  induction nodes generalizing fields with
  | nil => exact .inr ⟨by simpa [Slot.nestEach, slotsOver] using member, by simp⟩
  | cons node nodes ih =>
      rw [slotsOver_nestEach_cons] at member
      rcases ih (nodup_set _ _ distinct) member with ⟨later, joined, same⟩ | ⟨earlier, free⟩
      · exact .inl ⟨later, List.mem_cons_of_mem _ joined, same⟩
      · rcases mem_set distinct earlier with same | ⟨old, apart⟩
        · exact .inl ⟨node, List.mem_cons_self, same⟩
        · exact .inr ⟨old, by rw [List.map_cons, List.mem_cons, not_or]; exact ⟨apart, free⟩⟩

variable {row : Scope V → Row} {plan : Projection}

/-- The rows show the selected columns of each occurrence. -/
theorem cell_of_rowsShow (shows : RowsShow render row plan.selectItems) {column : String}
    (selected : column ∈ plan.columns.map PlanColumn.name) (scope : Scope V) :
    plan.cell (row scope) column = render.toJson (db.engine.read (scope.get plan.label) column) := by
  obtain ⟨known, member, rfl⟩ := List.mem_map.1 selected
  obtain ⟨table, label, outputPath, key, columns, includes, lazy⟩ := plan
  refine shows.reads label known.name _ ?_ scope
  rw [Projection.selectItems]
  exact List.mem_append_left _ (List.mem_map.2 ⟨known, member, rfl⟩)

/-- The rows show the key of the record that stands for an occurrence. -/
theorem rowKey_of_rowsShow (shows : RowsShow render row plan.selectItems) (hasKey : plan.key ≠ [])
    (selected : ∀ column ∈ plan.key, column ∈ plan.columns.map PlanColumn.name) (scope : Scope V) :
    rowKey plan (row scope) = render.keyText plan.key (scope.get plan.label) := by
  have values : plan.key.map (plan.cell (row scope)) =
      plan.key.map fun column => render.toJson (db.engine.read (scope.get plan.label) column) :=
    List.map_congr_left fun column member => cell_of_rowsShow shows (selected column member) scope
  have identity : plan.identity = plan.key := if_neg (by simpa using hasKey)
  rw [rowKey, identity, values, Rendering.keyText]

/-- The fields of an object under construction are those of the record that its first row shows. -/
theorem ownFields_of_rowsShow (shows : RowsShow render row plan.selectItems)
    (parents : ∀ load ∈ plan.lazy, load.parentColumn ∈ plan.columns.map PlanColumn.name)
    (distinct : (plan.columns.map PlanColumn.name ++ plan.lazy.map LazyLoad.relation).Nodup)
    (scope : Scope V) :
    ownFields plan (row scope) = columnFields render plan.columns (scope.get plan.label) ++
      loadFields render plan.lazy (scope.get plan.label) := by
  have columns := foldl_set PlanColumn.name
    (fun column => coerce column.type (plan.cell (row scope) column.name)) plan.columns [] (by
      simpa using (List.nodup_append.1 distinct).1)
  rw [ownFields, columns, foldl_set LazyLoad.relation
    (fun load => load.placeholder (plan.cell (row scope) load.parentColumn))]
  · congr 1
    · refine List.map_congr_left fun column member => ?_
      rw [cell_of_rowsShow shows (List.mem_map_of_mem member)]
    · refine List.map_congr_left fun load member => ?_
      rw [cell_of_rowsShow shows (parents load member)]
  · simpa [Function.comp_def] using distinct

/-- The object that some scopes with the same record make of an occurrence: the columns of the record, the
    placeholders of its deferred relations, and its joined relations. -/
theorem value_nest (shows : RowsShow render row plan.selectItems)
    (parents : ∀ load ∈ plan.lazy, load.parentColumn ∈ plan.columns.map PlanColumn.name)
    (distinct : (plan.columns.map PlanColumn.name ++ plan.lazy.map LazyLoad.relation ++
      plan.includes.map IncludeNode.relation).Nodup)
    {scopes : List (Scope V)} {record : Record V} (inhabited : scopes ≠ [])
    (same : ∀ scope ∈ scopes, scope.get plan.label = record) :
    (Cell.nest plan (scopes.map row)).value plan =
      .object (columnFields render plan.columns record ++ loadFields render plan.lazy record ++
        joinedFields plan.includes (scopes.map row)) := by
  obtain ⟨first, others, rfl⟩ := List.exists_cons_of_ne_nil inhabited
  have fields := ownFields_of_rowsShow shows parents (List.nodup_append.1 distinct).1 first
  rw [same first List.mem_cons_self] at fields
  obtain ⟨table, label, outputPath, key, columns, includes, lazy⟩ := plan
  rw [Cell.nest, Cell.value, List.map_cons, List.headD_cons, fields, slotsOver_nestEach]
  simpa [columnFields, loadFields, Function.comp_def] using distinct

end

end RelQuery
