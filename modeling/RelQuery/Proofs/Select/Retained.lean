/-
Module: RelQuery.Proofs.Select.Retained
Purpose: Which fields the objects of an answer have. An object has a field for each selected column, which
  holds the value of its first row in the form of the column's type, and one for each relation. Columns and
  relations share one space of names: a relation takes the field of a column of its name.
Main exports: Projection.Retains, Projection.fieldNames, retains_nest, Selection.hydrate_retains
-/
import RelQuery.Proofs.Hydrate.Lineage
import RelQuery.Proofs.Select.OutputNames

namespace RelQuery

open Json (Members)

/-! ### What an object holds -/

/-- The names of the relations of an occurrence, the deferred ones before those joined. -/
def Projection.relationNames (occurrence : Projection) : List String :=
  occurrence.lazy.map LazyLoad.relation ++ occurrence.includes.map IncludeNode.relation

/-- The names of the fields of the objects of an occurrence. -/
def Projection.fieldNames (occurrence : Projection) : List String :=
  occurrence.columns.map PlanColumn.name ++ occurrence.relationNames

mutual

/-- An object that some rows of an occurrence make has the fields of its columns and relations and no others,
    each once: the columns of the first row in the form of their types, except where a relation bears the
    name of a column, the placeholders of deferred relations, and what the rows make of those joined. -/
def Projection.Retains : Projection → List Row → Json → Prop
  | ⟨table, label, outputPath, key, columns, includes, lazy⟩, rows, object =>
    let occurrence : Projection := ⟨table, label, outputPath, key, columns, includes, lazy⟩
    ∃ first others members, rows = first :: others ∧ object = .object members ∧
      (members.map Prod.fst).Nodup ∧
      (∀ name, name ∈ members.map Prod.fst ↔ name ∈ occurrence.fieldNames) ∧
      (∀ column ∈ columns, column.name ∉ occurrence.relationNames →
        Members.get? members column.name =
          some (coerce column.type (occurrence.cell first column.name))) ∧
      (∀ load ∈ lazy, Members.get? members load.relation =
        some (load.placeholder (occurrence.cell first load.parentColumn))) ∧
      retainsRelations includes rows members

/-- The fields of joined relations hold an object for each key of their rows, or the only one or null. -/
def retainsRelations : List IncludeNode → List Row → Members → Prop
  | [], _, _ => True
  | ⟨relation, kind, child⟩ :: nodes, rows, members =>
    (if kind.isToMany then
      ∃ items, Members.get? members relation = some (.array items) ∧
        List.Forall₂ (fun k item => child.Retains (rowsOfKey (rowKey child) rows k) item)
          (keysOf (rowKey child) rows) items
    else
      (presentRows child rows = [] ∧ Members.get? members relation = some .null) ∨
        ∃ inner, Members.get? members relation = some inner ∧
          child.Retains (presentRows child rows) inner) ∧
    retainsRelations nodes rows members

end

/-! ### Names of fields -/

section

variable {occurrence : Projection} {nodes : List IncludeNode} {rows : List Row} {row : Row}
  {fields : Members} {name : String}

theorem mem_names_slotsOver :
    name ∈ (slotsOver nodes fields (Slot.nestEach nodes rows)).map Prod.fst ↔
      name ∈ fields.map Prod.fst ∨ name ∈ nodes.map IncludeNode.relation := by
  induction nodes generalizing fields with
  | nil => simp [Slot.nestEach, slotsOver]
  | cons node nodes ih =>
      rw [slotsOver_nestEach_cons, ih, mem_names_set, List.map_cons, List.mem_cons, or_assoc]

theorem mem_names_ownFields : name ∈ (ownFields occurrence row).map Prod.fst ↔
    name ∈ occurrence.columns.map PlanColumn.name ∨ name ∈ occurrence.lazy.map LazyLoad.relation := by
  rw [ownFields, mem_names_foldl_set, mem_names_foldl_set]
  simp

/-- The fields of an object are those of its columns and relations. -/
theorem mem_names_nest :
    name ∈ (slotsOver occurrence.includes (ownFields occurrence row)
      (Slot.nestEach occurrence.includes rows)).map Prod.fst ↔ name ∈ occurrence.fieldNames := by
  rw [mem_names_slotsOver, mem_names_ownFields, Projection.fieldNames, Projection.relationNames,
    List.mem_append, List.mem_append, or_assoc]

end

/-! ### Values of fields -/

section

variable {occurrence : Projection} {table : Table} {rows : List Row} {row : Row}

/-- The field of a column, unless a relation takes it. -/
theorem get?_column (planned : Planned table occurrence.columns) {column : PlanColumn}
    (selected : column ∈ occurrence.columns) (free : column.name ∉ occurrence.relationNames) :
    Members.get? (slotsOver occurrence.includes (ownFields occurrence row)
        (Slot.nestEach occurrence.includes rows)) column.name =
      some (coerce column.type (occurrence.cell row column.name)) := by
  have present : column.name ∈ occurrence.fieldNames :=
    List.mem_append_left _ (List.mem_map_of_mem selected)
  rw [Projection.relationNames, List.mem_append, not_or] at free
  rw [get?_eq_some_getD (mem_names_nest.2 present), getD_slotsOver_of_not_mem free.2, ownFields,
    getD_foldl_set_of_not_mem free.1]
  apply congrArg some
  apply getD_foldl_set_of_agree
  · exact List.mem_map_of_mem selected
  · intro other member same
    have alike := planned other member
    rw [same, planned column selected] at alike
    rw [← Except.ok.inj alike]

variable (distinct : occurrence.relationNames.Nodup)

include distinct

/-- The field of a deferred relation. -/
theorem get?_deferred {load : LazyLoad} (deferred : load ∈ occurrence.lazy) :
    Members.get? (slotsOver occurrence.includes (ownFields occurrence row)
        (Slot.nestEach occurrence.includes rows)) load.relation =
      some (load.placeholder (occurrence.cell row load.parentColumn)) := by
  have present : load.relation ∈ occurrence.fieldNames :=
    List.mem_append_right _ (List.mem_append_left _ (List.mem_map_of_mem deferred))
  obtain ⟨unique, -, apart⟩ := List.nodup_append'.1 distinct
  have free : load.relation ∉ occurrence.includes.map IncludeNode.relation := fun joined =>
    apart (List.mem_map_of_mem deferred) joined
  rw [get?_eq_some_getD (mem_names_nest.2 present), getD_slotsOver_of_not_mem free, ownFields]
  apply congrArg some
  apply getD_foldl_set_of_agree
  · exact List.mem_map_of_mem deferred
  · intro other member same
    rw [List.inj_on_of_nodup_map unique member deferred same]

/-- The field of a joined relation. -/
theorem get?_joined {node : IncludeNode} (joined : node ∈ occurrence.includes) :
    Members.get? (slotsOver occurrence.includes (ownFields occurrence row)
        (Slot.nestEach occurrence.includes rows)) node.relation =
      some (joinedValue node.kind node.projection rows) := by
  have present : node.relation ∈ occurrence.fieldNames :=
    List.mem_append_right _ (List.mem_append_right _ (List.mem_map_of_mem joined))
  obtain ⟨before, after, split⟩ := List.append_of_mem joined
  have last : node.relation ∉ after.map IncludeNode.relation := by
    have unique := (List.nodup_append'.1 distinct).2.1
    rw [split, List.map_append, List.map_cons] at unique
    exact (List.nodup_cons.1 (List.nodup_append'.1 unique).2.1).1
  rw [get?_eq_some_getD (mem_names_nest.2 present), split]
  exact congrArg some (getD_slotsOver last before rows _)

end

/-! ### Nested rows -/

/-- Each joined relation is retained. -/
theorem retainsRelations_of_each {nodes : List IncludeNode} {rows : List Row} {members : Members}
    (found : ∀ node ∈ nodes, Members.get? members node.relation =
      some (joinedValue node.kind node.projection rows))
    (below : ∀ node ∈ nodes, ∀ part, part ≠ [] →
      node.projection.Retains part ((Cell.nest node.projection part).value node.projection)) :
    retainsRelations nodes rows members := by
  induction nodes with
  | nil => exact trivial
  | cons node nodes ih =>
      obtain ⟨relation, kind, child⟩ := node
      obtain ⟨here, others⟩ := List.forall_mem_cons.1 found
      obtain ⟨first, rest⟩ := List.forall_mem_cons.1 below
      simp only at here first
      refine ⟨?_, ih others rest⟩
      rw [joinedValue] at here
      split
      · rename_i many
        rw [if_pos many] at here
        refine ⟨_, here, List.forall₂_map_right_iff.2 (List.forall₂_same.2 ?_)⟩
        intro k keyed
        obtain ⟨row, more, split, -⟩ := exists_rowsOfKey_eq_cons keyed
        exact first _ (by simp [split])
      · rename_i one
        rw [if_neg one] at here
        split at here
        · rename_i absent
          exact .inl ⟨List.isEmpty_iff.1 absent, here⟩
        · rename_i present
          exact .inr ⟨_, here, first _ (by simpa using present)⟩

/-- What some rows are nested to retains them. -/
theorem retains_nest {tables : List Table} {plan : Projection} (distinct : plan.Distinct)
    (represents : plan.Throughout fun occurrence => ∃ table ∈ tables, occurrence.Represents table)
    {rows : List Row} (inhabited : rows ≠ []) : plan.Retains rows ((Cell.nest plan rows).value plan) := by
  induction plan using Projection.induction generalizing rows with
  | occurrence name label outputPath key columns includes lazy ih =>
      obtain ⟨relations, below⟩ := distinct
      obtain ⟨table, -, represented⟩ := represents.here
      obtain ⟨first, others, rfl⟩ := List.exists_cons_of_ne_nil inhabited
      let occurrence : Projection := ⟨name, label, outputPath, key, columns, includes, lazy⟩
      have unique : occurrence.relationNames.Nodup := relations
      have fields := nodup_ownFields occurrence first
      rw [value_nest_eq_object, Projection.Retains, List.headD_cons]
      refine ⟨first, others, _, rfl, rfl, nodup_slotsOver _ _ fields, fun _ => mem_names_nest, ?_, ?_, ?_⟩
      · intro column selected free
        exact get?_column represented.planned selected free
      · intro load deferred
        exact get?_deferred unique deferred
      · apply retainsRelations_of_each
        · intro node joined
          exact get?_joined unique joined
        · intro node joined part inside
          exact ih node joined (below node joined) (represents.joined node joined) inside

/-- The objects that rows are hydrated to, one for each key of the root, retain the rows of their keys. -/
theorem Selection.hydrate_retains (registry : Registry) (selection : Selection) (built : BuiltQuery)
    (build : selection.build registry = .ok built) (rows : List Row) :
    List.Forall₂ (fun k object => built.plan.Retains (rowsOfKey (rowKey built.plan) rows k) object)
      (keysOf (rowKey built.plan) rows) (hydrate built.plan rows) := by
  obtain ⟨distinct, represents⟩ := Selection.represents_of_build build
  rw [hydrate_eq_nest, List.forall₂_map_right_iff, List.forall₂_same]
  intro k keyed
  obtain ⟨row, others, split, -⟩ := exists_rowsOfKey_eq_cons keyed
  exact retains_nest distinct represents (by simp [split])

namespace Blog

/-- The first post in two rows: it has two tags, and its author has one post. -/
def taggedRows : List Row :=
  let row (tag : Int) (name : String) : Row :=
    [("id", .int 1), ("title", .string "One"), ("author_id", .int 1), ("author__id", .int 1),
      ("author__name", .string "Ada"), ("author__posts__id", .int 1), ("author__posts__title", .string "One"),
      ("author__posts__author_id", .int 1), ("tags__id", .int tag), ("tags__name", .string name)]
  [row 1 "lean", row 2 "sql"]

/-- The only post has the field of its title and those of its relations. -/
theorem retained_postsOfAuthors :
    ∃ built object, postsOfAuthors.build registry = .ok built ∧ hydrate built.plan taggedRows = [object] ∧
      built.plan.Retains taggedRows object := by
  obtain ⟨built, build, keys, part⟩ : ∃ built, postsOfAuthors.build registry = .ok built ∧
      keysOf (rowKey built.plan) taggedRows = ["[1]"] ∧
      rowsOfKey (rowKey built.plan) taggedRows "[1]" = taggedRows :=
    ⟨_, rfl, by decide +kernel, rfl⟩
  have retained := Selection.hydrate_retains registry postsOfAuthors built build taggedRows
  rw [keys] at retained
  obtain ⟨object, others, first, rest, shown⟩ := List.forall₂_cons_left_iff.1 retained
  rw [part] at first
  rw [List.forall₂_nil_left_iff.1 rest] at shown
  exact ⟨built, object, build, shown, first⟩

/-- Posts with the name of an author in a column that is named like the relation to their authors. -/
def signed : Table :=
  { posts with
    columns := [column "id" .int, column "author" .text, column "author_id" .int]
    relations := [⟨"author", .belongsTo, "authors", ["author_id"], [], none, false⟩] }

/-- The registry with these posts. -/
def signedRegistry : Registry := ⟨[signed, { authors with relations := [] }]⟩

/-- The author takes the field of the column, whose value is in the row but in no field. -/
theorem hidden_signature : signedRegistry.validate = .ok () ∧
    ∃ built, { Selection.ofTable signed with includes := [⟨"author", none, none, none, []⟩] }.build
        signedRegistry = .ok built ∧
      built.plan.columns.map PlanColumn.name = ["id", "author", "author_id"] ∧
      hydrate built.plan [[("id", .int 1), ("author", .string "A. Lovelace"), ("author_id", .int 1),
          ("author__id", .int 1), ("author__name", .string "Ada")]] =
        [.object [("id", .int 1), ("author", .object [("id", .int 1), ("name", .string "Ada")]),
          ("author_id", .int 1)]] := by
  refine ⟨rfl, _, rfl, rfl, ?_⟩
  rfl

end Blog

end RelQuery
