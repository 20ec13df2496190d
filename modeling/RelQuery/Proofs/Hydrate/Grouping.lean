/-
Module: RelQuery.Proofs.Hydrate.Grouping
Purpose: What hydrating computes, said without rows that come one by one. The rows of an occurrence are
  divided by its key in first-seen order, each part makes one object from the fields of its first row, and
  the related objects are those that the rows of the part hold in their turn.
Main exports: Projection.fieldsIn, Projection.objects, PartOf, RelatesOnce, hydrate_eq_objects
-/
import Mathlib.Data.List.Nodup
import RelQuery.Proofs.Hydrate.Nest

namespace RelQuery

open Json (Members)

/-! ### Objects by grouping -/

/-- The only item of a list, and null where there is none or a choice. -/
def onlyItem : List Json → Json
  | [item] => item
  | _ => .null

/-- What a row says of an occurrence itself: its columns in the form of their types, and behind them the
    placeholders of its deferred relations. Of fields with one name the last takes the place of the first. -/
def Projection.fieldsIn (occurrence : Projection) (row : Row) : Members :=
  .ofRepeated
    (occurrence.columns.map (fun column =>
        (column.name, coerce column.type (Members.getD row (occurrence.outputName column.name)))) ++
      occurrence.lazy.map fun load =>
        (load.relation, load.placeholder (Members.getD row (occurrence.outputName load.parentColumn))))

theorem ownFields_eq_fieldsIn (occurrence : Projection) (row : Row) :
    ownFields occurrence row = occurrence.fieldsIn row := by
  rw [Projection.fieldsIn, Members.ofRepeated, List.foldl_append, List.foldl_map, List.foldl_map]
  rfl

mutual

/-- The objects of an occurrence that some rows hold: one for each key, in first-seen order. Rows without
    key hold none. -/
def Projection.objects : Projection → List Row → List Json
  | ⟨table, label, outputPath, key, columns, includes, lazy⟩, rows =>
    let occurrence : Projection := ⟨table, label, outputPath, key, columns, includes, lazy⟩
    (keysOf (rowKey occurrence) rows).map fun k =>
      let part := rowsOfKey (rowKey occurrence) rows k
      .object (attachObjects includes part (occurrence.fieldsIn (part.headD [])))

/-- The fields of an object with those of its relations: an array of the related objects that the rows
    hold, or the only one of them. -/
def attachObjects : List IncludeNode → List Row → Members → Members
  | [], _, fields => fields
  | ⟨relation, kind, child⟩ :: nodes, rows, fields =>
    let related := child.objects rows
    attachObjects nodes rows
      (Members.set fields relation (if kind.isToMany then .array related else onlyItem related))

end

/-- The rows of one occurrence, divided further: the part that one occurrence below it has. -/
inductive PartOf : (above : Projection) → (rows : List Row) → (occurrence : Projection) →
    (part : List Row) → Prop
  | whole {occurrence : Projection} {rows : List Row} : PartOf occurrence rows occurrence rows
  | under {above occurrence : Projection} {rows part : List Row} {node : IncludeNode} {k : String}
      (joined : node ∈ above.includes) (keyed : k ∈ keysOf (rowKey node.projection) rows)
      (inside : PartOf node.projection (rowsOfKey (rowKey node.projection) rows k) occurrence part) :
      PartOf above rows occurrence part

/-- The rows of one occurrence agree on the related row of a relation to one row, where they show any. -/
def RelatesOnce (node : IncludeNode) (rows : List Row) : Prop :=
  node.kind.isToMany = false → ∀ a ∈ rows, ∀ b ∈ rows,
    (rowKey node.projection a).isSome = true → (rowKey node.projection b).isSome = true →
      rowKey node.projection a = rowKey node.projection b

instance (node : IncludeNode) (rows : List Row) : Decidable (RelatesOnce node rows) :=
  inferInstanceAs (Decidable (_ → _))

/-! ### Relations to one row -/

/-- Rows with the same key, as far as they have any, make one group. -/
theorem keysOf_eq_singleton {ρ : Type} {key : ρ → Option String} {rows : List ρ} {first : ρ} {k : String}
    (member : first ∈ rows) (found : key first = some k)
    (agree : ∀ row ∈ rows, (key row).isSome = true → key row = some k) :
    keysOf key rows = [k] ∧ rowsOfKey key rows k = rows.filter fun row => (key row).isSome := by
  constructor
  · refine List.perm_singleton.1 ((List.perm_ext_iff_of_nodup (nodup_keysOf rows) (List.nodup_singleton k)).2
      fun j => ?_)
    rw [mem_keysOf, List.mem_singleton]
    constructor
    · rintro ⟨row, inside, keyed⟩
      simpa [keyed] using agree row inside (by rw [keyed, Option.isSome_some])
    · rintro rfl
      exact ⟨first, member, found⟩
  · refine List.filter_congr fun row inside => ?_
    cases present : (key row).isSome with
    | false => simp [Option.isSome_eq_false_iff.1 present |> Option.isNone_iff_eq_none.1]
    | true => simp [agree row inside present]

/-- Of a relation to one row, the first related row is the only one. -/
theorem onlyItem_objects {child : Projection} {rows : List Row} (make : List Row → Json)
    (agree : ∀ a ∈ rows, ∀ b ∈ rows, (rowKey child a).isSome = true → (rowKey child b).isSome = true →
      rowKey child a = rowKey child b) :
    onlyItem ((keysOf (rowKey child) rows).map fun k => make (rowsOfKey (rowKey child) rows k)) =
      if (presentRows child rows).isEmpty then .null else make (presentRows child rows) := by
  cases absent : presentRows child rows with
  | nil =>
      have none : rows.filterMap (rowKey child) = [] := by
        refine List.filterMap_eq_nil_iff.2 fun row member => ?_
        simpa using List.filter_eq_nil_iff.1 absent row member
      simp [keysOf, none, onlyItem]
  | cons first others =>
      have shown : first ∈ presentRows child rows := absent ▸ List.mem_cons_self
      obtain ⟨member, present⟩ := List.mem_filter.1 shown
      obtain ⟨k, found⟩ := Option.isSome_iff_exists.1 present
      obtain ⟨keys, part⟩ := keysOf_eq_singleton member found fun row inside shown =>
        (agree row inside first member shown present).trans found
      rw [keys, List.map_singleton, part, ← presentRows, absent]
      rfl

/-! ### Hydration -/

theorem objects_eq (occurrence : Projection) (rows : List Row) :
    occurrence.objects rows = (keysOf (rowKey occurrence) rows).map fun k =>
      let part := rowsOfKey (rowKey occurrence) rows k
      .object (attachObjects occurrence.includes part (ownFields occurrence (part.headD []))) := by
  cases occurrence
  simp only [Projection.objects, ownFields_eq_fieldsIn]

/-- What the rows make of a joined relation are the related objects that they hold, or the only one. -/
theorem joinedValue_eq_objects {relation : String} {kind : RelationKind} {child : Projection}
    {rows : List Row} (once : RelatesOnce ⟨relation, kind, child⟩ rows)
    (each : ∀ k ∈ keysOf (rowKey child) rows,
      (Cell.nest child (rowsOfKey (rowKey child) rows k)).value child =
        .object (attachObjects child.includes (rowsOfKey (rowKey child) rows k)
          (ownFields child ((rowsOfKey (rowKey child) rows k).headD [])))) :
    joinedValue kind child rows =
      if kind.isToMany then .array (child.objects rows) else onlyItem (child.objects rows) := by
  have related : child.objects rows = (keysOf (rowKey child) rows).map fun k =>
      (Cell.nest child (rowsOfKey (rowKey child) rows k)).value child := by
    rw [objects_eq]
    exact List.map_congr_left fun k keyed => (each k keyed).symm
  rw [joinedValue, related]
  cases many : kind.isToMany with
  | true => rfl
  | false =>
      exact (onlyItem_objects (fun part => (Cell.nest child part).value child) (once many)).symm

mutual

/-- What the rows of one occurrence are nested to has the fields of the first row and the related objects
    that all of them hold. -/
theorem value_nest_eq : ∀ (occurrence : Projection) (rows : List Row),
    (∀ inner part, PartOf occurrence rows inner part → ∀ node ∈ inner.includes, RelatesOnce node part) →
      (Cell.nest occurrence rows).value occurrence =
        .object (attachObjects occurrence.includes rows (ownFields occurrence (rows.headD [])))
  | ⟨table, label, outputPath, key, columns, includes, lazy⟩, rows, once => by
      rw [Cell.nest, Cell.value]
      exact congrArg Json.object (slotsOver_nest_eq includes rows _ (once _ _ .whole)
        fun node joined k keyed inner part inside => once inner part (.under joined keyed inside))

/-- So do the slots of joined relations. -/
theorem slotsOver_nest_eq : ∀ (nodes : List IncludeNode) (rows : List Row) (fields : Members),
    (∀ node ∈ nodes, RelatesOnce node rows) →
    (∀ node ∈ nodes, ∀ k ∈ keysOf (rowKey node.projection) rows, ∀ inner part,
      PartOf node.projection (rowsOfKey (rowKey node.projection) rows k) inner part →
        ∀ further ∈ inner.includes, RelatesOnce further part) →
      slotsOver nodes fields (Slot.nestEach nodes rows) = attachObjects nodes rows fields
  | [], rows, fields, _, _ => rfl
  | ⟨relation, kind, child⟩ :: nodes, rows, fields, once, below => by
      obtain ⟨onceHere, onceThere⟩ := List.forall_mem_cons.1 once
      obtain ⟨belowHere, belowThere⟩ := List.forall_mem_cons.1 below
      have value := joinedValue_eq_objects onceHere fun k keyed => value_nest_eq child _ (belowHere k keyed)
      rw [slotsOver_nestEach_cons, value, attachObjects]
      exact slotsOver_nest_eq nodes rows _ onceThere belowThere

end

namespace Blog

/-- Posts with their authors, who come with all their posts, and with their tags. -/
def library : Projection :=
  ⟨"posts", "posts", "", ["id"], [⟨"id", .int⟩, ⟨"title", .text⟩],
    [⟨"author", .belongsTo, "authors", "authors", "author", ["id"], [⟨"id", .int⟩, ⟨"name", .text⟩],
        [⟨"posts", .hasMany, "posts", "author_posts", "author__posts", ["id"], [⟨"id", .int⟩], [], []⟩], []⟩,
      ⟨"tags", .belongsToMany, "tags", "tags", "tags", ["id"], [⟨"name", .text⟩], [], []⟩], []⟩

/-- A row of the library. -/
def libraryRow (post : Int) (title : String) (author : Option (Int × String)) (other : Option Int)
    (tag : Option (Int × String)) : Row :=
  [("id", .int post), ("title", .string title),
    ("author__id", (author.map fun a => Json.int a.1).getD .null),
    ("author__name", (author.map fun a => Json.string a.2).getD .null),
    ("author__posts__id", (other.map Json.int).getD .null),
    ("tags__id", (tag.map fun t => Json.int t.1).getD .null),
    ("tags__name", (tag.map fun t => Json.string t.2).getD .null)]

/-- Rows of two posts of Ada's, of which one has two tags, and of one that is nobody's. They do not stand
    together by post, and some repeat a child. -/
def libraryRows : List Row :=
  [libraryRow 1 "One" (some (1, "Ada")) (some 2) (some (1, "lean")),
    libraryRow 2 "Two" (some (1, "Ada")) (some 1) none,
    libraryRow 1 "One" (some (1, "Ada")) (some 1) (some (2, "sql")),
    libraryRow 3 "Three" none none (some (1, "lean")),
    libraryRow 1 "One" (some (1, "Ada")) (some 2) (some (2, "sql"))]

/-- The rows of a post agree on its author, and there is no other relation to one row. -/
theorem relatesOnce_library : ∀ k ∈ keysOf (rowKey library) libraryRows, ∀ occurrence part,
    PartOf library (rowsOfKey (rowKey library) libraryRows k) occurrence part →
      ∀ node ∈ occurrence.includes, RelatesOnce node part := by
  intro k keyed occurrence part inside
  cases inside with
  | whole =>
      revert k
      decide +kernel
  | under joined _ inside =>
      simp only [library, List.mem_cons, List.not_mem_nil, or_false] at joined
      rcases joined with rfl | rfl
      · cases inside with
        | whole =>
            intro node joined toOne
            obtain rfl := List.mem_singleton.1 joined
            contradiction
        | under joined _ inside =>
            obtain rfl := List.mem_singleton.1 joined
            cases inside with
            | whole => simp
            | under joined => simp at joined
      · cases inside with
        | whole => simp
        | under joined => simp at joined

end Blog

end RelQuery
