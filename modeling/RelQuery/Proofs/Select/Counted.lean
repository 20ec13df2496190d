/-
Module: RelQuery.Proofs.Select.Counted
Purpose: The counting statement counts the roots of the full statement: both range over the rows of the
  root that satisfy the filters, however often joins repeat one of them, and each is told apart by its key.
Main exports: Table.distinctKeys, Assembly.Parts.length_distinctKeys, Selection.rows_countQuery,
  Selection.count_distinctKeys
-/
import RelQuery.Proofs.Select.Names
import RelQuery.Proofs.Sql.Counting

namespace RelQuery

open Sql

variable {V : Type}

/-! ### Removing duplicates -/

/-- Made items that count as one exactly if they were made of the same are as many as what they were made
    of. -/
theorem eraseDupsBy_map {α β : Type} [BEq α] [LawfulBEq α] {same : β → β → Bool} {make : α → β}
    {xs : List α} (decides : ∀ a ∈ xs, ∀ b ∈ xs, same (make a) (make b) = true ↔ a = b) :
    (xs.map make).eraseDupsBy same = xs.eraseDups.map make := by
  induction size : xs.length using Nat.strongRecOn generalizing xs with
  | ind n ih =>
      cases xs with
      | nil => rfl
      | cons a as =>
          have filtered : (as.map make).filter (fun b => decide (same b (make a) = false)) =
              (as.filter fun b => !b == a).map make := by
            rw [List.filter_map]
            congr 1
            refine List.filter_congr fun b member => ?_
            have agree := decides b (List.mem_cons_of_mem _ member) a List.mem_cons_self
            rw [Bool.eq_iff_iff]
            simp [← agree]
          have inside : ∀ b ∈ as.filter fun b => !b == a, b ∈ a :: as := fun b member =>
            List.mem_cons_of_mem _ (List.mem_of_mem_filter member)
          have shorter := List.length_filter_le (fun b => !b == a) as
          rw [List.map_cons, List.eraseDupsBy_cons, filtered, List.eraseDups_cons, List.map_cons]
          congr 1
          refine ih _ ?_ (fun b first c second => decides b (inside b first) c (inside c second)) rfl
          simp only [List.length_cons] at size
          omega

/-- As many made items are left as there are different things that they were made of. -/
theorem length_eraseDupsBy {α β : Type} {same : β → β → Bool} {make : α → β} {xs distinct : List α}
    (nodup : distinct.Nodup) (members : ∀ a, a ∈ xs ↔ a ∈ distinct)
    (decides : ∀ a ∈ distinct, ∀ b ∈ distinct, same (make a) (make b) = true ↔ a = b) :
    ((xs.map make).eraseDupsBy same).length = distinct.length := by
  classical
  have erased : (xs.map make).eraseDupsBy same = xs.eraseDups.map make :=
    eraseDupsBy_map fun a first b second => decides a ((members a).1 first) b ((members b).1 second)
  have perm : xs.eraseDups.Perm distinct := by
    refine (List.perm_ext_iff_of_nodup (nodup_eraseDups xs) nodup).2 fun a => ?_
    rw [List.mem_eraseDups, members]
  rw [erased, List.length_map, perm.length_eq]

/-! ### Keys -/

/-- The primary key of a record. -/
def Table.keyOf (engine : Engine V) (table : Table) (record : Record V) : List V :=
  table.primaryKey.map (engine.read record)

/-- The primary keys of some records, each once. -/
def Table.distinctKeys (engine : Engine V) (table : Table) (records : List (Record V)) : List (List V) :=
  (records.map (table.keyOf engine)).eraseDupsBy engine.sameAll

section

variable {db : Database V} {registry : Registry} {selection : Selection}

/-- Two rows of a table with keys have the same key exactly if they are the same. -/
theorem Sql.Database.Keyed.sameAll_keyOf {table : Table} (keyed : db.Keyed table) {a b : Record V}
    (storedA : a ∈ db.rowsOf table) (storedB : b ∈ db.rowsOf table) :
    db.engine.sameAll (table.keyOf db.engine a) (table.keyOf db.engine b) = true ↔ a = b := by
  have pointwise : db.engine.sameAll (table.keyOf db.engine a) (table.keyOf db.engine b) = true ↔
      ∀ column ∈ table.primaryKey, db.engine.same (db.engine.read a column) (db.engine.read b column) = true := by
    simp [Engine.sameAll, Table.keyOf, List.zip_map']
  rw [pointwise]
  constructor
  · intro same
    refine keyed.eq_of_compare storedA storedB fun column member => ?_
    have present := keyed.present a storedA column member
    simpa [Engine.same, present] using same column member
  · rintro rfl column member
    have equal := db.engine.compare_self _ (keyed.present a storedA column member)
    simp [Engine.same, equal]

theorem Selection.roots_subset : selection.roots db registry ⊆ db.rowsOf selection.table :=
  fun _ member => List.mem_of_mem_filter member

theorem Selection.nodup_roots (keyed : db.Keyed selection.table) : (selection.roots db registry).Nodup :=
  keyed.nodup.filter _

/-- Among rows that are the roots, perhaps repeated, there are as many keys as roots. -/
theorem Selection.length_distinctKeys (keyed : db.Keyed selection.table) {rows : List (Record V)}
    (members : ∀ row, row ∈ rows ↔ row ∈ selection.roots db registry) :
    (selection.table.distinctKeys db.engine rows).length = (selection.roots db registry).length :=
  length_eraseDupsBy (Selection.nodup_roots keyed) members fun _ first _ second =>
    keyed.sameAll_keyOf (Selection.roots_subset first) (Selection.roots_subset second)

variable {includes : List Include} {names : Names} {assembly : Assembly}
  (parts : assembly.Parts db registry selection includes names)

include parts

/-- The rows of the root in the matching scopes are the roots. -/
theorem Assembly.Parts.mem_map_get (outer : Scope V) (row : Record V) :
    row ∈ (assembly.query.matching db outer).map (fun scope => scope.get parts.label) ↔
      row ∈ selection.roots db registry := by
  rw [List.mem_map]
  exact parts.exists_matching_iff

/-- The statement for distinct keys answers with one row for each root. -/
theorem Assembly.Parts.length_rows_distinctKeys (keyed : db.Keyed selection.table) (outer : Scope V) :
    ((assembly.distinctKeys selection.table.primaryKey).answer db outer).rows.length =
      (selection.roots db registry).length := by
  have labelled : assembly.plan.label = parts.label := by rw [parts.plan_eq]
  have unlimited : assembly.query.limit = none ∧ assembly.query.offset = none := by
    rw [parts.query_eq]
    exact ⟨rfl, rfl⟩
  have ungrouped : (assembly.distinctKeys selection.table.primaryKey).isGrouped db.engine = false := by
    have unsorted : ∀ item ∈ assembly.query.orderBy, ∃ label column, item.expr = Expr.of label column := by
      rw [parts.query_eq, Query.empty]
      simp
    have columns : ∀ item ∈ (assembly.distinctKeys selection.table.primaryKey).select,
        ∃ label column, item.expr = Expr.of label column := by
      intro item member
      obtain ⟨column, -, rfl⟩ := List.mem_map.1 member
      exact ⟨_, _, rfl⟩
    have plain : { assembly.query with
        select := (assembly.distinctKeys selection.table.primaryKey).select
        limit := none
        offset := none : Query }.IsPlain db.engine := parts.isPlain columns unsorted
    exact plain.ungrouped
  have records : (fun scope : Scope V => SelectItem.record db outer scope []
      (assembly.distinctKeys selection.table.primaryKey).select) =
        fun scope => selection.table.keyRecord db.engine (scope.get parts.label) := by
    funext scope
    rw [Assembly.distinctKeys, labelled, Table.keyRecord]
    generalize selection.table.primaryKey = key
    induction key with
    | nil => rfl
    | cons column key ih =>
        rw [List.map_cons, List.map_cons, SelectItem.plain, SelectItem.record_cons, ih]
        rfl
  have members : ∀ row, row ∈ ((assembly.distinctKeys selection.table.primaryKey).ordered db outer).map
      (fun scope => scope.get parts.label) ↔ row ∈ selection.roots db registry := by
    intro row
    rw [← parts.mem_map_get outer, List.mem_map, List.mem_map]
    simp only [Query.mem_ordered]
    rfl
  rw [Query.rows_of_distinct db outer _ ungrouped rfl unlimited.1 unlimited.2, records]
  have grouped := @length_eraseDupsBy _ _ (sameRecord db.engine) (selection.table.keyRecord db.engine) _ _
    (Selection.nodup_roots keyed) members fun a first b second => by
      have keys : ∀ row : Record V, (selection.table.keyRecord db.engine row).map Prod.snd =
          selection.table.keyOf db.engine row := by
        intro row
        simp [Table.keyRecord, Table.keyOf]
      rw [sameRecord, keys, keys]
      exact keyed.sameAll_keyOf (Selection.roots_subset first) (Selection.roots_subset second)
  rwa [List.map_map] at grouped

/-- The selected key columns of a scope's row are the key of its root. -/
theorem Assembly.Parts.keyOf_record
    (keyKnown : ∀ column ∈ selection.table.primaryKey, selection.table.hasColumn column = true)
    {outer scope : Scope V} :
    selection.table.keyOf db.engine (SelectItem.record db outer scope [] assembly.plan.selectItems) =
      selection.table.keyOf db.engine (scope.get parts.label) := by
  obtain ⟨selected, -, -⟩ := completedColumns_spec keyKnown parts.chosen parts.completed
  refine List.map_congr_left fun column member => ?_
  rw [parts.plan_eq, Projection.selectItems, Projection.ownItems]
  exact read_record_columns (selected column member)

end

/-! ### Counting -/

/-- Integers are never missing. -/
theorem isNull_int (engine : Engine V) (n : Int) : engine.isNull (engine.ofLiteral (.int n)) = false := by
  have equal : engine.compare .eq (engine.ofLiteral (.int n)) (engine.ofLiteral (.int n)) = .yes := by
    rw [engine.compare_int, beq_self_eq_true]
    rfl
  exact engine.not_isNull_of_compare_left equal

/-- Every row is counted where no value is looked at. -/
theorem countOf_star (db : Database V) (scopes : List (Scope V)) :
    db.engine.countOf false (scopes.map fun scope => Expr.evalEach db scope [] [.star none]) =
      scopes.length := by
  have present : ∀ values ∈ scopes.map (fun scope => Expr.evalEach db scope [] [.star none]),
      values.all (fun v => !db.engine.isNull v) = true := by
    intro values member
    obtain ⟨scope, -, rfl⟩ := List.mem_map.1 member
    change ([db.engine.ofLiteral (.int 1)].all fun v => !db.engine.isNull v) = true
    simp [isNull_int]
  rw [Engine.countOf, List.filter_eq_self.2 present, if_neg Bool.false_ne_true, List.length_map]

/-- As many rows of a derived table match as there are, where nothing is asked of them. -/
theorem length_matching_over {db : Database V} {outer : Scope V} {query : Query} {name : String}
    {select : List SelectItem} :
    ((query.over name select none).matching db outer).length = (query.answer db outer).rows.length := by
  simp [Query.over, Query.matching, Query.joined, Query.empty, TableRef.start_some, TableRef.derived,
    JoinKind.combine, extendMatching, conditionTruth]

section

variable {db : Database V} {registry : Registry} {selection : Selection}

/-- The counting statement answers with the number of roots. -/
theorem Selection.rows_countQuery (keyed : db.Keyed selection.table) {counting : Query}
    (count : selection.countQuery registry = .ok counting) :
    (counting.answer db []).rows =
      [[(countColumn, db.engine.ofLiteral (.int (selection.roots db registry).length))]] := by
  obtain ⟨assembly, assembled, made⟩ := Selection.countQuery_eq_ok count
  obtain ⟨parts⟩ := Selection.nonempty_parts db assembled
  have labelled : assembly.plan.label = parts.label := by rw [parts.plan_eq]
  rcases made with ⟨keyless, -⟩ | ⟨column, single, rfl⟩ | ⟨-, rfl⟩
  · exact absurd keyless keyed.hasKey
  · have values : (assembly.query.matching db []).map (fun scope =>
        Expr.evalEach db scope [] [Expr.of assembly.plan.label column]) =
          ((assembly.query.matching db []).map fun scope => scope.get parts.label).map
            (selection.table.keyOf db.engine) := by
      rw [labelled, List.map_map]
      refine List.map_congr_left fun scope _ => ?_
      simp [Table.keyOf, single, Expr.of]
    have present : ∀ key ∈ ((assembly.query.matching db []).map fun scope => scope.get parts.label).map
        (selection.table.keyOf db.engine), key.all (fun v => !db.engine.isNull v) = true := by
      intro key member
      obtain ⟨row, inside, rfl⟩ := List.mem_map.1 member
      have stored := Selection.roots_subset ((parts.mem_map_get [] row).1 inside)
      simpa [Table.keyOf] using keyed.present row stored
    have plain : assembly.query.groupBy = [] ∧ assembly.query.having = none ∧
        assembly.query.distinct = false ∧ assembly.query.limit = none ∧ assembly.query.offset = none := by
      rw [parts.query_eq]
      exact ⟨rfl, rfl, rfl, rfl, rfl⟩
    obtain ⟨ungrouped, unrestricted, all, unlimited, started⟩ := plain
    have answer := Query.rows_of_count db []
      { assembly.query with
        select := [⟨Expr.countDistinct (Expr.of assembly.plan.label column), some countColumn⟩] }
      rfl ungrouped unrestricted all unlimited started
    have counted : db.engine.countOf true ((assembly.query.matching db []).map fun scope =>
        Expr.evalEach db scope [] [Expr.of assembly.plan.label column]) =
          (selection.roots db registry).length := by
      rw [values, Engine.countOf, List.filter_eq_self.2 present]
      exact Selection.length_distinctKeys keyed (parts.mem_map_get [])
    have matching : ∀ select, { assembly.query with select : Query }.matching db [] =
        assembly.query.matching db [] := fun _ => rfl
    rw [matching, counted] at answer
    exact answer
  · have rows := parts.length_rows_distinctKeys keyed []
    have answer := Query.rows_of_count db []
      ((assembly.distinctKeys selection.table.primaryKey).over (assembly.names.reserve countedName none).1
        [⟨Expr.countRows, some countColumn⟩] none) rfl rfl rfl rfl rfl rfl
    rw [countOf_star, length_matching_over, rows] at answer
    exact answer

/-- The number that is counted is that of the distinct root keys among the rows of the full statement. -/
theorem Selection.count_distinctKeys (db : Database V) (registry : Registry) (selection : Selection)
    (built : BuiltQuery) (counting : Query) (keyed : db.Keyed selection.table)
    (build : selection.unpaged.build registry = .ok built)
    (count : selection.countQuery registry = .ok counting) :
    ∃ n : Nat, (counting.answer db []).rows = [[(countColumn, db.engine.ofLiteral (.int n))]] ∧
      n = (selection.table.distinctKeys db.engine
        ((built.query.matching db []).map fun scope => scope.get built.plan.label)).length ∧
      ((∀ column ∈ selection.table.primaryKey, selection.table.hasColumn column = true) →
        n = (selection.table.distinctKeys db.engine (built.query.answer db []).rows).length) := by
  obtain ⟨assembly, items, assembled, ordered, planned, unpaged, -, -⟩ := Selection.build_eq_ok build
  obtain ⟨parts⟩ := Selection.nonempty_parts db assembled
  have made : built.query = assembly.statement items := unpaged rfl
  have labelled : built.plan.label = parts.label := by rw [planned, parts.plan_eq]
  refine ⟨_, Selection.rows_countQuery keyed count, ?_, ?_⟩
  · rw [made, labelled]
    exact (Selection.length_distinctKeys keyed (parts.mem_map_get [])).symm
  · intro keyKnown
    have keys : (built.query.answer db []).rows.map (selection.table.keyOf db.engine) =
        (((assembly.statement items).ordered db []).map fun scope => scope.get parts.label).map
          (selection.table.keyOf db.engine) := by
      rw [made, parts.answer_statement ordered, List.map_map, List.map_map]
      refine List.map_congr_left fun scope _ => ?_
      exact parts.keyOf_record keyKnown
    have members : ∀ row, row ∈ ((assembly.statement items).ordered db []).map
        (fun scope => scope.get parts.label) ↔ row ∈ selection.roots db registry := by
      intro row
      refine Iff.trans ?_ (parts.mem_map_get [] row)
      simp only [List.mem_map, Assembly.mem_ordered_statement]
    rw [Table.distinctKeys, keys]
    exact (Selection.length_distinctKeys keyed members).symm

end

/-- The posts by Ada with all their tags: two posts, though three rows. -/
def Blog.postsByAda : Selection :=
  { Selection.ofTable Blog.posts with
    filters := [.relation "author" { RelationFilter.empty with someRow := some (.eq "name" (.text "Ada")) }]
    includes := [⟨"tags", none, none, none, []⟩] }

/-- Two posts are counted, one of them with two rows in the full statement. -/
theorem Blog.count_postsByAda :
    ∃ built counting, Blog.postsByAda.unpaged.build registry = .ok built ∧
      Blog.postsByAda.countQuery registry = .ok counting ∧
      (built.query.matching database []).length = 3 ∧
      (posts.distinctKeys database.engine (built.query.answer database []).rows).length = 2 ∧
      (counting.answer database []).rows = [[(countColumn, .int 2)]] := by
  have scopes : ((Blog.postsByAda.unpaged.build registry).map fun built =>
      ((built.query.matching database []).length, (posts.distinctKeys database.engine
        ((built.query.matching database []).map fun scope => scope.get built.plan.label)).length)).toOption =
          some (3, 2) := by decide +kernel
  have joins : ((Blog.postsByAda.countQuery registry).map fun counting =>
      counting.joins.length).toOption = some 1 := by decide +kernel
  obtain ⟨built, build, lengths⟩ := exists_of_toOption_map scopes
  obtain ⟨counting, count, -⟩ := exists_of_toOption_map joins
  obtain ⟨three, two⟩ := Prod.mk.inj lengths
  obtain ⟨n, answer, roots, shown⟩ := Selection.count_distinctKeys database registry Blog.postsByAda built
    counting keyed_posts build count
  obtain rfl : n = 2 := roots.trans two
  exact ⟨built, counting, build, count, three, (shown (by decide)).symm, answer⟩

end RelQuery
