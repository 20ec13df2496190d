/-
Module: RelQuery.Proofs.Select.Paging
Purpose: Pages of one selection. The query that is cut to a page is sorted by the whole key of the root if
  relations multiply rows or the orderings name the key themselves. All pages are then windows of one order
  of the roots, whatever the engine does with ties, so that consecutive pages neither repeat nor skip a root.
Main exports: Selection.NamesKey, Query.SortsByKey, Selection.PageQuery.sortsByKey_iff,
  BuiltQuery.shownRoots, Selection.mem_shownRoots, Selection.pages_of_one_order
-/
import RelQuery.Proofs.Select.Limits
import RelQuery.Proofs.Select.Roots
import RelQuery.Proofs.Select.Shown

namespace RelQuery

open Sql

variable {V : Type}

/-! ### Sorting by the key -/

/-- A query over a table is sorted by every column of the table's key, perhaps among others. -/
def Sql.Query.SortsByKey (q : Query) (table : Table) : Prop :=
  ∃ label, q.source = some (occurrence table label) ∧
    ∀ column ∈ table.primaryKey, ∃ item ∈ q.orderBy, item.expr = Expr.of label column

namespace Selection

/-- The orderings name every column of the primary key. -/
def NamesKey (selection : Selection) : Prop :=
  ∀ column ∈ selection.table.primaryKey,
    ∃ term ∈ selection.order, term.relations = [] ∧ term.column = column

instance (selection : Selection) : Decidable selection.NamesKey :=
  inferInstanceAs (Decidable (∀ column ∈ selection.table.primaryKey,
    ∃ term ∈ selection.order, term.relations = [] ∧ term.column = column))

variable {registry : Registry} {selection : Selection}

theorem mem_remainingKey {column : String} :
    column ∈ selection.remainingKey ↔ column ∈ selection.table.primaryKey ∧
      ¬∃ term ∈ selection.order, term.relations = [] ∧ term.column = column := by
  simp [remainingKey]

/-- Orderings that name the whole key leave no column of it. -/
theorem NamesKey.remainingKey_eq_nil (named : selection.NamesKey) : selection.remainingKey = [] := by
  refine List.eq_nil_iff_forall_not_mem.2 fun column remaining => ?_
  obtain ⟨inKey, unnamed⟩ := mem_remainingKey.1 remaining
  exact unnamed (named column inKey)

/-- Orderings that name the whole key of a table tell its rows apart. -/
theorem NamesKey.decides {db : Database V} (named : selection.NamesKey) (keyed : db.Keyed selection.table) :
    selection.Decides db registry := by
  have keys : selection.pageKeys db registry = selection.orderKeys db registry := by
    rw [pageKeys, named.remainingKey_eq_nil, List.map_nil, List.append_nil]
  intro a memberA b memberB first second
  rw [← keys] at first second
  exact pageKeys_antisymm keyed (List.mem_of_mem_filter memberA) (List.mem_of_mem_filter memberB) first second

end Selection

theorem occurrence_injective {table : Table} {label label' : String}
    (same : occurrence table label = occurrence table label') : label = label' := by
  rw [← exposedName_occurrence table label, same, exposedName_occurrence]

section

variable {registry : Registry} {selection : Selection} {includes : List Include} {names : Names}
  {assembly : Assembly}

/-- The orderings name a column of the root exactly if the ORDER BY list has it. -/
theorem Assembly.Parts.exists_mem_orderItems_iff {db : Database V}
    (parts : assembly.Parts db registry selection includes names) {items : List OrderItem}
    (ordered : selection.orderItems registry assembly.plan = .ok items) (column : String) :
    (∃ item ∈ items, item.expr = Expr.of parts.label column) ↔
      ∃ term ∈ selection.order, term.relations = [] ∧ term.column = column := by
  have made := orderItems_eq_ok ordered
  generalize selection.order = terms at made
  clear ordered
  induction made with
  | nil => simp
  | @cons term item terms items first rest ih =>
      obtain ⟨reached, found, rfl⟩ := first
      have label := parts.label_eq_iff found
      rw [List.exists_mem_cons_iff, List.exists_mem_cons_iff]
      refine or_congr ?_ ih
      simp [Expr.of, label]

/-- The query that is cut to a page is sorted by the whole key exactly if relations multiply rows or the
    orderings name the key. -/
theorem Selection.PageQuery.sortsByKey_iff (db : Database V) {built : BuiltQuery} {q : Query}
    (page : selection.PageQuery registry built q) :
    q.SortsByKey selection.table ↔ built.plan.hasToMany = true ∨ selection.NamesKey := by
  obtain ⟨includes, names, assembly, items, assembled, ordered, sourced, sorts⟩ := page.sorted
  obtain ⟨parts⟩ := Selection.nonempty_parts db assembled
  have labelled : assembly.plan.label = parts.label := by rw [parts.plan_eq]
  rw [labelled] at sourced sorts
  cases toMany : built.plan.hasToMany with
  | true =>
      simp only [true_or, iff_true]
      refine ⟨parts.label, sourced, fun column member => ?_⟩
      rw [sorts, toMany, if_pos rfl, parts.withKeyOrder_eq ordered]
      by_cases named : ∃ term ∈ selection.order, term.relations = [] ∧ term.column = column
      · obtain ⟨item, inItems, same⟩ := (parts.exists_mem_orderItems_iff ordered column).2 named
        exact ⟨item, List.mem_append_left _ inItems, same⟩
      · have remaining := Selection.mem_remainingKey.2 ⟨member, named⟩
        exact ⟨_, List.mem_append_right _ (List.mem_map_of_mem remaining), rfl⟩
  | false =>
      rw [toMany, if_neg (by decide)] at sorts
      simp only [Bool.false_eq_true, false_or]
      constructor
      · rintro ⟨label, sourced', has⟩ column member
        obtain rfl : parts.label = label := by
          rw [sourced] at sourced'
          exact occurrence_injective (Option.some.inj sourced')
        rw [sorts] at has
        exact (parts.exists_mem_orderItems_iff ordered column).1 (has column member)
      · intro named
        refine ⟨parts.label, sourced, fun column member => ?_⟩
        rw [sorts]
        exact (parts.exists_mem_orderItems_iff ordered column).2 (named column member)

end

/-! ### Roots on a page -/

/-- The rows of the root that the rows of an answer show, in the order of the answer. -/
def BuiltQuery.shownRoots (db : Database V) (built : BuiltQuery) : List (Record V) :=
  window built.query.limit built.query.offset (built.rootRows db)

section

variable {db : Database V} {registry : Registry} {selection : Selection} {built : BuiltQuery}

/-- A built statement selects and sorts like its assembly; a page only narrows or cuts it. -/
theorem Selection.build_eq_variant (build : selection.build registry = .ok built) :
    ∃ assembly items condition limit offset,
      selection.assemble registry selection.includes .empty = .ok assembly ∧
      selection.orderItems registry assembly.plan = .ok items ∧
      built = ⟨{ assembly.statement items with condition, limit, offset }, assembly.plan⟩ := by
  obtain ⟨assembly, items, assembled, ordered, planned, whole, restricts, cut⟩ :=
    Selection.build_eq_ok build
  obtain ⟨query, plan⟩ := built
  obtain rfl : plan = assembly.plan := planned
  cases paged : selection.isPaged with
  | false =>
      obtain rfl : query = _ := whole paged
      exact ⟨assembly, items, _, _, _, assembled, ordered, rfl⟩
  | true =>
      cases toMany : assembly.plan.hasToMany with
      | false =>
          obtain rfl : query = _ := cut paged toMany
          exact ⟨assembly, items, _, _, _, assembled, ordered, rfl⟩
      | true =>
          obtain ⟨condition, -, made⟩ := restricts paged toMany
          obtain rfl : query = _ := made
          exact ⟨assembly, items, _, _, _, assembled, ordered, rfl⟩

/-- Each row of the answer shows a root: it has the root's values in the selected columns. -/
theorem Selection.read_shownRoots (db : Database V) (build : selection.build registry = .ok built)
    {columns : List PlanColumn} (chosen : selectColumns selection.table selection.columns = .ok columns) :
    (built.query.answer db []).rows.map (columnValues db.engine columns) =
      (built.shownRoots db).map (columnValues db.engine columns) := by
  obtain ⟨assembly, items, condition, limit, offset, assembled, ordered, rfl⟩ :=
    Selection.build_eq_variant build
  obtain ⟨parts⟩ := Selection.nonempty_parts db assembled
  have labelled : assembly.plan.label = parts.label := by rw [parts.plan_eq]
  have plain : { assembly.statement items with condition, limit, offset : Query }.IsPlain db.engine :=
    ⟨(parts.isPlain_statement ordered).ungrouped, (parts.isPlain_statement ordered).keepsDuplicates⟩
  rw [Query.rows_of_isPlain db [] _ plain, BuiltQuery.shownRoots, BuiltQuery.rootRows, map_window, map_window,
    List.map_map, List.map_map, labelled]
  congr 1
  exact List.map_congr_left fun scope _ => parts.columnValues_record chosen [] scope

/-- Where relations multiply rows or the orderings name the key, the roots that an answer shows are those
    of the page. -/
theorem Selection.mem_shownRoots (build : selection.build registry = .ok built)
    (registered : selection.table ∈ registry.tables) (keyed : db.Keyed selection.table)
    (unique : db.LinksToOne registry) (paged : selection.isPaged = true)
    (total : built.plan.hasToMany = true ∨ selection.NamesKey) (root : Record V) :
    root ∈ built.shownRoots db ↔ root ∈ selection.page db registry := by
  obtain ⟨assembly, items, assembled, ordered, planned, -, restricts, cut⟩ := Selection.build_eq_ok build
  obtain ⟨parts⟩ := Selection.nonempty_parts db assembled
  have labelled : built.plan.label = parts.label := by rw [planned, parts.plan_eq]
  rw [BuiltQuery.shownRoots, BuiltQuery.rootRows, labelled]
  cases toMany : assembly.plan.hasToMany with
  | true =>
      obtain ⟨condition, restricted, made⟩ := restricts paged toMany
      have onPage := parts.truth_pageCondition keyed unique registered ordered restricted
      have whole : built.query.limit = none ∧ built.query.offset = none := by
        rw [made, Query.filter, Assembly.statement, parts.query_eq]
        exact ⟨rfl, rfl⟩
      have matching : built.query.matching db [] = (assembly.query.matching db []).filter fun scope =>
          selection.onPage db registry (scope.get parts.label) := by
        rw [made, matching_filter]
        exact List.filter_congr fun scope _ => onPage scope
      rw [whole.1, whole.2, window_none, List.mem_map]
      simp only [Query.mem_ordered, matching, List.mem_filter]
      constructor
      · rintro ⟨scope, ⟨inside, shown⟩, rfl⟩
        exact (Selection.onPage_iff keyed (parts.root_of_mem_matching inside)).1 shown
      · intro member
        have accepted := (Selection.page_spec keyed).1 member
        obtain ⟨scope, inside, rfl⟩ := parts.exists_matching_iff.2 accepted
        exact ⟨scope, ⟨inside, (Selection.onPage_iff keyed accepted).2 member⟩, rfl⟩
  | false =>
      have named : selection.NamesKey := total.resolve_left (by rw [planned, toMany]; decide)
      have decides : selection.Decides db registry := named.decides keyed
      have made := cut paged toMany
      have same : built.query.matching db [] = assembly.query.matching db [] := by
        rw [made]
        rfl
      have sorts : built.query.orderBy = items := by
        rw [made]
        rfl
      rw [parts.ordered_statement toMany unique registered ordered decides same sorts,
        Selection.page_eq_of_decides decides, made]

end

/-! ### Pages of one order -/

/-- What a window keeps stands at the places from its offset on, as many as its limit grants. -/
theorem mem_window_iff_place {α : Type} {limit offset : Option UInt64} {rows : List α} {a : α} :
    a ∈ window limit offset rows ↔ ∃ place, rows[place]? = some a ∧ (offset.getD 0).toNat ≤ place ∧
      ∀ n, limit = some n → place < (offset.getD 0).toNat + n.toNat := by
  have kept : ∀ place, (window limit offset rows)[place]? = some a ↔
      rows[(offset.getD 0).toNat + place]? = some a ∧ ∀ n, limit = some n → place < n.toNat := by
    intro place
    cases limit with
    | none => simp [window, List.getElem?_drop]
    | some n => simp [window, List.getElem?_take, List.getElem?_drop, and_comm]
  rw [List.mem_iff_getElem?]
  simp only [kept]
  constructor
  · rintro ⟨place, found, within⟩
    exact ⟨_, found, Nat.le_add_right _ _, fun n cut => Nat.add_lt_add_left (within n cut) _⟩
  · rintro ⟨place, found, behind, within⟩
    refine ⟨place - (offset.getD 0).toNat, ?_, fun n cut => ?_⟩
    · rwa [Nat.add_sub_cancel' behind]
    · have before := within n cut
      omega

namespace Selection

/-- The selection with the limit and the offset of a page. -/
def cutTo (selection : Selection) (limit offset : Option UInt64) : Selection :=
  { selection with limit, offset }

/-- The roots in the order that pages are cut from: by the orderings and then by the remaining key. -/
def pageOrder (db : Database V) (registry : Registry) (selection : Selection) : List (Record V) :=
  (selection.roots db registry).mergeSort (sortsByKeys db.engine (selection.pageKeys db registry))

/-- Statements for consecutive pages: each starts behind as many roots as the pages before it have room for. -/
def Pages (registry : Registry) (selection : Selection) (size : UInt64) (pages : List BuiltQuery) : Prop :=
  ∀ n built, pages[n]? = some built → ∃ offset : UInt64, offset.toNat = n * size.toNat ∧
    (selection.cutTo (some size) (some offset)).build registry = .ok built

end Selection

section

variable {db : Database V} {registry : Registry} {selection : Selection}

theorem Selection.pageOrder_perm : (selection.pageOrder db registry).Perm (selection.roots db registry) :=
  List.mergeSort_perm _ _

theorem Selection.nodup_pageOrder (keyed : db.Keyed selection.table) :
    (selection.pageOrder db registry).Nodup :=
  Selection.pageOrder_perm.nodup_iff.2 (keyed.nodup.filter _)

/-- A root is shown on the page that has its place. -/
theorem Selection.mem_shownRoots_iff_place {limit offset : Option UInt64} {built : BuiltQuery}
    (build : (selection.cutTo limit offset).build registry = .ok built)
    (registered : selection.table ∈ registry.tables) (keyed : db.Keyed selection.table)
    (unique : db.LinksToOne registry) (paged : (limit.isSome || offset.isSome) = true)
    (total : built.plan.hasToMany = true ∨ selection.NamesKey) (root : Record V) :
    root ∈ built.shownRoots db ↔ ∃ place, (selection.pageOrder db registry)[place]? = some root ∧
      (offset.getD 0).toNat ≤ place ∧ ∀ n, limit = some n → place < (offset.getD 0).toNat + n.toNat := by
  rw [← mem_window_iff_place]
  exact Selection.mem_shownRoots build registered keyed unique paged total root

namespace Selection.Pages

variable {size : UInt64} {pages : List BuiltQuery} (consecutive : selection.Pages registry size pages)
  (total : ∀ built ∈ pages, built.plan.hasToMany = true ∨ selection.NamesKey)
  (registered : selection.table ∈ registry.tables) (keyed : db.Keyed selection.table)
  (unique : db.LinksToOne registry)

include consecutive total registered keyed unique

/-- A root is shown on the n-th page if its place is among those of the page. -/
theorem mem_shownRoots_iff {n : Nat} {built : BuiltQuery} (nth : pages[n]? = some built) (root : Record V) :
    root ∈ built.shownRoots db ↔ ∃ place, (selection.pageOrder db registry)[place]? = some root ∧
      n * size.toNat ≤ place ∧ place < (n + 1) * size.toNat := by
  obtain ⟨offset, starts, build⟩ := consecutive n built nth
  have places := Selection.mem_shownRoots_iff_place build registered keyed unique rfl
    (total built (List.mem_of_getElem? nth)) root
  simp only [Option.getD_some, starts, Option.some.injEq, forall_eq'] at places
  rw [Nat.succ_mul]
  exact places

/-- No root is shown on two pages. -/
theorem eq_of_mem_shownRoots {n m : Nat} {first second : BuiltQuery} (nth : pages[n]? = some first)
    (mth : pages[m]? = some second) {root : Record V} (shown : root ∈ first.shownRoots db)
    (again : root ∈ second.shownRoots db) : n = m := by
  obtain ⟨place, found, low, high⟩ :=
    (mem_shownRoots_iff consecutive total registered keyed unique nth root).1 shown
  obtain ⟨other, foundAgain, lowAgain, highAgain⟩ :=
    (mem_shownRoots_iff consecutive total registered keyed unique mth root).1 again
  obtain ⟨inside, -⟩ := List.getElem?_eq_some_iff.1 found
  obtain rfl : place = other :=
    (List.getElem?_inj inside (Selection.nodup_pageOrder keyed)).1 (found.trans foundAgain.symm)
  rw [← Nat.div_eq_of_lt_le low high, Nat.div_eq_of_lt_le lowAgain highAgain]

/-- Together the pages show the first roots of the order, as many as they have room for. -/
theorem exists_mem_shownRoots_iff (root : Record V) : (∃ built ∈ pages, root ∈ built.shownRoots db) ↔
    root ∈ (selection.pageOrder db registry).take (pages.length * size.toNat) := by
  have placed : root ∈ (selection.pageOrder db registry).take (pages.length * size.toNat) ↔
      ∃ place < pages.length * size.toNat, (selection.pageOrder db registry)[place]? = some root := by
    rw [List.mem_iff_getElem?]
    simp [List.getElem?_take]
  rw [placed]
  constructor
  · rintro ⟨built, member, shown⟩
    obtain ⟨n, nth⟩ := List.mem_iff_getElem?.1 member
    obtain ⟨inside, -⟩ := List.getElem?_eq_some_iff.1 nth
    obtain ⟨place, found, -, high⟩ :=
      (mem_shownRoots_iff consecutive total registered keyed unique nth root).1 shown
    exact ⟨place, Nat.lt_of_lt_of_le high (Nat.mul_le_mul_right _ inside), found⟩
  · rintro ⟨place, within, found⟩
    have inside : place / size.toNat < pages.length := Nat.div_lt_of_lt_mul (by rwa [Nat.mul_comm])
    have positive : 0 < size.toNat := by
      by_contra zero
      simp [Nat.eq_zero_of_not_pos zero] at within
    have nth := List.getElem?_eq_getElem inside
    refine ⟨_, List.getElem_mem inside, ?_⟩
    refine (mem_shownRoots_iff consecutive total registered keyed unique nth root).2 ⟨place, found, ?_, ?_⟩
    · exact Nat.div_mul_le_self _ _
    · rw [Nat.succ_mul]
      exact Nat.lt_div_mul_add positive

end Selection.Pages

end

/-- Pages of one selection. A statement with a page has queries that are cut to it, and these alone are
    cut. They are sorted by the whole key of the root exactly if the statement has relations that multiply
    rows or the orderings name the key; where they are not, rows that tie may be on several pages or on
    none. Where they are, all pages are windows of one order of the roots, whatever the engine makes of
    ties: no root is on two consecutive pages, and none is left out between them. -/
theorem Selection.pages_of_one_order (db : Database V) (registry : Registry) (selection : Selection)
    (registered : selection.table ∈ registry.tables) (keyed : db.Keyed selection.table)
    (unique : db.LinksToOne registry) :
    ((selection.pageOrder db registry).Perm (selection.roots db registry) ∧
      (selection.pageOrder db registry).Nodup) ∧
    (∀ limit offset built, (selection.cutTo limit offset).build registry = .ok built →
      (limit.isSome || offset.isSome) = true →
        (∃ q ∈ built.query.queries, q.isCut = true) ∧
        (∀ q ∈ built.query.queries, q.isCut = true → q.limit = limit ∧ q.offset = offset ∧
          (q.SortsByKey selection.table ↔ built.plan.hasToMany = true ∨ selection.NamesKey)) ∧
        (∀ columns, selectColumns selection.table selection.columns = .ok columns →
          (built.query.answer db []).rows.map (columnValues db.engine columns) =
            (built.shownRoots db).map (columnValues db.engine columns)) ∧
        (built.plan.hasToMany = true ∨ selection.NamesKey → ∀ root, root ∈ built.shownRoots db ↔
          ∃ place, (selection.pageOrder db registry)[place]? = some root ∧ (offset.getD 0).toNat ≤ place ∧
            ∀ n, limit = some n → place < (offset.getD 0).toNat + n.toNat)) ∧
    ∀ size pages, selection.Pages registry size pages →
      (∀ built ∈ pages, built.plan.hasToMany = true ∨ selection.NamesKey) →
        (∀ (n m : Nat) (first second : BuiltQuery), pages[n]? = some first → pages[m]? = some second →
          ∀ root ∈ first.shownRoots db, root ∈ second.shownRoots db → n = m) ∧
        ∀ root, (∃ built ∈ pages, root ∈ built.shownRoots db) ↔
          root ∈ (selection.pageOrder db registry).take (pages.length * size.toNat) := by
  refine ⟨⟨Selection.pageOrder_perm, Selection.nodup_pageOrder keyed⟩, ?_, ?_⟩
  · intro limit offset built build paged
    obtain ⟨q, page⟩ := Selection.exists_pageQuery build paged
    have cut : q.isCut = true := by
      rw [Query.isCut, page.limit, page.offset]
      exact paged
    refine ⟨⟨q, page.inside, cut⟩, ?_, fun columns chosen => Selection.read_shownRoots db build chosen, ?_⟩
    · intro r inside cutToo
      obtain rfl := page.only r inside cutToo
      exact ⟨page.limit, page.offset, page.sortsByKey_iff db⟩
    · exact fun total => Selection.mem_shownRoots_iff_place build registered keyed unique paged total
  · intro size pages consecutive total
    refine ⟨fun n m first second nth mth root shown again => ?_, fun root => ?_⟩
    · exact consecutive.eq_of_mem_shownRoots total registered keyed unique nth mth shown again
    · exact consecutive.exists_mem_shownRoots_iff total registered keyed unique root

/-- The first three pages of one root each. -/
theorem Blog.pages_of_build {selection : Selection} {first second third : BuiltQuery}
    (buildFirst : (selection.cutTo (some 1) (some 0)).build registry = .ok first)
    (buildSecond : (selection.cutTo (some 1) (some 1)).build registry = .ok second)
    (buildThird : (selection.cutTo (some 1) (some 2)).build registry = .ok third) :
    selection.Pages registry 1 [first, second, third] := by
  intro n built nth
  match n with
  | 0 => exact ⟨0, rfl, Option.some.inj nth ▸ buildFirst⟩
  | 1 => exact ⟨1, rfl, Option.some.inj nth ▸ buildSecond⟩
  | 2 => exact ⟨2, rfl, Option.some.inj nth ▸ buildThird⟩

/-- The posts by the names of their authors, with their tags. Ada wrote two of the three. -/
def Blog.postsByAuthor : Selection :=
  { Selection.ofTable Blog.posts with
    includes := [⟨"author", none, none, none, []⟩, ⟨"tags", none, none, none, []⟩]
    order := [⟨"author.name", .asc, none⟩] }

/-- Of three pages of one post each, every post is on one and none is on two. -/
theorem Blog.pages_postsByAuthor :
    ∃ first second third : BuiltQuery, Blog.postsByAuthor.Pages registry 1 [first, second, third] ∧
      (∀ q ∈ first.query.queries, q.isCut = true → q.SortsByKey posts) ∧
      (∀ root, root ∈ first.shownRoots database ∨ root ∈ second.shownRoots database ∨
        root ∈ third.shownRoots database ↔ root ∈ Blog.postsByAuthor.roots database registry) ∧
      ∀ root ∈ first.shownRoots database, root ∉ second.shownRoots database := by
  obtain ⟨⟨perm, -⟩, each, tile⟩ := Selection.pages_of_one_order database registry Blog.postsByAuthor
    (by decide) keyed_posts linksToOne
  -- Evaluated along the list: a bounded quantifier could be decided over all counts.
  have made : (([0, 1, 2] : List UInt64).all fun k =>
      (((Blog.postsByAuthor.cutTo (some 1) (some k)).build registry).map fun built =>
        built.plan.hasToMany).toOption == some true) = true := by decide +kernel
  have page : ∀ k ∈ ([0, 1, 2] : List UInt64), ∃ built,
      (Blog.postsByAuthor.cutTo (some 1) (some k)).build registry = .ok built ∧ built.plan.hasToMany = true :=
    fun k member => exists_of_toOption_map (beq_iff_eq.1 (List.all_eq_true.1 made k member))
  obtain ⟨first, buildFirst, manyFirst⟩ := page 0 (by simp)
  obtain ⟨second, buildSecond, manySecond⟩ := page 1 (by simp)
  obtain ⟨third, buildThird, manyThird⟩ := page 2 (by simp)
  have consecutive := pages_of_build buildFirst buildSecond buildThird
  have total : ∀ built ∈ [first, second, third],
      built.plan.hasToMany = true ∨ Blog.postsByAuthor.NamesKey := by
    simp [manyFirst, manySecond, manyThird]
  obtain ⟨once, together⟩ := tile 1 [first, second, third] consecutive total
  have length : (Blog.postsByAuthor.pageOrder database registry).length = 3 := by
    rw [perm.length_eq]
    decide +kernel
  refine ⟨first, second, third, consecutive, fun q inside cut => ?_, fun root => ?_,
    fun root shown again => ?_⟩
  · obtain ⟨-, sorted, -, -⟩ := each (some 1) (some 0) first buildFirst rfl
    exact (sorted q inside cut).2.2.2 (.inl manyFirst)
  · have all := together root
    rw [List.take_of_length_le (by rw [length]; exact Nat.le_refl 3), perm.mem_iff] at all
    simpa using all
  · exact absurd (once 0 1 first second rfl rfl root shown again) (by decide)

/-! ### Pages without the key -/

/-- The rows of a query as the engine produces them. -/
def Sql.Query.arranged (db : Database V) (q : Query) : List (Scope V) :=
  (db.engine.arrange q ((q.matching db []).map fun scope => (scope, []))).map Prod.fst

/-- Rows that are produced in order stay as they are. -/
theorem BuiltQuery.shownRoots_of_sorted {db : Database V} {built : BuiltQuery}
    (sorted : (built.query.arranged db).Pairwise fun a b => ordersBefore db built.query.orderBy a b = true) :
    built.shownRoots db = (window built.query.limit built.query.offset (built.query.arranged db)).map
      fun scope => scope.get built.plan.label := by
  rw [shownRoots, rootRows, ← map_window]
  exact congrArg _ (congrArg _ (List.mergeSort_of_pairwise sorted))

/-- The posts by the numbers of their authors, the greatest first. Ada wrote two of them. -/
def Blog.postsByAuthorId : Selection :=
  { Selection.ofTable Blog.posts with order := [⟨"author_id", .desc, none⟩] }

/-- The sample database on an engine that produces the first two rows of a second page the other way round. -/
def Blog.exchanging : Database Scalar where
  engine :=
    { Scalar.engine with
      arrange := fun query rows =>
        match query.offset, rows with
        | some 1, a :: b :: rows => b :: a :: rows
        | _, rows => rows
      arrange_perm := by
        intro query rows
        split
        · exact .swap _ _ _
        · exact .refl _ }
  tables := database.tables

/-- Where neither the statement nor the orderings bring in the key, one of two posts that tie may be on two
    pages and the other one on none. -/
theorem Blog.pages_postsByAuthorId :
    exchanging.Keyed posts ∧ exchanging.LinksToOne registry ∧
      ∃ first second third : BuiltQuery, Blog.postsByAuthorId.Pages registry 1 [first, second, third] ∧
        [first, second, third].map (fun built => (built.shownRoots exchanging).map fun root =>
          exchanging.engine.read root "id") = [[.int 1], [.int 1], [.int 3]] := by
  have made : (([(0, 1), (1, 1), (2, 3)] : List (UInt64 × Int)).all fun page =>
      (((Blog.postsByAuthorId.cutTo (some 1) (some page.1)).build registry).map fun built =>
        (decide ((built.query.arranged exchanging).Pairwise fun a b =>
            ordersBefore exchanging built.query.orderBy a b = true),
          (window built.query.limit built.query.offset (built.query.arranged exchanging)).map fun scope =>
            exchanging.engine.read (scope.get built.plan.label) "id")).toOption ==
        some (true, [.int page.2])) = true := by decide +kernel
  have pages := List.all_eq_true.1 made
  obtain ⟨first, buildFirst, factsFirst⟩ := exists_of_toOption_map (beq_iff_eq.1 (pages (0, 1) (by simp)))
  obtain ⟨second, buildSecond, factsSecond⟩ := exists_of_toOption_map (beq_iff_eq.1 (pages (1, 1) (by simp)))
  obtain ⟨third, buildThird, factsThird⟩ := exists_of_toOption_map (beq_iff_eq.1 (pages (2, 3) (by simp)))
  have shown : ∀ {built : BuiltQuery} {n : Int},
      (decide ((built.query.arranged exchanging).Pairwise fun a b =>
          ordersBefore exchanging built.query.orderBy a b = true),
        (window built.query.limit built.query.offset (built.query.arranged exchanging)).map fun scope =>
          exchanging.engine.read (scope.get built.plan.label) "id") = (true, [.int n]) →
      ((built.shownRoots exchanging).map fun root => exchanging.engine.read root "id") = [.int n] := by
    intro built n facts
    obtain ⟨sorted, values⟩ := Prod.mk.inj facts
    rw [BuiltQuery.shownRoots_of_sorted (of_decide_eq_true sorted), List.map_map]
    exact values
  refine ⟨by constructor <;> decide, linksToOne, first, second, third,
    pages_of_build buildFirst buildSecond buildThird, ?_⟩
  simp [shown factsFirst, shown factsSecond, shown factsThird]

end RelQuery
