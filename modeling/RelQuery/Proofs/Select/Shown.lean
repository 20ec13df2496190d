/-
Module: RelQuery.Proofs.Select.Shown
Purpose: Built selections, with or without a page. Where the orderings tell the rows of the root apart, the
  page is fixed by these alone, and hydration yields one object for each of its rows, whichever statement
  the page was cut from.
Main exports: Selection.Decides, Selection.shownRoots, Selection.hydrate_shown
-/
import RelQuery.Proofs.Select.Eager
import RelQuery.Proofs.Select.Page

namespace RelQuery

open Sql

variable {V : Type}

namespace Selection

variable (db : Database V) (registry : Registry) (selection : Selection)

/-- The orderings tell apart all rows of the root that satisfy the filters. -/
def Decides : Prop :=
  ∀ a ∈ selection.roots db registry, ∀ b ∈ selection.roots db registry,
    sortsByKeys db.engine (selection.orderKeys db registry) a b →
      sortsByKeys db.engine (selection.orderKeys db registry) b a → a = b

/-- The rows of the root that a selection shows: all that satisfy the filters, or those on the page. -/
def shownRoots : List (Record V) :=
  if selection.isPaged then
    window selection.limit selection.offset
      ((selection.roots db registry).mergeSort (sortsByKeys db.engine (selection.orderKeys db registry)))
  else selection.roots db registry

variable {db registry selection}

/-- Where the orderings decide, the key has nothing to add to a page. -/
theorem page_eq_of_decides (decides : selection.Decides db registry) :
    selection.page db registry = window selection.limit selection.offset
      ((selection.roots db registry).mergeSort
        (sortsByKeys db.engine (selection.orderKeys db registry))) := by
  rw [page]
  congr 1
  refine eq_mergeSort_of_sorted (List.mergeSort_perm _ _) ?_ decides
  have sorted := List.pairwise_mergeSort
    (fun a b c => sortsByKeys_trans (a := a) (b := b) (c := c))
    (sortsByKeys_total db.engine (selection.pageKeys db registry)) (selection.roots db registry)
  refine sorted.imp fun before => ?_
  exact sortsByKeys_of_append before

/-- A key on the page is that of a row on it. -/
theorem onPage_iff (keyed : db.Keyed selection.table) {root : Record V}
    (accepted : root ∈ selection.roots db registry) :
    selection.onPage db registry root = true ↔ root ∈ selection.page db registry := by
  rw [onPage, List.any_eq_true]
  constructor
  · rintro ⟨other, member, equal⟩
    have stored := (page_spec keyed).1 member
    have same : root = other := by
      refine keyed.eq_of_compare (List.mem_of_mem_filter accepted) (List.mem_of_mem_filter stored) ?_
      simpa [pairsHold] using equal
    rwa [same]
  · intro member
    refine ⟨root, member, ?_⟩
    have present := keyed.present root (List.mem_of_mem_filter accepted)
    simp only [pairsHold, List.all_map, List.all_eq_true, Function.comp_apply, beq_iff_eq]
    exact fun column inKey => db.engine.compare_self _ (present column inKey)

end Selection

/-- What a window keeps of items that are told apart by their images is what it keeps of the images. -/
theorem mem_window_iff {α β : Type} {f : α → β} {items : List α} (distinct : (items.map f).Nodup)
    (limit offset : Option UInt64) {a : α} :
    a ∈ window limit offset items ↔ a ∈ items ∧ f a ∈ window limit offset (items.map f) := by
  have within := window_sublist limit offset items
  constructor
  · intro member
    rw [← map_window]
    exact ⟨within.subset member, List.mem_map_of_mem member⟩
  · rintro ⟨member, kept⟩
    rw [← map_window] at kept
    obtain ⟨b, inside, same⟩ := List.mem_map.1 kept
    rwa [← List.inj_on_of_nodup_map distinct (within.subset inside) member same]

section

variable {db : Database V} {registry : Registry} {selection : Selection} {assembly : Assembly}

/-- Where no relation multiplies rows, the scopes of the statement stand in the order of their roots. -/
theorem Assembly.Parts.ordered_statement
    (parts : assembly.Parts db registry selection selection.includes .empty) {items : List OrderItem}
    (toOne : assembly.plan.hasToMany = false) (unique : db.LinksToOne registry)
    (registered : selection.table ∈ registry.tables)
    (ordered : selection.orderItems registry assembly.plan = .ok items)
    (decides : selection.Decides db registry) {query : Query}
    (same : query.matching db [] = assembly.query.matching db []) (sorts : query.orderBy = items) :
    (query.ordered db []).map (fun scope => scope.get parts.label) =
      (selection.roots db registry).mergeSort (sortsByKeys db.engine (selection.orderKeys db registry)) := by
  have nodesToOne : Projection.anyToMany parts.nodes = false := by
    rw [parts.plan_eq] at toOne
    exact toOne
  have perm : ((query.ordered db []).map fun scope => scope.get parts.label).Perm
      (selection.roots db registry) := by
    rw [← parts.matching_roots nodesToOne unique registered []]
    exact (same ▸ query.ordered_perm db []).map _
  have staysToOne : ∀ term ∈ selection.order, assembly.plan.isToOnePath term.relations = true := by
    intro term member
    obtain ⟨item, -, reached, found, -⟩ := exists_of_forall₂ (orderItems_eq_ok ordered) term member
    exact isToOnePath_of_find? toOne found
  have like : ∀ scope ∈ query.ordered db [],
      List.Forall₂ (SortsLike db scope (scope.get parts.label)) (selection.orderKeys db registry) items := by
    intro scope member
    rw [Query.mem_ordered, same] at member
    exact parts.sortsLike_orderItems unique registered member ordered staysToOne fun _ _ => rfl
  refine eq_mergeSort_of_sorted perm (List.pairwise_map.2 ?_) decides
  refine (query.ordered_sorted db []).imp_of_mem ?_
  intro a b memberA memberB before
  rw [sorts, ordersBefore_eq (like a memberA) (like b memberB)] at before
  exact before

/-- Where no relation multiplies rows, the window of the statement holds the scopes of the rows that are
    shown. -/
theorem Assembly.Parts.mem_window_ordered
    (parts : assembly.Parts db registry selection selection.includes .empty) {items : List OrderItem}
    (toOne : assembly.plan.hasToMany = false) (unique : db.LinksToOne registry)
    (registered : selection.table ∈ registry.tables) (keyed : db.Keyed selection.table)
    (paged : selection.isPaged = true)
    (ordered : selection.orderItems registry assembly.plan = .ok items)
    (decides : selection.Decides db registry) {query : Query}
    (same : query.matching db [] = assembly.query.matching db []) (sorts : query.orderBy = items)
    (scope : Scope V) :
    scope ∈ window selection.limit selection.offset (query.ordered db []) ↔
      scope ∈ assembly.query.matching db [] ∧ scope.get parts.label ∈ selection.shownRoots db registry := by
  have roots := parts.ordered_statement toOne unique registered ordered decides same sorts
  have distinct : ((query.ordered db []).map fun scope => scope.get parts.label).Nodup := by
    rw [roots]
    exact (List.mergeSort_perm _ _).nodup_iff.2 (keyed.nodup.filter _)
  rw [mem_window_iff distinct, roots, Query.mem_ordered, same, Selection.shownRoots, if_pos paged]

/-- The answer to a built selection is made of scopes that meet its joins and filters, namely of all those
    of the rows that it shows. -/
theorem Selection.exists_scopes {built : BuiltQuery} (render : Rendering db.engine)
    (build : selection.build registry = .ok built) (registered : selection.table ∈ registry.tables)
    (keyed : db.Keyed selection.table) (unique : db.LinksToOne registry)
    (decides : selection.isPaged = true → selection.Decides db registry) :
    ∃ assembly : Assembly, ∃ parts : assembly.Parts db registry selection selection.includes .empty,
      ∃ scopes : List (Scope V), built.plan = assembly.plan ∧
        built.query.select = assembly.plan.selectItems ∧
        render.rows (built.query.answer db []) = scopes.map (render.row assembly.plan.selectItems) ∧
        ∀ scope, scope ∈ scopes ↔ scope ∈ assembly.query.matching db [] ∧
          scope.get parts.label ∈ selection.shownRoots db registry := by
  obtain ⟨assembly, items, assembled, ordered, planned, whole, restricts, cut⟩ :=
    Selection.build_eq_ok build
  obtain ⟨parts⟩ := Selection.nonempty_parts db assembled
  have labelled : assembly.plan.label = parts.label := by rw [parts.plan_eq]
  have plain := parts.isPlain_statement ordered
  have unlimited : (assembly.statement items).limit = none := by
    rw [Assembly.statement, parts.query_eq, Query.empty]
  have started : (assembly.statement items).offset = none := by
    rw [Assembly.statement, parts.query_eq, Query.empty]
  cases paged : selection.isPaged with
  | false =>
      refine ⟨assembly, parts, (assembly.statement items).ordered db [], planned, ?_, ?_, fun scope => ?_⟩
      · rw [whole paged]
        rfl
      · rw [whole paged, parts.rows_statement ordered]
      · rw [Assembly.mem_ordered_statement, Selection.shownRoots, if_neg (by simp [paged]), iff_self_and]
        exact parts.root_of_mem_matching
  | true =>
      cases many : assembly.plan.hasToMany with
      | true =>
          obtain ⟨condition, restricted, made⟩ := restricts paged many
          have onPage := parts.truth_pageCondition keyed unique registered ordered restricted
          have plainNarrowed : ((assembly.statement items).filter condition).IsPlain db.engine :=
            ⟨plain.ungrouped, plain.keepsDuplicates⟩
          refine ⟨assembly, parts, ((assembly.statement items).filter condition).ordered db [], planned, ?_,
            ?_, fun scope => ?_⟩
          · rw [made]
            rfl
          · rw [made, Rendering.rows, Query.rows_of_isPlain _ _ _ plainNarrowed]
            rw [Query.filter, unlimited, started, window_none, List.map_map]
            rfl
          · rw [Query.mem_ordered, matching_filter, List.mem_filter, onPage, Selection.shownRoots,
              if_pos paged, ← Selection.page_eq_of_decides (decides paged)]
            refine and_congr_right fun inMatching => ?_
            exact Selection.onPage_iff keyed (parts.root_of_mem_matching inMatching)
      | false =>
          have made := cut paged many
          have plainCut : { assembly.statement items with
              limit := selection.limit, offset := selection.offset : Query }.IsPlain db.engine :=
            ⟨plain.ungrouped, plain.keepsDuplicates⟩
          have inWindow := @Assembly.Parts.mem_window_ordered _ _ _ _ _ parts _ many unique registered keyed
            paged ordered (decides paged) { assembly.statement items with
              limit := selection.limit, offset := selection.offset } rfl rfl
          refine ⟨assembly, parts, _, planned, ?_, ?_, inWindow⟩
          · rw [made]
            rfl
          · rw [made, Rendering.rows, Query.rows_of_isPlain _ _ _ plainCut, ← map_window, List.map_map]
            rfl

/-- Hydrating the answer to a selection yields one object for each row that the selection shows, which
    depicts the row. -/
theorem Selection.hydrate_shown {built : BuiltQuery} (render : Rendering db.engine)
    (valid : registry.validate = .ok ()) (apart : registry.NamesApart)
    (registered : selection.table ∈ registry.tables) (build : selection.build registry = .ok built)
    (names : (built.query.select.map SelectItem.label).Nodup)
    (keyed : db.Keyed selection.table)
    (keyedBelow : ∀ target, Included registry selection.table selection.includes target → db.Keyed target)
    (unique : db.LinksToOne registry)
    (decides : selection.isPaged = true → selection.Decides db registry) :
    ∃ roots : List (Record V), roots.Perm (selection.shownRoots db registry) ∧
      List.Forall₂ (Depicts db render registry selection.table selection.columns selection.includes
        fun _ => true) roots (hydrate built.plan (render.rows (built.query.answer db []))) := by
  obtain ⟨assembly, parts, scopes, planned, selected, rows, listed⟩ :=
    Selection.exists_scopes render build registered keyed unique decides
  rw [selected] at names
  have within : selection.shownRoots db registry ⊆ selection.roots db registry ∧
      (selection.shownRoots db registry).Nodup := by
    have distinct : (selection.roots db registry).Nodup := keyed.nodup.filter _
    rw [Selection.shownRoots]
    split
    · have sorted := List.mergeSort_perm (selection.roots db registry)
        (sortsByKeys db.engine (selection.orderKeys db registry))
      have inside := window_sublist selection.limit selection.offset
        ((selection.roots db registry).mergeSort
          (sortsByKeys db.engine (selection.orderKeys db registry)))
      exact ⟨fun root member => sorted.subset (inside.subset member),
        inside.nodup (sorted.nodup_iff.2 distinct)⟩
    · exact ⟨List.Subset.refl _, distinct⟩
  obtain ⟨roots, perm, -, depicted⟩ := parts.hydrate_scopes valid apart registered keyed keyedBelow unique
    names within.1 within.2 listed
  rw [planned, rows]
  exact ⟨roots, perm, depicted⟩

end

end RelQuery
