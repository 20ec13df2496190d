/-
Module: RelQuery.Proofs.Select.Eager
Purpose: Building, answering and hydrating a selection that is not cut to a page yields one object for
  each row of the root that satisfies the filters. The object depicts the row with everything that the
  includes attach, and the objects stand in the order that is asked for.
Main exports: Query.Precedes, Selection.hydrate_build
-/
import RelQuery.Proofs.Hydrate.Blog
import RelQuery.Proofs.Hydrate.Depicted
import RelQuery.Proofs.Select.Built

namespace RelQuery

open Sql

variable {V : Type}

/-- A record may stand before another one in the answer to a statement: some row of its own may stand
    before all rows of the other. -/
def Sql.Query.Precedes (db : Database V) (query : Query) (label : String) (a b : Record V) : Prop :=
  ∃ scope ∈ query.matching db [], scope.get label = a ∧
    ∀ other ∈ query.matching db [], other.get label = b → ordersBefore db query.orderBy scope other = true

section

variable {db : Database V} {registry : Registry} {selection : Selection} {assembly : Assembly}
  {render : Rendering db.engine}

/-- The matching scopes of some rows of the root show exactly these. -/
theorem Assembly.Parts.displays
    (parts : assembly.Parts db registry selection selection.includes .empty)
    (valid : registry.validate = .ok ()) (registered : selection.table ∈ registry.tables)
    (keyed : db.Keyed selection.table)
    (shows : RowsShow render (render.row assembly.plan.selectItems) assembly.plan.selectItems)
    {shown : List (Record V)} (accepted : shown ⊆ selection.roots db registry) (distinct : shown.Nodup)
    {scopes : List (Scope V)} (listed : ∀ scope, scope ∈ scopes ↔
      scope ∈ assembly.query.matching db [] ∧ scope.get parts.label ∈ shown) :
    Displays render (render.row assembly.plan.selectItems) selection.table assembly.plan shown scopes := by
  have labelled : assembly.plan.label = parts.label := by rw [parts.plan_eq]
  have isKey : assembly.plan.key = selection.table.primaryKey := by rw [parts.plan_eq]
  obtain ⟨keysSelected, -, -⟩ := completedColumns_spec
    (Registry.hasColumn_of_validate valid registered) parts.chosen parts.completed
  exact {
    keyed := keyed
    stored := fun root member => List.mem_of_mem_filter (accepted member)
    distinct := distinct
    rowKey_eq := fun scope => by
      rw [← isKey]
      refine rowKey_of_rowsShow shows (isKey ▸ keyed.hasKey) ?_ scope
      rw [isKey, parts.plan_eq]
      exact keysSelected
    sound := fun scope member => by
      rw [labelled]
      exact .inl ((listed scope).1 member).2
    complete := fun root member => by
      obtain ⟨scope, inside, same⟩ := parts.exists_matching_iff.2 (accepted member)
      exact ⟨scope, (listed scope).2 ⟨inside, same ▸ member⟩, by rw [labelled, same]⟩ }

/-- The scopes that show a row of the root make the object that depicts it. -/
theorem Assembly.Parts.depicts
    (parts : assembly.Parts db registry selection selection.includes .empty)
    (valid : registry.validate = .ok ()) (apart : registry.NamesApart)
    (registered : selection.table ∈ registry.tables)
    (keyedBelow : ∀ target, Included registry selection.table selection.includes target → db.Keyed target)
    (unique : db.LinksToOne registry) {row : Scope V → Row}
    (shows : RowsShow render row assembly.plan.selectItems) {root : Record V}
    (accepted : root ∈ selection.roots db registry) {part : List (Scope V)} (inhabited : part ≠ [])
    (inPart : ∀ scope, scope ∈ part ↔
      scope ∈ assembly.query.matching db [] ∧ scope.get parts.label = root) :
    Depicts db render registry selection.table selection.columns selection.includes (fun _ => true) root
      ((Cell.nest assembly.plan (part.map row)).value assembly.plan) := by
  have covers := parts.covers [] accepted
  rw [parts.plan_eq] at shows ⊢
  have relations := covers.depicts valid apart unique registered (List.mem_of_mem_filter accepted)
    keyedBelow shows.right inPart
  exact covers.isObject valid apart registered parts.chosen parts.completed shows inhabited
    (fun scope member => ((inPart scope).1 member).2) relations

/-- Hydrating the matching scopes of some rows of the root yields one object for each of these, which
    depicts it. -/
theorem Assembly.Parts.hydrate_scopes
    (parts : assembly.Parts db registry selection selection.includes .empty)
    (valid : registry.validate = .ok ()) (apart : registry.NamesApart)
    (registered : selection.table ∈ registry.tables) (keyed : db.Keyed selection.table)
    (keyedBelow : ∀ target, Included registry selection.table selection.includes target → db.Keyed target)
    (unique : db.LinksToOne registry)
    (names : (assembly.plan.selectItems.map SelectItem.label).Nodup)
    {shown : List (Record V)} (accepted : shown ⊆ selection.roots db registry) (distinct : shown.Nodup)
    {scopes : List (Scope V)} (listed : ∀ scope, scope ∈ scopes ↔
      scope ∈ assembly.query.matching db [] ∧ scope.get parts.label ∈ shown) :
    ∃ roots : List (Record V), roots.Perm shown ∧
      List.Forall₂ (fun root k => render.keyText selection.table.primaryKey root = some k) roots
        (keysOf (rowKey assembly.plan) (scopes.map (render.row assembly.plan.selectItems))) ∧
      List.Forall₂ (Depicts db render registry selection.table selection.columns selection.includes
        fun _ => true) roots
        (hydrate assembly.plan (scopes.map (render.row assembly.plan.selectItems))) := by
  have labelled : assembly.plan.label = parts.label := by rw [parts.plan_eq]
  have shows : RowsShow render (render.row assembly.plan.selectItems) assembly.plan.selectItems :=
    rowsShow_row (exists_of_mem_selectItems assembly.plan) names
  have displays := parts.displays valid registered keyed shows accepted distinct listed
  obtain ⟨roots, perm, matched⟩ := displays.exists_order
  refine ⟨roots, perm, matched, ?_⟩
  rw [hydrate_eq_nest]
  refine displays.shows_groups ?_ (fun root member => perm.subset member) matched
  intro root isShown part inhabited inPart
  refine parts.depicts valid apart registered keyedBelow unique shows (accepted isShown) inhabited
    fun scope => ?_
  rw [inPart scope, listed, labelled]
  constructor
  · rintro ⟨⟨inMatching, -⟩, same⟩
    exact ⟨inMatching, same⟩
  · rintro ⟨inMatching, rfl⟩
    exact ⟨⟨inMatching, isShown⟩, rfl⟩

/-- Where the orderings stay within relations to one row, a row of the root that may stand before another one
    is sorted before it. -/
theorem Assembly.Parts.sortsByKeys_of_precedes
    (parts : assembly.Parts db registry selection selection.includes .empty)
    (registered : selection.table ∈ registry.tables) (unique : db.LinksToOne registry)
    {items : List OrderItem} (ordered : selection.orderItems registry assembly.plan = .ok items)
    (staysToOne : ∀ term ∈ selection.order, assembly.plan.isToOnePath term.relations = true)
    {a b : Record V} (accepted : b ∈ selection.roots db registry)
    (precedes : (assembly.statement items).Precedes db assembly.plan.label a b) :
    sortsByKeys db.engine (selection.orderKeys db registry) a b = true := by
  have labelled : assembly.plan.label = parts.label := by rw [parts.plan_eq]
  obtain ⟨scope, member, rfl, first⟩ := precedes
  obtain ⟨other, inMatching, same⟩ := parts.exists_matching_iff.2 accepted
  have sorted := first other inMatching (by rw [labelled, same])
  have likeA := parts.sortsLike_orderItems unique registered member ordered staysToOne fun _ _ => rfl
  have likeB := parts.sortsLike_orderItems unique registered inMatching ordered staysToOne fun _ _ => rfl
  rw [Assembly.statement, ordersBefore_eq likeA likeB, same] at sorted
  rwa [labelled]

/-- Hydrating the answer to a selection that is not cut to a page yields one object for each row of the
    root that satisfies the filters. The object depicts the row: its columns in the form of their types
    and, in depth, the rows that the relations link and the filters of the includes accept. The objects
    stand as ORDER BY puts their rows, and where the orderings stay within relations to one row, as these
    sort the rows of the root. -/
theorem Selection.hydrate_build (db : Database V) (render : Rendering db.engine) (registry : Registry)
    (selection : Selection) (built : BuiltQuery) (valid : registry.validate = .ok ())
    (apart : registry.NamesApart) (registered : selection.table ∈ registry.tables)
    (build : selection.build registry = .ok built) (unpaged : selection.isPaged = false)
    (distinct : (built.query.select.map SelectItem.label).Nodup) (keyed : db.Keyed selection.table)
    (keyedBelow : ∀ target, Included registry selection.table selection.includes target → db.Keyed target)
    (unique : db.LinksToOne registry) :
    ∃ roots : List (Record V),
      roots.Perm (selection.roots db registry) ∧
      List.Forall₂ (Depicts db render registry selection.table selection.columns selection.includes
        fun _ => true) roots (hydrate built.plan (render.rows (built.query.answer db []))) ∧
      roots.Pairwise (built.query.Precedes db built.plan.label) ∧
      (selection.orderAcrossToMany? built.plan = none →
        roots.Pairwise fun a b => sortsByKeys db.engine (selection.orderKeys db registry) a b = true) := by
  obtain ⟨assembly, items, assembled, ordered, planned, plain, -⟩ := Selection.build_eq_ok build
  obtain ⟨parts⟩ := Selection.nonempty_parts db assembled
  rw [plain unpaged] at distinct ⊢
  rw [planned]
  have shows : RowsShow render (render.row assembly.plan.selectItems) assembly.plan.selectItems :=
    rowsShow_row (exists_of_mem_selectItems assembly.plan) distinct
  have listed : ∀ scope, scope ∈ (assembly.statement items).ordered db [] ↔
      scope ∈ assembly.query.matching db [] ∧ scope.get parts.label ∈ selection.roots db registry := by
    intro scope
    rw [Assembly.mem_ordered_statement, iff_self_and]
    exact parts.root_of_mem_matching
  have displays := parts.displays valid registered keyed shows (List.Subset.refl _)
    (keyed.nodup.filter _) listed
  obtain ⟨roots, perm, matched, depicted⟩ := parts.hydrate_scopes valid apart registered keyed keyedBelow
    unique distinct (List.Subset.refl _) (keyed.nodup.filter _) listed
  have inside : ∀ root ∈ roots, root ∈ selection.roots db registry := fun root member => perm.subset member
  have precedes : roots.Pairwise ((assembly.statement items).Precedes db assembly.plan.label) := by
    have sorted := (assembly.statement items).ordered_sorted db []
    refine (displays.pairwise_firstSeen sorted inside matched).imp ?_
    rintro a b ⟨scope, member, same, first⟩
    exact ⟨scope, Assembly.mem_ordered_statement.1 member, same, fun other inMatching =>
      first other (Assembly.mem_ordered_statement.2 inMatching)⟩
  refine ⟨roots, perm, ?_, precedes, ?_⟩
  · rw [parts.rows_statement ordered]
    exact depicted
  · intro toOne
    have staysToOne : ∀ term ∈ selection.order, assembly.plan.isToOnePath term.relations = true := by
      simpa [Selection.orderAcrossToMany?, planned] using toOne
    refine precedes.imp_of_mem fun _ memberB earlier => ?_
    exact parts.sortsByKeys_of_precedes registered unique ordered staysToOne (inside _ memberB) earlier

end

/-- The posts with an author, their authors, and their tags but `sql`, the last title first. -/
def Blog.selection : Selection :=
  { Selection.ofTable Blog.posts with
    filters := [.relation "author" ⟨some (.all []), none, none, none, none⟩]
    includes := [⟨"author", none, none, none, []⟩,
      ⟨"tags", some ["name"], some (.field "name" (.compare .ne (.text "sql"))), none, []⟩]
    order := [⟨"title", .desc, none⟩] }

theorem Blog.keyed_of_included {target : Table}
    (included : Included registry posts Blog.selection.includes target) : database.Keyed target := by
  have byName : ∀ request ∈ Blog.selection.includes, request.includes = [] ∧
      ∀ relation keys, registry.relation posts request.relation = .ok (relation, keys) →
        database.Keyed keys.target := by
    intro request member
    simp only [Blog.selection, List.mem_cons, List.not_mem_nil, or_false] at member
    rcases member with rfl | rfl
    · refine ⟨rfl, fun relation keys found => ?_⟩
      obtain ⟨-, rfl⟩ := Registry.relation_unique found rfl
      exact keyed_authors
    · refine ⟨rfl, fun relation keys found => ?_⟩
      obtain ⟨-, rfl⟩ := Registry.relation_unique found rfl
      exact keyed_tags
  cases included with
  | here requested found => exact (byName _ requested).2 _ _ found
  | deeper requested found further =>
      rw [(byName _ requested).1] at further
      rcases further with ⟨none⟩ | ⟨none⟩ <;> simp at none

/-- Two posts have an author. -/
theorem Blog.hydrate_selection :
    ∃ built, Blog.selection.build registry = .ok built ∧ ∃ roots : List (Record Scalar),
      roots.length = 2 ∧ roots.Perm (Blog.selection.roots database registry) ∧
      List.Forall₂ (Depicts database Scalar.rendering registry posts none Blog.selection.includes
        fun _ => true) roots
        (hydrate built.plan (Rendering.rows Scalar.rendering (built.query.answer database []))) := by
  obtain ⟨built, build, distinct⟩ : ∃ built, Blog.selection.build registry = .ok built ∧
      (built.query.select.map SelectItem.label).Nodup := ⟨_, rfl, by decide +kernel⟩
  obtain ⟨roots, perm, shown, -⟩ := Selection.hydrate_build database Scalar.rendering registry
    Blog.selection built validated namesApart (by decide) build rfl distinct keyed_posts
    (fun _ => keyed_of_included) linksToOne
  exact ⟨built, build, roots, perm.length_eq.trans (by decide +kernel), perm, shown⟩

end RelQuery
