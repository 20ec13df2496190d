/-
Module: RelQuery.Proofs.Session.Deferral
Purpose: Executing a selection and loading what it defers shows its rows whole, in a way that depends on
  the database alone. Hence deferring a relation and loading it yields the objects that joining it does,
  unless a pivot table holds the same pair twice.
Main exports: Selection.Loadable, Selection.Asks, Selection.loadAll_yields, Selection.loadAll_alike
-/
import RelQuery.Proofs.Hydrate.Blog
import RelQuery.Proofs.Plan.Deferral
import RelQuery.Proofs.Select.Names
import RelQuery.Proofs.Session.Loaded

namespace RelQuery

open Sql

variable {V σ : Type}

/-- What the loading of a selection rests on. -/
structure Selection.Loadable (db : Database V) (render : Rendering db.engine) (registry : Registry)
    (selection : Selection) : Prop where
  registered : selection.table ∈ registry.tables
  keyed : db.Keyed selection.table
  builds : ∃ built, selection.build registry = .ok built ∧ (built.query.select.map SelectItem.label).Nodup
  decides : selection.isPaged = true → selection.Decides db registry
  below : RelQuery.Loadable db render registry selection.table selection.includes

/-- The queries that executing a selection and loading what it defers asks. -/
def Selection.Asks (db : Database V) (render : Rendering db.engine) (registry : Registry)
    (selection : Selection) (query : Query) : Prop :=
  (∃ built, selection.build registry = .ok built ∧ built.query = query) ∨
    AsksBelow db render registry selection.table selection.includes query

/-- Executing a selection and loading what it defers. -/
def Selection.executeAll (registry : Registry) (executor : Executor σ) (selection : Selection) :
    SessionM σ Output := do
  let output ← selection.execute registry executor
  output.loadAll registry executor

theorem Selection.shownRoots_subset {db : Database V} {registry : Registry} {selection : Selection} :
    selection.shownRoots db registry ⊆ selection.roots db registry := by
  rw [Selection.shownRoots]
  split
  · exact fun root member => (List.mergeSort_perm _ _).subset ((window_sublist _ _ _).subset member)
  · exact List.Subset.refl _

section

variable {db : Database V} {render : Rendering db.engine} {registry : Registry} {executor : Executor σ}
  (valid : registry.validate = .ok ()) (apart : registry.NamesApart) (unique : db.LinksToOne registry)

include valid apart unique

/-- Executing a selection and loading what it defers yields an object for each row that it shows, whole. -/
theorem Selection.loadAll_yields {selection : Selection}
    (loadable : selection.Loadable db render registry)
    (serves : ∀ query, selection.Asks db render registry query → executor.Serves db render query) :
    (selection.executeAll registry executor).Yields fun output =>
      ∃ roots : List (Record V), roots.Perm (selection.shownRoots db registry) ∧
        List.Forall₂ (Depicts db render registry selection.table selection.columns selection.includes
          fun _ => false) roots output.rows := by
  rw [Selection.executeAll]
  obtain ⟨built, build, names⟩ := loadable.builds
  refine (Selection.execute_yields valid apart unique loadable.registered build names
    loadable.keyed loadable.below.keyed loadable.decides (serves _ (.inl ⟨built, build, rfl⟩))).bind ?_
  rintro output ⟨plans, roots, perm, depicted⟩
  have stored : ∀ root ∈ roots, root ∈ db.rowsOf selection.table := fun root member =>
    List.mem_of_mem_filter (Selection.shownRoots_subset (perm.subset member))
  refine (loadRounds_yields valid apart unique (rounds output.plan) plans loadable.registered
    loadable.below (fun query asked => serves query (.inr asked)) depth_le_rounds stored depicted).mono ?_
  intro output shown
  exact ⟨roots, perm, shown⟩

/-- Whichever relations are deferred and then loaded, executing a selection yields the same objects, up to
    the order of items and members. -/
theorem Selection.loadAll_alike {selection : Selection} {includes : List Include}
    (same : SameButDeferral selection.columns.isNone selection.includes includes)
    (loadable : selection.Loadable db render registry)
    (loadable' : { selection with includes }.Loadable db render registry)
    (serves : ∀ query, selection.Asks db render registry query → executor.Serves db render query)
    (serves' : ∀ query, { selection with includes }.Asks db render registry query →
      executor.Serves db render query) (state : σ) :
    ∃ output state₁ output' state₂,
      (selection.executeAll registry executor).run.run state = (.ok output, state₁) ∧
      ({ selection with includes }.executeAll registry executor).run.run state = (.ok output', state₂) ∧
      Json.Alike (.array output.rows) (.array output'.rows) := by
  obtain ⟨output, state₁, run, roots, perm, shown⟩ :=
    Selection.loadAll_yields valid apart unique loadable serves state
  obtain ⟨output', state₂, run', roots', perm', shown'⟩ :=
    Selection.loadAll_yields valid apart unique loadable' serves' state
  refine ⟨output, state₁, output', state₂, run, run', ?_⟩
  have sameKeys : { selection with includes }.orderKeys db registry = selection.orderKeys db registry := by
    rw [Selection.orderKeys, Selection.orderKeys]
    simp only [same.follow_eq]
  have sameRoots : { selection with includes }.shownRoots db registry = selection.shownRoots db registry := by
    rw [Selection.shownRoots, Selection.shownRoots, sameKeys]
    rfl
  rw [sameRoots] at perm'
  have rows : ShowsRows .hasMany (selection.shownRoots db registry) _ (.array output.rows) :=
    ⟨output.rows, roots, perm, shown, rfl⟩
  have rows' : ShowsRows .hasMany (selection.shownRoots db registry) _ (.array output'.rows) :=
    ⟨output'.rows, roots', perm', shown', rfl⟩
  exact alike_of_showsRows rows rows' fun root value value' =>
    same.alike valid loadable.registered

end

/-! ### Sessions on the sample database -/

namespace Blog

/-- Posts with their authors. -/
def postsWithAuthor (deferred : Bool) : Selection :=
  { Selection.ofTable posts with includes := [⟨"author", none, none, some deferred, []⟩] }

/-- The authors of a batch of posts. -/
def authorsOfPosts : Selection :=
  { Selection.ofTable authors with filters := [.field "id" (.isIn [.int 1] false)] }

/-- The query of a selection. -/
def queryOf (selection : Selection) : Query :=
  ((selection.build registry).toOption.map BuiltQuery.query).getD Query.empty

/-- The queries of sessions that show posts with their authors. -/
def sessionQueries : List Query :=
  [queryOf (postsWithAuthor true), queryOf authorsOfPosts, queryOf (postsWithAuthor false)]

/-- Answers the statements of these queries, and no other. -/
def executor : Executor Unit where
  dialect := .sqlite
  execute := fun statement _ =>
    match sessionQueries.find? fun query => (query.compile .sqlite).toOption == some statement with
    | some query => (.ok (Scalar.rendering.rows (query.answer database [])), ())
    | none => (.error (.database "unknown statement"), ())
  begin := fun _ => (.ok (), ())
  commit := fun _ => (.ok (), ())
  rollback := fun _ => (.ok (), ())

/-- Where no two of the known queries make the same statement, a statement tells its query. -/
theorem statement_of_known {α : Type} (query : α → Query) {known : List α}
    (compiles : ∀ one ∈ known, ((query one).compile .sqlite).isOk = true)
    (distinct : (known.map fun one => ((query one).compile .sqlite).toOption).Nodup) {one : α}
    (member : one ∈ known) : ∃ statement, (query one).compile .sqlite = .ok statement ∧
      (known.find? fun one => ((query one).compile .sqlite).toOption == some statement) = some one := by
  cases compiled : (query one).compile .sqlite with
  | error e =>
      have succeeds := compiles one member
      rw [compiled] at succeeds
      contradiction
  | ok statement =>
      refine ⟨statement, rfl, ?_⟩
      have made : ((query one).compile .sqlite).toOption = some statement := by rw [compiled]; rfl
      cases first : known.find? fun one => ((query one).compile .sqlite).toOption == some statement with
      | none => exact absurd (beq_iff_eq.2 made) (List.find?_eq_none.1 first one member)
      | some found =>
          have makes : ((query found).compile .sqlite).toOption = some statement := by
            simpa using List.find?_some first
          rw [List.inj_on_of_nodup_map distinct (List.mem_of_find?_eq_some first) member
            (makes.trans made.symm)]

theorem serves_of_mem {query : Query} (member : query ∈ sessionQueries) :
    executor.Serves database Scalar.rendering query := by
  obtain ⟨statement, compiled, found⟩ := statement_of_known id
    (by decide +kernel : ∀ query ∈ sessionQueries, _) (by decide +kernel) member
  refine ⟨statement, compiled, fun state => ⟨(), ?_⟩⟩
  simp only [id_eq] at found
  simp only [executor, found]
  rfl

/-- The author of a post is all that is ever deferred. -/
theorem defersBelow_postsWithAuthor {deferred : Bool} {deferral : Deferral}
    (defers : DefersBelow registry posts (postsWithAuthor deferred).includes deferral) :
    deferred = true ∧ deferral.source = posts ∧ deferral.request = ⟨"author", none, none, some true, []⟩ ∧
      deferral.keys = .direct authors [("id", "author_id")] := by
  have direct : ∀ path deferral, DefersAt registry posts (postsWithAuthor deferred).includes path deferral →
      deferred = true ∧ deferral.source = posts ∧ deferral.request = ⟨"author", none, none, some true, []⟩ ∧
        deferral.keys = .direct authors [("id", "author_id")] := by
    intro path deferral defers
    cases defers with
    | here requested isFound lazy =>
        obtain rfl := List.mem_singleton.1 requested
        obtain ⟨-, rfl⟩ := Registry.relation_unique isFound rfl
        obtain rfl : deferred = true := lazy
        exact ⟨rfl, rfl, rfl, rfl⟩
    | through requested isFound eager further =>
        obtain rfl := List.mem_singleton.1 requested
        exact absurd further not_defersAt_nil
  cases defers with
  | here defers => exact direct _ _ defers
  | under defers further =>
      rw [(direct _ _ defers).2.2.1] at further
      exact absurd further not_defersBelow_nil

/-- The posts have one author. -/
theorem authorOfPost_eq : ∀ value ∈ database.valuesOf posts "author_id",
    Scalar.engine.isNull value = false → value = .int 1 := by
  decide

/-- Hence there is one batch to load their authors by. -/
theorem postBatch_eq {batch : List Json}
    (isBatch : IsBatch Scalar.rendering (database.valuesOf posts "author_id") batch) : batch = [.int 1] := by
  have ada : ∀ key ∈ batch, key = .int 1 := by
    intro key member
    obtain ⟨value, stored, present, rfl⟩ := isBatch.asks key member
    rw [authorOfPost_eq value stored present]
    rfl
  match batch, isBatch, ada with
  | [], isBatch, _ => exact absurd rfl isBatch.nonempty
  | [key], _, ada => rw [ada key List.mem_cons_self]
  | first :: second :: keys, isBatch, ada =>
      have nodup := isBatch.nodup
      rw [ada first List.mem_cons_self, ada second (List.mem_cons_of_mem _ List.mem_cons_self)] at nodup
      simp at nodup

/-- Hence the selection of their authors is always the same. -/
theorem targetSelection_author {deferral : Deferral} {described column : String} {load : LazyLoad}
    {batch : List Json} (below : DefersBelow registry posts (postsWithAuthor true).includes deferral)
    (loads : LazyLoad.describe deferral.relation deferral.keys deferral.request described = .ok load)
    (isBatch : TargetBatch database Scalar.rendering deferral.source deferral.keys column batch) :
    targetSelection deferral.keys.target load column batch = authorsOfPosts := by
  obtain ⟨-, source, request, keys⟩ := defersBelow_postsWithAuthor below
  obtain ⟨-, columns, filter, includes⟩ := LazyLoad.describe_fields loads
  rw [request] at columns filter includes
  rw [source, keys] at isBatch
  rw [keys]
  cases isBatch with
  | direct isBatch =>
      obtain rfl := postBatch_eq isBatch
      simp only [targetSelection, columns, filter, includes]
      rfl

/-- What is asked is known. -/
theorem mem_sessionQueries {deferred : Bool} {query : Query}
    (asked : (postsWithAuthor deferred).Asks database Scalar.rendering registry query) :
    query ∈ sessionQueries := by
  have known : ∀ {selection : Selection} {built : BuiltQuery}, selection.build registry = .ok built →
      queryOf selection = built.query := by
    intro selection built build
    rw [queryOf, build]
    rfl
  rcases asked with ⟨built, build, rfl⟩ | ⟨deferral, below, asks⟩
  · rw [← known build]
    cases deferred <;> simp [sessionQueries]
  · obtain ⟨rfl, -, -, keys⟩ := defersBelow_postsWithAuthor below
    cases asks with
    | links isPivot isBatch =>
        rw [keys] at isPivot
        contradiction
    | targets loads isBatch build =>
        rw [targetSelection_author below loads isBatch] at build
        rw [← known build]
        simp [sessionQueries]

/-- The authors of the posts are found by the texts of their keys. -/
theorem foundByText_author : FoundByText Scalar.rendering (database.valuesOf posts "author_id")
    (database.valuesOf authors "id") (authors.form "id") where
  equal := by decide +kernel
  bound := by
    intro a asked present
    obtain rfl := authorOfPost_eq a asked present
    exact ⟨.int 1, rfl, by decide +kernel⟩

/-- Posts and their authors can be loaded. -/
theorem loadable_postsWithAuthor (deferred : Bool) :
    (postsWithAuthor deferred).Loadable database Scalar.rendering registry := by
  have names : ∀ query ∈ sessionQueries, (query.select.map SelectItem.label).Nodup := by decide +kernel
  refine ⟨by simp [registry, postsWithAuthor, Selection.ofTable], keyed_posts, ?_, ?_, ?_, ?_, ?_, ?_⟩
  · cases deferred <;> exact ⟨_, rfl, by decide +kernel⟩
  · intro paged
    cases paged
  · intro target included
    cases included with
    | here requested isFound =>
        obtain rfl := List.mem_singleton.1 requested
        obtain ⟨-, rfl⟩ := Registry.relation_unique isFound rfl
        exact keyed_authors
    | deeper requested isFound further =>
        obtain rfl := List.mem_singleton.1 requested
        rcases further with ⟨none⟩ | ⟨none⟩ <;> simp at none
  · intro deferral below
    obtain ⟨-, source, request, keys⟩ := defersBelow_postsWithAuthor below
    rw [source, keys]
    exact foundByText_author
  · intro deferral below described load column batch loads isBatch
    obtain ⟨rfl, -⟩ := defersBelow_postsWithAuthor below
    exact ⟨_, (congrArg (Selection.build registry) (targetSelection_author below loads isBatch)).trans rfl⟩
  · exact fun query asked => names _ (mem_sessionQueries (.inr asked))

/-- Posts look the same whether their authors are joined or loaded afterwards. -/
theorem loadAll_postsWithAuthor :
    ∃ loaded state joined state',
      ((postsWithAuthor true).executeAll registry executor).run.run () = (.ok loaded, state) ∧
      ((postsWithAuthor false).executeAll registry executor).run.run () = (.ok joined, state') ∧
      Json.Alike (.array loaded.rows) (.array joined.rows) := by
  have same : SameButDeferral (postsWithAuthor true).columns.isNone (postsWithAuthor true).includes
      (postsWithAuthor false).includes := .cons (.inr ⟨rfl, rfl⟩) .nil .nil
  have serves : ∀ deferred query, (postsWithAuthor deferred).Asks database Scalar.rendering registry query →
      executor.Serves database Scalar.rendering query :=
    fun deferred query asked => serves_of_mem (mem_sessionQueries asked)
  exact Selection.loadAll_alike validated namesApart linksToOne same (loadable_postsWithAuthor true)
    (loadable_postsWithAuthor false) (serves true) (serves false) ()

/-- Posts and their tags. -/
def taggedPosts : Table where
  name := "posts"
  schema := none
  columns := [column "id" .int, column "title" .text]
  relations := [⟨"tags", .belongsToMany, "tags", [], [], some ⟨"post_tags", ["post_id"], ["tag_id"]⟩, false⟩]
  primaryKey := ["id"]

/-- The pairs of posts and tags. As each has a key of its own, a pair can be stored more than once. -/
def taggings : Table where
  name := "post_tags"
  schema := none
  columns := [column "id" .int, column "post_id" .int, column "tag_id" .int]
  relations := []
  primaryKey := ["id"]

/-- The registry of posts, tags and their pairs. -/
def taggingRegistry : Registry := ⟨[taggedPosts, tags, taggings]⟩

/-- A post that is linked to its tag twice. -/
def taggedTwice : Database Scalar where
  engine := Scalar.engine
  tables := fun _ name =>
    ⟨((taggingRegistry.get? name).map fun table => table.columns.map Column.name).getD [],
      match name with
      | "posts" => [named 1 "title" "One"]
      | "tags" => [named 1 "name" "lean"]
      | "post_tags" => [[("id", .int 1), ("post_id", .int 1), ("tag_id", .int 1)],
          [("id", .int 2), ("post_id", .int 1), ("tag_id", .int 1)]]
      | _ => []⟩

theorem keyed_taggedTwice : ∀ table ∈ taggingRegistry.tables, taggedTwice.Keyed table := by
  simp only [taggingRegistry, List.forall_mem_cons, List.not_mem_nil, false_implies, implies_true, and_true]
  refine ⟨?_, ?_, ?_⟩ <;> constructor <;> decide

/-- Nothing in this registry is linked to one row. -/
theorem linksToOne_taggedTwice : taggedTwice.LinksToOne taggingRegistry := by
  have many : ∀ table ∈ taggingRegistry.tables, ∀ relation ∈ table.relations,
      relation.kind.isToMany = true := by decide
  intro source registered name relation keys found toOne
  obtain ⟨declared, -⟩ := Registry.relation_eq_ok found
  rw [many source registered relation (List.mem_of_find?_eq_some declared)] at toOne
  contradiction

/-- Posts with their tags. -/
def postsWithTags (deferred : Bool) : Selection :=
  { Selection.ofTable taggedPosts with includes := [⟨"tags", none, none, some deferred, []⟩] }

/-- The query of a selection of tagged posts or of tags. -/
def taggingQuery (selection : Selection) : Query :=
  ((selection.build taggingRegistry).toOption.map BuiltQuery.query).getD Query.empty

/-- What sessions that show posts with their tags ask, and how often which record answers it. -/
def taggingAnswers : List (Query × Nat × Record Scalar) :=
  [(taggingQuery (postsWithTags true), 1, named 1 "title" "One"),
    (pivotQuery taggings "post_id" "tag_id" [.int 1], 2, [("parent_key", .int 1), ("child_key", .int 1)]),
    (taggingQuery { Selection.ofTable tags with filters := [.field "id" (.isIn [.int 1] false)] }, 1,
      named 1 "name" "lean"),
    (taggingQuery (postsWithTags false), 2,
      named 1 "title" "One" ++ [("tags__id", .int 1), ("tags__name", .text "lean")])]

/-- Answers these questions, and no other. -/
def tagger : Executor Unit where
  dialect := .sqlite
  execute := fun statement _ =>
    match taggingAnswers.find? fun known => (known.1.compile .sqlite).toOption == some statement with
    | some (_, times, record) =>
      (.ok (List.replicate times (record.map fun (name, value) => (name, Scalar.toJson value))), ())
    | none => (.error (.database "unknown statement"), ())
  begin := fun _ => (.ok (), ())
  commit := fun _ => (.ok (), ())
  rollback := fun _ => (.ok (), ())

theorem tagger_serves {known : Query × Nat × Record Scalar} (member : known ∈ taggingAnswers) :
    tagger.Serves taggedTwice Scalar.rendering known.1 := by
  have plain : ∀ known ∈ taggingAnswers, known.1.isGrouped Scalar.engine = false ∧ known.1.distinct = false ∧
      known.1.limit = none ∧ known.1.offset = none := by decide +kernel
  have matching : ∀ known ∈ taggingAnswers, (known.1.matching taggedTwice []).map
      (fun scope => SelectItem.record taggedTwice [] scope [] known.1.select) =
        List.replicate known.2.1 known.2.2 := by decide +kernel
  obtain ⟨statement, compiled, found⟩ := statement_of_known Prod.fst
    (by decide +kernel : ∀ known ∈ taggingAnswers, _) (by decide +kernel) member
  obtain ⟨ungrouped, keepsDuplicates, unlimited, started⟩ := plain known member
  have rows := Query.rows_eq_replicate taggedTwice [] known.1 ⟨ungrouped, keepsDuplicates⟩ unlimited started
    (matching known member)
  refine ⟨statement, compiled, fun state => ⟨(), ?_⟩⟩
  simp only [tagger, found, Rendering.rows, rows, List.map_replicate]
  rfl

/-- The numbers in what such a session shows. -/
def numbersShown (selection : Selection) : Option (List Json.Number) :=
  match (selection.executeAll taggingRegistry tagger).run.run () with
  | (.ok output, _) => some (Json.array output.rows).numbers
  | (.error _, _) => none

/-- A tag that a post is linked to twice is joined to it once, but loaded twice. -/
theorem tag_loaded_twice : taggingRegistry.validate = .ok () ∧ taggingRegistry.NamesApart ∧
    (∀ table ∈ taggingRegistry.tables, taggedTwice.Keyed table) ∧ taggedTwice.LinksToOne taggingRegistry ∧
    (∀ known ∈ taggingAnswers, tagger.Serves taggedTwice Scalar.rendering known.1) ∧
    ∃ loaded joined,
      ((postsWithTags true).executeAll taggingRegistry tagger).run.run () = (.ok loaded, ()) ∧
      ((postsWithTags false).executeAll taggingRegistry tagger).run.run () = (.ok joined, ()) ∧
      ¬ Json.Alike (.array loaded.rows) (.array joined.rows) := by
  refine ⟨rfl, by simp only [Registry.NamesApart]; decide, keyed_taggedTwice, linksToOne_taggedTwice,
    fun _ => tagger_serves, ?_⟩
  have twice : (numbersShown (postsWithTags true)).map List.length = some 3 := by decide +kernel
  have once : (numbersShown (postsWithTags false)).map List.length = some 2 := by decide +kernel
  rcases loads : ((postsWithTags true).executeAll taggingRegistry tagger).run.run () with ⟨_ | loaded, _⟩
  · simp [numbersShown, loads] at twice
  rcases joins : ((postsWithTags false).executeAll taggingRegistry tagger).run.run () with ⟨_ | joined, _⟩
  · simp [numbersShown, joins] at once
  refine ⟨loaded, joined, rfl, rfl, fun alike => ?_⟩
  simp only [numbersShown, loads, Option.map_some, Option.some.injEq] at twice
  simp only [numbersShown, joins, Option.map_some, Option.some.injEq] at once
  -- The keys of the post and of the tag once are two numbers, those of the tag twice three.
  have equal := alike.numbers_perm.length_eq
  omega

end Blog

end RelQuery
