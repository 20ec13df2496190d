/-
Module: RelQuery.Proofs.Session.Loaded
Purpose: Loading what is deferred, round by round. Each round fills all sites of a plan from batches whose
  own deferred relations have been loaded before, so that nothing is left to be loaded in the end.
Main exports: DefersBelow, AsksBelow, Loadable, Selection.execute_yields, loadRounds_yields
-/
import RelQuery.Proofs.Select.Shown
import RelQuery.Proofs.Session.Batched

namespace RelQuery

open Sql

variable {V σ : Type}

/-! ### Rounds -/

theorem depth_le {request : Include} {requests : List Include} (requested : request ∈ requests) :
    depthOfIncludes request.includes + 1 ≤ depthOfIncludes requests := by
  induction requests with
  | nil => contradiction
  | cons first requests ih =>
      rw [depthOfIncludes]
      rcases List.mem_cons.1 requested with rfl | later
      · obtain ⟨name, columns, filter, lazy, includes⟩ := request
        exact Nat.le_max_left _ _
      · exact Nat.le_trans (ih later) (Nat.le_max_right _ _)

/-- What a deferred request includes is not as deep as what it stands in. -/
theorem DefersAt.depth_lt {registry : Registry} {table : Table} {requests : List Include}
    {path : List String} {deferral : Deferral} (defers : DefersAt registry table requests path deferral) :
    depthOfIncludes deferral.request.includes + 1 ≤ depthOfIncludes requests := by
  induction defers with
  | here requested found lazy => exact depth_le requested
  | through requested found eager further ih =>
      exact Nat.le_trans ih (Nat.le_trans (Nat.le_succ _) (depth_le requested))

theorem depth_le_rounds {plan : Projection} :
    ∀ site ∈ sites plan, depthOfIncludes site.load.includes + 1 ≤ rounds plan := by
  have general : ∀ (all : List Site) (n : Nat),
      n ≤ all.foldl (fun n site => max n (depthOfIncludes site.load.includes + 1)) n ∧
        ∀ site ∈ all, depthOfIncludes site.load.includes + 1 ≤
          all.foldl (fun n site => max n (depthOfIncludes site.load.includes + 1)) n := by
    intro all
    induction all with
    | nil => simp
    | cons site all ih =>
        intro n
        obtain ⟨grows, each⟩ := ih (max n (depthOfIncludes site.load.includes + 1))
        rw [List.foldl_cons]
        refine ⟨Nat.le_trans (Nat.le_max_left _ _) grows, List.forall_mem_cons.2 ⟨?_, each⟩⟩
        exact Nat.le_trans (Nat.le_max_right _ _) grows
  exact (general _ 0).2

/-! ### What loading rests on -/

/-- A tree of includes defers a relation, be it below other deferred ones. -/
inductive DefersBelow (registry : Registry) : (table : Table) → (requests : List Include) → Deferral → Prop
  | here {table : Table} {requests : List Include} {path : List String} {deferral : Deferral}
      (defers : DefersAt registry table requests path deferral) : DefersBelow registry table requests deferral
  | under {table : Table} {requests : List Include} {path : List String} {outer deferral : Deferral}
      (defers : DefersAt registry table requests path outer)
      (further : DefersBelow registry outer.keys.target outer.request.includes deferral) :
      DefersBelow registry table requests deferral

theorem not_defersBelow_nil {registry : Registry} {table : Table} {deferral : Deferral} :
    ¬ DefersBelow registry table [] deferral := by
  intro defers
  cases defers with
  | here defers => exact not_defersAt_nil defers
  | under defers => exact not_defersAt_nil defers

/-- The queries that the loading of a tree of includes asks. -/
def AsksBelow (db : Database V) (render : Rendering db.engine) (registry : Registry) (table : Table)
    (requests : List Include) (query : Query) : Prop :=
  ∃ deferral, DefersBelow registry table requests deferral ∧ deferral.Asks db render registry query

/-- What the loading of a tree of includes rests on: the included tables have keys, the rows of each
    deferred relation are found by the texts of its keys, and the selections of its targets make queries
    that use no name twice. -/
structure Loadable (db : Database V) (render : Rendering db.engine) (registry : Registry) (table : Table)
    (requests : List Include) : Prop where
  keyed : ∀ target, Included registry table requests target → db.Keyed target
  matched : ∀ deferral, DefersBelow registry table requests deferral →
    MatchedByText db render registry deferral.source deferral.request.filter deferral.keys
  builds : ∀ deferral, DefersBelow registry table requests deferral →
    ∀ {described : String} {load : LazyLoad} {column : String} {batch : List Json},
      LazyLoad.describe deferral.relation deferral.keys deferral.request described = .ok load →
        TargetBatch db render deferral.source deferral.keys column batch →
          ∃ built, (targetSelection deferral.keys.target load column batch).build registry = .ok built
  names : ∀ query, AsksBelow db render registry table requests query →
    (query.select.map SelectItem.label).Nodup

section

variable {registry : Registry} {table : Table} {requests : List Include} {path : List String}
  {deferral : Deferral}

/-- The target of a deferred relation is included, and so is what is included below it. -/
theorem DefersAt.included (defers : DefersAt registry table requests path deferral) :
    Included registry table requests deferral.keys.target ∧
      ∀ target, Included registry deferral.keys.target deferral.request.includes target →
        Included registry table requests target := by
  induction defers with
  | here requested found lazy =>
      exact ⟨.here requested found, fun target further => .deeper requested found further⟩
  | through requested found eager further ih =>
      exact ⟨.deeper requested found ih.1, fun target more => .deeper requested found (ih.2 target more)⟩

variable {db : Database V} {render : Rendering db.engine}

/-- What is asked below a deferred relation is asked below all that it stands in. -/
theorem AsksBelow.under {query : Query} (defers : DefersAt registry table requests path deferral)
    (asked : AsksBelow db render registry deferral.keys.target deferral.request.includes query) :
    AsksBelow db render registry table requests query := by
  obtain ⟨inner, further, asks⟩ := asked
  exact ⟨inner, .under defers further, asks⟩

/-- What is deferred can be loaded in its turn. -/
theorem Loadable.below (loadable : Loadable db render registry table requests)
    (defers : DefersAt registry table requests path deferral) :
    Loadable db render registry deferral.keys.target deferral.request.includes where
  keyed := fun target included => loadable.keyed target (defers.included.2 target included)
  matched := fun inner further => loadable.matched inner (.under defers further)
  builds := fun inner further => loadable.builds inner (.under defers further)
  names := fun query asked => loadable.names query (.under defers asked)

end

/-- What a load is described by. -/
theorem LazyLoad.describe_fields {relation : Relation} {keys : RelationKeys} {request : Include}
    {described : String} {load : LazyLoad}
    (loads : LazyLoad.describe relation keys request described = .ok load) :
    load.target = keys.target.name ∧ load.columns = request.columns ∧ load.filter = request.filter ∧
      load.includes = request.includes := by
  rcases LazyLoad.describe_cases loads with ⟨_, _, _, rfl, rfl⟩ | ⟨_, _, _, _, _, _, rfl, rfl⟩
  · exact ⟨rfl, rfl, rfl, rfl⟩
  · exact ⟨rfl, rfl, rfl, rfl⟩

/-- The selection of the targets of a batch asks for the rows that have its keys. -/
theorem roots_targetSelection (db : Database V) (registry : Registry) (target : Table) (load : LazyLoad)
    (column : String) (batch : List Json) :
    (targetSelection target load column batch).roots db registry =
      batchRows db registry load.filter target column batch := by
  apply List.filter_congr
  intro row _
  have inKeys : ((Filter.field column (.isIn (keyLiterals batch) false)).meaning db registry target row == .yes) =
      inBatch db.engine batch (db.engine.read row column) := by
    rw [← any_keyLiterals_beq_yes, Filter.meaning, FieldOp.meaning, Truth.negatedIf_false]
  cases filter : load.filter with
  | none => simp [Selection.meaning, targetSelection, Selection.ofTable, filter, inKeys]
  | some part =>
      simp [Selection.meaning, targetSelection, Selection.ofTable, filter, inKeys, Filter.accepts]

section

variable {db : Database V} {render : Rendering db.engine} {registry : Registry} {executor : Executor σ}
  (valid : registry.validate = .ok ()) (apart : registry.NamesApart) (unique : db.LinksToOne registry)

include valid apart unique

/-- Executing a selection yields an object for each row that it shows, with nothing deferred loaded. -/
theorem Selection.execute_yields {selection : Selection} {built : BuiltQuery}
    (registered : selection.table ∈ registry.tables) (build : selection.build registry = .ok built)
    (names : (built.query.select.map SelectItem.label).Nodup)
    (keyed : db.Keyed selection.table)
    (keyedBelow : ∀ target, Included registry selection.table selection.includes target → db.Keyed target)
    (decides : selection.isPaged = true → selection.Decides db registry)
    (serves : executor.Serves db render built.query) :
    (selection.execute registry executor).Yields fun output =>
      Plans registry selection.table selection.includes output.plan ∧
        ∃ roots : List (Record V), roots.Perm (selection.shownRoots db registry) ∧
          List.Forall₂ (Depicts db render registry selection.table selection.columns selection.includes
            fun _ => true) roots output.rows := by
  rw [Selection.execute]
  obtain ⟨statement, compiled, answers⟩ := serves
  refine (SessionM.Yields.ofExcept build).bind ?_
  rintro _ rfl
  refine (SessionM.Yields.ofExcept compiled).bind ?_
  rintro _ rfl
  refine (SessionM.Yields.run answers).bind ?_
  rintro _ rfl
  exact .pure ⟨Selection.plans_of_build build, Selection.hydrate_shown render valid apart registered build
    names keyed keyedBelow unique decides⟩

/-- The targets of a batch show the rows that have its keys, with all that is deferred below them. -/
theorem loadTargets_yields {loadAll : Output → SessionM σ Output} {deferral : Deferral} {described : String}
    {load : LazyLoad} {column : String} {batch : List Json} {built : BuiltQuery}
    (registered : deferral.keys.target ∈ registry.tables)
    (known : registry.table deferral.keys.target.name = .ok deferral.keys.target)
    (loads : LazyLoad.describe deferral.relation deferral.keys deferral.request described = .ok load)
    (isBatch : TargetBatch db render deferral.source deferral.keys column batch)
    (build : (targetSelection deferral.keys.target load column batch).build registry = .ok built)
    (keyed : db.Keyed deferral.keys.target)
    (loadable : Loadable db render registry deferral.keys.target deferral.request.includes)
    (names : ∀ query, deferral.Asks db render registry query → (query.select.map SelectItem.label).Nodup)
    (serves : ∀ query, deferral.Asks db render registry query → executor.Serves db render query)
    (loaded : ∀ output roots, Plans registry deferral.keys.target deferral.request.includes output.plan →
      (∀ root ∈ roots, root ∈ db.rowsOf deferral.keys.target) →
      List.Forall₂ (Depicts db render registry deferral.keys.target
        (requestedColumns deferral.keys true deferral.request.columns) deferral.request.includes
        fun _ => true) roots output.rows →
      (loadAll output).Yields fun output => List.Forall₂ (Depicts db render registry deferral.keys.target
        (requestedColumns deferral.keys true deferral.request.columns) deferral.request.includes
        fun _ => false) roots output.rows) :
    (loadTargets registry executor loadAll load column batch).Yields
      (Delivers db render registry deferral.request deferral.keys column batch) := by
  obtain ⟨target, columns, filter, includes⟩ := LazyLoad.describe_fields loads
  have asked : (targetSelection deferral.keys.target load column batch).columns =
      requestedColumns deferral.keys true deferral.request.columns := by
    simp only [targetSelection, columns, requestedColumns, isBatch.targetColumn?_eq]
  rw [loadTargets, target, known]
  refine (SessionM.Yields.ofExcept rfl).bind ?_
  rintro _ rfl
  have asks : deferral.Asks db render registry built.query := .targets loads isBatch build
  generalize isSelection : targetSelection deferral.keys.target load column batch = selection at build asked ⊢
  have table : selection.table = deferral.keys.target := by
    rw [← isSelection]
    rfl
  have requests : selection.includes = deferral.request.includes := by
    rw [← isSelection, ← includes]
    rfl
  have unpaged : selection.isPaged = false := by
    rw [← isSelection]
    rfl
  have roots : selection.roots db registry =
      batchRows db registry deferral.request.filter deferral.keys.target column batch := by
    rw [← isSelection, roots_targetSelection, filter]
  have listed : selection.table ∈ registry.tables := by rwa [table]
  have keyedBelow : ∀ target, Included registry selection.table selection.includes target →
      db.Keyed target := by
    rw [table, requests]
    exact loadable.keyed
  have executes : (selection.execute registry executor).Yields _ := Selection.execute_yields valid apart unique
    listed build (names _ asks) (table ▸ keyed) keyedBelow (by simp [unpaged]) (serves _ asks)
  rw [Selection.shownRoots, unpaged, roots, table, requests, asked] at executes
  refine executes.bind ?_
  rintro output ⟨plans, rows, perm, depicted⟩
  have stored : ∀ row ∈ rows, row ∈ db.rowsOf deferral.keys.target := fun row member =>
    List.mem_of_mem_filter (perm.subset member)
  refine (loaded output rows plans stored depicted).bind ?_
  intro output shown
  exact .pure ⟨rows, perm, shown⟩

/-- As many rounds as the deferred includes are deep load all of them. -/
theorem loadRounds_yields (fuel : Nat) :
    ∀ {table : Table} {columns : Option (List String)} {requests : List Include} {output : Output}
      {roots : List (Record V)}, Plans registry table requests output.plan → table ∈ registry.tables →
      Loadable db render registry table requests →
      (∀ query, AsksBelow db render registry table requests query → executor.Serves db render query) →
      (∀ site ∈ sites output.plan, depthOfIncludes site.load.includes + 1 ≤ fuel) →
      (∀ root ∈ roots, root ∈ db.rowsOf table) →
      List.Forall₂ (Depicts db render registry table columns requests fun _ => true) roots output.rows →
      (loadRounds registry executor fuel output).Yields fun output =>
        List.Forall₂ (Depicts db render registry table columns requests fun _ => false) roots output.rows := by
  induction fuel with
  | zero =>
      intro table columns requests output roots plans registered loadable serves enough stored depicted
      refine .pure (depicted.imp fun root value depicts => depicts.congr_fields ?_)
      intro path deferral defers
      obtain ⟨site, member, -⟩ := plans.complete path deferral defers
      exact absurd (enough site member) (by omega)
  | succ fuel ih =>
      intro table columns requests output roots plans registered loadable serves enough stored depicted
      have each : ∀ site ∈ sites output.plan,
          (do
            let groups ← fetch registry executor (loadRounds registry executor fuel) site.load
              (pendingKeys output.rows site)
            return (site, groups) : SessionM σ (Site × Groups)).Yields fun batch =>
              batch.1 = site ∧ Fills db render registry table requests roots site batch.2 := by
        intro site member
        obtain ⟨deferral, described, defers, loads⟩ := plans.defers site member
        have found := defers.found
        have known := (Registry.table_of_relation found).1
        have targetRegistered := Registry.target_mem_of_relation found
        have keyed := loadable.keyed _ defers.included.1
        have below := loadable.below defers
        have asks := asksFor_pendingKeys defers loads apart registered plans.distinct rfl stored depicted
        have shallow : depthOfIncludes deferral.request.includes ≤ fuel := by
          rw [← (LazyLoad.describe_fields loads).2.2.2]
          exact Nat.le_of_succ_le_succ (enough site member)
        have here : ∀ query, deferral.Asks db render registry query →
            AsksBelow db render registry table requests query :=
          fun query asked => ⟨deferral, .here defers, asked⟩
        refine (fetch_yields valid unique (defers.registered registered) found loads keyed
          (loadable.matched _ (.here defers)) asks (nodup_texts_distinctKeys _)
          (fun query asked => serves query (here query asked)) fun column batch isBatch => ?_).bind
            fun groups shows => .pure ⟨rfl, deferral, described, defers, loads, ?_⟩
        · obtain ⟨built, build⟩ := loadable.builds _ (.here defers) loads isBatch
          refine loadTargets_yields valid apart unique targetRegistered known loads isBatch build keyed below
            (fun query asked => loadable.names query (here query asked))
            (fun query asked => serves query (here query asked)) ?_
          intro inner rows plansInner storedInner depictedInner
          refine ih plansInner targetRegistered below (fun query asked => serves query (asked.under defers)) ?_
            storedInner depictedInner
          intro innerSite innerMember
          obtain ⟨further, _, defersInner, loadsInner⟩ := plansInner.defers innerSite innerMember
          rw [(LazyLoad.describe_fields loadsInner).2.2.2]
          exact Nat.le_trans defersInner.depth_lt shallow
        · exact shows.of_leadsTo defers loads apart registered plans.distinct rfl stored depicted
      rw [loadRounds]
      refine (SessionM.Yields.mapM each).bind fun batches matched => .pure ?_
      have ofSites : batches.map Prod.fst = sites output.plan := by
        rw [← List.forall₂_eq_eq_eq, List.forall₂_map_left_iff]
        exact matched.flip.imp fun batch site fills => fills.1
      have fields : (batches.map fun batch => batch.1.field) = (sites output.plan).map Site.field := by
        rw [← ofSites, List.map_map]
        rfl
      have fills : ∀ batch ∈ batches, Fills db render registry table requests roots batch.1 batch.2 := by
        intro batch member
        obtain ⟨site, -, rfl, filled⟩ := exists_of_forall₂ matched.flip batch member
        exact filled
      have filled := fillAll_depicts apart registered plans.distinct
        (fields ▸ plans.nodup) fills (fun _ _ => rfl) depicted
      refine filled.imp fun root value depicts => depicts.congr_fields ?_
      intro path deferral defers
      obtain ⟨site, member, same⟩ := plans.complete path deferral defers
      rw [foldl_settle, fields, ← same]
      simp [List.mem_map_of_mem member]

end

end RelQuery
