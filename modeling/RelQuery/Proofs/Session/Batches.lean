/-
Module: RelQuery.Proofs.Session.Batches
Purpose: What is fetched for a deferred relation, as it was answered. A fetch without failure issues no
  statement, or has the targets of its keys loaded, be it by way of the rows of a pivot table; and of these
  targets each key is handed those that are linked to it.
Main exports: Batch, Batch.linked, Batch.Resolves, LoadsTargets, Fetches, FetchesAll, exists_fetches,
  exists_fetchesAll
-/
import RelQuery.Proofs.Session.Gathered
import RelQuery.Proofs.Session.Rounds

namespace RelQuery

open Sql

variable {σ : Type}

/-! ### Batches -/

/-- What is fetched for a deferred relation: nothing, targets whose column holds a key, or targets that the
    rows of a pivot table link to keys by their column. -/
inductive Batch where
  | nothing
  | direct (column : String) (targets : List Json)
  | pivot (column : String) (links : List Row) (targets : List Json)

/-- The targets that are linked to a key, in the order in which they were fetched, or in that of the rows of
    the pivot table. -/
def Batch.linked (key : Json) : Batch → List Json
  | .nothing => []
  | .direct column targets => targets.filter (hasKeyText column key)
  | .pivot column links targets => links.filterMap (linkedTarget? column targets key)

/-- What a batch makes of the value in the field of its relation. A placeholder gives way to what is linked
    to its key, all of it or the first; any other value stays. -/
inductive Batch.Resolves (batch : Batch) (kind : RelationKind) : (value resolved : Json) → Prop
  | toMany {value key : Json} (awaits : Awaits value key) (many : kind = .hasMany ∨ kind = .belongsToMany) :
      Batch.Resolves batch kind value (.array (batch.linked key))
  | toOne {value key : Json} (awaits : Awaits value key) (one : kind = .belongsTo ∨ kind = .hasOne) :
      Batch.Resolves batch kind value ((batch.linked key).head?.getD .null)
  | settled {value : Json} (none : ∀ key, ¬ Awaits value key) : Batch.Resolves batch kind value value

/-- The value that a batch makes of one. -/
def Batch.resolved (batch : Batch) (kind : RelationKind) (value : Json) : Json :=
  match LazyRef.key? value with
  | some key => loadedValue kind (batch.linked key)
  | none => value

theorem Batch.resolves_resolved (batch : Batch) (kind : RelationKind) (value : Json) :
    batch.Resolves kind value (batch.resolved kind value) := by
  unfold Batch.resolved
  split
  · rename_i key pending
    have awaits := awaits_iff.2 pending
    cases kind with
    | hasMany => exact .toMany awaits (.inl rfl)
    | belongsToMany => exact .toMany awaits (.inr rfl)
    | belongsTo => exact .toOne awaits (.inl rfl)
    | hasOne => exact .toOne awaits (.inr rfl)
  · rename_i settled
    refine .settled fun key awaits => ?_
    rw [awaits_iff, settled] at awaits
    contradiction

section

variable (registry : Registry) (executor : Executor σ)

/-- Loading the targets of keys takes the database from one state to another: their selection is built,
    compiled and answered, and what it defers in its turn is loaded. -/
inductive LoadsTargets (load : LazyLoad) (column : String) (keys : List Json) :
    (before : σ) → (targets : List Json) → (after : σ) → Prop
  | intro {target : Table} {built : BuiltQuery} {statement : Statement} {rows : List Row} {loaded : Output}
      {before between after : σ} (known : registry.table load.target = .ok target)
      (build : (targetSelection target load column keys).build registry = .ok built)
      (compiled : built.query.compile executor.dialect = .ok statement)
      (answered : executor.execute statement before = (.ok rows, between))
      (below : (Output.loadAll registry executor ⟨built.plan, hydrate built.plan rows⟩).run.run between =
        (.ok loaded, after)) : LoadsTargets load column keys before loaded.rows after

/-- Fetching a deferred relation for some keys takes the database from one state to another and yields a
    batch. -/
inductive Fetches (load : LazyLoad) : (keys : List Json) → (before : σ) → Batch → (after : σ) → Prop
  | noKeys {state : σ} : Fetches load [] state .nothing state
  | direct {keys targets : List Json} {column : String} {before after : σ} (asked : keys ≠ [])
      (link : load.link = .direct column)
      (loaded : LoadsTargets registry executor load column keys before targets after) :
      Fetches load keys before (.direct column targets) after
  | noLinks {keys : List Json} {name sourceColumn targetColumn targetKey : String} {pivot : Table}
      {statement : Statement} {links : List Row} {before after : σ} (asked : keys ≠ [])
      (link : load.link = .pivot name sourceColumn targetColumn targetKey)
      (known : registry.table name = .ok pivot)
      (compiled : (pivotQuery pivot sourceColumn targetColumn keys).compile executor.dialect = .ok statement)
      (answered : executor.execute statement before = (.ok links, after))
      (none : ∀ key, ¬ NamesChild links key) : Fetches load keys before .nothing after
  | pivot {keys children targets : List Json} {name sourceColumn targetColumn targetKey : String}
      {pivot : Table} {statement : Statement} {links : List Row} {before between after : σ} (asked : keys ≠ [])
      (link : load.link = .pivot name sourceColumn targetColumn targetKey)
      (known : registry.table name = .ok pivot)
      (compiled : (pivotQuery pivot sourceColumn targetColumn keys).compile executor.dialect = .ok statement)
      (answered : executor.execute statement before = (.ok links, between)) (some : children ≠ [])
      (gathered : Gathers (NamesChild links) children)
      (loaded : LoadsTargets registry executor load targetKey children between targets after) :
      Fetches load keys before (.pivot targetKey links targets) after

/-- Fetching the sites of some rows one after the other, each for the keys that are awaited there. The
    batches are found by the fields of the sites. -/
inductive FetchesAll (rows : List Json) (batches : List String → Batch) : List Site → σ → σ → Prop
  | nil {state : σ} : FetchesAll rows batches [] state state
  | cons {site : Site} {sites : List Site} {keys : List Json} {before between after : σ}
      (gathered : Gathers (AwaitedAt rows site) keys)
      (first : Fetches registry executor site.load keys before (batches site.field) between)
      (others : FetchesAll rows batches sites between after) :
      FetchesAll rows batches (site :: sites) before after

end

/-! ### Runs -/

/-- A computation succeeds if its first part does and what follows. -/
theorem SessionM.bind_eq_ok {α β : Type} {x : SessionM σ α} {f : α → SessionM σ β} {before after : σ}
    {b : β} : (x >>= f).run.run before = (.ok b, after) ↔
      ∃ a between, x.run.run before = (.ok a, between) ∧ (f a).run.run between = (.ok b, after) := by
  rw [ExceptT.run_bind, StateT.run_bind]
  rcases first : x.run.run before with ⟨outcome, between⟩
  cases outcome with
  | error e =>
      constructor
      · intro same
        cases same
      · rintro ⟨a, between', same, -⟩
        cases same
  | ok a =>
      constructor
      · exact fun next => ⟨a, between, rfl, next⟩
      · rintro ⟨a', between', same, next⟩
        cases same
        exact next

theorem SessionM.pure_eq_ok {α : Type} {a b : α} {before after : σ} :
    (pure a : SessionM σ α).run.run before = (.ok b, after) ↔ a = b ∧ before = after := by
  constructor
  · intro same
    cases same
    exact ⟨rfl, rfl⟩
  · rintro ⟨rfl, rfl⟩
    rfl

theorem SessionM.ofExcept_eq_ok {α : Type} {result : Except QueryError α} {a : α} {before after : σ} :
    (SessionM.ofExcept result).run.run before = (.ok a, after) ↔ result = .ok a ∧ before = after := by
  constructor
  · intro same
    cases same
    exact ⟨rfl, rfl⟩
  · rintro ⟨rfl, rfl⟩
    rfl

theorem Executor.run_eq_ok {executor : Executor σ} {statement : Statement} {rows : List Row}
    {before after : σ} : (executor.run statement).run.run before = (.ok rows, after) ↔
      executor.execute statement before = (.ok rows, after) := by
  simp only [Executor.run, SessionM.ask, ExceptT.run_mk, StateT.run]
  rcases executor.execute statement before with ⟨answer, state⟩
  cases answer with
  | ok held => constructor <;> (intro same; cases same; rfl)
  | error e => constructor <;> (intro same; cases same)

variable {registry : Registry} {executor : Executor σ}

/-- An execution without failure hydrates the answer to the statement of the selection. -/
theorem Selection.execute_eq_ok {selection : Selection} {output : Output} {before after : σ} :
    (selection.execute registry executor).run.run before = (.ok output, after) ↔
      ∃ built statement rows, selection.build registry = .ok built ∧
        built.query.compile executor.dialect = .ok statement ∧
        executor.execute statement before = (.ok rows, after) ∧
        output = ⟨built.plan, hydrate built.plan rows⟩ := by
  simp only [Selection.execute, SessionM.bind_eq_ok, SessionM.ofExcept_eq_ok, SessionM.pure_eq_ok,
    Executor.run_eq_ok]
  constructor
  · rintro ⟨built, _, ⟨build, rfl⟩, statement, _, ⟨compiled, rfl⟩, rows, _, answered, rfl, rfl⟩
    exact ⟨built, statement, rows, build, compiled, answered, rfl⟩
  · rintro ⟨built, statement, rows, build, compiled, answered, rfl⟩
    exact ⟨built, _, ⟨build, rfl⟩, statement, _, ⟨compiled, rfl⟩, rows, _, answered, rfl, rfl⟩

/-- Targets are loaded step by step. -/
theorem loadsTargets_of_run {load : LazyLoad} {column : String} {keys targets : List Json} {before after : σ}
    (run : (loadTargets registry executor (Output.loadAll registry executor) load column keys).run.run before =
      (.ok targets, after)) : LoadsTargets registry executor load column keys before targets after := by
  simp only [loadTargets, SessionM.bind_eq_ok, SessionM.ofExcept_eq_ok, SessionM.pure_eq_ok,
    Selection.execute_eq_ok] at run
  obtain ⟨target, _, ⟨known, rfl⟩, _, between, ⟨built, statement, rows, build, compiled, answered, rfl⟩,
    loaded, _, below, rfl, rfl⟩ := run
  exact .intro known build compiled answered below

/-- A fetch without failure yields the groups of a batch. -/
theorem exists_fetches {load : LazyLoad} {keys : List Json} {before after : σ} {groups : Groups}
    (run : (fetch registry executor (Output.loadAll registry executor) load keys).run.run before =
      (.ok groups, after)) :
    ∃ batch, Fetches registry executor load keys before batch after ∧
      ∀ key, groups.of key = batch.linked key := by
  rw [fetch] at run
  split at run
  · rename_i empty
    obtain ⟨rfl, rfl⟩ := SessionM.pure_eq_ok.1 run
    rw [List.isEmpty_iff.1 empty]
    exact ⟨.nothing, .noKeys, Groups.of_nil⟩
  rename_i filled
  have asked : keys ≠ [] := fun empty => filled (by rw [empty, List.isEmpty_nil])
  split at run
  · rename_i column link
    obtain ⟨targets, between, loaded, last⟩ := SessionM.bind_eq_ok.1 run
    obtain ⟨rfl, rfl⟩ := SessionM.pure_eq_ok.1 last
    exact ⟨.direct column targets, .direct asked link (loadsTargets_of_run loaded),
      Groups.of_groupDirect column targets⟩
  · rename_i name sourceColumn targetColumn targetKey link
    obtain ⟨pivot, _, first, run⟩ := SessionM.bind_eq_ok.1 run
    obtain ⟨known, rfl⟩ := SessionM.ofExcept_eq_ok.1 first
    obtain ⟨statement, _, second, run⟩ := SessionM.bind_eq_ok.1 run
    obtain ⟨compiled, rfl⟩ := SessionM.ofExcept_eq_ok.1 second
    obtain ⟨links, between, third, run⟩ := SessionM.bind_eq_ok.1 run
    have answered := Executor.run_eq_ok.1 third
    simp only at run
    split at run
    · rename_i childless
      obtain ⟨rfl, rfl⟩ := SessionM.pure_eq_ok.1 run
      refine ⟨.nothing, .noLinks asked link known compiled answered fun key names => ?_, Groups.of_nil⟩
      obtain ⟨child, member, -⟩ := (gathers_childKeys links).complete key names
      rw [List.isEmpty_iff.1 childless] at member
      contradiction
    · rename_i children
      have some : childKeys links ≠ [] := fun empty => children (by rw [empty, List.isEmpty_nil])
      obtain ⟨targets, _, loaded, last⟩ := SessionM.bind_eq_ok.1 run
      obtain ⟨rfl, rfl⟩ := SessionM.pure_eq_ok.1 last
      exact ⟨.pivot targetKey links targets,
        .pivot asked link known compiled answered some (gathers_childKeys links) (loadsTargets_of_run loaded),
        Groups.of_groupPivot targetKey links targets⟩

/-- Sites are fetched from batches that differ elsewhere. -/
theorem FetchesAll.congr {rows : List Json} {batches batches' : List String → Batch} {all : List Site}
    {before after : σ} (fetches : FetchesAll registry executor rows batches all before after)
    (same : ∀ site ∈ all, batches' site.field = batches site.field) :
    FetchesAll registry executor rows batches' all before after := by
  induction fetches with
  | nil => exact .nil
  | cons gathered first others ih =>
      obtain ⟨here, later⟩ := List.forall_mem_cons.1 same
      exact .cons gathered (here ▸ first) (ih later)

/-- Fetches of sites without failure yield the groups of batches. -/
theorem exists_fetchesAll {rows : List Json} {all : List Site} {before after : σ}
    {results : List (Site × Groups)} (distinct : (all.map Site.field).Nodup)
    (run : (all.mapM (fetchSite registry executor rows)).run.run before = (.ok results, after)) :
    ∃ batches, FetchesAll registry executor rows batches all before after ∧
      results.map Prod.fst = all ∧
      ∀ result ∈ results, ∀ key, result.2.of key = (batches result.1.field).linked key := by
  induction all generalizing before results with
  | nil =>
      rw [List.mapM_nil] at run
      obtain ⟨rfl, rfl⟩ := SessionM.pure_eq_ok.1 run
      exact ⟨fun _ => .nothing, .nil, rfl, by simp⟩
  | cons site all ih =>
      obtain ⟨fresh, distinct⟩ := List.nodup_cons.1 distinct
      rw [List.mapM_cons] at run
      obtain ⟨result, between, first, run⟩ := SessionM.bind_eq_ok.1 run
      obtain ⟨groups, _, fetched, last⟩ := SessionM.bind_eq_ok.1 first
      obtain ⟨rfl, rfl⟩ := SessionM.pure_eq_ok.1 last
      obtain ⟨others, _, rest, last⟩ := SessionM.bind_eq_ok.1 run
      obtain ⟨rfl, rfl⟩ := SessionM.pure_eq_ok.1 last
      obtain ⟨batch, fetches, linked⟩ := exists_fetches fetched
      obtain ⟨batches, fetchesAll, listed, each⟩ := ih distinct rest
      have elsewhere : ∀ other ∈ all, other.field ≠ site.field := fun other member same =>
        fresh (same ▸ List.mem_map_of_mem member)
      refine ⟨fun field => if field = site.field then batch else batches field, ?_, ?_, ?_⟩
      · refine .cons (gathers_pendingKeys rows site) (by rwa [if_pos rfl]) ?_
        exact fetchesAll.congr fun other member => if_neg (elsewhere other member)
      · rw [List.map_cons, listed]
      · refine List.forall_mem_cons.2 ⟨fun key => ?_, fun result member key => ?_⟩
        · simp only [if_true, linked]
        · have known : result.1 ∈ all := listed ▸ List.mem_map_of_mem member
          simp only [if_neg (elsewhere _ known), each result member]

end RelQuery
