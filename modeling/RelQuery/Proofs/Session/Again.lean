/-
Module: RelQuery.Proofs.Session.Again
Purpose: Loading what has been loaded. Placeholders are told from other values by their form alone, so that
  nothing is left to be loaded as long as no loaded object has this form; and where nothing is pending,
  loading issues no statement and changes nothing.
Main exports: loadAll_of_nothing_pending, HasNames, LoadsTargets.names, LazyLoad.TargetsApart, loadAll_again
-/
import RelQuery.Proofs.Select.Retained
import RelQuery.Proofs.Session.Written

namespace RelQuery

open Json (Members)

variable {σ : Type}

/-! ### Where nothing is pending -/

mutual

/-- A change that leaves the objects as they are which a path leads to changes nothing. -/
theorem changeObjectsAt_of_fixed (change : Members → Members) : ∀ (value : Json) (path : List String),
    (∀ members ∈ objectsAt path value, change members = members) → changeObjectsAt change path value = value
  | .array items, path, fixed => by
      rw [objectsAt] at fixed
      rw [changeObjectsAt, changeItems_of_fixed change items path fixed]
  | .object members, [], fixed => by
      rw [objectsAt, List.forall_mem_singleton] at fixed
      rw [changeObjectsAt, fixed]
  | .object members, step :: path, fixed => by
      rw [objectsAt] at fixed
      rw [changeObjectsAt, changeMember_of_fixed change members step path fixed]
  | .null, _, _ => by rw [changeObjectsAt] <;> simp
  | .bool _, _, _ => by rw [changeObjectsAt] <;> simp
  | .number _, _, _ => by rw [changeObjectsAt] <;> simp
  | .string _, _, _ => by rw [changeObjectsAt] <;> simp

theorem changeItems_of_fixed (change : Members → Members) : ∀ (items : List Json) (path : List String),
    (∀ members ∈ objectsOfItems path items, change members = members) → changeItems change path items = items
  | [], _, _ => by rw [changeItems]
  | item :: items, path, fixed => by
      rw [objectsOfItems, List.forall_mem_append] at fixed
      rw [changeItems, changeObjectsAt_of_fixed change item path fixed.1,
        changeItems_of_fixed change items path fixed.2]

theorem changeMember_of_fixed (change : Members → Members) :
    ∀ (members : List (String × Json)) (step : String) (path : List String),
      (∀ inner ∈ objectsOfMember step path members, change inner = inner) →
        changeMember change step path members = members
  | [], _, _, _ => by rw [changeMember]
  | (name, value) :: members, step, path, fixed => by
      rw [objectsOfMember] at fixed
      rw [changeMember]
      split
      · rename_i same
        rw [if_pos same] at fixed
        rw [changeObjectsAt_of_fixed change value path fixed]
      · rename_i other
        rw [if_neg other] at fixed
        rw [changeMember_of_fixed change members step path fixed]

end

section

variable {registry : Registry} {executor : Executor σ} {rows : List Json}

/-- Without placeholders there is nothing to be filled, -/
theorem fill_of_nothing_pending {site : Site} (none : site.pending rows = []) (groups : Groups) :
    fill rows site groups = rows := by
  rw [Site.pending, objectsOfItems_eq, List.filterMap_flatMap, List.flatMap_eq_nil_iff] at none
  rw [fill]
  refine (List.map_congr_left fun row member => ?_).trans (List.map_id rows)
  apply changeObjectsAt_of_fixed
  intro members inside
  have free := List.filterMap_eq_nil_iff.1 (none row member) members inside
  rw [fillObject, free]

/-- nor to be fetched. -/
theorem fetchSite_of_nothing_pending {site : Site} (none : site.pending rows = []) :
    fetchSite registry executor rows site = pure (site, []) := by
  have keys : pendingKeys rows site = [] := by rw [pendingKeys_eq, none]; rfl
  rw [fetchSite, keys, fetch, List.isEmpty_nil, if_pos rfl, pure_bind]

theorem fillAll_of_nothing_pending {all : List Site} (none : ∀ site ∈ all, site.pending rows = []) :
    fillAll rows (all.map fun site => (site, [])) = rows := by
  induction all with
  | nil => rfl
  | cons site all ih =>
      obtain ⟨first, others⟩ := List.forall_mem_cons.1 none
      have step : fillAll rows ((site :: all).map fun site => (site, [])) =
          fillAll (fill rows site []) (all.map fun site => (site, [])) := rfl
      rw [step, fill_of_nothing_pending first, ih others]

/-- Where nothing is pending, loading does nothing. -/
theorem loadAll_of_nothing_pending {output : Output}
    (none : ∀ site ∈ sites output.plan, site.pending output.rows = []) :
    output.loadAll registry executor = pure output := by
  rw [Output.loadAll_eq, mapM_congr fun site member => fetchSite_of_nothing_pending (none site member),
    List.mapM_pure, pure_bind, fillAll_of_nothing_pending none]

end

/-! ### The names of objects -/

/-- The value is an object with these names. -/
def HasNames (names : List String) (value : Json) : Prop :=
  ∃ members, value = .object members ∧ ∀ name, name ∈ members.map Prod.fst ↔ name ∈ names

theorem hasNames_hydrate {plan : Projection} {rows : List Row} :
    ∀ object ∈ hydrate plan rows, HasNames plan.fieldNames object := by
  intro object member
  rw [hydrate_eq_nest] at member
  obtain ⟨k, -, rfl⟩ := List.mem_map.1 member
  exact ⟨_, value_nest_eq_object _ _, fun _ => mem_names_nest⟩

/-- Changing the fields of deferred relations keeps the names. -/
theorem HasNames.mapDeferred {names : List String} {value : Json} (named : HasNames names value)
    (plan : Projection) (change : Site → Json → Json) (path : List String) :
    HasNames names (plan.mapDeferred change path value) := by
  obtain ⟨members, rfl, all⟩ := named
  rw [Projection.mapDeferred_eq]
  refine ⟨_, rfl, ?_⟩
  rwa [map_fst_mapDeferredField]

/-- A placeholder has two names. -/
theorem names_of_key? {members : Members} {key : Json} (pending : LazyRef.key? (.object members) = some key) :
    ∀ name, name ∈ members.map Prod.fst ↔ name = "key" ∨ name = "resolved" := by
  have awaits := awaits_iff.2 pending
  intro name
  cases awaits with
  | keyFirst => simp
  | keyLast => simp [or_comm]

section

variable {registry : Registry} {executor : Executor σ}

/-- Loading fetches a batch for each site and fills all sites from these. -/
theorem Output.loadAll_eq_ok {output loaded : Output} {before after : σ}
    (distinct : ((sites output.plan).map Site.field).Nodup)
    (run : (output.loadAll registry executor).run.run before = (.ok loaded, after)) :
    ∃ batches results, FetchesAll registry executor output.rows batches (sites output.plan) before after ∧
      results.map Prod.fst = sites output.plan ∧
      (∀ result ∈ results, ∀ key, result.2.of key = (batches result.1.field).linked key) ∧
      loaded = ⟨output.plan, fillAll output.rows results⟩ := by
  rw [Output.loadAll_eq] at run
  obtain ⟨results, _, fetched, last⟩ := SessionM.bind_eq_ok.1 run
  obtain ⟨rfl, rfl⟩ := SessionM.pure_eq_ok.1 last
  obtain ⟨batches, fetches, all, linked⟩ := exists_fetchesAll distinct fetched
  exact ⟨batches, results, fetches, all, linked, rfl⟩

/-- Loaded targets have the names that their selection gives them. -/
theorem LoadsTargets.names {load : LazyLoad} {column : String} {keys targets : List Json} {before after : σ}
    (loaded : LoadsTargets registry executor load column keys before targets after) :
    ∃ target built, registry.table load.target = .ok target ∧
      (targetSelection target load column keys).build registry = .ok built ∧
      ∀ object ∈ targets, HasNames built.plan.fieldNames object := by
  obtain ⟨known, build, -, -, below⟩ := loaded
  rename_i target built _ rows _ _
  obtain ⟨-, results, -, all, -, rfl⟩ :=
    Output.loadAll_eq_ok (Selection.plans_of_build build).nodup below
  have distinct := (Selection.represents_of_build build).1
  have written : ∀ batch ∈ results, batch.1 ∈ sites built.plan := fun batch member =>
    all ▸ List.mem_map_of_mem member
  refine ⟨target, built, known, build, ?_⟩
  intro object member
  rw [fillAll_eq_foldl distinct (nests_hydrate distinct rows) written] at member
  obtain ⟨hydrated, inside, rfl⟩ := List.mem_map.1 member
  exact (hasNames_hydrate hydrated inside).mapDeferred built.plan _ []

end

/-! ### What is loaded -/

/-- The objects of an occurrence have the names of a placeholder and no others. -/
def Projection.LooksPending (plan : Projection) : Prop :=
  ∀ name, name ∈ plan.fieldNames ↔ name = "key" ∨ name = "resolved"

/-- The objects that are loaded for a deferred relation are told from placeholders by their names, unless
    they stand in an array. -/
def LazyLoad.TargetsApart (registry : Registry) (load : LazyLoad) : Prop :=
  load.kind.isToMany = true ∨ ∀ target keys built, registry.table load.target = .ok target →
    (targetSelection target load load.link.column keys).build registry = .ok built →
      ¬ built.plan.LooksPending

/-- So it is if the key of the targets has a column of another name. -/
theorem LazyLoad.targetsApart_of_key {registry : Registry} {load : LazyLoad} {target : Table} {key : String}
    (valid : registry.validate = .ok ()) (known : registry.table load.target = .ok target)
    (isKey : key ∈ target.primaryKey) (other : key ≠ "key" ∧ key ≠ "resolved") :
    load.TargetsApart registry := by
  right
  intro target' keys built known' build looks
  obtain rfl := Except.ok.inj (known.symm.trans known')
  have registered := Registry.mem_of_get? (Registry.get?_of_table known)
  have shown := (Selection.root_of_build build).2.keySelected
    (Registry.hasColumn_of_validate valid registered) key isKey
  rcases (looks key).1 (List.mem_append_left _ shown) with same | same
  · exact other.1 same
  · exact other.2 same

theorem HasNames.key?_eq_none {plan : Projection} {value : Json} (named : HasNames plan.fieldNames value)
    (apart : ¬ plan.LooksPending) : LazyRef.key? value = none := by
  obtain ⟨members, rfl, all⟩ := named
  rw [Option.eq_none_iff_forall_not_mem]
  intro key pending
  apply apart
  intro name
  rw [← all]
  exact names_of_key? pending name

/-- The targets of a batch. -/
def Batch.targets : Batch → List Json
  | .nothing => []
  | .direct _ targets => targets
  | .pivot _ _ targets => targets

/-- What is linked to a key are targets. -/
theorem Batch.linked_subset (batch : Batch) (key : Json) : batch.linked key ⊆ batch.targets := by
  cases batch with
  | nothing => exact List.Subset.refl _
  | direct column targets => exact List.filter_subset_self _
  | pivot column links targets =>
      intro object member
      obtain ⟨link, -, linked⟩ := List.mem_filterMap.1 member
      rw [linkedTarget?] at linked
      split at linked
      · split at linked
        · exact List.mem_of_mem_filter (List.mem_of_getLast? linked)
        · contradiction
      · contradiction

section

variable {registry : Registry} {executor : Executor σ} {load : LazyLoad}

/-- Loaded targets are no placeholders. -/
theorem LoadsTargets.key?_eq_none {column : String} {keys targets : List Json} {before after : σ}
    (loaded : LoadsTargets registry executor load column keys before targets after)
    (apart : ∀ target keys built, registry.table load.target = .ok target →
      (targetSelection target load column keys).build registry = .ok built → ¬ built.plan.LooksPending) :
    ∀ object ∈ targets, LazyRef.key? object = none := by
  intro object member
  obtain ⟨target, built, known, build, named⟩ := loaded.names
  exact (named object member).key?_eq_none (apart target keys built known build)

/-- Fetched targets are no placeholders. -/
theorem Fetches.key?_eq_none {keys : List Json} {batch : Batch} {before after : σ}
    (fetches : Fetches registry executor load keys before batch after)
    (apart : ∀ target keys built, registry.table load.target = .ok target →
      (targetSelection target load load.link.column keys).build registry = .ok built →
        ¬ built.plan.LooksPending) : ∀ object ∈ batch.targets, LazyRef.key? object = none := by
  cases fetches with
  | noKeys => exact List.forall_mem_nil _
  | noLinks => exact List.forall_mem_nil _
  | direct asked link loaded =>
      rw [link] at apart
      exact loaded.key?_eq_none apart
  | pivot asked link known compiled answered some gathered loaded =>
      rw [link] at apart
      exact loaded.key?_eq_none apart

/-- Each site is fetched. -/
theorem FetchesAll.exists_fetches {rows : List Json} {batches : List String → Batch} {all : List Site}
    {before after : σ} (fetches : FetchesAll registry executor rows batches all before after) :
    ∀ site ∈ all, ∃ keys between between',
      Fetches registry executor site.load keys between (batches site.field) between' := by
  induction fetches with
  | nil => exact List.forall_mem_nil _
  | cons gathered first others ih => exact List.forall_mem_cons.2 ⟨⟨_, _, _, first⟩, ih⟩

/-- What a placeholder gives way to is none, if the objects of the groups are none. -/
theorem key?_fulfilled {groups : Groups}
    (free : load.kind.isToMany = false → ∀ key, ∀ object ∈ groups.of key, LazyRef.key? object = none)
    (value : Json) : LazyRef.key? (load.fulfilled groups value) = none := by
  rw [LazyLoad.fulfilled]
  cases pending : LazyRef.key? value with
  | none => exact pending
  | some key =>
      simp only [loadedValue]
      cases many : load.kind.isToMany with
      | true => rfl
      | false =>
          cases group : groups.of key with
          | nil => rfl
          | cons object others => exact free many key object (by rw [group]; exact List.mem_cons_self)

/-- Once an output has been loaded, nothing is pending at any of its sites. -/
theorem pending_loadAll {selection : Selection} {built : BuiltQuery}
    (build : selection.build registry = .ok built)
    (apart : ∀ site ∈ sites built.plan, site.load.TargetsApart registry) (stored : List Row)
    {before after : σ} {loaded : Output}
    (run : (Output.loadAll registry executor ⟨built.plan, hydrate built.plan stored⟩).run.run before =
      (.ok loaded, after)) :
    loaded.plan = built.plan ∧ ∀ site ∈ sites built.plan, site.pending loaded.rows = [] := by
  have nodup := (Selection.plans_of_build build).nodup
  have distinct := (Selection.represents_of_build build).1
  have nests := nests_hydrate distinct stored
  obtain ⟨batches, results, fetches, all, linked, rfl⟩ := Output.loadAll_eq_ok nodup run
  have written : ∀ result ∈ results, result.1 ∈ sites built.plan := fun result member =>
    all ▸ List.mem_map_of_mem member
  have fields : (results.map fun result => result.1.field).Nodup := by
    rw [← all, List.map_map] at nodup
    exact nodup
  refine ⟨rfl, ?_⟩
  intro site member
  obtain ⟨result, among, rfl⟩ := List.mem_map.1 (all ▸ member)
  rw [Site.pending_eq, values_fillAll_of_mem distinct nests written member fields among,
    List.filterMap_eq_nil_iff]
  intro value inside
  obtain ⟨old, -, rfl⟩ := List.mem_map.1 inside
  apply key?_fulfilled
  intro one key object grouped
  -- A to-one placeholder gives way to a target of the batch of its site.
  rw [linked result among key] at grouped
  obtain ⟨keys, between, between', fetched⟩ := fetches.exists_fetches result.1 member
  have targetsApart := (apart result.1 member).resolve_left (by rw [one]; exact Bool.false_ne_true)
  exact fetched.key?_eq_none targetsApart object ((Batch.linked_subset _ key) grouped)

end

/-- Loading a second time issues no statement and changes nothing, whatever the database answered the first
    time, provided that no relation to one row is loaded to objects whose names are those of a
    placeholder. -/
theorem loadAll_again (registry : Registry) (executor : Executor σ) (selection : Selection)
    (built : BuiltQuery) (build : selection.build registry = .ok built)
    (apart : ∀ site ∈ sites built.plan, site.load.TargetsApart registry) (stored : List Row)
    (before after : σ) (loaded : Output)
    (first : (Output.loadAll registry executor ⟨built.plan, hydrate built.plan stored⟩).run.run before =
      (.ok loaded, after)) :
    (∀ state, (loaded.loadAll registry executor).run.run state = (.ok loaded, state)) ∧
      ∀ state log, (loaded.loadAll registry executor.recorded).run.run (state, log) =
        (.ok loaded, state, log) := by
  obtain ⟨plan, nothing⟩ := pending_loadAll build apart stored first
  rw [← plan] at nothing
  constructor
  · intro state
    rw [loadAll_of_nothing_pending nothing]
    rfl
  · intro state log
    rw [loadAll_of_nothing_pending nothing]
    rfl

namespace Blog

/-- Authors with their posts, whose authors are deferred. -/
def authorsOfAuthors : List Include :=
  [⟨"posts", none, none, none, [⟨"author", none, none, some true, []⟩]⟩]

/-- A database that has one answer left: Ada. -/
def adaOnly : Script := ⟨[.ok [[("id", .int 1), ("name", .string "Ada")]]], []⟩

/-- The authors with their posts and the authors of these. -/
def loadedAuthors : List Json :=
  let ada : Json := .object [("id", .int 1), ("name", .string "Ada")]
  let post (id : Int) (title : String) (writer author : Json) : Json :=
    .object [("id", .int id), ("title", .string title), ("author_id", writer), ("author", author)]
  [.object [("id", .int 1), ("name", .string "Ada"), ("posts", .array
      [post 1 "One" (.int 1) ada, post 2 "Two" (.int 1) ada, post 3 "Three" .null .null])],
    .object [("id", .int 2), ("name", .string "Bo"), ("posts", .array [])]]

/-- Their selection. -/
def authorsAgain : Selection := { Selection.ofTable authors with includes := authorsOfAuthors }

/-- Once the authors of the posts have been loaded, nothing more is asked for. -/
theorem loaded_authorsAgain : ∃ built loaded after,
    authorsAgain.build registry = .ok built ∧
      (Output.loadAll registry (Executor.scripted .sqlite) ⟨built.plan, hydrate built.plan authorRows⟩).run.run
        adaOnly = (.ok loaded, after) ∧
      loaded.rows.map Json.chars = loadedAuthors.map Json.chars ∧ after.calls.length = 1 ∧
      (loaded.loadAll registry (Executor.scripted .sqlite)).run.run after = (.ok loaded, after) := by
  obtain ⟨built, build, targets, evaluated⟩ : ∃ built, authorsAgain.build registry = .ok built ∧
      (∀ site ∈ sites built.plan, site.load.target = "authors") ∧
      (match (Output.loadAll registry (Executor.scripted .sqlite)
          ⟨built.plan, hydrate built.plan authorRows⟩).run.run adaOnly with
        | (.ok loaded, after) => some (loaded.rows.map Json.chars, after.calls.length)
        | (.error _, _) => none) = some (loadedAuthors.map Json.chars, 1) :=
    ⟨_, rfl, by decide +kernel, by decide +kernel⟩
  have apart : ∀ site ∈ sites built.plan, site.load.TargetsApart registry := by
    intro site member
    apply LazyLoad.targetsApart_of_key validated
    · rw [targets site member]
      rfl
    · exact List.mem_singleton_self "id"
    · decide
  rcases first : (Output.loadAll registry (Executor.scripted .sqlite)
    ⟨built.plan, hydrate built.plan authorRows⟩).run.run adaOnly with ⟨outcome, after⟩
  rw [first] at evaluated
  cases outcome with
  | error e => simp at evaluated
  | ok loaded =>
      obtain ⟨rows, calls⟩ := Prod.mk.inj (Option.some.inj evaluated)
      obtain ⟨again, -⟩ := loadAll_again registry (Executor.scripted .sqlite) authorsAgain built build apart
        authorRows adaOnly after loaded first
      exact ⟨built, loaded, after, build, first, rows, calls, again after⟩

/-- Posts with a deferred review. -/
def reviewedPosts : Table where
  name := "posts"
  schema := none
  columns := [column "id" .int, column "review_id" .int]
  relations := [⟨"review", .belongsTo, "reviews", ["review_id"], [], none, true⟩]
  primaryKey := ["id"]

/-- Reviews, whose columns are named like the fields of a placeholder. -/
def reviews : Table where
  name := "reviews"
  schema := none
  columns := [column "key" .int, column "resolved" .bool]
  relations := []
  primaryKey := ["key"]

/-- The registry of both. -/
def reviewRegistry : Registry := ⟨[reviewedPosts, reviews]⟩

/-- A review that is not resolved is taken for a placeholder: loading again asks for it once more, and it is
    lost when the database has no answer left. -/
theorem lost_review : reviewRegistry.validate = .ok () ∧ ∃ built,
    { Selection.ofTable reviewedPosts with includes := [⟨"review", none, none, none, []⟩] }.build
        reviewRegistry = .ok built ∧
      (match (do
          let loaded ← Output.loadAll reviewRegistry (Executor.scripted .sqlite)
            ⟨built.plan, hydrate built.plan [[("id", .int 1), ("review_id", .int 5)]]⟩
          let again ← loaded.loadAll reviewRegistry (Executor.scripted .sqlite)
          return (loaded.rows, again.rows) : SessionM Script (List Json × List Json)).run.run
            ⟨[.ok [[("key", .int 5), ("resolved", .int 0)]]], []⟩ with
        | (.ok (loaded, again), after) =>
          some (loaded.map Json.chars, again.map Json.chars, after.calls.length)
        | (.error _, _) => none) =
      some ([Json.chars (.object [("id", .int 1), ("review_id", .int 5),
          ("review", .object [("key", .int 5), ("resolved", .bool false)])])],
        [Json.chars (.object [("id", .int 1), ("review_id", .int 5), ("review", .null)])], 2) := by
  refine ⟨rfl, _, rfl, ?_⟩
  decide +kernel

end Blog

end RelQuery
