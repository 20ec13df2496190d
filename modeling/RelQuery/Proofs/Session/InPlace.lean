/-
Module: RelQuery.Proofs.Session.InPlace
Purpose: Loading changes the rows of an output where they stand, and only once nothing can fail any more.
  Either all that is deferred is resolved, and nothing else has changed, or the rows are as they were and
  the failure is that of a statement or of the making of one.
Main exports: loadInPlace, loadInPlace_run, LoadResult, loadInPlace_result
-/
import RelQuery.Proofs.Blog
import RelQuery.Proofs.Session.Mapped
import RelQuery.Proofs.Session.Recorded

namespace RelQuery

open Sql

variable {σ α β : Type}

/-! ### Loading in place -/

/-- Computations of a session that hold rows, which they may change. -/
abbrev HeldM (σ : Type) := SessionM (List Json × σ)

/-- A computation that does not touch the rows that are held. -/
def SessionM.beside (x : SessionM σ α) : HeldM σ α := ExceptT.mk fun (rows, state) =>
  let (outcome, state) := x.run.run state
  (outcome, rows, state)

section

variable (registry : Registry) (executor : Executor σ)

/-- Fills a site in the rows that are held. -/
def fillHeld (site : Site) (groups : Groups) : HeldM σ Unit :=
  modify fun held => (fill held.1 site groups, held.2)

/-- Loads what a plan defers in the rows that are held: the groups of all sites are fetched, then the rows
    are changed site by site. -/
def loadInPlace (plan : Projection) : HeldM σ Unit := do
  let batches ← (sites plan).mapM fun site => do
    let held ← get
    (fetchSite registry executor held.1 site).beside
  forM batches fun batch => fillHeld batch.1 batch.2

end

/-- Holding the rows, the second computation does what the first one does, and leaves them as they are. -/
def SessionM.Beside (rows : List Json) (x : SessionM σ α) (held : HeldM σ α) : Prop :=
  ∀ before, held.run.run (rows, before) = ((x.run.run before).1, rows, (x.run.run before).2)

namespace SessionM.Beside

variable {rows : List Json}

theorem bind {x : SessionM σ α} {held : HeldM σ α} {f : α → SessionM σ β} {f' : α → HeldM σ β}
    (first : Beside rows x held) (next : ∀ a, Beside rows (f a) (f' a)) :
    Beside rows (x >>= f) (held >>= f') := by
  intro before
  rw [ExceptT.run_bind, StateT.run_bind, first before, ExceptT.run_bind, StateT.run_bind]
  rcases x.run.run before with ⟨outcome, between⟩
  cases outcome with
  | error e => rfl
  | ok a => exact next a between

theorem mapM {ι : Type} {f : ι → SessionM σ α} {f' : ι → HeldM σ α} {items : List ι}
    (each : ∀ item ∈ items, Beside rows (f item) (f' item)) :
    Beside rows (items.mapM f) (items.mapM f') := by
  induction items with
  | nil => exact fun _ => rfl
  | cons item items ih =>
      obtain ⟨first, others⟩ := List.forall_mem_cons.1 each
      rw [List.mapM_cons, List.mapM_cons]
      exact first.bind fun a => (ih others).bind fun as _ => rfl

end SessionM.Beside

section

variable {registry : Registry} {executor : Executor σ}

/-- Changing the rows site by site fills all of them. -/
theorem forM_fillHeld (batches : List (Site × Groups)) (rows : List Json) (state : σ) :
    (forM batches fun batch => fillHeld batch.1 batch.2).run.run (rows, state) =
      (.ok (), fillAll rows batches, state) := by
  induction batches generalizing rows with
  | nil => rfl
  | cons batch batches ih =>
      rw [List.forM_cons, ExceptT.run_bind, StateT.run_bind]
      exact ih _

/-- Loading in place leaves the rows that loading yields, and the rows as they were if it fails. -/
theorem loadInPlace_run (plan : Projection) (rows : List Json) (before : σ) :
    (loadInPlace registry executor plan).run.run (rows, before) =
      match (Output.loadAll registry executor ⟨plan, rows⟩).run.run before with
      | (.ok output, after) => (.ok (), output.rows, after)
      | (.error e, after) => (.error e, rows, after) := by
  have fetched : SessionM.Beside rows ((sites plan).mapM (fetchSite registry executor rows))
      ((sites plan).mapM fun site => do
        let held ← get
        (fetchSite registry executor held.1 site).beside) :=
    SessionM.Beside.mapM fun site _ before => rfl
  rw [loadInPlace, ExceptT.run_bind, StateT.run_bind, fetched before, Output.loadAll_eq, ExceptT.run_bind,
    StateT.run_bind]
  rcases ((sites plan).mapM (fetchSite registry executor rows)).run.run before with ⟨outcome, after⟩
  cases outcome with
  | error e => rfl
  | ok batches => exact forM_fillHeld batches rows after

end

/-! ### Resolved plans -/

section

variable {registry : Registry} {root : Table} {label : String} {columns : Option (List String)}
  {tree : List Include} {names : Names} {resolution : Resolution}
  (resolved : resolve registry root label columns tree names = .ok resolution)

include resolved

theorem plans_of_resolve : Plans registry root tree resolution.plan := by
  obtain ⟨_, shown, nodes, loads, -, derivation, -, plan⟩ := resolve_attaches resolved
  rw [plan]
  exact derivation.plans _ _ _

theorem distinct_of_resolve : resolution.plan.Distinct := by
  obtain ⟨_, shown, nodes, loads, -, derivation, -, plan⟩ := resolve_attaches resolved
  rw [plan]
  exact .intro derivation.distinct.1 derivation.distinct.2

end

/-! ### Results -/

/-- How loading ends: each placeholder is resolved from the batch of its site, in rows that are the same
    otherwise, after no statement failed; or a statement or the making of one failed, in rows as they
    were. -/
inductive LoadResult (registry : Registry) (executor : Executor σ) (plan : Projection) (rows : List Json)
    (before : σ) : Except QueryError Unit → (rows' : List Json) → (after : σ) → List Exchange → Prop
  | resolved {batches : List String → Batch} {resolve : Site → Json → Json} {after : σ}
      {log : List Exchange} (answered : ∀ exchange ∈ log, exchange.succeeded = true)
      (fetches : FetchesAll registry executor rows batches (sites plan) before after)
      (resolves : ∀ site value, (batches site.field).Resolves site.load.kind value (resolve site value)) :
      LoadResult registry executor plan rows before (.ok ()) (rows.map (plan.mapDeferred resolve [])) after log
  | failed {e : QueryError} {after : σ} {log : List Exchange}
      (explained : Explains (plan.LoadFault registry executor.dialect) log
        (.error e : Except QueryError Unit)) :
      LoadResult registry executor plan rows before (.error e) rows after log

section

variable {registry : Registry} {root : Table} {label : String} {columns : Option (List String)}
  {tree : List Include} {names : Names} {resolution : Resolution}

/-- Loading what a resolved plan defers, in rows that were hydrated by it. -/
theorem loadInPlace_result (resolved : resolve registry root label columns tree names = .ok resolution)
    (executor : Executor σ) (stored : List Row) (before : σ) :
    ∃ outcome rows after log,
      (Output.loadAll registry executor ⟨resolution.plan, hydrate resolution.plan stored⟩).run.run before =
        (outcome.map fun _ => ⟨resolution.plan, rows⟩, after) ∧
      (loadInPlace registry executor resolution.plan).run.run (hydrate resolution.plan stored, before) =
        (outcome, rows, after) ∧
      (loadInPlace registry executor.recorded resolution.plan).run.run
        (hydrate resolution.plan stored, before, []) = (outcome, rows, after, log) ∧
      LoadResult registry executor resolution.plan (hydrate resolution.plan stored) before outcome rows after
        log := by
  have plans := plans_of_resolve resolved
  have distinct := distinct_of_resolve resolved
  have nests := nests_hydrate distinct stored
  generalize hydrate resolution.plan stored = rows at nests ⊢
  obtain ⟨outcome, after, log, runs, recorded, explains⟩ :=
    loadAll_recorded executor ⟨resolution.plan, rows⟩ plans.registered before []
  rw [loadInPlace_run, loadInPlace_run, runs, recorded]
  cases outcome with
  | error e => exact ⟨.error e, rows, after, log, rfl, rfl, rfl, .failed explains.error⟩
  | ok output =>
      have answered : ∀ exchange ∈ log, exchange.succeeded = true := by
        cases explains
        assumption
      rw [Output.loadAll_eq] at runs
      obtain ⟨results, _, fetched, last⟩ := SessionM.bind_eq_ok.1 runs
      obtain ⟨rfl, rfl⟩ := SessionM.pure_eq_ok.1 last
      obtain ⟨batches, fetches, all, linked⟩ := exists_fetchesAll plans.nodup fetched
      have filled : fillAll rows results = rows.map (resolution.plan.mapDeferred (fun site value =>
          (batches site.field).resolved site.load.kind value) []) := by
        refine fillAll_eq_mapDeferred distinct plans.nodup nests all fun result member => ?_
        funext value
        rw [Batch.resolved, LazyLoad.fulfilled]
        cases LazyRef.key? value with
        | none => rfl
        | some key => simp only [linked result member key]
      refine ⟨.ok (), _, _, log, rfl, rfl, rfl, ?_⟩
      rw [filled]
      exact .resolved answered fetches fun site value => (batches site.field).resolves_resolved _ value

end

/-! ### Posts of authors -/

namespace Blog

/-- Authors with their posts, whose authors and tags are deferred. -/
def postsInDepth : List Include :=
  [⟨"posts", none, none, none,
    [⟨"author", none, none, some true, []⟩, ⟨"tags", none, none, some true, []⟩]⟩]

/-- Their plan. -/
def postsInDepthPlan : Projection :=
  ((resolve registry authors "authors" none postsInDepth ⟨[]⟩).toOption.map Resolution.plan).getD
    ⟨"authors", "authors", "", [], [], [], []⟩

/-- Two posts of Ada's, one that is nobody's under her name, and Bo, who has none. -/
def authorRows : List Row :=
  let row (author : Int) (name : String) (post : Option (Int × String)) (writer : Json) : Row :=
    [("id", .int author), ("name", .string name),
      ("posts__id", (post.map fun p => Json.int p.1).getD .null),
      ("posts__title", (post.map fun p => Json.string p.2).getD .null), ("posts__author_id", writer)]
  [row 1 "Ada" (some (1, "One")) (.int 1), row 1 "Ada" (some (2, "Two")) (.int 1),
    row 1 "Ada" (some (3, "Three")) .null, row 2 "Bo" none .null]

/-- Answers for the author, for the pairs of posts and tags, one of them with a tag that is missing, and for
    the tags. -/
def adaAndTags : Script :=
  let link (post : Int) (tag : Json) : Row := [("parent_key", .int post), ("child_key", tag)]
  ⟨[.ok [[("id", .int 1), ("name", .string "Ada")]],
    .ok [link 1 (.int 2), link 2 (.int 5), link 1 (.int 1), link 3 (.int 2), link 2 .null],
    .ok [[("id", .int 1), ("name", .string "lean")], [("id", .int 2), ("name", .string "sql")]]], []⟩

/-- The authors with their posts, the authors of these, and their tags in the order of the pairs. -/
def loadedPosts : List Json :=
  let ada : Json := .object [("id", .int 1), ("name", .string "Ada")]
  let lean : Json := .object [("id", .int 1), ("name", .string "lean")]
  let sql : Json := .object [("id", .int 2), ("name", .string "sql")]
  let post (id : Int) (title : String) (writer author : Json) (tags : List Json) : Json :=
    .object [("id", .int id), ("title", .string title), ("author_id", writer), ("author", author),
      ("tags", .array tags)]
  [.object [("id", .int 1), ("name", .string "Ada"), ("posts", .array
      [post 1 "One" (.int 1) ada [sql, lean], post 2 "Two" (.int 1) ada [], post 3 "Three" .null .null [sql]])],
    .object [("id", .int 2), ("name", .string "Bo"), ("posts", .array [])]]

/-- Three statements resolve the authors and the tags of all posts. -/
theorem loadInPlace_posts : ∃ rows after log,
    LoadResult registry (Executor.scripted .sqlite) postsInDepthPlan (hydrate postsInDepthPlan authorRows)
        adaAndTags (.ok ()) rows after log ∧
      rows.map Json.chars = loadedPosts.map Json.chars ∧ log.length = 3 := by
  obtain ⟨resolution, resolved⟩ : ∃ resolution,
      resolve registry authors "authors" none postsInDepth ⟨[]⟩ = .ok resolution := ⟨_, rfl⟩
  have plan : resolution.plan = postsInDepthPlan := by
    rw [postsInDepthPlan, resolved]
    rfl
  obtain ⟨outcome, rows, after, log, -, -, recorded, result⟩ :=
    loadInPlace_result resolved (Executor.scripted .sqlite) authorRows adaAndTags
  rw [plan] at recorded result
  have evaluated : (match (loadInPlace registry (Executor.scripted .sqlite).recorded postsInDepthPlan).run.run
      (hydrate postsInDepthPlan authorRows, adaAndTags, []) with
      | (outcome, rows, _, log) => (outcome.isOk, rows.map Json.chars, log.length)) =
        (true, loadedPosts.map Json.chars, 3) := by
    decide +kernel
  rw [recorded] at evaluated
  obtain ⟨succeeds, texts⟩ := Prod.mk.inj evaluated
  obtain ⟨same, three⟩ := Prod.mk.inj texts
  cases outcome with
  | error e => exact absurd succeeds Bool.false_ne_true
  | ok _ => exact ⟨rows, after, log, result, same, three⟩

end Blog

end RelQuery
