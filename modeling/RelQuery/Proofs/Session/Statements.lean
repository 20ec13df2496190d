/-
Module: RelQuery.Proofs.Session.Statements
Purpose: How many statements the loading of deferred relations takes. Each deferred relation of a tree of
  includes counts for one statement, or for two behind a pivot table, those below other deferred ones included;
  whatever the rows, their loading takes no more statements than the tree counts.
Main exports: statementsOf, Attaches.sum_statements, Issues.length_le, Selection.loadAll_statements
-/
import RelQuery.Proofs.Session.Asked
import RelQuery.Proofs.Session.Deferral

namespace RelQuery

open Sql

variable {σ : Type}

/-! ### Counting over a tree -/

/-- The statements that load a deferred relation with such keys. -/
def RelationKeys.statements : RelationKeys → Nat
  | .direct _ _ => 1
  | .pivot _ _ _ _ => 2

mutual

/-- The statements that the deferred relations of an include count for, at any depth. -/
def Include.statements (registry : Registry) (table : Table) : Include → Nat
  | ⟨name, columns, filter, lazy, includes⟩ =>
    match registry.relation table name with
    | .ok (relation, keys) =>
      (if Include.isLazy ⟨name, columns, filter, lazy, includes⟩ relation then keys.statements else 0) +
        statementsOf registry keys.target includes
    | .error _ => 0

/-- The statements that the deferred relations of a tree of includes count for. -/
def statementsOf (registry : Registry) (table : Table) : List Include → Nat
  | [] => 0
  | request :: requests => request.statements registry table + statementsOf registry table requests

end

theorem Include.statements_eq {registry : Registry} {table : Table} {request : Include} {relation : Relation}
    {keys : RelationKeys} (found : registry.relation table request.relation = .ok (relation, keys)) :
    request.statements registry table =
      (if request.isLazy relation then keys.statements else 0) +
        statementsOf registry keys.target request.includes := by
  obtain ⟨name, columns, filter, lazy, includes⟩ := request
  rw [Include.statements, found]

/-- The statements of a batch itself. -/
def LazyLink.statements : LazyLink → Nat
  | .direct _ => 1
  | .pivot _ _ _ _ => 2

/-- The statements that what is deferred below the targets of a load counts for. -/
def LazyLoad.statementsBelow (registry : Registry) (load : LazyLoad) : Nat :=
  match registry.table load.target with
  | .ok target => statementsOf registry target load.includes
  | .error _ => 0

/-- The statements that a load counts for. -/
def LazyLoad.statements (registry : Registry) (load : LazyLoad) : Nat :=
  load.link.statements + load.statementsBelow registry

/-- The statements that some sites count for. -/
def statementsOfSites (registry : Registry) : List Site → Nat
  | [] => 0
  | site :: sites => site.load.statements registry + statementsOfSites registry sites

theorem statementsOfSites_append (registry : Registry) (first second : List Site) :
    statementsOfSites registry (first ++ second) =
      statementsOfSites registry first + statementsOfSites registry second := by
  induction first with
  | nil => exact (Nat.zero_add _).symm
  | cons site first ih =>
      rw [List.cons_append, statementsOfSites, statementsOfSites, ih, Nat.add_assoc]

/-- The order of the sites does not matter. -/
theorem statementsOfSites_perm {first second : List Site} (perm : first.Perm second) (registry : Registry) :
    statementsOfSites registry first = statementsOfSites registry second := by
  induction perm with
  | nil => rfl
  | cons site perm ih => rw [statementsOfSites, statementsOfSites, ih]
  | swap site other sites =>
      rw [statementsOfSites, statementsOfSites, statementsOfSites, statementsOfSites, Nat.add_left_comm]
  | trans first second ihFirst ihSecond => rw [ihFirst, ihSecond]

section

variable {registry : Registry} {table : Table}

/-- A load counts for what its request does. -/
theorem LazyLoad.statements_of_describe {request : Include} {relation : Relation} {keys : RelationKeys}
    {described : String} {load : LazyLoad}
    (found : registry.relation table request.relation = .ok (relation, keys))
    (lazy : request.isLazy relation = true)
    (loads : LazyLoad.describe relation keys request described = .ok load) :
    load.statements registry = request.statements registry table := by
  have known := (Registry.table_of_relation found).1
  rw [Include.statements_eq found, if_pos lazy]
  rcases LazyLoad.describe_cases loads with ⟨_, _, _, rfl, rfl⟩ | ⟨_, _, _, _, _, _, rfl, rfl⟩
  · simp only [RelationKeys.target] at known
    simp [LazyLoad.statements, LazyLoad.statementsBelow, LazyLink.statements, RelationKeys.statements,
      RelationKeys.target, known]
  · simp only [RelationKeys.target] at known
    simp [LazyLoad.statements, LazyLoad.statementsBelow, LazyLink.statements, RelationKeys.statements,
      RelationKeys.target, known]

/-- The sites of a plan count for what the tree of includes does that it was made of. -/
theorem Attaches.sum_statements {label outputPath here : String} {names names' : Names}
    {requests : List Include} {nodes : List IncludeNode} {loads : List LazyLoad} {joins : List Join}
    (derivation : Attaches registry table label outputPath here names requests nodes loads joins names')
    (path : List String) :
    statementsOfSites registry (sitesBelow path nodes loads) = statementsOf registry table requests := by
  induction derivation generalizing path with
  | nil => rfl
  | @deferred table label outputPath here names names' request requests nodes loads joins relation keys load
      found lazy described new rest ih =>
      have counted := LazyLoad.statements_of_describe found lazy described
      rw [sitesBelow_load, statementsOf, ← ih path, ← counted]
      rfl
  | @joined table label outputPath here names names₁ names₂ names' request requests inner nodes innerLoads
      loads innerJoins joins relation keys condition selected columns found eager narrowed chosen below
      completed new rest ihBelow ih =>
      rw [statementsOfSites_perm (sitesBelow_node ..), statementsOfSites_append, ihBelow, ih, statementsOf,
        Include.statements_eq found, eager]
      simp

/-- So do those of the plan of a selection. -/
theorem Selection.statementsOfSites_of_build {selection : Selection} {built : BuiltQuery}
    (build : selection.build registry = .ok built) :
    statementsOfSites registry (sites built.plan) =
      statementsOf registry selection.table selection.includes := by
  obtain ⟨assembly, items, assembled, -, planned, -⟩ := Selection.build_eq_ok build
  obtain ⟨pieces⟩ := Selection.nonempty_pieces assembled
  rw [planned, pieces.plan_eq, sites_eq]
  exact pieces.attaches.sum_statements []

end

/-! ### Counting over a run -/

/-- The statements that a loading counts for. -/
def Loading.statements (registry : Registry) : Loading → Nat
  | .sites all _ => statementsOfSites registry all
  | .relation load _ => load.statements registry
  | .targets load _ _ => 1 + load.statementsBelow registry

/-- No loading issues more statements than it counts for. -/
theorem Issues.length_le {registry : Registry} {dialect : Dialect} {loading : Loading} {log : List Exchange}
    {ended : Bool} (issues : Issues registry dialect loading log ended) :
    log.length ≤ loading.statements registry := by
  induction issues with
  | noSites => exact Nat.zero_le _
  | sites here rest ihHere ihRest =>
      rw [List.length_append]
      exact Nat.add_le_add ihHere ihRest
  | stopped here ih => exact Nat.le_trans ih (Nat.le_add_right _ _)
  | noKeys => exact Nat.zero_le _
  | direct asked link targets ih =>
      rw [Loading.statements, LazyLoad.statements, link]
      exact ih
  | noLinks asked link lists compiled none =>
      rw [Loading.statements, LazyLoad.statements, link]
      exact Nat.le_add_right_of_le (Nat.le_succ 1)
  | pivot asked link lists compiled some targets ih =>
      rw [Loading.statements] at ih
      rw [Loading.statements, LazyLoad.statements, link, LazyLink.statements, List.length_cons]
      omega
  | linksFail asked link lists compiled =>
      rw [Loading.statements, LazyLoad.statements, link]
      exact Nat.le_add_right_of_le (Nat.le_succ 1)
  | linksUnmade => exact Nat.zero_le _
  | targets known build lists compiled below ih =>
      rw [Loading.statements, Selection.statementsOfSites_of_build build] at ih
      rw [Loading.statements, LazyLoad.statementsBelow, known, List.length_cons, Nat.add_comm]
      exact Nat.add_le_add_left ih 1
  | targetsFail => exact Nat.le_add_right 1 _
  | targetsUnmade => exact Nat.zero_le _

/-! ### Loading -/

/-- Loading what a selection defers, whatever the executor and the objects. The statements that it issues are
    no more than the deferred relations of the tree of includes count for, one for each and two behind a pivot
    table, however deep they stand. They are those of one batch for each relation, none for a relation
    without pending keys, where the first statement of a batch lists the pending keys as first seen; and so
    listed, no two keys have one text, and each key's text is there. -/
theorem Selection.loadAll_statements {registry : Registry} {selection : Selection} {built : BuiltQuery}
    (build : selection.build registry = .ok built) (executor : Executor σ) (rows : List Json) (before : σ) :
    ∃ outcome after log,
      (Output.loadAll registry executor ⟨built.plan, rows⟩).run.run before = (outcome, after) ∧
        (Output.loadAll registry executor.recorded ⟨built.plan, rows⟩).run.run (before, []) =
          (outcome, after, log) ∧
        log.length ≤ statementsOf registry selection.table selection.includes ∧
        Issues registry executor.dialect (.sites (sites built.plan) rows) log outcome.isOk ∧
        ∀ keys, ((firstSeen keys).map Json.text).Nodup ∧
          ∀ text, text ∈ (firstSeen keys).map Json.text ↔ text ∈ keys.map Json.text := by
  obtain ⟨outcome, after, log, run, recorded, -⟩ :=
    loadAll_recorded executor ⟨built.plan, rows⟩ (Selection.plans_of_build build).registered before []
  obtain ⟨outcome', after', log', recorded', issues⟩ :=
    loadAll_issues registry executor ⟨built.plan, rows⟩ before []
  rw [List.nil_append] at recorded recorded'
  obtain ⟨rfl, same⟩ := Prod.mk.inj (recorded.symm.trans recorded')
  obtain ⟨rfl, rfl⟩ := Prod.mk.inj same
  refine ⟨outcome, after, log, run, recorded, ?_, issues, texts_firstSeen⟩
  rw [← Selection.statementsOfSites_of_build build]
  exact issues.length_le

namespace Blog

/-- Posts whose authors and tags are deferred. -/
def postsWithAll : Selection :=
  { Selection.ofTable posts with
    includes := [⟨"author", none, none, some true, []⟩, ⟨"tags", none, none, some true, []⟩] }

/-- Their plan. -/
def postsWithAllPlan : Projection :=
  ((postsWithAll.build registry).toOption.map BuiltQuery.plan).getD ⟨"posts", "posts", "", [], [], [], []⟩

/-- Two posts of one author. -/
def pendingPosts : List Json :=
  let post (id : Int) : Json :=
    .object [("id", .int id), ("author", LazyRef.pending (.int 1)), ("tags", LazyRef.pending (.int id))]
  [post 1, post 2]

/-- Answers for the author, for the pairs of posts and tags, and for the tag. -/
def authorAndTag : Script :=
  ⟨[.ok [[("id", .int 1), ("name", .string "Ada")]],
    .ok [[("parent_key", .int 1), ("child_key", .int 2)], [("parent_key", .int 2), ("child_key", .int 2)]],
    .ok [[("id", .int 2), ("name", .string "sql")]]], []⟩

/-- Three statements load the author and the tags of both posts, which is what the two relations count for. -/
theorem loadAll_statements_postsWithAll : ∃ built log,
    postsWithAll.build registry = .ok built ∧
      Issues registry .sqlite (.sites (sites built.plan) pendingPosts) log true ∧
      log.length = 3 ∧ log.length ≤ statementsOf registry posts postsWithAll.includes := by
  obtain ⟨built, build⟩ : ∃ built, postsWithAll.build registry = .ok built := ⟨_, rfl⟩
  obtain ⟨outcome, after, log, -, recorded, bounded, issues, -⟩ :=
    Selection.loadAll_statements build (Executor.scripted .sqlite) pendingPosts authorAndTag
  have plan : built.plan = postsWithAllPlan := by
    rw [postsWithAllPlan, build]
    rfl
  have evaluated : (match (Output.loadAll registry (Executor.scripted .sqlite).recorded
      ⟨postsWithAllPlan, pendingPosts⟩).run.run (authorAndTag, []) with
      | (outcome, _, log) => (outcome.isOk, log.length)) = (true, 3) := by
    decide +kernel
  rw [← plan, recorded] at evaluated
  obtain ⟨succeeds, three⟩ := Prod.mk.inj evaluated
  rw [succeeds] at issues
  exact ⟨built, log, build, issues, three, bounded⟩

end Blog

end RelQuery
