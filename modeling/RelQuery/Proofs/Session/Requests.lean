/-
Module: RelQuery.Proofs.Session.Requests
Purpose: When faulty requests are reported. Building a selection judges all that is joined; what is deferred
  is judged as a selection of its own, when its rows are loaded. So a session fails for its request either
  before the first statement, or for a deferred relation that could not be selected by itself.
Main exports: QueryError.ofRequest, Deferral.selection, Selection.Fault, Selection.executeAll_recorded,
  Selection.request_judged_first
-/
import RelQuery.Proofs.Select.Verdicts
import RelQuery.Proofs.Session.Deferral
import RelQuery.Proofs.Session.Recorded

namespace RelQuery

open Sql

variable {σ : Type}

/-- Whether an error tells of a faulty request, whatever the database and the dialect. -/
def QueryError.ofRequest : QueryError → Bool
  | .missingOperator _ | .duplicateInclude _ | .unknownRelation _ _ | .unknownColumn _ _ |
    .invalidFilter _ | .invalidQuery _ => true
  | _ => false

/-- A query that is not compiled uses a construct that the dialect lacks. -/
theorem Sql.Query.compile_eq_error {dialect : Dialect} {query : Query} {e : QueryError}
    (fails : query.compile dialect = .error e) : ∃ construct, e = .unsupported dialect construct := by
  unfold Query.compile Query.render accepted at fails
  split at fails
  · exact ⟨_, (Except.error.inj fails).symm⟩
  · contradiction

/-! ### Deferred relations as selections -/

/-- The targets of a deferred relation as they were asked for, whatever row they belong to. -/
def Deferral.selection (deferral : Deferral) : Selection :=
  { Selection.ofTable deferral.keys.target with
    columns := deferral.request.columns
    filters := deferral.request.filter.toList
    includes := deferral.request.includes }

section

variable {registry : Registry} {table : Table} {requests : List Include} {path : List String}
  {deferral : Deferral} {described : String} {load : LazyLoad}

/-- The keys of a load stand in a column of the targets. -/
theorem LazyLoad.hasColumn_link {keys : RelationKeys} {relation : Relation} {request : Include}
    (known : keys.Known table)
    (loads : LazyLoad.describe relation keys request described = .ok load) :
    keys.target.hasColumn load.link.column = true := by
  rcases LazyLoad.describe_cases loads with
    ⟨_, _, _, rfl, rfl⟩ | ⟨_, _, _, _, _, _, rfl, rfl⟩
  · exact (known _ List.mem_cons_self).1
  · exact (known.2 _ List.mem_cons_self).1

/-- The target of a load is that of its relation. -/
theorem DefersAt.target_eq {target : Table} (defers : DefersAt registry table requests path deferral)
    (loads : LazyLoad.describe deferral.relation deferral.keys deferral.request described = .ok load)
    (known : registry.table load.target = .ok target) : target = deferral.keys.target := by
  obtain ⟨named, -⟩ := LazyLoad.describe_fields loads
  rw [named, (Registry.table_of_relation defers.found).1] at known
  exact (Except.ok.inj known).symm

/-- The selection of the targets of some keys is that of all targets, narrowed to the keys. -/
theorem targetSelection_eq (loads : LazyLoad.describe deferral.relation deferral.keys deferral.request
    described = .ok load) (keys : List Json) :
    targetSelection deferral.keys.target load load.link.column keys =
      deferral.selection.narrowed load.link.column (.isIn (keyLiterals keys) false) := by
  obtain ⟨-, columns, filter, includes⟩ := LazyLoad.describe_fields loads
  rw [targetSelection, columns, filter, includes]
  rfl

/-- Hence either can be built, or both fail with the same error. -/
theorem verdict_targetSelection (valid : registry.validate = .ok ()) (registered : table ∈ registry.tables)
    (defers : DefersAt registry table requests path deferral)
    (loads : LazyLoad.describe deferral.relation deferral.keys deferral.request described = .ok load)
    (keys : List Json) :
    verdict ((targetSelection deferral.keys.target load load.link.column keys).build registry) =
      verdict (deferral.selection.build registry) := by
  have found := defers.found
  have known := Registry.known_of_relation valid (defers.registered registered) found
  rw [targetSelection_eq loads]
  exact Selection.verdict_build_narrowed valid (Registry.target_mem_of_relation found) rfl rfl
    (LazyLoad.hasColumn_link known loads) _

end

/-! ### Sessions -/

/-- What can go wrong in a session but for the database: a statement cannot be expressed in the dialect,
    or the selection cannot be built, be it one of those that it defers. -/
inductive Selection.Fault (registry : Registry) (dialect : Dialect) (selection : Selection) :
    QueryError → Prop
  | inexpressible (construct : Construct) :
      Selection.Fault registry dialect selection (.unsupported dialect construct)
  | unbuilt {e : QueryError} (fails : selection.build registry = .error e) :
      Selection.Fault registry dialect selection e
  | deferred {deferral : Deferral} {e : QueryError}
      (below : DefersBelow registry selection.table selection.includes deferral)
      (fails : deferral.selection.build registry = .error e) : Selection.Fault registry dialect selection e

section

variable {registry : Registry} {dialect : Dialect} (valid : registry.validate = .ok ())

include valid

/-- What goes wrong with a load does so with the selection of a deferred relation, or with the dialect. -/
theorem LoadFault.cause {load : LazyLoad} {e : QueryError} (fault : LoadFault registry dialect load e) :
    ∀ {table : Table} {requests : List Include} {path : List String} {deferral : Deferral}
      {described : String}, table ∈ registry.tables → DefersAt registry table requests path deferral →
        LazyLoad.describe deferral.relation deferral.keys deferral.request described = .ok load →
          (∃ construct, e = .unsupported dialect construct) ∨
            ∃ inner, DefersBelow registry table requests inner ∧ inner.selection.build registry = .error e := by
  induction fault with
  | links link known fails =>
      intro table requests path deferral described registered defers loads
      exact .inl (Query.compile_eq_error fails)
  | compile known build fails =>
      intro table requests path deferral described registered defers loads
      exact .inl (Query.compile_eq_error fails)
  | build known fails =>
      intro table requests path deferral described registered defers loads
      obtain rfl := defers.target_eq loads known
      rw [← verdict_eq_error, verdict_targetSelection valid registered defers loads, verdict_eq_error] at fails
      exact .inr ⟨deferral, .here defers, fails⟩
  | deeper known build deferred inner ih =>
      intro table requests path deferral described registered defers loads
      obtain rfl := defers.target_eq loads known
      obtain ⟨further, described', defersFurther, loadsFurther⟩ :=
        (Selection.plans_of_build build).defers _ deferred
      have target := Registry.target_mem_of_relation defers.found
      obtain ⟨-, -, -, includes⟩ := LazyLoad.describe_fields loads
      rcases ih target defersFurther loadsFurther with unsupported | ⟨innermost, below, fails⟩
      · exact .inl unsupported
      · exact .inr ⟨innermost, .under defers (includes ▸ below), fails⟩

variable {selection : Selection} (registered : selection.table ∈ registry.tables)

include registered

/-- So does what goes wrong with the loading of what a built selection defers. -/
theorem Projection.LoadFault.fault {built : BuiltQuery} {e : QueryError}
    (build : selection.build registry = .ok built) (fault : built.plan.LoadFault registry dialect e) :
    selection.Fault registry dialect e := by
  obtain ⟨site, deferred, fault⟩ := fault
  obtain ⟨deferral, described, defers, loads⟩ := (Selection.plans_of_build build).defers site deferred
  rcases fault.cause valid registered defers loads with ⟨construct, rfl⟩ | ⟨inner, below, fails⟩
  · exact .inexpressible construct
  · exact .deferred below fails

/-- A session fails by its last statement or because of such a fault; all other statements were
    answered. -/
theorem Selection.executeAll_recorded (executor : Executor σ) :
    SessionM.Recorded (selection.Fault registry executor.dialect) (selection.executeAll registry executor)
      (selection.executeAll registry executor.recorded) := by
  refine execute_bind_recorded (fun e fails => .unbuilt fails) ?_ fun built build rows => ?_
  · intro built e build fails
    obtain ⟨construct, rfl⟩ := Query.compile_eq_error fails
    exact .inexpressible construct
  · refine (loadAll_recorded executor ⟨built.plan, rows⟩ (plans_of_build build).registered).mono ?_
    exact fun e fault => fault.fault valid registered build

/-- Where what is deferred can be selected by itself, a request that can be built is not found faulty later,
    and one that cannot is refused before any statement. -/
theorem Selection.request_judged_first
    (deferred : ∀ deferral, DefersBelow registry selection.table selection.includes deferral →
      ∃ built, deferral.selection.build registry = .ok built) (executor : Executor σ) (before : σ) :
    (∀ built, selection.build registry = .ok built → ∀ e after,
      (selection.executeAll registry executor).run.run before = (.error e, after) → e.ofRequest = false) ∧
    (∀ e, selection.build registry = .error e →
      (selection.executeAll registry executor).run.run before = (.error e, before)) := by
  constructor
  · intro built build e after fails
    obtain ⟨outcome, _, log, runs, -, explains⟩ :=
      Selection.executeAll_recorded valid registered executor before []
    obtain ⟨rfl, -⟩ := Prod.mk.inj (runs.symm.trans fails)
    cases explains with
    | unanswered answered => rfl
    | fault answered fault =>
        cases fault with
        | inexpressible construct => rfl
        | unbuilt refused => rw [build] at refused; contradiction
        | deferred below refused =>
            obtain ⟨built, builds⟩ := deferred _ below
            rw [builds] at refused
            contradiction
  · intro e refused
    rw [Selection.executeAll, Selection.execute, refused]
    rfl

end

/-! ### Sessions on the sample database -/

namespace Blog

/-- A database that shows one post and is locked then. -/
def lockedAfterPost : Script :=
  ⟨[.ok [[("id", .int 1), ("title", .string "One"), ("author_id", .int 1)]], .error (.database "locked")], []⟩

/-- The error with which a session ends there, if it fails, and the number of statements that it takes. -/
def failureAfterPost (selection : Selection) : Option (QueryError × Nat) :=
  match (selection.executeAll registry (Executor.scripted .sqlite)).run.run lockedAfterPost with
  | (.error e, script) => some (e, script.calls.length)
  | (.ok _, _) => none

/-- The authors can be selected by themselves. -/
theorem builds_author {deferral : Deferral}
    (below : DefersBelow registry posts (postsWithAuthor true).includes deferral) :
    ∃ built, deferral.selection.build registry = .ok built := by
  obtain ⟨-, -, request, keys⟩ := defersBelow_postsWithAuthor below
  rw [Deferral.selection, request, keys]
  exact ⟨_, rfl⟩

/-- The second statement fails, and not for the request. -/
theorem locked_not_ofRequest : ∃ e after,
    ((postsWithAuthor true).executeAll registry (Executor.scripted .sqlite)).run.run lockedAfterPost =
      (.error e, after) ∧ after.calls.length = 2 ∧ e.ofRequest = false := by
  obtain ⟨built, build⟩ : ∃ built, (postsWithAuthor true).build registry = .ok built := ⟨_, rfl⟩
  have failure : failureAfterPost (postsWithAuthor true) = some (.executor (.database "locked"), 2) := by
    decide +kernel
  rcases runs : ((postsWithAuthor true).executeAll registry (Executor.scripted .sqlite)).run.run
    lockedAfterPost with ⟨outcome, after⟩
  rw [failureAfterPost, runs] at failure
  cases outcome with
  | ok output => contradiction
  | error e =>
      obtain ⟨-, calls⟩ := Prod.mk.inj (Option.some.inj failure)
      have registered : (postsWithAuthor true).table ∈ registry.tables := by decide
      have judged := Selection.request_judged_first validated registered (fun _ => builds_author)
        (Executor.scripted .sqlite) lockedAfterPost
      exact ⟨e, after, rfl, calls, judged.1 built build e after runs⟩

/-- Posts with the names of their authors, misspelt. -/
def postsWithMisspelt : Selection :=
  { Selection.ofTable posts with includes := [⟨"author", some ["nmae"], none, some true, []⟩] }

/-- A database that shows one post and answers whatever else it is asked with no rows. -/
def onePost : Script :=
  ⟨[.ok [[("id", .int 1), ("title", .string "One"), ("author_id", .int 1)]]], []⟩

/-- What is deferred is judged when it is loaded: the posts can be selected, and are, before the misspelt
    column is found. -/
theorem misspelt_found_late : registry.validate = .ok () ∧
    (∃ built, postsWithMisspelt.build registry = .ok built) ∧
    (∀ answer ∈ onePost.answers, answer.isOk = true) ∧
    ∃ e after, (postsWithMisspelt.executeAll registry (Executor.scripted .sqlite)).run.run onePost =
      (.error e, after) ∧ e = .unknownColumn "authors" "nmae" ∧ e.ofRequest = true ∧ after.calls.length = 1 := by
  have failure : (match (postsWithMisspelt.executeAll registry (Executor.scripted .sqlite)).run.run onePost with
      | (.error e, after) => some (e, after.calls.length)
      | (.ok _, _) => none) = some (.unknownColumn "authors" "nmae", 1) := by decide +kernel
  refine ⟨rfl, ⟨_, rfl⟩, by decide, ?_⟩
  rcases runs : (postsWithMisspelt.executeAll registry (Executor.scripted .sqlite)).run.run onePost with
    ⟨outcome, after⟩
  rw [runs] at failure
  cases outcome with
  | ok output => contradiction
  | error e =>
      obtain ⟨rfl, calls⟩ := Prod.mk.inj (Option.some.inj failure)
      exact ⟨_, after, rfl, rfl, rfl, calls⟩

end Blog

end RelQuery
