/-
Module: RelQuery.Proofs.Session.Recorded
Purpose: What goes wrong when deferred relations are loaded. A database may keep a log of its exchanges,
  which changes nothing else; and the log of a run explains how it ends: a failure is that of the last
  statement, or it arose while the statement of some targets was made, and all other statements were
  answered.
Main exports: Executor.recorded, Explains, LoadFault, SessionM.Recorded, loadAll_recorded
-/
import RelQuery.Proofs.Session.Batches

namespace RelQuery

open Sql

variable {σ α β : Type}

/-! ### Logs -/

/-- A statement and what it was answered with. -/
structure Exchange where
  statement : Statement
  answer : Except ExecutorError (List Row)

/-- Whether the statement was answered with rows. -/
def Exchange.succeeded (exchange : Exchange) : Bool := exchange.answer.isOk

/-- The database with a log of its exchanges, latest last. -/
def Executor.recorded (executor : Executor σ) : Executor (σ × List Exchange) where
  dialect := executor.dialect
  execute := fun statement (state, log) =>
    let (answer, state) := executor.execute statement state
    (answer, state, log ++ [⟨statement, answer⟩])
  begin := fun (state, log) =>
    let (answer, state) := executor.begin state
    (answer, state, log)
  commit := fun (state, log) =>
    let (answer, state) := executor.commit state
    (answer, state, log)
  rollback := fun (state, log) =>
    let (answer, state) := executor.rollback state
    (answer, state, log)

/-- How a run ends, as its log explains it: it succeeds, and each statement did; or the last statement
    failed; or a fault arose that is none of the database. -/
inductive Explains (fault : QueryError → Prop) : List Exchange → Except QueryError α → Prop
  | success {log : List Exchange} {a : α} (answered : ∀ exchange ∈ log, exchange.succeeded = true) :
      Explains fault log (.ok a)
  | unanswered {log : List Exchange} {statement : Statement} {error : ExecutorError}
      (answered : ∀ exchange ∈ log, exchange.succeeded = true) :
      Explains fault (log ++ [⟨statement, .error error⟩]) (.error (.executor error))
  | fault {log : List Exchange} {e : QueryError}
      (answered : ∀ exchange ∈ log, exchange.succeeded = true) (faulty : fault e) :
      Explains fault log (.error e)

section

variable {fault fault' : QueryError → Prop} {log more : List Exchange}

/-- Answered statements before it do not matter to an explanation. -/
theorem Explains.append {outcome : Except QueryError α} (explains : Explains fault more outcome)
    (answered : ∀ exchange ∈ log, exchange.succeeded = true) : Explains fault (log ++ more) outcome := by
  cases explains with
  | success later => exact .success (List.forall_mem_append.2 ⟨answered, later⟩)
  | unanswered later =>
      rw [← List.append_assoc]
      exact .unanswered (List.forall_mem_append.2 ⟨answered, later⟩)
  | fault later faulty => exact .fault (List.forall_mem_append.2 ⟨answered, later⟩) faulty

/-- A failure is explained in the same way whatever the result would have been. -/
theorem Explains.error {e : QueryError} (explains : Explains fault log (.error e : Except QueryError α)) :
    Explains fault log (.error e : Except QueryError β) := by
  cases explains with
  | unanswered answered => exact .unanswered answered
  | fault answered faulty => exact .fault answered faulty

end

/-- The second computation does what the first one does and logs the exchanges, which explain how it
    ends. -/
def SessionM.Recorded (fault : QueryError → Prop) (x : SessionM σ α)
    (recorded : SessionM (σ × List Exchange) α) : Prop :=
  ∀ before log, ∃ outcome after more, x.run.run before = (outcome, after) ∧
    recorded.run.run (before, log) = (outcome, after, log ++ more) ∧ Explains fault more outcome

namespace SessionM.Recorded

variable {fault fault' : QueryError → Prop}

theorem pure (a : α) : Recorded (σ := σ) fault (Pure.pure a) (Pure.pure a) :=
  fun before log => ⟨.ok a, before, [], rfl, by rw [List.append_nil]; rfl, .success (by simp)⟩

/-- Without the database, a failure is a fault. -/
theorem ofExcept {result : Except QueryError α} (faulty : ∀ e, result = .error e → fault e) :
    Recorded (σ := σ) fault (SessionM.ofExcept result) (SessionM.ofExcept result) := by
  intro before log
  refine ⟨result, before, [], rfl, by rw [List.append_nil]; rfl, ?_⟩
  cases result with
  | ok a => exact .success (by simp)
  | error e => exact .fault (by simp) (faulty e rfl)

/-- A statement is logged with its answer. -/
theorem run (executor : Executor σ) (statement : Statement) :
    Recorded fault (executor.run statement) (executor.recorded.run statement) := by
  intro before log
  rcases answered : executor.execute statement before with ⟨answer, after⟩
  cases answer with
  | ok rows =>
      refine ⟨.ok rows, after, [⟨statement, .ok rows⟩], ?_, ?_, .success ?_⟩
      · simp only [Executor.run, SessionM.ask, ExceptT.run_mk, StateT.run, answered]
      · simp only [Executor.run, Executor.recorded, SessionM.ask, ExceptT.run_mk, StateT.run, answered]
      · exact fun exchange member => List.mem_singleton.1 member ▸ rfl
  | error e =>
      refine ⟨.error (.executor e), after, [] ++ [⟨statement, .error e⟩], ?_, ?_,
        .unanswered (by simp)⟩
      · simp only [Executor.run, SessionM.ask, ExceptT.run_mk, StateT.run, answered]
      · simp only [Executor.run, Executor.recorded, SessionM.ask, ExceptT.run_mk, StateT.run, answered,
          List.nil_append]

/-- What follows is logged behind what came first. -/
theorem bind {x : SessionM σ α} {x' : SessionM (σ × List Exchange) α} {f : α → SessionM σ β}
    {f' : α → SessionM (σ × List Exchange) β} (first : Recorded fault x x')
    (next : ∀ a, Recorded fault (f a) (f' a)) : Recorded fault (x >>= f) (x' >>= f') := by
  intro before log
  obtain ⟨outcome, between, more, runs, recorded, explains⟩ := first before log
  rw [ExceptT.run_bind, StateT.run_bind, runs, ExceptT.run_bind, StateT.run_bind, recorded]
  cases outcome with
  | error e => exact ⟨.error e, between, more, rfl, rfl, explains.error⟩
  | ok a =>
      obtain ⟨outcome, after, further, runsNext, recordedNext, explainsNext⟩ :=
        next a between (log ++ more)
      cases explains with
      | success answered =>
          refine ⟨outcome, after, more ++ further, runsNext, ?_, explainsNext.append answered⟩
          rw [← List.append_assoc]
          exact recordedNext

theorem mono {x : SessionM σ α} {x' : SessionM (σ × List Exchange) α} (recorded : Recorded fault x x')
    (weaker : ∀ e, fault e → fault' e) : Recorded fault' x x' := by
  intro before log
  obtain ⟨outcome, after, more, runs, runs', explains⟩ := recorded before log
  refine ⟨outcome, after, more, runs, runs', ?_⟩
  cases explains with
  | success answered => exact .success answered
  | unanswered answered => exact .unanswered answered
  | fault answered faulty => exact .fault answered (weaker _ faulty)

theorem mapM {ι : Type} {f : ι → SessionM σ α} {f' : ι → SessionM (σ × List Exchange) α}
    {items : List ι} (each : ∀ item ∈ items, Recorded fault (f item) (f' item)) :
    Recorded fault (items.mapM f) (items.mapM f') := by
  induction items with
  | nil => exact .pure []
  | cons item items ih =>
      obtain ⟨first, others⟩ := List.forall_mem_cons.1 each
      rw [List.mapM_cons, List.mapM_cons]
      exact first.bind fun a => (ih others).bind fun as => .pure (a :: as)

end SessionM.Recorded

/-! ### Loading -/

/-- The column of the targets that holds the keys. -/
def LazyLink.column : LazyLink → String
  | .direct targetColumn => targetColumn
  | .pivot _ _ _ targetKey => targetKey

/-- What can go wrong with the loading of a deferred relation but for the database: a statement cannot be
    expressed in the dialect, the selection of the targets cannot be built, or so it is with what is
    deferred below them. -/
inductive LoadFault (registry : Registry) (dialect : Dialect) : LazyLoad → QueryError → Prop
  | links {load : LazyLoad} {name sourceColumn targetColumn targetKey : String} {pivot : Table}
      {keys : List Json} {e : QueryError}
      (link : load.link = .pivot name sourceColumn targetColumn targetKey)
      (known : registry.table name = .ok pivot)
      (fails : (pivotQuery pivot sourceColumn targetColumn keys).compile dialect = .error e) :
      LoadFault registry dialect load e
  | build {load : LazyLoad} {target : Table} {keys : List Json} {e : QueryError}
      (known : registry.table load.target = .ok target)
      (fails : (targetSelection target load load.link.column keys).build registry = .error e) :
      LoadFault registry dialect load e
  | compile {load : LazyLoad} {target : Table} {keys : List Json} {built : BuiltQuery} {e : QueryError}
      (known : registry.table load.target = .ok target)
      (build : (targetSelection target load load.link.column keys).build registry = .ok built)
      (fails : built.query.compile dialect = .error e) : LoadFault registry dialect load e
  | deeper {load : LazyLoad} {target : Table} {keys : List Json} {built : BuiltQuery} {site : Site}
      {e : QueryError} (known : registry.table load.target = .ok target)
      (build : (targetSelection target load load.link.column keys).build registry = .ok built)
      (deferred : site ∈ sites built.plan) (inner : LoadFault registry dialect site.load e) :
      LoadFault registry dialect load e

/-- What can go wrong with the loading of what a plan defers. -/
def Projection.LoadFault (registry : Registry) (dialect : Dialect) (plan : Projection) (e : QueryError) :
    Prop :=
  ∃ site ∈ sites plan, RelQuery.LoadFault registry dialect site.load e

/-- The tables of a load are registered. -/
structure LazyLoad.Registered (load : LazyLoad) (registry : Registry) : Prop where
  target : ∃ table, registry.table load.target = .ok table
  pivot : ∀ name sourceColumn targetColumn targetKey,
    load.link = .pivot name sourceColumn targetColumn targetKey → ∃ table, registry.table name = .ok table

theorem LazyLoad.registered_of_describe {registry : Registry} {source : Table} {name described : String}
    {relation : Relation} {keys : RelationKeys} {request : Include} {load : LazyLoad}
    (found : registry.relation source name = .ok (relation, keys))
    (loads : LazyLoad.describe relation keys request described = .ok load) : load.Registered registry := by
  obtain ⟨target, pivot⟩ := Registry.table_of_relation found
  rcases LazyLoad.describe_cases loads with
    ⟨_, _, _, rfl, rfl⟩ | ⟨middle, _, _, _, _, _, rfl, rfl⟩
  · exact ⟨⟨_, target⟩, by simp⟩
  · refine ⟨⟨_, target⟩, ?_⟩
    rintro _ _ _ _ ⟨⟩
    exact ⟨middle, pivot middle _ _ _ rfl⟩

theorem Plans.registered {registry : Registry} {table : Table} {requests : List Include} {plan : Projection}
    (plans : Plans registry table requests plan) :
    ∀ site ∈ sites plan, site.load.Registered registry := by
  intro site member
  obtain ⟨deferral, described, defers, loads⟩ := plans.defers site member
  exact LazyLoad.registered_of_describe defers.found loads

section

variable {registry : Registry} {executor : Executor σ}

/-- Executing a selection is logged, and so is what follows. -/
theorem execute_bind_recorded {fault : QueryError → Prop} {selection : Selection}
    {next : Output → SessionM σ α} {next' : Output → SessionM (σ × List Exchange) α}
    (unbuilt : ∀ e, selection.build registry = .error e → fault e)
    (uncompiled : ∀ built e, selection.build registry = .ok built →
      built.query.compile executor.dialect = .error e → fault e)
    (recorded : ∀ built, selection.build registry = .ok built → ∀ rows,
      SessionM.Recorded fault (next ⟨built.plan, rows⟩) (next' ⟨built.plan, rows⟩)) :
    SessionM.Recorded fault (selection.execute registry executor >>= next)
      (selection.execute registry executor.recorded >>= next') := by
  rw [Selection.execute, Selection.execute]
  cases build : selection.build registry with
  | error e =>
      change SessionM.Recorded fault (SessionM.ofExcept (.error e)) (SessionM.ofExcept (.error e))
      refine SessionM.Recorded.ofExcept ?_
      rintro _ ⟨⟩
      exact unbuilt e build
  | ok built =>
      simp only [SessionM.ofExcept_ok, bind_assoc, pure_bind]
      refine (SessionM.Recorded.ofExcept (uncompiled built · build)).bind fun statement => ?_
      exact (SessionM.Recorded.run executor statement).bind fun rows => recorded built build _

variable {loadAll : Output → SessionM σ Output} {loadAll' : Output → SessionM (σ × List Exchange) Output}
  {load : LazyLoad} (registered : load.Registered registry)
  (recorded : ∀ output, (∀ site ∈ sites output.plan, site.load.Registered registry) →
    SessionM.Recorded (output.plan.LoadFault registry executor.dialect)
      (loadAll output) (loadAll' output))

include registered recorded

/-- Loading the targets of keys is logged, -/
theorem loadTargets_recorded (keys : List Json) :
    SessionM.Recorded (LoadFault registry executor.dialect load)
      (loadTargets registry executor loadAll load load.link.column keys)
      (loadTargets registry executor.recorded loadAll' load load.link.column keys) := by
  obtain ⟨target, known⟩ := registered.target
  rw [loadTargets, loadTargets, known, SessionM.ofExcept_ok, SessionM.ofExcept_ok, pure_bind, pure_bind]
  refine execute_bind_recorded (fun e fails => .build known fails)
    (fun built e build fails => .compile known build fails) fun built build rows => ?_
  have below := recorded ⟨built.plan, rows⟩ (Selection.plans_of_build build).registered
  refine (below.mono ?_).bind fun output => .pure _
  rintro e ⟨site, deferred, inner⟩
  exact .deeper known build deferred inner

/-- and so is fetching the groups of a deferred relation. -/
theorem fetch_recorded (keys : List Json) :
    SessionM.Recorded (LoadFault registry executor.dialect load)
      (fetch registry executor loadAll load keys) (fetch registry executor.recorded loadAll' load keys) := by
  have targets := loadTargets_recorded registered recorded
  rw [fetch, fetch]
  split
  · exact .pure []
  · cases link : load.link with
    | direct targetColumn =>
        rw [link] at targets
        exact (targets keys).bind fun rows => .pure _
    | pivot name sourceColumn targetColumn targetKey =>
        rw [link] at targets
        obtain ⟨pivot, known⟩ := registered.pivot _ _ _ _ link
        simp only [known, SessionM.ofExcept_ok, pure_bind]
        refine (SessionM.Recorded.ofExcept fun e fails => .links link known fails).bind fun statement => ?_
        refine (SessionM.Recorded.run executor statement).bind fun links => ?_
        split
        · exact .pure []
        · exact (targets _).bind fun rows => .pure _

end

/-- Loading in rounds is logged. -/
theorem loadRounds_recorded {registry : Registry} {executor : Executor σ} (fuel : Nat) (output : Output)
    (registered : ∀ site ∈ sites output.plan, site.load.Registered registry) :
    SessionM.Recorded (output.plan.LoadFault registry executor.dialect)
      (loadRounds registry executor fuel output) (loadRounds registry executor.recorded fuel output) := by
  induction fuel generalizing output with
  | zero => exact .pure output
  | succ fuel ih =>
      rw [loadRounds, loadRounds]
      refine (SessionM.Recorded.mapM fun site member => ?_).bind fun batches => .pure _
      have fetched := fetch_recorded (registered site member) ih (pendingKeys output.rows site)
      exact (fetched.mono fun e faulty => ⟨site, member, faulty⟩).bind fun groups => .pure _

/-- Loading all that is deferred is logged. -/
theorem loadAll_recorded {registry : Registry} (executor : Executor σ) (output : Output)
    (registered : ∀ site ∈ sites output.plan, site.load.Registered registry) :
    SessionM.Recorded (output.plan.LoadFault registry executor.dialect)
      (output.loadAll registry executor) (output.loadAll registry executor.recorded) :=
  loadRounds_recorded _ output registered

end RelQuery
