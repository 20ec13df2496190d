/-
Module: RelQuery.Proofs.Session.Asked
Purpose: Which statements the loading of deferred relations issues. For each site of a plan there is one batch:
  nothing without pending keys; else one statement whose first condition lists the keys, each once and in the
  order in which they were seen, and behind a pivot table one more for the targets. What is deferred below
  the targets is loaded in the same way, for all of them at once.
Main exports: Site.pending, firstSeen, Query.Lists, Loading, Issues, SessionM.Logs, loadAll_issues
-/
import RelQuery.Proofs.Session.Recorded

namespace RelQuery

open Sql

variable {σ α β : Type}

/-! ### Keys -/

/-- The keys of the placeholders at a site, object by object. -/
def Site.pending (site : Site) (rows : List Json) : List Json :=
  (objectsOfItems site.path rows).filterMap (pendingKey? site.load.relation)

/-- The keys without those whose text occurred before. -/
def firstSeen (keys : List Json) : List Json := keys.eraseDupsBy fun key other => key.text == other.text

/-- Batches keep keys as first seen. -/
theorem distinctKeys_eq (keys : List Json) : distinctKeys keys = firstSeen keys := by
  have general : ∀ keys known : List Json, keys.foldl addKey known =
      List.eraseDupsBy.loop (fun key other => key.text == other.text) keys known.reverse := by
    intro keys
    induction keys with
    | nil => simp [List.eraseDupsBy.loop]
    | cons key keys ih =>
        intro known
        have same : (known.reverse.any fun other => key.text == other.text) =
            known.any fun other => other.text == key.text := by
          rw [List.any_reverse]
          congr 1
          funext other
          exact Bool.beq_comm
        rw [List.foldl_cons, ih, List.eraseDupsBy.loop, same, addKey]
        cases known.any fun other => other.text == key.text <;> simp
  exact general keys []

/-- The batch of a site consists of the keys that are pending there, as first seen. -/
theorem pendingKeys_eq (rows : List Json) (site : Site) :
    pendingKeys rows site = firstSeen (site.pending rows) :=
  distinctKeys_eq _

/-- Keys as first seen have different texts, and each text is among them. -/
theorem texts_firstSeen (keys : List Json) :
    ((firstSeen keys).map Json.text).Nodup ∧
      ∀ text, text ∈ (firstSeen keys).map Json.text ↔ text ∈ keys.map Json.text := by
  rw [← distinctKeys_eq]
  refine ⟨nodup_texts_distinctKeys keys, ?_⟩
  intro text
  simp only [List.mem_map]
  exact mem_texts_distinctKeys

/-- Whether the JSON value is neither an array nor an object. -/
def Json.isScalar : Json → Bool
  | .array _ => false
  | .object _ => false
  | _ => true

/-- Each scalar key becomes one literal. -/
theorem forall₂_keyLiterals (keys : List Json) :
    List.Forall₂ (fun key literal => Literal.ofJson? key = some literal) (keys.filter Json.isScalar)
      (keyLiterals keys) := by
  induction keys with
  | nil => exact .nil
  | cons key keys ih =>
      cases key with
      | array items => exact ih
      | object members => exact ih
      | _ => exact .cons rfl ih

/-! ### Statements -/

/-- The first one of the conditions that an expression demands. -/
def Sql.Expr.firstConjunct : Expr → Expr
  | .binary .and left _ => left.firstConjunct
  | e => e

/-- The first condition of the query demands that a column holds one of the keys, which are listed as they
    are: each scalar key once, in order. -/
def Sql.Query.Lists (query : Query) (column : String) (keys : List Json) : Prop :=
  ∃ label condition literals, query.condition = some condition ∧
    condition.firstConjunct = .inList (Expr.of label column) (literals.map .param) false ∧
    List.Forall₂ (fun key literal => Literal.ofJson? key = some literal) (keys.filter Json.isScalar) literals

theorem pivotQuery_lists (pivot : Table) (sourceColumn targetColumn : String) (keys : List Json) :
    (pivotQuery pivot sourceColumn targetColumn keys).Lists sourceColumn keys :=
  ⟨pivot.name, _, keyLiterals keys, rfl, rfl, forall₂_keyLiterals keys⟩

theorem firstConjunct_foldl_and (e : Expr) (es : List Expr) :
    (es.foldl Expr.and e).firstConjunct = e.firstConjunct := by
  induction es generalizing e with
  | nil => rfl
  | cons f es ih => exact ih (e.and f)

/-- Further filters leave the first condition of a query as it is. -/
theorem firstConjunct_addFilters {registry : Registry} {table : Table} {label : String} {filters : List Filter}
    {query narrowed : Query} {names names' : Names} {condition : Expr}
    (demanded : query.condition = some condition)
    (added : addFilters registry table label query names filters = .ok (narrowed, names')) :
    ∃ condition', narrowed.condition = some condition' ∧
      condition'.firstConjunct = condition.firstConjunct := by
  obtain ⟨predicates, joins, -, rfl⟩ := addFilters_emits added
  refine ⟨predicates.foldl Expr.and condition, ?_, firstConjunct_foldl_and condition predicates⟩
  simp [demanded, Expr.conjunction?]

/-- The selection of the targets of keys demands first that their column holds one of the keys. -/
theorem targetSelection_lists {registry : Registry} {target : Table} {load : LazyLoad} {column : String}
    {keys : List Json} {built : BuiltQuery}
    (build : (targetSelection target load column keys).build registry = .ok built) :
    built.query.Lists column keys := by
  obtain ⟨assembly, items, assembled, -, -, unpaged, -⟩ := Selection.build_eq_ok build
  simp only [Selection.assemble, Except.bind_eq_ok, pure, Except.pure, Except.ok.injEq, Prod.exists]
    at assembled
  obtain ⟨resolution, -, query, names, filtered, rfl⟩ := assembled
  simp only [targetSelection, addFilters, Except.bind_eq_ok, Filter.translate, Filter.lower] at filtered
  obtain ⟨translation, translated, rest⟩ := filtered
  split at translated
  · obtain rfl := Except.ok.inj translated
    obtain ⟨condition, demanded, first⟩ := firstConjunct_addFilters rfl rest
    refine ⟨_, condition, keyLiterals keys, ?_, first, forall₂_keyLiterals keys⟩
    rw [unpaged rfl]
    exact demanded
  · contradiction

/-! ### Logs -/

/-- However the run of a computation ends, the exchanges that it logs are as described. The flag says whether
    it ends without failure. -/
def SessionM.Logs (described : List Exchange → Bool → Prop) (x : SessionM (σ × List Exchange) α) : Prop :=
  ∀ state log, ∃ outcome after more,
    x.run.run (state, log) = (outcome, after, log ++ more) ∧ described more outcome.isOk

namespace SessionM.Logs

variable {described : List Exchange → Bool → Prop}

theorem pure {a : α} (nothing : described [] true) :
    Logs (σ := σ) described (Pure.pure a : SessionM (σ × List Exchange) α) := by
  intro state log
  exact ⟨.ok a, state, [], by rw [List.append_nil]; rfl, nothing⟩

theorem bind {first : List Exchange → Bool → Prop} {next : α → List Exchange → Bool → Prop}
    {x : SessionM (σ × List Exchange) α} {f : α → SessionM (σ × List Exchange) β} (logs : Logs first x)
    (logsNext : ∀ a, Logs (next a) (f a)) (stops : ∀ log, first log false → described log false)
    (goesOn : ∀ log a more ended, first log true → next a more ended → described (log ++ more) ended) :
    Logs described (x >>= f) := by
  intro state log
  obtain ⟨outcome, between, more, run, holds⟩ := logs state log
  rw [ExceptT.run_bind, StateT.run_bind, run]
  cases outcome with
  | error e => exact ⟨.error e, between, more, rfl, stops more holds⟩
  | ok a =>
      obtain ⟨outcome, after, further, runNext, holdsNext⟩ := logsNext a between (log ++ more)
      refine ⟨outcome, after, more ++ further, ?_, goesOn more a further _ holds holdsNext⟩
      rw [← List.append_assoc]
      exact runNext

theorem mono {described' : List Exchange → Bool → Prop} {x : SessionM (σ × List Exchange) α}
    (logs : Logs described x) (weaker : ∀ log ended, described log ended → described' log ended) :
    Logs described' x := by
  intro state log
  obtain ⟨outcome, after, more, run, holds⟩ := logs state log
  exact ⟨outcome, after, more, run, weaker more _ holds⟩

/-- What is made of the result does not matter. -/
theorem bind_pure {x : SessionM (σ × List Exchange) α} {f : α → β} (logs : Logs described x) :
    Logs described (x >>= fun a => Pure.pure (f a)) := by
  have nothing : ∀ a, Logs (σ := σ) (fun log ended => log = [] ∧ ended = true) (Pure.pure (f a)) :=
    fun a => .pure ⟨rfl, rfl⟩
  apply logs.bind nothing
  · exact fun log stopped => stopped
  · rintro log a _ _ complete ⟨rfl, rfl⟩
    rwa [List.append_nil]

/-- Without the database nothing is logged. -/
theorem ofExcept_bind {result : Except QueryError α} {f : α → SessionM (σ × List Exchange) β}
    (fails : described [] false) (next : ∀ a, result = .ok a → Logs described (f a)) :
    Logs described (SessionM.ofExcept result >>= f) := by
  cases result with
  | ok a => exact next a rfl
  | error e =>
      intro state log
      exact ⟨.error e, state, [], by rw [List.append_nil]; rfl, fails⟩

/-- A statement is logged with its answer, before anything that follows. -/
theorem run_bind {executor : Executor σ} {statement : Statement}
    {f : List Row → SessionM (σ × List Exchange) β}
    (fails : ∀ error, described [⟨statement, .error error⟩] false)
    (next : ∀ rows, Logs (fun more ended => described (⟨statement, .ok rows⟩ :: more) ended) (f rows)) :
    Logs described (executor.recorded.run statement >>= f) := by
  intro state log
  rcases answered : executor.execute statement state with ⟨answer, between⟩
  rw [ExceptT.run_bind, StateT.run_bind]
  simp only [Executor.run, Executor.recorded, SessionM.ask, ExceptT.run_mk, StateT.run, answered]
  cases answer with
  | error e => exact ⟨.error (.executor e), between, _, rfl, fails e⟩
  | ok rows =>
      obtain ⟨outcome, after, more, run, holds⟩ := next rows between (log ++ [⟨statement, .ok rows⟩])
      refine ⟨outcome, after, ⟨statement, .ok rows⟩ :: more, ?_, holds⟩
      rw [List.append_cons log _ more]
      exact run

end SessionM.Logs

/-! ### Loading -/

/-- What is loaded: the sites of some rows, one relation for some keys, or the targets whose column holds one of
    the keys. -/
inductive Loading where
  | sites (all : List Site) (rows : List Json)
  | relation (load : LazyLoad) (keys : List Json)
  | targets (load : LazyLoad) (column : String) (keys : List Json)

/-- The exchanges that a loading logs, and whether it ends without failure. The keys of a relation are all that
    are pending at its site, as first seen. -/
inductive Issues (registry : Registry) (dialect : Dialect) : Loading → List Exchange → Bool → Prop
  | noSites {rows : List Json} : Issues registry dialect (.sites [] rows) [] true
  | sites {site : Site} {all : List Site} {rows : List Json} {first others : List Exchange} {ended : Bool}
      (here : Issues registry dialect (.relation site.load (firstSeen (site.pending rows))) first true)
      (rest : Issues registry dialect (.sites all rows) others ended) :
      Issues registry dialect (.sites (site :: all) rows) (first ++ others) ended
  | stopped {site : Site} {all : List Site} {rows : List Json} {first : List Exchange}
      (here : Issues registry dialect (.relation site.load (firstSeen (site.pending rows))) first false) :
      Issues registry dialect (.sites (site :: all) rows) first false
  | noKeys {load : LazyLoad} : Issues registry dialect (.relation load []) [] true
  | direct {load : LazyLoad} {keys : List Json} {column : String} {log : List Exchange} {ended : Bool}
      (asked : keys ≠ []) (link : load.link = .direct column)
      (targets : Issues registry dialect (.targets load column keys) log ended) :
      Issues registry dialect (.relation load keys) log ended
  | noLinks {load : LazyLoad} {keys : List Json} {name sourceColumn targetColumn targetKey : String}
      {query : Query} {statement : Statement} {links : List Row} (asked : keys ≠ [])
      (link : load.link = .pivot name sourceColumn targetColumn targetKey)
      (lists : query.Lists sourceColumn keys) (compiled : query.compile dialect = .ok statement)
      (none : childKeys links = []) :
      Issues registry dialect (.relation load keys) [⟨statement, .ok links⟩] true
  | pivot {load : LazyLoad} {keys : List Json} {name sourceColumn targetColumn targetKey : String}
      {query : Query} {statement : Statement} {links : List Row} {log : List Exchange} {ended : Bool}
      (asked : keys ≠ []) (link : load.link = .pivot name sourceColumn targetColumn targetKey)
      (lists : query.Lists sourceColumn keys) (compiled : query.compile dialect = .ok statement)
      (some : childKeys links ≠ [])
      (targets : Issues registry dialect (.targets load targetKey (childKeys links)) log ended) :
      Issues registry dialect (.relation load keys) (⟨statement, .ok links⟩ :: log) ended
  | linksFail {load : LazyLoad} {keys : List Json} {name sourceColumn targetColumn targetKey : String}
      {query : Query} {statement : Statement} {error : ExecutorError} (asked : keys ≠ [])
      (link : load.link = .pivot name sourceColumn targetColumn targetKey)
      (lists : query.Lists sourceColumn keys) (compiled : query.compile dialect = .ok statement) :
      Issues registry dialect (.relation load keys) [⟨statement, .error error⟩] false
  | linksUnmade {load : LazyLoad} {keys : List Json} {name sourceColumn targetColumn targetKey : String}
      (asked : keys ≠ []) (link : load.link = .pivot name sourceColumn targetColumn targetKey) :
      Issues registry dialect (.relation load keys) [] false
  | targets {load : LazyLoad} {keys : List Json} {column : String} {target : Table} {built : BuiltQuery}
      {statement : Statement} {rows : List Row} {log : List Exchange} {ended : Bool}
      (known : registry.table load.target = .ok target)
      (build : (targetSelection target load column keys).build registry = .ok built)
      (lists : built.query.Lists column keys) (compiled : built.query.compile dialect = .ok statement)
      (below : Issues registry dialect (.sites (sites built.plan) (hydrate built.plan rows)) log ended) :
      Issues registry dialect (.targets load column keys) (⟨statement, .ok rows⟩ :: log) ended
  | targetsFail {load : LazyLoad} {keys : List Json} {column : String} {target : Table} {built : BuiltQuery}
      {statement : Statement} {error : ExecutorError} (known : registry.table load.target = .ok target)
      (build : (targetSelection target load column keys).build registry = .ok built)
      (lists : built.query.Lists column keys) (compiled : built.query.compile dialect = .ok statement) :
      Issues registry dialect (.targets load column keys) [⟨statement, .error error⟩] false
  | targetsUnmade {load : LazyLoad} {keys : List Json} {column : String} :
      Issues registry dialect (.targets load column keys) [] false

section

variable {registry : Registry} {executor : Executor σ}
  {loadAll : Output → SessionM (σ × List Exchange) Output} {load : LazyLoad}
  (logs : ∀ output, (∀ site ∈ sites output.plan,
      depthOfIncludes site.load.includes + 1 ≤ depthOfIncludes load.includes) →
    (loadAll output).Logs (Issues registry executor.dialect (.sites (sites output.plan) output.rows)))

include logs

/-- What the loading of targets issues, -/
theorem loadTargets_issues (column : String) (keys : List Json) :
    (loadTargets registry executor.recorded loadAll load column keys).Logs
      (Issues registry executor.dialect (.targets load column keys)) := by
  rw [loadTargets]
  apply SessionM.Logs.ofExcept_bind .targetsUnmade
  intro target known
  rw [Selection.execute, bind_assoc]
  apply SessionM.Logs.ofExcept_bind .targetsUnmade
  intro built build
  have lists := targetSelection_lists build
  rw [bind_assoc]
  apply SessionM.Logs.ofExcept_bind .targetsUnmade
  intro statement compiled
  rw [bind_assoc]
  apply SessionM.Logs.run_bind
  · intro error
    exact .targetsFail known build lists compiled
  · intro rows
    rw [pure_bind]
    apply SessionM.Logs.bind_pure
    have below := logs ⟨built.plan, hydrate built.plan rows⟩ (depth_le_of_build build)
    exact below.mono fun log ended issues => .targets known build lists compiled issues

/-- and what the fetching of a deferred relation does. -/
theorem fetch_issues (keys : List Json) :
    (fetch registry executor.recorded loadAll load keys).Logs
      (Issues registry executor.dialect (.relation load keys)) := by
  rw [fetch]
  split
  · rename_i empty
    rw [List.isEmpty_iff.1 empty]
    exact .pure .noKeys
  · rename_i filled
    have asked : keys ≠ [] := by
      rintro rfl
      exact filled rfl
    cases link : load.link with
    | direct column =>
        apply SessionM.Logs.bind_pure
        exact (loadTargets_issues logs column keys).mono fun log ended issues => .direct asked link issues
    | pivot name sourceColumn targetColumn targetKey =>
        apply SessionM.Logs.ofExcept_bind (.linksUnmade asked link)
        intro pivot known
        have lists := pivotQuery_lists pivot sourceColumn targetColumn keys
        apply SessionM.Logs.ofExcept_bind (.linksUnmade asked link)
        intro statement compiled
        apply SessionM.Logs.run_bind
        · intro error
          exact .linksFail asked link lists compiled
        · intro links
          simp only
          split
          · rename_i childless
            exact .pure (.noLinks asked link lists compiled (List.isEmpty_iff.1 childless))
          · rename_i children
            have some : childKeys links ≠ [] := fun none => children (List.isEmpty_iff.2 none)
            apply SessionM.Logs.bind_pure
            exact (loadTargets_issues logs targetKey (childKeys links)).mono
              fun log ended issues => .pivot asked link lists compiled some issues

end

/-- The sites are fetched one after the other, up to the first failure. -/
theorem fetchSites_issues {registry : Registry} {executor : Executor σ} {rows : List Json} {all : List Site}
    {fetchSite : Site → SessionM (σ × List Exchange) β}
    (each : ∀ site ∈ all, (fetchSite site).Logs
      (Issues registry executor.dialect (.relation site.load (firstSeen (site.pending rows))))) :
    (all.mapM fetchSite).Logs (Issues registry executor.dialect (.sites all rows)) := by
  induction all with
  | nil => exact .pure .noSites
  | cons site all ih =>
      obtain ⟨first, others⟩ := List.forall_mem_cons.1 each
      rw [List.mapM_cons]
      apply first.bind
      · intro result
        exact (ih others).bind_pure
      · exact fun log stopped => .stopped stopped
      · exact fun log result more ended here rest => .sites here rest

/-- What a loading issues, round by round. -/
theorem loadRounds_issues {registry : Registry} {executor : Executor σ} {fuel : Nat} {output : Output}
    (enough : ∀ site ∈ sites output.plan, depthOfIncludes site.load.includes + 1 ≤ fuel) :
    (loadRounds registry executor.recorded fuel output).Logs
      (Issues registry executor.dialect (.sites (sites output.plan) output.rows)) := by
  induction fuel generalizing output with
  | zero =>
      have none : sites output.plan = [] := List.eq_nil_iff_forall_not_mem.2 fun site member =>
        absurd (enough site member) (by omega)
      rw [none]
      exact .pure .noSites
  | succ fuel ih =>
      rw [loadRounds]
      apply SessionM.Logs.bind_pure
      apply fetchSites_issues
      intro site member
      apply SessionM.Logs.bind_pure
      rw [← pendingKeys_eq]
      apply fetch_issues
      intro inner shallow
      exact ih fun other among =>
        Nat.le_trans (shallow other among) (Nat.le_of_succ_le_succ (enough site member))

/-- What the loading of all that is deferred issues. -/
theorem loadAll_issues (registry : Registry) (executor : Executor σ) (output : Output) :
    (output.loadAll registry executor.recorded).Logs
      (Issues registry executor.dialect (.sites (sites output.plan) output.rows)) :=
  loadRounds_issues depth_le_rounds

end RelQuery
