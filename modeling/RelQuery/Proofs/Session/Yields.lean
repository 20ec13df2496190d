/-
Module: RelQuery.Proofs.Session.Yields
Purpose: Computations of a session that succeed whatever the state of the database, and what is known of
  their results, put together along their steps.
Main exports: SessionM.Yields, SessionM.Yields.bind, SessionM.Yields.mapM
-/
import Mathlib.Data.List.Forall2
import RelQuery.Session.Executor

namespace RelQuery

variable {σ α β : Type}

/-- Whatever the state, the computation succeeds, and its result has the property. -/
def SessionM.Yields (x : SessionM σ α) (post : α → Prop) : Prop :=
  ∀ state, ∃ a state', x.run.run state = (.ok a, state') ∧ post a

namespace SessionM.Yields

theorem pure {a : α} {post : α → Prop} (holds : post a) : Yields (σ := σ) (Pure.pure a) post :=
  fun state => ⟨a, state, rfl, holds⟩

theorem mono {x : SessionM σ α} {post post' : α → Prop} (yields : x.Yields post)
    (weaker : ∀ a, post a → post' a) : x.Yields post' := by
  intro state
  obtain ⟨a, state', run, holds⟩ := yields state
  exact ⟨a, state', run, weaker a holds⟩

theorem bind {x : SessionM σ α} {f : α → SessionM σ β} {post : α → Prop} {post' : β → Prop}
    (first : x.Yields post) (next : ∀ a, post a → (f a).Yields post') : (x >>= f).Yields post' := by
  intro state
  obtain ⟨a, between, runs, holds⟩ := first state
  obtain ⟨b, state', runsNext, holdsNext⟩ := next a holds between
  refine ⟨b, state', ?_, holdsNext⟩
  rw [ExceptT.run_bind, StateT.run_bind, runs]
  exact runsNext

/-- A computation that uses no database yields its result. -/
theorem ofExcept {result : Except QueryError α} {a : α} (succeeds : result = .ok a) :
    Yields (σ := σ) (SessionM.ofExcept result) fun b => a = b :=
  fun state => ⟨a, state, by rw [succeeds]; rfl, rfl⟩

/-- A statement that is always answered with the same rows yields these. -/
theorem run {executor : Executor σ} {statement : Sql.Statement} {rows : List Row}
    (answers : ∀ state, ∃ state', executor.execute statement state = (.ok rows, state')) :
    (executor.run statement).Yields fun answer => rows = answer := by
  intro state
  obtain ⟨state', answered⟩ := answers state
  refine ⟨rows, state', ?_, rfl⟩
  simp only [Executor.run, SessionM.ask, ExceptT.run_mk, StateT.run, answered]

/-- A loop over a list relates each item to its result. -/
theorem mapM {f : α → SessionM σ β} {post : α → β → Prop} {as : List α}
    (each : ∀ a ∈ as, (f a).Yields (post a)) : (as.mapM f).Yields fun bs => List.Forall₂ post as bs := by
  induction as with
  | nil => exact .pure .nil
  | cons a as ih =>
      obtain ⟨first, others⟩ := List.forall_mem_cons.1 each
      rw [List.mapM_cons]
      exact first.bind fun b holds => (ih others).bind fun bs matched => .pure (.cons holds matched)

end SessionM.Yields

end RelQuery
