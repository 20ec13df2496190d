/-
Module: RelQuery.Proofs.Session.Rounds
Purpose: The bound on the rounds of loading is no more than a means of termination. With any sufficient
  bound the same is loaded, so that loading may be read as the recursion that it stands for: all sites are
  fetched, where what is deferred below their targets is loaded in its turn, and then all are filled.
Main exports: Selection.execute_bind_congr, fetch_congr, loadRounds_eq, Output.loadAll_eq
-/
import RelQuery.Proofs.Session.Loaded

namespace RelQuery

variable {σ : Type} {registry : Registry} {executor : Executor σ}

theorem SessionM.ofExcept_ok {α : Type} (a : α) : SessionM.ofExcept (σ := σ) (.ok a) = pure a := rfl

/-- What is deferred in the plan of a selection is less deep than what the selection includes. -/
theorem depth_le_of_build {selection : Selection} {built : BuiltQuery}
    (build : selection.build registry = .ok built) :
    ∀ site ∈ sites built.plan,
      depthOfIncludes site.load.includes + 1 ≤ depthOfIncludes selection.includes := by
  intro site member
  obtain ⟨deferral, described, defers, loads⟩ := (Selection.plans_of_build build).defers site member
  rw [(LazyLoad.describe_fields loads).2.2.2]
  exact defers.depth_lt

/-- What follows an execution gets outputs of the plan of the selection, and no others. -/
theorem Selection.execute_bind_congr {α : Type} {selection : Selection} {next next' : Output → SessionM σ α}
    (same : ∀ built, selection.build registry = .ok built → ∀ rows,
      next ⟨built.plan, rows⟩ = next' ⟨built.plan, rows⟩) :
    selection.execute registry executor >>= next = selection.execute registry executor >>= next' := by
  rw [Selection.execute]
  cases build : selection.build registry with
  | error e => rfl
  | ok built =>
      simp only [SessionM.ofExcept_ok, bind_assoc, pure_bind]
      exact bind_congr fun statement => bind_congr fun rows => same built build _

section

variable {loadAll loadAll' : Output → SessionM σ Output} {load : LazyLoad}
  (same : ∀ output, (∀ site ∈ sites output.plan,
    depthOfIncludes site.load.includes + 1 ≤ depthOfIncludes load.includes) → loadAll output = loadAll' output)

include same

/-- Targets are loaded in the same way if what is deferred below them is, -/
theorem loadTargets_congr (column : String) (keys : List Json) :
    loadTargets registry executor loadAll load column keys =
      loadTargets registry executor loadAll' load column keys := by
  rw [loadTargets, loadTargets]
  refine bind_congr fun table => Selection.execute_bind_congr fun built build rows => ?_
  rw [same ⟨built.plan, rows⟩ (depth_le_of_build build)]

/-- and so are the groups of a deferred relation. -/
theorem fetch_congr (keys : List Json) :
    fetch registry executor loadAll load keys = fetch registry executor loadAll' load keys := by
  simp only [fetch, loadTargets_congr same]

end

theorem mapM_congr {m : Type → Type} [Monad m] [LawfulMonad m] {α β : Type} {items : List α} {f g : α → m β}
    (same : ∀ item ∈ items, f item = g item) : items.mapM f = items.mapM g := by
  induction items with
  | nil => rfl
  | cons item items ih =>
      obtain ⟨first, others⟩ := List.forall_mem_cons.1 same
      rw [List.mapM_cons, List.mapM_cons, first, ih others]

/-- Where nothing is deferred, nothing is loaded. -/
theorem loadRounds_of_sites_eq_nil {output : Output} (none : sites output.plan = []) (fuel : Nat) :
    loadRounds registry executor fuel output = pure output := by
  cases fuel with
  | zero => rfl
  | succ fuel =>
      rw [loadRounds, none, List.mapM_nil, pure_bind]
      rfl

/-- More rounds than are needed load the same. -/
theorem loadRounds_eq {fuel fuel' : Nat} {output : Output}
    (enough : ∀ site ∈ sites output.plan, depthOfIncludes site.load.includes + 1 ≤ fuel)
    (enough' : ∀ site ∈ sites output.plan, depthOfIncludes site.load.includes + 1 ≤ fuel') :
    loadRounds registry executor fuel output = loadRounds registry executor fuel' output := by
  induction fuel generalizing fuel' output with
  | zero =>
      have none : sites output.plan = [] := List.eq_nil_iff_forall_not_mem.2 fun site member =>
        absurd (enough site member) (by omega)
      rw [loadRounds_of_sites_eq_nil none, loadRounds_of_sites_eq_nil none]
  | succ fuel ih =>
      cases fuel' with
      | zero =>
          have none : sites output.plan = [] := List.eq_nil_iff_forall_not_mem.2 fun site member =>
            absurd (enough' site member) (by omega)
          rw [loadRounds_of_sites_eq_nil none, loadRounds_of_sites_eq_nil none]
      | succ fuel' =>
          rw [loadRounds, loadRounds, mapM_congr fun site member => ?_]
          have below : fetch registry executor (loadRounds registry executor fuel) site.load
              (pendingKeys output.rows site) = fetch registry executor (loadRounds registry executor fuel')
                site.load (pendingKeys output.rows site) := by
            refine fetch_congr (fun inner shallow => ih (fun other among => ?_) fun other among => ?_) _
            · exact Nat.le_trans (shallow other among) (Nat.le_of_succ_le_succ (enough site member))
            · exact Nat.le_trans (shallow other among) (Nat.le_of_succ_le_succ (enough' site member))
          rw [below]

variable (registry executor) in
/-- The groups of a site for the placeholders in some rows. -/
def fetchSite (rows : List Json) (site : Site) : SessionM σ (Site × Groups) := do
  let groups ← fetch registry executor (Output.loadAll registry executor) site.load (pendingKeys rows site)
  return (site, groups)

/-- Loading fetches the groups of all sites, where what is deferred below them is loaded in its turn, and
    fills the sites from these. -/
theorem Output.loadAll_eq (output : Output) : output.loadAll registry executor = do
    let batches ← (sites output.plan).mapM (fetchSite registry executor output.rows)
    return { output with rows := fillAll output.rows batches } := by
  have more : output.loadAll registry executor =
      loadRounds registry executor (rounds output.plan + 1) output :=
    loadRounds_eq depth_le_rounds fun site member => Nat.le_succ_of_le (depth_le_rounds site member)
  rw [more, loadRounds, mapM_congr fun site member => ?_]
  have below : fetch registry executor (loadRounds registry executor (rounds output.plan)) site.load
      (pendingKeys output.rows site) = fetch registry executor (Output.loadAll registry executor) site.load
        (pendingKeys output.rows site) := by
    refine fetch_congr (fun inner shallow => loadRounds_eq (fun other among => ?_) depth_le_rounds) _
    exact Nat.le_trans (shallow other among) (Nat.le_of_succ_le (depth_le_rounds site member))
  rw [below, fetchSite]

end RelQuery
