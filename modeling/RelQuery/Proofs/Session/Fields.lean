/-
Module: RelQuery.Proofs.Session.Fields
Purpose: The field of one relation in an object that depicts a row: where it stands, what it shows, and
  that whatever else shows the same rows can be put in its place.
Main exports: ShowsDeferred, ShowsJoined, depictsRelations_deferred, depictsRelations_joined,
  DepictsRelations.deferred_field, DepictsRelations.joined_field
-/
import RelQuery.Proofs.Json.Members
import RelQuery.Proofs.Plan.Depicts
import RelQuery.Session.Lazy

namespace RelQuery

open Sql
open Json (Members)

variable {V : Type}

/-! ### Members of an object -/

section

variable {before after : Members} {name : String} {value : Json}

theorem objectsOfMember_middle (fresh : name ∉ before.map Prod.fst) (path : List String) :
    objectsOfMember name path (before ++ (name, value) :: after) = objectsAt path value := by
  induction before with
  | nil => simp [objectsOfMember]
  | cons field before ih =>
      simp only [List.map_cons, List.mem_cons, not_or] at fresh
      rw [List.cons_append, objectsOfMember, if_neg (Ne.symm fresh.1), ih fresh.2]

theorem changeMember_middle (fresh : name ∉ before.map Prod.fst) (change : Members → Members)
    (path : List String) :
    changeMember change name path (before ++ (name, value) :: after) =
      before ++ (name, changeObjectsAt change path value) :: after := by
  induction before with
  | nil => simp [changeMember]
  | cons field before ih =>
      simp only [List.map_cons, List.mem_cons, not_or] at fresh
      rw [List.cons_append, changeMember, if_neg (Ne.symm fresh.1), ih fresh.2, List.cons_append]

end

theorem objectsOfItems_eq (path : List String) (items : List Json) :
    objectsOfItems path items = items.flatMap (objectsAt path) := by
  induction items with
  | nil => rfl
  | cons item items ih => rw [objectsOfItems, ih, List.flatMap_cons]

theorem changeItems_eq (change : Members → Members) (path : List String) (items : List Json) :
    changeItems change path items = items.map (changeObjectsAt change path) := by
  induction items with
  | nil => rfl
  | cons item items ih => rw [changeItems, ih, List.map_cons]

/-! ### Fields of relations -/

section

variable (db : Database V) (render : Rendering db.engine) (registry : Registry)

/-- What stands in the field of a deferred relation: a placeholder, or the rows once they are loaded. -/
def ShowsDeferred (request : Include) (relation : Relation) (keys : RelationKeys) (pending : Bool)
    (row : Record V) (value : Json) : Prop :=
  if pending then
    ∃ column, keys.parentColumn? = some column ∧
      StandsFor relation.kind (render.toJson (db.engine.read row column)) value
  else
    ShowsRows relation.kind (attachedRows db registry keys request.filter row)
      (Depicts db render registry keys.target (requestedColumns keys true request.columns) request.includes
        fun _ => false) value

/-- What stands in the field of a joined relation. -/
def ShowsJoined (request : Include) (relation : Relation) (keys : RelationKeys)
    (pending : List String → Bool) (row : Record V) (value : Json) : Prop :=
  ShowsRows relation.kind (attachedRows db registry keys request.filter row)
    (Depicts db render registry keys.target request.columns request.includes pending) value

end

section

variable {db : Database V} {render : Rendering db.engine} {registry : Registry} {table : Table}
  {request : Include} {requests : List Include} {relation : Relation} {keys : RelationKeys}
  {pending : List String → Bool} {row : Record V} {deferred joined : Members}

theorem depictsRelations_nil :
    DepictsRelations db render registry [] table pending row deferred joined ↔
      deferred = [] ∧ joined = [] := by
  rw [DepictsRelations]

/-- A deferred relation stands first among the deferred ones. -/
theorem depictsRelations_deferred
    (found : registry.relation table request.relation = .ok (relation, keys))
    (lazy : request.isLazy relation = true) :
    DepictsRelations db render registry (request :: requests) table pending row deferred joined ↔
      ∃ value others, ShowsDeferred db render registry request relation keys (pending [request.relation]) row
          value ∧
        deferred = (request.relation, value) :: others ∧
        DepictsRelations db render registry requests table pending row others joined := by
  obtain ⟨name, columns, filter, mark, includes⟩ := request
  rw [DepictsRelations]
  constructor
  · rintro ⟨relation', keys', value, found', shows, placed⟩
    obtain ⟨rfl, rfl⟩ := Registry.relation_unique found (Registry.relation_eq_ok_iff.2 found')
    simp only [lazy, Bool.true_and, Bool.not_true, Bool.false_and, if_true] at shows placed
    obtain ⟨others, rfl, rest⟩ := placed
    exact ⟨value, others, shows, rfl, rest⟩
  · rintro ⟨value, others, shows, rfl, rest⟩
    refine ⟨relation, keys, value, Registry.relation_eq_ok_iff.1 found, ?_⟩
    simp only [lazy, Bool.true_and, Bool.not_true, Bool.false_and, if_true]
    exact ⟨shows, others, rfl, rest⟩

/-- A joined relation stands first among the joined ones. -/
theorem depictsRelations_joined
    (found : registry.relation table request.relation = .ok (relation, keys))
    (eager : request.isLazy relation = false) :
    DepictsRelations db render registry (request :: requests) table pending row deferred joined ↔
      ∃ value others, ShowsJoined db render registry request relation keys
          (fun path => pending (request.relation :: path)) row value ∧
        joined = (request.relation, value) :: others ∧
        DepictsRelations db render registry requests table pending row deferred others := by
  obtain ⟨name, columns, filter, mark, includes⟩ := request
  have asked : requestedColumns keys false columns = columns := by
    unfold requestedColumns
    split
    · contradiction
    · rfl
  rw [DepictsRelations]
  constructor
  · rintro ⟨relation', keys', value, found', shows, placed⟩
    obtain ⟨rfl, rfl⟩ := Registry.relation_unique found (Registry.relation_eq_ok_iff.2 found')
    simp only [eager, Bool.false_and, Bool.not_false, Bool.true_and, Bool.false_eq_true, if_false, asked]
      at shows placed
    obtain ⟨others, rfl, rest⟩ := placed
    exact ⟨value, others, shows, rfl, rest⟩
  · rintro ⟨value, others, shows, rfl, rest⟩
    refine ⟨relation, keys, value, Registry.relation_eq_ok_iff.1 found, ?_⟩
    simp only [eager, Bool.false_and, Bool.not_false, Bool.true_and, Bool.false_eq_true, if_false, asked]
    exact ⟨shows, others, rfl, rest⟩

theorem exists_relation_of_depictsRelations
    (depicts : DepictsRelations db render registry (request :: requests) table pending row deferred joined) :
    ∃ relation keys, registry.relation table request.relation = .ok (relation, keys) := by
  obtain ⟨name, columns, filter, mark, includes⟩ := request
  rw [DepictsRelations] at depicts
  obtain ⟨relation, keys, -, found, -⟩ := depicts
  exact ⟨relation, keys, Registry.relation_eq_ok_iff.2 found⟩

/-- The fields of relations bear the names of requests. -/
theorem names_of_depictsRelations
    (depicts : DepictsRelations db render registry requests table pending row deferred joined) :
    deferred.map Prod.fst ++ joined.map Prod.fst ⊆ requests.map Include.relation := by
  induction requests generalizing deferred joined with
  | nil =>
      obtain ⟨rfl, rfl⟩ := depictsRelations_nil.1 depicts
      exact List.Subset.refl _
  | cons request requests ih =>
      obtain ⟨relation, keys, found⟩ := exists_relation_of_depictsRelations depicts
      cases lazy : request.isLazy relation with
      | true =>
          obtain ⟨value, others, -, rfl, rest⟩ := (depictsRelations_deferred found lazy).1 depicts
          rw [List.map_cons, List.map_cons, List.cons_append]
          exact List.cons_subset_cons _ (ih rest)
      | false =>
          obtain ⟨value, others, -, rfl, rest⟩ := (depictsRelations_joined found lazy).1 depicts
          rw [List.map_cons, List.map_cons]
          refine List.Subset.trans List.perm_middle.subset ?_
          exact List.cons_subset_cons _ (ih rest)

/-- Only what is pending below the requests matters. -/
theorem DepictsRelations.congr_pending {pending' : List String → Bool}
    (same : ∀ request ∈ requests, ∀ path,
      pending' (request.relation :: path) = pending (request.relation :: path))
    (depicts : DepictsRelations db render registry requests table pending row deferred joined) :
    DepictsRelations db render registry requests table pending' row deferred joined := by
  induction requests generalizing deferred joined with
  | nil => exact depictsRelations_nil.2 (depictsRelations_nil.1 depicts)
  | cons request requests ih =>
      obtain ⟨first, others⟩ := List.forall_mem_cons.1 same
      obtain ⟨relation, keys, found⟩ := exists_relation_of_depictsRelations depicts
      cases lazy : request.isLazy relation with
      | true =>
          obtain ⟨value, fields, shows, rfl, rest⟩ := (depictsRelations_deferred found lazy).1 depicts
          rw [← first []] at shows
          exact (depictsRelations_deferred found lazy).2 ⟨value, fields, shows, rfl, ih others rest⟩
      | false =>
          obtain ⟨value, fields, shows, rfl, rest⟩ := (depictsRelations_joined found lazy).1 depicts
          rw [← funext first] at shows
          exact (depictsRelations_joined found lazy).2 ⟨value, fields, shows, rfl, ih others rest⟩

/-- The field of a deferred relation, and what may stand in its place. -/
theorem DepictsRelations.deferred_field (distinct : (requests.map Include.relation).Nodup)
    (requested : request ∈ requests)
    (found : registry.relation table request.relation = .ok (relation, keys))
    (lazy : request.isLazy relation = true)
    (depicts : DepictsRelations db render registry requests table pending row deferred joined) :
    ∃ before value after, deferred = before ++ (request.relation, value) :: after ∧
      request.relation ∉ before.map Prod.fst ∧
      ShowsDeferred db render registry request relation keys (pending [request.relation]) row value ∧
      ∀ (pending' : List String → Bool) (value' : Json),
        (∀ other ∈ requests, other.relation ≠ request.relation → ∀ path,
          pending' (other.relation :: path) = pending (other.relation :: path)) →
        ShowsDeferred db render registry request relation keys (pending' [request.relation]) row value' →
        DepictsRelations db render registry requests table pending' row
          (before ++ (request.relation, value') :: after) joined := by
  induction requests generalizing deferred joined with
  | nil => simp at requested
  | cons first requests ih =>
      obtain ⟨fresh, distinct⟩ := List.nodup_cons.1 distinct
      rcases List.mem_cons.1 requested with rfl | later
      · obtain ⟨value, others, shows, rfl, rest⟩ := (depictsRelations_deferred found lazy).1 depicts
        refine ⟨[], value, others, rfl, by simp, shows, fun pending' value' same shows' => ?_⟩
        refine (depictsRelations_deferred found lazy).2 ⟨value', others, shows', rfl, ?_⟩
        refine rest.congr_pending fun other member => same other (List.mem_cons_of_mem _ member) ?_
        rintro clash
        exact fresh (clash ▸ List.mem_map_of_mem member)
      · have apart : first.relation ≠ request.relation := fun clash =>
          fresh (clash ▸ List.mem_map_of_mem later)
        obtain ⟨firstRelation, firstKeys, firstFound⟩ := exists_relation_of_depictsRelations depicts
        cases firstLazy : first.isLazy firstRelation with
        | true =>
            obtain ⟨held, others, firstShows, rfl, rest⟩ :=
              (depictsRelations_deferred firstFound firstLazy).1 depicts
            obtain ⟨before, value, after, rfl, new, shows, replace⟩ := ih distinct later rest
            refine ⟨(first.relation, held) :: before, value, after, rfl, ?_, shows,
              fun pending' value' same shows' => ?_⟩
            · simpa using ⟨apart.symm, by simpa using new⟩
            · refine (depictsRelations_deferred firstFound firstLazy).2 ⟨held, _, ?_, rfl, replace _ _
                (fun other member => same other (List.mem_cons_of_mem _ member)) shows'⟩
              rwa [same first List.mem_cons_self apart []]
        | false =>
            obtain ⟨held, others, firstShows, rfl, rest⟩ :=
              (depictsRelations_joined firstFound firstLazy).1 depicts
            obtain ⟨before, value, after, rfl, new, shows, replace⟩ := ih distinct later rest
            refine ⟨before, value, after, rfl, new, shows, fun pending' value' same shows' => ?_⟩
            refine (depictsRelations_joined firstFound firstLazy).2 ⟨held, others, ?_, rfl, replace _ _
              (fun other member => same other (List.mem_cons_of_mem _ member)) shows'⟩
            rwa [funext (same first List.mem_cons_self apart)]

/-- The field of a joined relation, and what may stand in its place. -/
theorem DepictsRelations.joined_field (distinct : (requests.map Include.relation).Nodup)
    (requested : request ∈ requests)
    (found : registry.relation table request.relation = .ok (relation, keys))
    (eager : request.isLazy relation = false)
    (depicts : DepictsRelations db render registry requests table pending row deferred joined) :
    ∃ before value after, joined = before ++ (request.relation, value) :: after ∧
      request.relation ∉ deferred.map Prod.fst ++ before.map Prod.fst ∧
      ShowsJoined db render registry request relation keys (fun path => pending (request.relation :: path)) row
        value ∧
      ∀ (pending' : List String → Bool) (value' : Json),
        (∀ other ∈ requests, other.relation ≠ request.relation → ∀ path,
          pending' (other.relation :: path) = pending (other.relation :: path)) →
        ShowsJoined db render registry request relation keys
          (fun path => pending' (request.relation :: path)) row value' →
        DepictsRelations db render registry requests table pending' row deferred
          (before ++ (request.relation, value') :: after) := by
  induction requests generalizing deferred joined with
  | nil => simp at requested
  | cons first requests ih =>
      obtain ⟨fresh, distinct⟩ := List.nodup_cons.1 distinct
      rcases List.mem_cons.1 requested with rfl | later
      · obtain ⟨value, others, shows, rfl, rest⟩ := (depictsRelations_joined found eager).1 depicts
        refine ⟨[], value, others, rfl, ?_, shows, fun pending' value' same shows' => ?_⟩
        · rw [List.map_nil, List.append_nil]
          exact fun old => fresh (names_of_depictsRelations rest (List.mem_append_left _ old))
        · refine (depictsRelations_joined found eager).2 ⟨value', others, shows', rfl, ?_⟩
          refine rest.congr_pending fun other member => same other (List.mem_cons_of_mem _ member) ?_
          rintro clash
          exact fresh (clash ▸ List.mem_map_of_mem member)
      · have apart : first.relation ≠ request.relation := fun clash =>
          fresh (clash ▸ List.mem_map_of_mem later)
        obtain ⟨firstRelation, firstKeys, firstFound⟩ := exists_relation_of_depictsRelations depicts
        cases firstLazy : first.isLazy firstRelation with
        | true =>
            obtain ⟨held, others, firstShows, rfl, rest⟩ :=
              (depictsRelations_deferred firstFound firstLazy).1 depicts
            obtain ⟨before, value, after, rfl, new, shows, replace⟩ := ih distinct later rest
            refine ⟨before, value, after, rfl, ?_, shows, fun pending' value' same shows' => ?_⟩
            · simpa using ⟨apart.symm, by simpa using new⟩
            · refine (depictsRelations_deferred firstFound firstLazy).2 ⟨held, _, ?_, rfl, replace _ _
                (fun other member => same other (List.mem_cons_of_mem _ member)) shows'⟩
              rwa [same first List.mem_cons_self apart []]
        | false =>
            obtain ⟨held, others, firstShows, rfl, rest⟩ :=
              (depictsRelations_joined firstFound firstLazy).1 depicts
            obtain ⟨before, value, after, rfl, new, shows, replace⟩ := ih distinct later rest
            refine ⟨(first.relation, held) :: before, value, after, rfl, ?_, shows,
              fun pending' value' same shows' => ?_⟩
            · simpa [apart.symm] using new
            · refine (depictsRelations_joined firstFound firstLazy).2 ⟨held, _, ?_, rfl, replace _ _
                (fun other member => same other (List.mem_cons_of_mem _ member)) shows'⟩
              rwa [funext (same first List.mem_cons_self apart)]

end

end RelQuery
