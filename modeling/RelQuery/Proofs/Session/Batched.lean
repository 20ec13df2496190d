/-
Module: RelQuery.Proofs.Session.Batched
Purpose: The sites of a plan and their batches. The keys of a batch are those of the rows that the path of
  its site leads to, and filling sites from groups for their keys leaves only the other fields pending.
Main exports: Plans, Selection.plans_of_build, mem_keys_iff, asksFor_pendingKeys, GroupsShow.of_leadsTo,
  fillAll_depicts
-/
import RelQuery.Proofs.Select.Built
import RelQuery.Proofs.Select.Pieces
import RelQuery.Proofs.Session.Fetched

namespace RelQuery

open Sql
open Json (Members)

variable {V : Type}

/-! ### What is pending -/

/-- Settling fields one by one leaves the others pending. -/
theorem foldl_settle (pending : List String → Bool) (fields : List (List String)) (path : List String) :
    fields.foldl settle pending path = (!fields.contains path && pending path) := by
  induction fields generalizing pending with
  | nil => simp
  | cons field fields ih =>
      rw [List.foldl_cons, ih, settle, List.contains_cons, bne, Bool.not_or, Bool.and_assoc,
        Bool.and_left_comm]

section

variable {db : Database V} {render : Rendering db.engine} {registry : Registry}

/-- Only the fields of deferred relations can be pending. -/
theorem DepictsRelations.congr_fields (requests : List Include) :
    ∀ {table : Table} {pending pending' : List String → Bool} {row : Record V} {deferred joined : Members},
      (∀ path deferral, DefersAt registry table requests path deferral →
        pending' (deferral.field path) = pending (deferral.field path)) →
      DepictsRelations db render registry requests table pending row deferred joined →
        DepictsRelations db render registry requests table pending' row deferred joined := by
  induction requests using Include.induction with
  | nil =>
      intro table pending pending' row deferred joined same depicts
      exact depictsRelations_nil.2 (depictsRelations_nil.1 depicts)
  | cons name columns filter lazy includes requests inner rest =>
      intro table pending pending' row deferred joined same depicts
      obtain ⟨relation, keys, found⟩ := exists_relation_of_depictsRelations depicts
      have others : ∀ path deferral, DefersAt registry table requests path deferral →
          pending' (deferral.field path) = pending (deferral.field path) :=
        fun path deferral defers => same path deferral defers.tail
      cases isLazy : Include.isLazy ⟨name, columns, filter, lazy, includes⟩ relation with
      | true =>
          obtain ⟨value, fields, shows, rfl, more⟩ := (depictsRelations_deferred found isLazy).1 depicts
          have here := same [] _ (.here List.mem_cons_self found isLazy)
          rw [Deferral.field, List.nil_append] at here
          rw [← here] at shows
          exact (depictsRelations_deferred found isLazy).2 ⟨value, fields, shows, rfl, rest others more⟩
      | false =>
          obtain ⟨value, fields, shows, rfl, more⟩ := (depictsRelations_joined found isLazy).1 depicts
          refine (depictsRelations_joined found isLazy).2 ⟨value, fields, ?_, rfl, rest others more⟩
          refine ShowsRows.mono shows fun related item object => ?_
          obtain ⟨shown, deferred, joined, showsColumns, relations, rfl⟩ := object
          refine ⟨shown, deferred, joined, showsColumns, inner ?_ relations, rfl⟩
          intro path deferral defers
          exact same _ deferral (.through List.mem_cons_self found isLazy defers)

theorem Depicts.congr_fields {table : Table} {columns : Option (List String)} {requests : List Include}
    {pending pending' : List String → Bool} {row : Record V} {value : Json}
    (depicts : Depicts db render registry table columns requests pending row value)
    (same : ∀ path deferral, DefersAt registry table requests path deferral →
      pending' (deferral.field path) = pending (deferral.field path)) :
    Depicts db render registry table columns requests pending' row value := by
  obtain ⟨shown, deferred, joined, shows, relations, rfl⟩ := depicts
  exact ⟨shown, deferred, joined, shows, DepictsRelations.congr_fields requests same relations, rfl⟩

end

/-! ### Plans -/

/-- A plan was made of a tree of includes. -/
structure Plans (registry : Registry) (table : Table) (requests : List Include) (plan : Projection) :
    Prop where
  distinct : RequestsDistinct registry table requests
  nodup : ((sites plan).map Site.field).Nodup
  defers : ∀ site ∈ sites plan, ∃ deferral described, DefersAt registry table requests site.path deferral ∧
    LazyLoad.describe deferral.relation deferral.keys deferral.request described = .ok site.load
  complete : ∀ path deferral, DefersAt registry table requests path deferral →
    ∃ site ∈ sites plan, site.field = deferral.field path

/-- What requests attach to an occurrence is planned for them. -/
theorem Attaches.plans {registry : Registry} {table : Table} {label outputPath path : String}
    {names names' : Names} {requests : List Include} {nodes : List IncludeNode} {loads : List LazyLoad}
    {joins : List Join}
    (derivation : Attaches registry table label outputPath path names requests nodes loads joins names')
    (name : String) (key : List String) (columns : List PlanColumn) :
    Plans registry table requests ⟨name, label, outputPath, key, columns, nodes, loads⟩ := by
  refine ⟨derivation.requestsDistinct, ?_, ?_, ?_⟩
  · rw [sites_eq]
    exact derivation.nodup_fields []
  · intro site member
    rw [sites_eq] at member
    obtain ⟨steps, deferral, described, rfl, defers, loaded⟩ :=
      derivation.defersAt_of_mem_sites [] site member
    exact ⟨deferral, described, defers, loaded⟩
  · intro path deferral defers
    rw [sites_eq]
    exact derivation.exists_site [] defers

theorem Selection.plans_of_build {registry : Registry} {selection : Selection} {built : BuiltQuery}
    (build : selection.build registry = .ok built) :
    Plans registry selection.table selection.includes built.plan := by
  obtain ⟨assembly, items, assembled, ordered, planned, -⟩ := Selection.build_eq_ok build
  obtain ⟨pieces⟩ := Selection.nonempty_pieces assembled
  rw [planned, pieces.plan_eq]
  exact pieces.attaches.plans _ _ _

/-! ### Batches -/

section

variable {db : Database V} {render : Rendering db.engine} {registry : Registry} {table : Table}
  {columns : Option (List String)} {requests : List Include} {pending : List String → Bool}
  {roots : List (Record V)} {values : List Json} {deferral : Deferral} {site : Site} {described : String}
  (defers : DefersAt registry table requests site.path deferral)
  (loads : LazyLoad.describe deferral.relation deferral.keys deferral.request described = .ok site.load)

include defers loads

theorem Site.field_eq : site.field = deferral.field site.path := by
  rw [Site.field, (LazyLoad.describe_eq_ok loads).1, Registry.name_of_relation defers.found]
  rfl

variable (apart : registry.NamesApart) (registered : table ∈ registry.tables)
  (distinct : RequestsDistinct registry table requests)

include apart registered distinct

/-- The keys at a site are those of the rows that its path leads to. -/
theorem mem_keys_iff (waits : pending site.field = true)
    (depicted : List.Forall₂ (Depicts db render registry table columns requests pending) roots values)
    (key : Json) :
    key ∈ (objectsOfItems site.path values).filterMap (pendingKey? site.load.relation) ↔
      ∃ root ∈ roots, ∃ source, LeadsTo db registry table requests site.path root source ∧
        db.engine.isNull (db.engine.read source site.load.parentColumn) = false ∧
        render.toJson (db.engine.read source site.load.parentColumn) = key := by
  rw [Site.field_eq defers loads] at waits
  induction depicted with
  | nil => simp [objectsOfItems]
  | @cons root value roots values first rest ih =>
      have here := defers.exists_pendingKey_iff apart loads registered distinct waits first key
      rw [objectsOfItems, List.filterMap_append, List.mem_append, ih, List.mem_filterMap, here]
      simp [or_and_right, exists_or]

/-- The batch of a site asks for values of its source. -/
theorem asksFor_pendingKeys (waits : pending site.field = true)
    (stored : ∀ root ∈ roots, root ∈ db.rowsOf table)
    (depicted : List.Forall₂ (Depicts db render registry table columns requests pending) roots values) :
    AsksFor render (db.valuesOf deferral.source site.load.parentColumn) (pendingKeys values site) := by
  intro key member
  obtain ⟨root, isRoot, source, leads, present, rfl⟩ :=
    (mem_keys_iff defers loads apart registered distinct waits depicted key).1
      (distinctKeys_subset _ member)
  exact ⟨_, List.mem_map_of_mem (defers.stored distinct (stored root isRoot) leads), present, rfl⟩

/-- Groups for the batch of a site show what is attached to the rows that its path leads to. -/
theorem GroupsShow.of_leadsTo (waits : pending site.field = true)
    (stored : ∀ root ∈ roots, root ∈ db.rowsOf table)
    (depicted : List.Forall₂ (Depicts db render registry table columns requests pending) roots values)
    {groups : Groups}
    (shows : GroupsShow db render registry deferral site.load (pendingKeys values site) groups) :
    ∀ root ∈ roots, ∀ source, LeadsTo db registry table requests site.path root source →
      db.engine.isNull (db.engine.read source site.load.parentColumn) = false →
        ShowsDeferred db render registry deferral.request deferral.relation deferral.keys false source
          (loadedValue site.load.kind
            (groups.of (render.toJson (db.engine.read source site.load.parentColumn)))) := by
  intro root isRoot source leads present
  apply shows source (defers.stored distinct (stored root isRoot) leads) present
  apply mem_texts_distinctKeys.2
  exact ⟨_, (mem_keys_iff defers loads apart registered distinct waits depicted _).2
    ⟨root, isRoot, source, leads, present, rfl⟩, rfl⟩

end

/-! ### Filling -/

section

variable {db : Database V} {render : Rendering db.engine} {registry : Registry} {table : Table}
  {columns : Option (List String)} {requests : List Include} {roots : List (Record V)}

/-- The groups of a site can take the places of its placeholders. -/
def Fills (db : Database V) (render : Rendering db.engine) (registry : Registry) (table : Table)
    (requests : List Include) (roots : List (Record V)) (site : Site) (groups : Groups) : Prop :=
  ∃ deferral described, DefersAt registry table requests site.path deferral ∧
    LazyLoad.describe deferral.relation deferral.keys deferral.request described = .ok site.load ∧
    ∀ root ∈ roots, ∀ source, LeadsTo db registry table requests site.path root source →
      db.engine.isNull (db.engine.read source site.load.parentColumn) = false →
        ShowsDeferred db render registry deferral.request deferral.relation deferral.keys false source
          (loadedValue site.load.kind
            (groups.of (render.toJson (db.engine.read source site.load.parentColumn))))

/-- Filling some sites leaves the fields of the others pending. -/
theorem fillAll_depicts (apart : registry.NamesApart) (registered : table ∈ registry.tables)
    (distinct : RequestsDistinct registry table requests)
    {batches : List (Site × Groups)} {pending : List String → Bool} {values : List Json}
    (nodup : (batches.map fun batch => batch.1.field).Nodup)
    (fills : ∀ batch ∈ batches, Fills db render registry table requests roots batch.1 batch.2)
    (waits : ∀ batch ∈ batches, pending batch.1.field = true)
    (depicted : List.Forall₂ (Depicts db render registry table columns requests pending) roots values) :
    List.Forall₂ (Depicts db render registry table columns requests
      ((batches.map fun batch => batch.1.field).foldl settle pending)) roots (fillAll values batches) := by
  induction batches generalizing pending values with
  | nil => exact depicted
  | cons batch batches ih =>
      obtain ⟨fresh, apartRest⟩ := List.nodup_cons.1 nodup
      obtain ⟨first, others⟩ := List.forall_mem_cons.1 fills
      obtain ⟨waitsHere, waitsOthers⟩ := List.forall_mem_cons.1 waits
      obtain ⟨site, groups⟩ := batch
      obtain ⟨deferral, described, defers, loads, loaded⟩ := first
      have field : site.field = deferral.field site.path := Site.field_eq defers loads
      have waitsThere : pending (deferral.field site.path) = true := by rwa [← field]
      have step : List.Forall₂ (Depicts db render registry table columns requests (settle pending site.field))
          roots (fill values site groups) := by
        rw [field]
        apply forall₂_map_of_mem depicted
        intro root isRoot value depicts
        exact defers.depicts_fill apart loads registered distinct waitsThere depicts (loaded root isRoot)
      refine ih apartRest others ?_ step
      intro other member
      rw [settle_of_ne]
      · exact waitsOthers other member
      · intro same
        exact fresh (same ▸ List.mem_map_of_mem member)

end

end RelQuery
