/-
Module: RelQuery.Proofs.Session.Sites
Purpose: Where the deferred relations of a tree of includes stand: paths of joined relations lead to them,
  and a plan made of the tree lists each of them once. A relation that stands below a deferred one belongs
  to the statements that load the latter.
Main exports: Deferral, DefersAt, LeadsTo, Attaches.defersAt_of_mem_sites, Attaches.exists_site,
  Attaches.nodup_fields
-/
import RelQuery.Proofs.Plan.Columns
import RelQuery.Session.Lazy

namespace RelQuery

open Sql

variable {V : Type}

/-- A deferred request, with the table that its relation hangs off and what that declares. -/
structure Deferral where
  source : Table
  request : Include
  relation : Relation
  keys : RelationKeys

/-- A path of joined relations leads to a deferred one. -/
inductive DefersAt (registry : Registry) :
    (table : Table) → (requests : List Include) → (path : List String) → Deferral → Prop
  | here {table : Table} {requests : List Include} {request : Include} {relation : Relation}
      {keys : RelationKeys} (requested : request ∈ requests)
      (found : registry.relation table request.relation = .ok (relation, keys))
      (lazy : request.isLazy relation = true) :
      DefersAt registry table requests [] ⟨table, request, relation, keys⟩
  | through {table : Table} {requests : List Include} {request : Include} {relation : Relation}
      {keys : RelationKeys} {path : List String} {deferral : Deferral} (requested : request ∈ requests)
      (found : registry.relation table request.relation = .ok (relation, keys))
      (eager : request.isLazy relation = false)
      (further : DefersAt registry keys.target request.includes path deferral) :
      DefersAt registry table requests (request.relation :: path) deferral

/-- The rows that a path of requested relations leads to from a row. -/
def LeadsTo (db : Database V) (registry : Registry) :
    (table : Table) → (requests : List Include) → (path : List String) → (row reached : Record V) → Prop
  | _, _, [], row, reached => reached = row
  | table, requests, name :: path, row, reached =>
    ∃ request ∈ requests, request.relation = name ∧
      ∃ relation keys, registry.relation table name = .ok (relation, keys) ∧
        ∃ related ∈ attachedRows db registry keys request.filter row,
          LeadsTo db registry keys.target request.includes path related reached

/-- The field that is filled at a site. -/
def Site.field (site : Site) : List String := site.path ++ [site.load.relation]

/-- The field of a deferred relation that a path leads to. -/
def Deferral.field (deferral : Deferral) (path : List String) : List String :=
  path ++ [deferral.request.relation]

section

variable {registry : Registry} {table : Table} {requests : List Include} {request : Include}
  {relation : Relation} {keys : RelationKeys} {path : List String} {deferral : Deferral}

theorem not_defersAt_nil : ¬ DefersAt registry table [] path deferral := by
  intro defers
  cases defers with
  | here requested => exact List.not_mem_nil requested
  | through requested => exact List.not_mem_nil requested

theorem DefersAt.tail (defers : DefersAt registry table requests path deferral) :
    DefersAt registry table (request :: requests) path deferral := by
  cases defers with
  | here requested found lazy => exact .here (List.mem_cons_of_mem _ requested) found lazy
  | through requested found eager further =>
      exact .through (List.mem_cons_of_mem _ requested) found eager further

/-- A path leads to the first request if that is deferred, or through it if it is joined, or it has to do
    with the other ones. -/
theorem DefersAt.cases_cons (found : registry.relation table request.relation = .ok (relation, keys))
    (defers : DefersAt registry table (request :: requests) path deferral) :
    (request.isLazy relation = true ∧ path = [] ∧ deferral = ⟨table, request, relation, keys⟩) ∨
      (request.isLazy relation = false ∧ ∃ steps, path = request.relation :: steps ∧
        DefersAt registry keys.target request.includes steps deferral) ∨
      DefersAt registry table requests path deferral := by
  cases defers with
  | here requested found' lazy =>
      rcases List.mem_cons.1 requested with rfl | later
      · obtain ⟨rfl, rfl⟩ := Registry.relation_unique found found'
        exact .inl ⟨lazy, rfl, rfl⟩
      · exact .inr (.inr (.here later found' lazy))
  | through requested found' eager further =>
      rcases List.mem_cons.1 requested with rfl | later
      · obtain ⟨rfl, rfl⟩ := Registry.relation_unique found found'
        exact .inr (.inl ⟨eager, _, rfl, further⟩)
      · exact .inr (.inr (.through later found' eager further))

/-- A deferred request bears the name of a relation of its source. -/
theorem DefersAt.found (defers : DefersAt registry table requests path deferral) :
    registry.relation deferral.source deferral.request.relation =
      .ok (deferral.relation, deferral.keys) := by
  induction defers with
  | here requested found lazy => exact found
  | through requested found eager further ih => exact ih

/-- Sources of deferred relations are registered. -/
theorem DefersAt.registered (defers : DefersAt registry table requests path deferral)
    (registered : table ∈ registry.tables) : deferral.source ∈ registry.tables := by
  induction defers with
  | here requested found lazy => exact registered
  | through requested found eager further ih => exact ih (Registry.target_mem_of_relation found)

end

/-! ### The sites of a plan -/

section

variable {registry : Registry} {table : Table} {label outputPath here : String} {names names' : Names}
  {requests : List Include} {nodes : List IncludeNode} {loads : List LazyLoad} {joins : List Join}

/-- The sites below an occurrence that a path leads to. -/
def sitesBelow (path : List String) (nodes : List IncludeNode) (loads : List LazyLoad) : List Site :=
  loads.map (fun load => ⟨path, load⟩) ++ sitesOfNodes path nodes

theorem sites_eq (name label outputPath : String) (key : List String) (columns : List PlanColumn)
    (nodes : List IncludeNode) (loads : List LazyLoad) :
    sites ⟨name, label, outputPath, key, columns, nodes, loads⟩ = sitesBelow [] nodes loads := by
  rw [sites, sitesFrom, sitesBelow]

theorem sitesBelow_load (path : List String) (load : LazyLoad) :
    sitesBelow path nodes (load :: loads) = ⟨path, load⟩ :: sitesBelow path nodes loads := rfl

/-- The sites below a joined relation stand between those of the deferred ones and the others. -/
theorem sitesBelow_node (path : List String) (relation name label outputPath : String)
    (kind : RelationKind) (key : List String) (columns : List PlanColumn) (inner : List IncludeNode)
    (innerLoads : List LazyLoad) :
    (sitesBelow path (⟨relation, kind, name, label, outputPath, key, columns, inner, innerLoads⟩ :: nodes)
      loads).Perm (sitesBelow (path ++ [relation]) inner innerLoads ++ sitesBelow path nodes loads) := by
  rw [sitesBelow, sitesOfNodes, sitesFrom]
  exact List.perm_append_comm_assoc _ _ _

/-- Each site is that of a deferred request, and knows its load. -/
theorem Attaches.defersAt_of_mem_sites
    (derivation : Attaches registry table label outputPath here names requests nodes loads joins names')
    (path : List String) : ∀ site ∈ sitesBelow path nodes loads, ∃ steps deferral described,
      site.path = path ++ steps ∧ DefersAt registry table requests steps deferral ∧
        LazyLoad.describe deferral.relation deferral.keys deferral.request described = .ok site.load := by
  induction derivation generalizing path with
  | nil => simp [sitesBelow, sitesOfNodes]
  | @deferred table label outputPath here names names' request requests nodes loads joins relation keys load
      found lazy described new rest ih =>
      intro site member
      rcases List.mem_cons.1 member with rfl | later
      · exact ⟨[], ⟨table, request, relation, keys⟩, _, (List.append_nil _).symm,
          .here List.mem_cons_self found lazy, described⟩
      · obtain ⟨steps, deferral, described, leads, defers, loaded⟩ := ih path site later
        exact ⟨steps, deferral, described, leads, defers.tail, loaded⟩
  | @joined table label outputPath here names names₁ names₂ names' request requests inner nodes innerLoads
      loads innerJoins joins relation keys condition selected columns found eager narrowed chosen below
      completed new rest ihBelow ih =>
      intro site member
      rcases List.mem_append.1 ((sitesBelow_node ..).subset member) with inside | outside
      · obtain ⟨steps, deferral, described, leads, defers, loaded⟩ := ihBelow _ site inside
        refine ⟨request.relation :: steps, deferral, described, ?_,
          .through List.mem_cons_self found eager defers, loaded⟩
        rw [leads, List.append_assoc, List.singleton_append]
      · obtain ⟨steps, deferral, described, leads, defers, loaded⟩ := ih path site outside
        exact ⟨steps, deferral, described, leads, defers.tail, loaded⟩

/-- Each deferred request has a site. -/
theorem Attaches.exists_site
    (derivation : Attaches registry table label outputPath here names requests nodes loads joins names')
    (path : List String) {steps : List String} {deferral : Deferral}
    (defers : DefersAt registry table requests steps deferral) :
    ∃ site ∈ sitesBelow path nodes loads, site.field = path ++ deferral.field steps := by
  induction derivation generalizing path steps with
  | nil => exact absurd defers not_defersAt_nil
  | @deferred table label outputPath here names names' request requests nodes loads joins relation keys load
      found lazy described new rest ih =>
      have named := (LazyLoad.describe_eq_ok described).1
      rw [Registry.name_of_relation found] at named
      rcases defers.cases_cons found with ⟨-, rfl, rfl⟩ | ⟨eager, -⟩ | others
      · exact ⟨⟨path, load⟩, List.mem_cons_self, by rw [Site.field, named]; rfl⟩
      · rw [lazy] at eager
        contradiction
      · obtain ⟨site, member, same⟩ := ih path others
        exact ⟨site, List.mem_cons_of_mem _ member, same⟩
  | @joined table label outputPath here names names₁ names₂ names' request requests inner nodes innerLoads
      loads innerJoins joins relation keys condition selected columns found eager narrowed chosen below
      completed new rest ihBelow ih =>
      rcases defers.cases_cons found with ⟨lazy, -⟩ | ⟨-, further, rfl, inside⟩ | others
      · rw [lazy] at eager
        contradiction
      · obtain ⟨site, member, same⟩ := ihBelow (path ++ [request.relation]) inside
        refine ⟨site, (sitesBelow_node ..).symm.subset (List.mem_append_left _ member), ?_⟩
        rw [same, List.append_assoc]
        rfl
      · obtain ⟨site, member, same⟩ := ih path others
        exact ⟨site, (sitesBelow_node ..).symm.subset (List.mem_append_right _ member), same⟩

/-- Fields of sites start with the name of a request. -/
theorem Attaches.exists_request
    (derivation : Attaches registry table label outputPath here names requests nodes loads joins names')
    (path : List String) : ∀ site ∈ sitesBelow path nodes loads,
      ∃ name ∈ requests.map Include.relation, ∃ further, site.field = path ++ name :: further := by
  intro site member
  obtain ⟨steps, deferral, described, leads, defers, loaded⟩ := derivation.defersAt_of_mem_sites path site member
  rw [Site.field, leads, List.append_assoc]
  cases defers with
  | @here _ _ request relation keys requested found lazy =>
      have named := (LazyLoad.describe_eq_ok loaded).1
      rw [Registry.name_of_relation found] at named
      exact ⟨request.relation, List.mem_map_of_mem requested, [], by rw [named]; rfl⟩
  | @through _ _ request _ _ steps _ requested found eager further =>
      exact ⟨request.relation, List.mem_map_of_mem requested, _, rfl⟩

/-- No field is filled at two sites. -/
theorem Attaches.nodup_fields
    (derivation : Attaches registry table label outputPath here names requests nodes loads joins names')
    (path : List String) : ((sitesBelow path nodes loads).map Site.field).Nodup := by
  induction derivation generalizing path with
  | nil => simp [sitesBelow, sitesOfNodes]
  | @deferred table label outputPath here names names' request requests nodes loads joins relation keys load
      found lazy described new rest ih =>
      have named := (LazyLoad.describe_eq_ok described).1
      rw [Registry.name_of_relation found] at named
      rw [sitesBelow_load, List.map_cons, List.nodup_cons]
      refine ⟨?_, ih path⟩
      intro clash
      obtain ⟨site, member, same⟩ := List.mem_map.1 clash
      obtain ⟨name, requested, further, starts⟩ := rest.exists_request path site member
      rw [same, Site.field, named] at starts
      obtain ⟨rfl, -⟩ := List.cons.inj (List.append_cancel_left starts)
      exact new requested
  | @joined table label outputPath here names names₁ names₂ names' request requests inner nodes innerLoads
      loads innerJoins joins relation keys condition selected columns found eager narrowed chosen below
      completed new rest ihBelow ih =>
      rw [((sitesBelow_node ..).map Site.field).nodup_iff, List.map_append, List.nodup_append']
      refine ⟨ihBelow _, ih path, ?_⟩
      intro field inside outside
      obtain ⟨first, inFirst, rfl⟩ := List.mem_map.1 inside
      obtain ⟨second, inSecond, same⟩ := List.mem_map.1 outside
      obtain ⟨name, requested, further, starts⟩ := rest.exists_request path second inSecond
      obtain ⟨_, -, further', starts'⟩ := below.exists_request (path ++ [request.relation]) first inFirst
      rw [same, starts', List.append_assoc] at starts
      obtain ⟨rfl, -⟩ := List.cons.inj (List.append_cancel_left starts)
      exact new requested

end

end RelQuery
