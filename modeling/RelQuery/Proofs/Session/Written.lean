/-
Module: RelQuery.Proofs.Session.Written
Purpose: Writing the batches of deferred relations back. Each site has fields of its own, and what stands
  there after some writes depends on the write to this site alone. So the sites may be written in any order,
  and no write changes the placeholders that another site looks up.
Main exports: valuesAt, Site.values, values_fillAll, values_fillAll_of_mem, values_fillAll_of_not_mem,
  pending_fillAll_of_not_mem, written_in_any_order
-/
import RelQuery.Proofs.Session.Asked
import RelQuery.Proofs.Session.InPlace

namespace RelQuery

open Json (Members)

/-! ### The fields of a site -/

/-- The values in a field of the objects that a path leads to. -/
def valuesAt (field : String) (path : List String) (value : Json) : List Json :=
  (objectsAt path value).filterMap fun members => Members.get? members field

/-- The values in the fields of a site, object by object. -/
def Site.values (site : Site) (rows : List Json) : List Json :=
  rows.flatMap (valuesAt site.load.relation site.path)

/-- The placeholders at a site are those among its values. -/
theorem Site.pending_eq (site : Site) (rows : List Json) :
    site.pending rows = (site.values rows).filterMap LazyRef.key? := by
  rw [Site.pending, Site.values, objectsOfItems_eq, List.filterMap_flatMap, List.filterMap_flatMap]
  apply List.flatMap_congr
  intro row _
  rw [valuesAt, List.filterMap_filterMap]
  rfl

section

variable {field : String} {path : List String}

theorem valuesAt_array (items : List Json) :
    valuesAt field path (.array items) = items.flatMap (valuesAt field path) := by
  rw [valuesAt, objectsAt, objectsOfItems_eq, List.filterMap_flatMap]
  rfl

theorem valuesAt_object_nil (members : Members) :
    valuesAt field [] (.object members) = (Members.get? members field).toList := by
  rw [valuesAt, objectsAt]
  cases found : Members.get? members field <;> simp [found]

/-- A step leads into the field of its name. -/
theorem objectsOfMember_eq_flatMap (step : String) (members : Members) :
    objectsOfMember step path members = (Members.get? members step).toList.flatMap (objectsAt path) := by
  induction members with
  | nil => rfl
  | cons member members ih =>
      obtain ⟨name, value⟩ := member
      rw [objectsOfMember]
      by_cases same : name = step
      · simp [same, Members.get?]
      · rw [if_neg same, ih, Members.get?, Members.get?, List.lookup_cons, beq_false_of_ne (Ne.symm same)]

theorem valuesAt_object_cons (step : String) (members : Members) :
    valuesAt field (step :: path) (.object members) =
      (Members.get? members step).toList.flatMap (valuesAt field path) := by
  rw [valuesAt, objectsAt, objectsOfMember_eq_flatMap, List.filterMap_flatMap]
  rfl

end

/-! ### Values after a change -/

section

variable {change : Site → Json → Json} {path steps : List String}

/-- The values below a joined relation change as those of the objects in its field do. -/
theorem valuesAt_mapRelated {child : Projection} {field : String} {changed : Json → Json} {value : Json}
    (one : ∀ inner, value = .object inner →
      valuesAt field steps (child.mapDeferred change path value) = (valuesAt field steps value).map changed)
    (many : ∀ items, value = .array items → ∀ item ∈ items,
      valuesAt field steps (child.mapDeferred change path item) = (valuesAt field steps item).map changed) :
    valuesAt field steps (mapRelated (child.mapDeferred change path) value) =
      (valuesAt field steps value).map changed := by
  cases value with
  | array items =>
      rw [mapRelated, valuesAt_array, valuesAt_array, List.flatMap_map, List.map_flatMap]
      exact List.flatMap_congr (many items rfl)
  | object inner => exact one inner rfl
  | _ => simp [mapRelated, Projection.mapDeferred_eq, valuesAt, objectsAt]

/-- Of a change of the fields of deferred relations, a site sees what the change makes of its own. -/
theorem valuesAt_mapDeferred {plan : Projection} {site : Site} {value : Json} (distinct : plan.Distinct)
    (nests : plan.Nests value) (member : site ∈ sitesFrom path plan) (leads : site.path = path ++ steps) :
    valuesAt site.load.relation steps (plan.mapDeferred change path value) =
      (valuesAt site.load.relation steps value).map (change site) := by
  induction plan using Projection.induction generalizing path steps value with
  | occurrence table label outputPath key columns includes lazy ih =>
      obtain ⟨names, one, many⟩ := nests
      rename_i members
      obtain ⟨relations, below⟩ := distinct
      have fields := get?_map (fun name value => mapDeferredField change path lazy includes name value) members
      rw [sitesFrom, List.mem_append, mem_sitesOfNodes] at member
      rw [Projection.mapDeferred]
      rcases member with here | ⟨node, joined, inside⟩
      · obtain ⟨load, deferred, rfl⟩ := List.mem_map.1 here
        obtain rfl : steps = [] := by simpa using leads
        rw [valuesAt_object_nil, valuesAt_object_nil, fields, Option.toList_map]
        apply List.map_congr_left
        intro value _
        exact mapDeferredField_deferred relations deferred
      · obtain ⟨further, leadsFurther⟩ := path_of_mem_sitesFrom inside
        obtain rfl : node.relation :: further = steps := by
          rw [leads, List.append_assoc, List.append_cancel_left_eq] at leadsFurther
          exact leadsFurther
        have distinctNodes := (List.nodup_append'.1 relations).2.1
        have child : ∀ {value : Json}, node.projection.Nests value →
            valuesAt site.load.relation further
                (node.projection.mapDeferred change (path ++ [node.relation]) value) =
              (valuesAt site.load.relation further value).map (change site) :=
          fun nests => ih node joined (below node joined) nests inside leadsFurther.symm
        -- The site sees what stands in the field of the joined relation, whose objects are nested again.
        rw [valuesAt_object_cons, valuesAt_object_cons, fields, Option.toList_map, List.flatMap_map,
          List.map_flatMap]
        apply List.flatMap_congr
        intro value found
        have held := mem_of_members_get? (Option.mem_toList.1 found)
        rw [mapDeferredField_joined distinctNodes joined]
        apply valuesAt_mapRelated
        · rintro inner rfl
          exact child (one node joined inner held)
        · rintro items rfl item among
          exact child (many node joined items held item among)

end

/-! ### Values after some writes -/

section

variable {plan : Projection} {rows : List Json} {batches : List (Site × Groups)} {site : Site}
  (distinct : plan.Distinct) (nests : ∀ row ∈ rows, plan.Nests row)
  (known : ∀ batch ∈ batches, batch.1 ∈ sites plan) (member : site ∈ sites plan)

include distinct nests known member

/-- What stands in the fields of a site after some writes. -/
theorem values_fillAll : site.values (fillAll rows batches) = (site.values rows).map
    (batches.foldl (fun change batch => fulfil change batch.1 batch.2) (fun _ value => value) site) := by
  rw [fillAll_eq_foldl distinct nests known, Site.values, Site.values, List.flatMap_map, List.map_flatMap]
  apply List.flatMap_congr
  intro row inside
  exact valuesAt_mapDeferred distinct (nests row inside) member rfl

/-- The write to a site fulfils its placeholders. -/
theorem values_fillAll_of_mem {groups : Groups} (apart : (batches.map fun batch => batch.1.field).Nodup)
    (written : (site, groups) ∈ batches) :
    site.values (fillAll rows batches) = (site.values rows).map (site.load.fulfilled groups) := by
  rw [values_fillAll distinct nests known member, foldl_fulfil apart _ written]

/-- Writes to other sites leave its values as they are, -/
theorem values_fillAll_of_not_mem (absent : site.field ∉ batches.map fun batch => batch.1.field) :
    site.values (fillAll rows batches) = site.values rows := by
  rw [values_fillAll distinct nests known member, foldl_fulfil_of_not_mem absent, List.map_id']

/-- and so they do with its placeholders. -/
theorem pending_fillAll_of_not_mem (absent : site.field ∉ batches.map fun batch => batch.1.field) :
    site.pending (fillAll rows batches) = site.pending rows := by
  rw [Site.pending_eq, Site.pending_eq, values_fillAll_of_not_mem distinct nests known member absent]

end

/-! ### Any order -/

/-- Writes to all sites of a plan yield the same rows in any order. -/
theorem fillAll_perm {plan : Projection} {rows : List Json} (distinct : plan.Distinct)
    (apart : ((sites plan).map Site.field).Nodup) (nests : ∀ row ∈ rows, plan.Nests row)
    {batches order : List (Site × Groups)} (all : batches.map Prod.fst = sites plan)
    (perm : order.Perm batches) : fillAll rows order = fillAll rows batches := by
  have fields : (batches.map fun batch => batch.1.field).Nodup := by
    rw [← all, List.map_map] at apart
    exact apart
  have each : ∀ batch ∈ batches,
      batches.foldl (fun change batch => fulfil change batch.1 batch.2) (fun _ value => value) batch.1 =
        batch.1.load.fulfilled batch.2 := fun batch member => foldl_fulfil fields _ member
  rw [fillAll_eq_mapDeferred distinct apart nests all each]
  apply fillAll_eq_mapDeferred_of_perm distinct apart nests
  · exact (perm.map Prod.fst).trans (.of_eq all)
  · exact fun batch member => each batch (perm.subset member)

section

variable {registry : Registry} {root : Table} {label : String} {columns : Option (List String)}
  {tree : List Include} {names : Names} {resolution : Resolution}

/-- The batches of all sites of a resolved plan may be written back in any order: the rows are the same, and
    the values of each site are those that were hydrated, with the placeholders fulfilled by its own batch.
    No writes to other sites change the placeholders that a site looks up. -/
theorem written_in_any_order (resolved : resolve registry root label columns tree names = .ok resolution)
    (stored : List Row) {batches order : List (Site × Groups)}
    (all : batches.map Prod.fst = sites resolution.plan) (perm : order.Perm batches) :
    fillAll (hydrate resolution.plan stored) order = fillAll (hydrate resolution.plan stored) batches ∧
      (∀ site groups, (site, groups) ∈ batches →
        site.values (fillAll (hydrate resolution.plan stored) order) =
          (site.values (hydrate resolution.plan stored)).map (site.load.fulfilled groups)) ∧
      ∀ site ∈ sites resolution.plan, ∀ others : List (Site × Groups),
        (∀ batch ∈ others, batch.1 ∈ sites resolution.plan ∧ batch.1 ≠ site) →
          site.pending (fillAll (hydrate resolution.plan stored) others) =
            site.pending (hydrate resolution.plan stored) := by
  have apart := (plans_of_resolve resolved).nodup
  have distinct := distinct_of_resolve resolved
  have nests := nests_hydrate distinct stored
  have listed := (perm.map Prod.fst).trans (.of_eq all)
  refine ⟨fillAll_perm distinct apart nests all perm, ?_, ?_⟩
  · intro site groups written
    have known : ∀ batch ∈ order, batch.1 ∈ sites resolution.plan := fun batch member =>
      listed.subset (List.mem_map_of_mem member)
    have fields : (order.map fun batch => batch.1.field).Nodup := by
      rw [← (listed.map Site.field).nodup_iff, List.map_map] at apart
      exact apart
    have ordered := perm.symm.subset written
    exact values_fillAll_of_mem distinct nests known (known _ ordered) fields ordered
  · intro site member others elsewhere
    apply pending_fillAll_of_not_mem distinct nests (fun batch among => (elsewhere batch among).1) member
    intro clash
    obtain ⟨batch, among, same⟩ := List.mem_map.1 clash
    obtain ⟨known, other⟩ := elsewhere batch among
    exact other (List.inj_on_of_nodup_map apart known member same)

end

namespace Blog

/-- Posts whose tags are deferred, with their authors, whose posts are deferred. -/
def postsOfPosts : List Include :=
  [⟨"tags", none, none, some true, []⟩,
    ⟨"author", none, none, none, [⟨"posts", none, none, some true, []⟩]⟩]

/-- Their plan. -/
def postsOfPostsPlan : Projection :=
  ((resolve registry posts "posts" none postsOfPosts ⟨[]⟩).toOption.map Resolution.plan).getD
    ⟨"posts", "posts", "", [], [], [], []⟩

/-- Two posts, of which one is Ada's and one is nobody's. -/
def postRows : List Row :=
  let row (post : Int) (title : String) (author name : Json) : Row :=
    [("id", .int post), ("title", .string title), ("author_id", author), ("author__id", author),
      ("author__name", name)]
  [row 1 "One" (.int 1) (.string "Ada"), row 2 "Two" .null .null]

/-- A tag of the first post, and the posts of Ada. -/
def postBatches : List (Site × Groups) :=
  (sites postsOfPostsPlan).zip
    [[("1", [.object [("name", .string "lean")]])], [("1", [.object [("id", .int 1)]])]]

/-- The posts with their tags, their authors and the posts of these. -/
def writtenPosts : List Json :=
  let post (id : Int) (title : String) (writer : Json) (tags : List Json) (author : Json) : Json :=
    .object [("id", .int id), ("title", .string title), ("author_id", writer), ("tags", .array tags),
      ("author", author)]
  let ada : Json :=
    .object [("id", .int 1), ("name", .string "Ada"), ("posts", .array [.object [("id", .int 1)]])]
  [post 1 "One" (.int 1) [.object [("name", .string "lean")]] ada, post 2 "Two" .null [] .null]

/-- The posts of the authors may be written back before the tags of the posts. -/
theorem written_postsOfPosts : ∃ resolution,
    resolve registry posts "posts" none postsOfPosts ⟨[]⟩ = .ok resolution ∧
      postBatches.map Prod.fst = sites resolution.plan ∧ postBatches.reverse.Perm postBatches ∧
      fillAll (hydrate resolution.plan postRows) postBatches.reverse =
        fillAll (hydrate resolution.plan postRows) postBatches ∧
      (fillAll (hydrate resolution.plan postRows) postBatches.reverse).map Json.chars =
        writtenPosts.map Json.chars := by
  obtain ⟨resolution, resolved⟩ : ∃ resolution,
      resolve registry posts "posts" none postsOfPosts ⟨[]⟩ = .ok resolution := ⟨_, rfl⟩
  have plan : resolution.plan = postsOfPostsPlan := by
    rw [postsOfPostsPlan, resolved]
    rfl
  have all : postBatches.map Prod.fst = sites resolution.plan := by
    rw [plan]
    exact List.map_fst_zip (by decide +kernel)
  have perm := postBatches.reverse_perm
  refine ⟨resolution, resolved, all, perm, (written_in_any_order resolved postRows all perm).1, ?_⟩
  rw [plan]
  decide +kernel

end Blog

end RelQuery
