/-
Module: RelQuery.Proofs.Session.Mapped
Purpose: Filling the placeholders of a site changes one field of some objects and nothing else. Following
  the plan, all sites together are one map over the fields of deferred relations, which keeps the number
  and the order of objects and of fields.
Main exports: Projection.mapDeferred, Projection.Nests, nests_hydrate, changeObjectsAt_mapDeferred,
  fillAll_eq_mapDeferred, fillAll_eq_mapDeferred_of_perm
-/
import RelQuery.Proofs.Hydrate.Objects
import RelQuery.Proofs.Session.Filled

namespace RelQuery

open Json (Members)

/-! ### Sites -/

theorem mem_sitesOfNodes {path : List String} {nodes : List IncludeNode} {site : Site} :
    site ∈ sitesOfNodes path nodes ↔
      ∃ node ∈ nodes, site ∈ sitesFrom (path ++ [node.relation]) node.projection := by
  induction nodes with
  | nil => simp [sitesOfNodes]
  | cons node nodes ih =>
      obtain ⟨relation, kind, child⟩ := node
      rw [sitesOfNodes, List.mem_append, ih]
      simp

/-- Sites below an occurrence have paths through it. -/
theorem path_of_mem_sitesFrom {plan : Projection} {path : List String} {site : Site}
    (member : site ∈ sitesFrom path plan) : path <+: site.path := by
  induction plan using Projection.induction generalizing path with
  | occurrence table label outputPath key columns includes lazy ih =>
      rw [sitesFrom, List.mem_append, mem_sitesOfNodes] at member
      rcases member with here | ⟨node, joined, below⟩
      · obtain ⟨load, -, rfl⟩ := List.mem_map.1 here
        exact List.prefix_refl _
      · exact (List.prefix_append _ _).trans (ih node joined below)

/-! ### The fields of deferred relations -/

/-- Changes the objects in the field of a joined relation: those of an array, or the only one. -/
def mapRelated (change : Json → Json) : Json → Json
  | .array items => .array (items.map change)
  | value => change value

mutual

/-- Changes the fields of the deferred relations of a plan, wherever they stand. -/
def Projection.mapDeferred (change : Site → Json → Json) (path : List String) : Projection → Json → Json
  | ⟨_, _, _, _, _, includes, lazy⟩, .object members =>
    .object (members.map fun field => (field.1, mapDeferredField change path lazy includes field.1 field.2))
  | _, value => value

/-- Changes the field of a deferred relation, or those below a joined one. Other fields stay. -/
def mapDeferredField (change : Site → Json → Json) (path : List String) (lazy : List LazyLoad) :
    List IncludeNode → (name : String) → Json → Json
  | [], name, value =>
    match lazy.find? fun load => load.relation == name with
    | some load => change ⟨path, load⟩ value
    | none => value
  | ⟨relation, _, child⟩ :: nodes, name, value =>
    if relation = name then mapRelated (child.mapDeferred change (path ++ [relation])) value
    else mapDeferredField change path lazy nodes name value

end

section

variable {change change' : Site → Json → Json} {path : List String} {lazy : List LazyLoad}
  {nodes : List IncludeNode} {name : String} {value : Json}

theorem Projection.mapDeferred_eq (plan : Projection) : plan.mapDeferred change path value =
    match value with
    | .object members => .object (members.map fun field =>
        (field.1, mapDeferredField change path plan.lazy plan.includes field.1 field.2))
    | value => value := by
  cases plan
  cases value <;> simp only [Projection.mapDeferred]

theorem mapDeferredField_cons (node : IncludeNode) :
    mapDeferredField change path lazy (node :: nodes) name value =
      if node.relation = name then
        mapRelated (node.projection.mapDeferred change (path ++ [node.relation])) value
      else mapDeferredField change path lazy nodes name value := by
  cases node
  rw [mapDeferredField]

/-- The field of a joined relation. -/
theorem mapDeferredField_joined (distinct : (nodes.map IncludeNode.relation).Nodup) {node : IncludeNode}
    (joined : node ∈ nodes) : mapDeferredField change path lazy nodes node.relation value =
      mapRelated (node.projection.mapDeferred change (path ++ [node.relation])) value := by
  induction nodes with
  | nil => contradiction
  | cons first nodes ih =>
      obtain ⟨fresh, distinct⟩ := List.nodup_cons.1 distinct
      rw [mapDeferredField_cons]
      rcases List.mem_cons.1 joined with rfl | later
      · rw [if_pos rfl]
      · have apart : first.relation ≠ node.relation := fun same =>
          fresh (same ▸ List.mem_map_of_mem later)
        rw [if_neg apart, ih distinct later]

/-- Any other field. -/
theorem mapDeferredField_free (free : name ∉ nodes.map IncludeNode.relation) :
    mapDeferredField change path lazy nodes name value =
      match lazy.find? fun load => load.relation == name with
      | some load => change ⟨path, load⟩ value
      | none => value := by
  induction nodes with
  | nil => rw [mapDeferredField]
  | cons first nodes ih =>
      rw [List.map_cons, List.mem_cons, not_or] at free
      rw [mapDeferredField_cons, if_neg (Ne.symm free.1), ih free.2]

/-- The field of a deferred relation. -/
theorem mapDeferredField_deferred
    (distinct : (lazy.map LazyLoad.relation ++ nodes.map IncludeNode.relation).Nodup) {load : LazyLoad}
    (deferred : load ∈ lazy) :
    mapDeferredField change path lazy nodes load.relation value = change ⟨path, load⟩ value := by
  obtain ⟨distinctLazy, -, apart⟩ := List.nodup_append'.1 distinct
  rw [mapDeferredField_free fun joined => apart (List.mem_map_of_mem deferred) joined,
    find?_name_eq_some distinctLazy deferred]

theorem mapRelated_congr {f g : Json → Json} (same : ∀ value, f value = g value) (value : Json) :
    mapRelated f value = mapRelated g value := by
  cases value <;> simp [mapRelated, same]

/-- Only the sites below the field matter. -/
theorem mapDeferredField_congr
    (deferred : ∀ load ∈ lazy, load.relation = name → change ⟨path, load⟩ = change' ⟨path, load⟩)
    (joined : ∀ node ∈ nodes, node.relation = name → ∀ value,
      node.projection.mapDeferred change (path ++ [node.relation]) value =
        node.projection.mapDeferred change' (path ++ [node.relation]) value) :
    mapDeferredField change path lazy nodes name value =
      mapDeferredField change' path lazy nodes name value := by
  induction nodes with
  | nil =>
      rw [mapDeferredField, mapDeferredField]
      split
      · rename_i load found
        rw [deferred load (List.mem_of_find?_eq_some found) (by simpa using List.find?_some found)]
      · rfl
  | cons first nodes ih =>
      obtain ⟨here, others⟩ := List.forall_mem_cons.1 joined
      rw [mapDeferredField_cons, mapDeferredField_cons]
      split
      · rename_i same
        exact mapRelated_congr (here same) value
      · exact ih others

end

namespace Projection

/-- Only the sites of the plan matter. -/
theorem mapDeferred_congr {change change' : Site → Json → Json} {plan : Projection} {path : List String}
    (same : ∀ site ∈ sitesFrom path plan, change site = change' site) (value : Json) :
    plan.mapDeferred change path value = plan.mapDeferred change' path value := by
  induction plan using Projection.induction generalizing path value with
  | occurrence table label outputPath key columns includes lazy ih =>
      cases value with
      | object members =>
          rw [mapDeferred, mapDeferred]
          refine congrArg Json.object (List.map_congr_left fun field _ => congrArg _ ?_)
          refine mapDeferredField_congr (fun load deferred _ => same _ ?_) fun node joined _ => ?_
          · rw [sitesFrom]
            exact List.mem_append_left _ (List.mem_map_of_mem deferred)
          · refine ih node joined fun site below => same site ?_
            rw [sitesFrom]
            exact List.mem_append_right _ (mem_sitesOfNodes.2 ⟨node, joined, below⟩)
      | _ => simp only [mapDeferred]

/-- Where no field changes, nothing does. -/
theorem mapDeferred_id (plan : Projection) (path : List String) (value : Json) :
    plan.mapDeferred (fun _ value => value) path value = value := by
  induction plan using Projection.induction generalizing path value with
  | occurrence table label outputPath key columns includes lazy ih =>
      have field : ∀ nodes : List IncludeNode, nodes ⊆ includes → ∀ name value,
          mapDeferredField (fun _ value => value) path lazy nodes name value = value := by
        intro nodes subset name value
        induction nodes with
        | nil =>
            rw [mapDeferredField]
            split <;> rfl
        | cons node nodes ihNodes =>
            obtain ⟨first, others⟩ := List.cons_subset.1 subset
            rw [mapDeferredField_cons]
            split
            · rw [show node.projection.mapDeferred _ (path ++ [node.relation]) = id from
                funext (ih node first _)]
              cases value <;> simp [mapRelated]
            · exact ihNodes others
      cases value with
      | object members => simp [mapDeferred, field includes (List.Subset.refl _)]
      | _ => simp only [mapDeferred]

end Projection

/-! ### Nested objects -/

/-- An object that is nested as a plan says. No name occurs in it twice, and the objects that stand in the
    fields of joined relations are nested, too. -/
inductive Projection.Nests : Projection → Json → Prop
  | intro {plan : Projection} {members : Members} (distinct : (members.map Prod.fst).Nodup)
      (one : ∀ node ∈ plan.includes, ∀ inner, (node.relation, Json.object inner) ∈ members →
        node.projection.Nests (.object inner))
      (many : ∀ node ∈ plan.includes, ∀ items, (node.relation, Json.array items) ∈ members →
        ∀ item ∈ items, node.projection.Nests item) : plan.Nests (.object members)

/-- Nested rows make nested objects. -/
theorem nests_nest {plan : Projection} (distinct : plan.Distinct) (rows : List Row) :
    plan.Nests ((Cell.nest plan rows).value plan) := by
  induction plan using Projection.induction generalizing rows with
  | occurrence table label outputPath key columns includes lazy ih =>
      obtain ⟨names, below⟩ := distinct
      obtain ⟨-, distinctNodes, -⟩ := List.nodup_append'.1 names
      have own := nodup_ownFields ⟨table, label, outputPath, key, columns, includes, lazy⟩ (rows.headD [])
      generalize isOwn : ownFields ⟨table, label, outputPath, key, columns, includes, lazy⟩ (rows.headD []) =
        fields at own
      -- Each joined relation has the field that was written for it, since no other bears its name.
      have held : ∀ node ∈ includes, ∀ value,
          (node.relation, value) ∈ slotsOver includes fields (Slot.nestEach includes rows) →
            value = joinedValue node.kind node.projection rows := by
        intro node joined value member
        rcases mem_slotsOver own member with ⟨other, among, same⟩ | ⟨-, free⟩
        · obtain ⟨relation, rfl⟩ := Prod.mk.inj same
          rw [List.inj_on_of_nodup_map distinctNodes joined among relation]
        · exact absurd (List.mem_map_of_mem joined) free
      rw [Cell.nest, Cell.value, isOwn]
      refine .intro (nodup_slotsOver includes rows own) ?_ ?_
      · intro node joined inner member
        have value := held node joined _ member
        rw [joinedValue] at value
        split at value
        · contradiction
        · split at value
          · contradiction
          · rw [value]
            exact ih node joined (below node joined) _
      · intro node joined items member item inside
        have value := held node joined _ member
        rw [joinedValue] at value
        split at value
        · obtain rfl := Json.array.inj value
          obtain ⟨k, -, rfl⟩ := List.mem_map.1 inside
          exact ih node joined (below node joined) _
        · split at value
          · contradiction
          · have nested := ih node joined (below node joined) (presentRows node.projection rows)
            rw [← value] at nested
            contradiction

/-- Hydrated rows are nested. -/
theorem nests_hydrate {plan : Projection} (distinct : plan.Distinct) (rows : List Row) :
    ∀ object ∈ hydrate plan rows, plan.Nests object := by
  intro object member
  rw [hydrate_eq_nest] at member
  obtain ⟨k, -, rfl⟩ := List.mem_map.1 member
  exact nests_nest distinct _

/-! ### Filling -/

/-- What the field of a deferred relation holds once its groups are known. -/
def LazyLoad.fulfilled (load : LazyLoad) (groups : Groups) (value : Json) : Json :=
  match LazyRef.key? value with
  | some key => loadedValue load.kind (groups.of key)
  | none => value

/-- Fulfils the placeholders of a site after a change of the fields of deferred relations. -/
def fulfil (change : Site → Json → Json) (site : Site) (groups : Groups) : Site → Json → Json :=
  fun other value =>
    if other.field = site.field then site.load.fulfilled groups (change other value)
    else change other value

/-- Where no field bears the name, none changes. -/
theorem map_field_of_not_mem {members : Members} {name : String} (absent : name ∉ members.map Prod.fst)
    (change : Json → Json) : members.map (fun field =>
      (field.1, if field.1 = name then change field.2 else field.2)) = members := by
  refine (List.map_congr_left fun field member => ?_).trans (List.map_id members)
  have apart : field.1 ≠ name := fun same => absent (same ▸ List.mem_map_of_mem member)
  rw [if_neg apart, id]

section

variable {members : Members} (distinct : (members.map Prod.fst).Nodup)

include distinct

/-- A change below one of the fields leaves the others as they are. -/
theorem changeMember_eq_map (change : Members → Members) (name : String) (path : List String) :
    changeMember change name path members = members.map fun field =>
      (field.1, if field.1 = name then changeObjectsAt change path field.2 else field.2) := by
  induction members with
  | nil => rfl
  | cons field members ih =>
      obtain ⟨first, value⟩ := field
      obtain ⟨fresh, distinct⟩ := List.nodup_cons.1 distinct
      rw [changeMember, List.map_cons]
      split
      · rename_i same
        rw [map_field_of_not_mem (same ▸ fresh)]
      · rw [ih distinct]

/-- Filling a placeholder changes its field alone. -/
theorem fillObject_eq_map (load : LazyLoad) (groups : Groups) :
    fillObject load groups members = members.map fun field =>
      (field.1, if field.1 = load.relation then load.fulfilled groups field.2 else field.2) := by
  induction members with
  | nil => rfl
  | cons field members ih =>
      obtain ⟨first, value⟩ := field
      obtain ⟨fresh, distinct⟩ := List.nodup_cons.1 distinct
      rw [List.map_cons]
      by_cases same : first = load.relation
      · rw [map_field_of_not_mem (same ▸ fresh), if_pos same, fillObject, pendingKey?, Members.get?,
          ← same, List.lookup_cons_self, Option.bind_some, LazyLoad.fulfilled]
        cases LazyRef.key? value with
        | none => rfl
        | some key => simp only [Members.set, if_true]
      · have later : pendingKey? load.relation ((first, value) :: members) =
            pendingKey? load.relation members := by
          rw [pendingKey?, pendingKey?, Members.get?, List.lookup_cons, beq_false_of_ne (Ne.symm same)]
          rfl
        rw [if_neg same, ← ih distinct, fillObject, later, fillObject]
        cases pendingKey? load.relation members with
        | none => rfl
        | some key => simp only [Members.set, if_neg same]

end

section

variable {change : Site → Json → Json} {groups : Groups} {site : Site} {path steps : List String}

/-- Fields that the site does not lead to stay as they are. -/
theorem mapDeferredField_fulfil_of_ne {lazy : List LazyLoad} {nodes : List IncludeNode}
    {name step : String} (apart : name ≠ step) (leads : site.field = path ++ step :: steps) (value : Json) :
    mapDeferredField (fulfil change site groups) path lazy nodes name value =
      mapDeferredField change path lazy nodes name value := by
  have elsewhere : ∀ other : Site, path ++ [name] <+: other.field →
      fulfil change site groups other = change other := by
    intro other leadsOther
    obtain ⟨rest, same⟩ := leadsOther
    have clash : other.field ≠ site.field := by
      intro equal
      rw [leads, ← same, List.append_assoc, List.append_cancel_left_eq] at equal
      exact apart (List.cons.inj equal).1
    funext value
    rw [fulfil, if_neg clash]
  refine mapDeferredField_congr (fun load _ named => elsewhere _ ?_) fun node _ named =>
    Projection.mapDeferred_congr fun other below => elsewhere other ?_
  · rw [← named]
    exact List.prefix_refl _
  · rw [← named]
    exact (path_of_mem_sitesFrom below).trans (List.prefix_append _ _)

/-- A change below a joined relation is one of the objects in its field. -/
theorem changeObjectsAt_mapRelated {child : Projection} {act : Members → Members}
    {change' : Site → Json → Json} {value : Json}
    (one : ∀ inner, value = .object inner →
      changeObjectsAt act steps (child.mapDeferred change path value) = child.mapDeferred change' path value)
    (many : ∀ items, value = .array items → ∀ item ∈ items,
      changeObjectsAt act steps (child.mapDeferred change path item) = child.mapDeferred change' path item) :
    changeObjectsAt act steps (mapRelated (child.mapDeferred change path) value) =
      mapRelated (child.mapDeferred change' path) value := by
  cases value with
  | array items =>
      rw [mapRelated, mapRelated, changeObjectsAt, changeItems_eq, List.map_map]
      exact congrArg Json.array (List.map_congr_left (many items rfl))
  | object inner => exact one inner rfl
  | _ => simp only [mapRelated, Projection.mapDeferred_eq, changeObjectsAt]

/-- The names of an object stay when the fields of deferred relations change. -/
theorem map_fst_mapDeferredField (lazy : List LazyLoad) (nodes : List IncludeNode) (members : Members) :
    (members.map fun field =>
      (field.1, mapDeferredField change path lazy nodes field.1 field.2)).map Prod.fst =
      members.map Prod.fst := by
  rw [List.map_map]
  rfl

/-- Filling the placeholder of a relation fulfils it. -/
theorem fillObject_mapDeferred {lazy : List LazyLoad} {nodes : List IncludeNode} {members : Members}
    (relations : (lazy.map LazyLoad.relation ++ nodes.map IncludeNode.relation).Nodup)
    (names : (members.map Prod.fst).Nodup) {load : LazyLoad} (deferred : load ∈ lazy) :
    fillObject load groups (members.map fun field =>
      (field.1, mapDeferredField change path lazy nodes field.1 field.2)) =
      members.map fun field =>
        (field.1, mapDeferredField (fulfil change ⟨path, load⟩ groups) path lazy nodes field.1 field.2) := by
  rw [fillObject_eq_map (by rwa [map_fst_mapDeferredField]), List.map_map]
  refine List.map_congr_left fun field _ => Prod.ext rfl ?_
  by_cases same : field.1 = load.relation
  · simp only [Function.comp_apply, same, if_true, mapDeferredField_deferred relations deferred, fulfil]
  · simp only [Function.comp_apply, same, if_false]
    exact (mapDeferredField_fulfil_of_ne same rfl _).symm

/-- Filling a site of nested objects fulfils its placeholders. -/
theorem changeObjectsAt_mapDeferred {plan : Projection} {value : Json} (distinct : plan.Distinct)
    (nests : plan.Nests value) (member : site ∈ sitesFrom path plan) (leads : site.path = path ++ steps) :
    changeObjectsAt (fillObject site.load groups) steps (plan.mapDeferred change path value) =
      plan.mapDeferred (fulfil change site groups) path value := by
  induction plan using Projection.induction generalizing path steps value with
  | occurrence table label outputPath key columns includes lazy ih =>
      obtain ⟨names, one, many⟩ := nests
      rename_i members
      obtain ⟨relations, below⟩ := distinct
      rw [sitesFrom, List.mem_append, mem_sitesOfNodes] at member
      rw [Projection.mapDeferred, Projection.mapDeferred]
      rcases member with here | ⟨node, joined, inside⟩
      · obtain ⟨load, deferred, rfl⟩ := List.mem_map.1 here
        obtain rfl : steps = [] := by simpa using leads
        rw [changeObjectsAt, fillObject_mapDeferred relations names deferred]
      · obtain ⟨further, leadsFurther⟩ := path_of_mem_sitesFrom inside
        obtain rfl : node.relation :: further = steps := by
          rw [leads, List.append_assoc, List.append_cancel_left_eq] at leadsFurther
          exact leadsFurther
        have child : ∀ {value : Json}, node.projection.Nests value →
            changeObjectsAt (fillObject site.load groups) further (node.projection.mapDeferred change _ value) =
              node.projection.mapDeferred (fulfil change site groups) (path ++ [node.relation]) value :=
          fun nests => ih node joined (below node joined) nests inside leadsFurther.symm
        rw [changeObjectsAt, changeMember_eq_map (by rwa [map_fst_mapDeferredField]), List.map_map]
        refine congrArg Json.object (List.map_congr_left fun field held => Prod.ext rfl ?_)
        obtain ⟨name, value⟩ := field
        by_cases same : name = node.relation
        · subst same
          have distinctNodes := (List.nodup_append'.1 relations).2.1
          simp only [Function.comp_apply, if_true, mapDeferredField_joined distinctNodes joined]
          refine changeObjectsAt_mapRelated ?_ ?_
          · rintro inner rfl
            exact child (one node joined inner held)
          · rintro items rfl item inside
            exact child (many node joined items held item inside)
        · have leadsField : site.field = path ++ node.relation :: (further ++ [site.load.relation]) := by
            rw [Site.field, leads, List.append_assoc, List.cons_append]
          simp only [Function.comp_apply, same, if_false]
          exact (mapDeferredField_fulfil_of_ne same leadsField _).symm

end

/-- Filling the sites of a plan one after the other fulfils the placeholders of each of them. -/
theorem fillAll_mapDeferred {plan : Projection} {rows : List Json} (distinct : plan.Distinct)
    (nests : ∀ row ∈ rows, plan.Nests row) {batches : List (Site × Groups)}
    (known : ∀ batch ∈ batches, batch.1 ∈ sites plan) (change : Site → Json → Json) :
    fillAll (rows.map (plan.mapDeferred change [])) batches =
      rows.map (plan.mapDeferred
        (batches.foldl (fun change batch => fulfil change batch.1 batch.2) change) []) := by
  induction batches generalizing change with
  | nil => rfl
  | cons batch batches ih =>
      obtain ⟨site, groups⟩ := batch
      obtain ⟨first, others⟩ := List.forall_mem_cons.1 known
      have step : fill (rows.map (plan.mapDeferred change [])) site groups =
          rows.map (plan.mapDeferred (fulfil change site groups) []) := by
        rw [fill, List.map_map]
        exact List.map_congr_left fun row member =>
          changeObjectsAt_mapDeferred distinct (nests row member) first rfl
      rw [List.foldl_cons, ← ih others, ← step]
      rfl

/-- A site that is not filled keeps what it is changed by. -/
theorem foldl_fulfil_of_not_mem {site : Site} {batches : List (Site × Groups)}
    (absent : site.field ∉ batches.map fun batch => batch.1.field) (change : Site → Json → Json) :
    batches.foldl (fun change batch => fulfil change batch.1 batch.2) change site = change site := by
  induction batches generalizing change with
  | nil => rfl
  | cons batch batches ih =>
      rw [List.map_cons, List.mem_cons, not_or] at absent
      rw [List.foldl_cons, ih absent.2]
      funext value
      rw [fulfil, if_neg absent.1]

/-- Each field is fulfilled by the groups of its site. -/
theorem foldl_fulfil {batches : List (Site × Groups)}
    (apart : (batches.map fun batch => batch.1.field).Nodup) (change : Site → Json → Json)
    {site : Site} {groups : Groups} (member : (site, groups) ∈ batches) :
    batches.foldl (fun change batch => fulfil change batch.1 batch.2) change site =
      fun value => site.load.fulfilled groups (change site value) := by
  induction batches generalizing change with
  | nil => contradiction
  | cons batch batches ih =>
      obtain ⟨absent, apart⟩ := List.nodup_cons.1 apart
      rw [List.foldl_cons]
      rcases List.mem_cons.1 member with rfl | later
      · rw [foldl_fulfil_of_not_mem absent]
        funext value
        rw [fulfil, if_pos rfl]
      · have other : site.field ≠ batch.1.field := fun same =>
          absent (List.mem_map.2 ⟨(site, groups), later, same⟩)
        rw [ih apart _ later]
        funext value
        rw [fulfil, if_neg other]

/-- Filling some sites of a plan is one map over the fields of its deferred relations. -/
theorem fillAll_eq_foldl {plan : Projection} {rows : List Json} (distinct : plan.Distinct)
    (nests : ∀ row ∈ rows, plan.Nests row) {batches : List (Site × Groups)}
    (known : ∀ batch ∈ batches, batch.1 ∈ sites plan) :
    fillAll rows batches = rows.map (plan.mapDeferred
      (batches.foldl (fun change batch => fulfil change batch.1 batch.2) fun _ value => value) []) := by
  have unchanged : rows.map (plan.mapDeferred (fun _ value => value) []) = rows :=
    (List.map_congr_left fun row _ => plan.mapDeferred_id [] row).trans (List.map_id rows)
  rw [← fillAll_mapDeferred distinct nests known, unchanged]

/-- In which order all sites of a plan are filled does not matter. -/
theorem fillAll_eq_mapDeferred_of_perm {plan : Projection} {rows : List Json} (distinct : plan.Distinct)
    (apart : ((sites plan).map Site.field).Nodup) (nests : ∀ row ∈ rows, plan.Nests row)
    {batches : List (Site × Groups)} (all : (batches.map Prod.fst).Perm (sites plan))
    {change : Site → Json → Json}
    (each : ∀ batch ∈ batches, change batch.1 = batch.1.load.fulfilled batch.2) :
    fillAll rows batches = rows.map (plan.mapDeferred change []) := by
  have known : ∀ batch ∈ batches, batch.1 ∈ sites plan := fun batch member =>
    all.subset (List.mem_map_of_mem member)
  have fields : (batches.map fun batch => batch.1.field).Nodup := by
    rw [← (all.map Site.field).nodup_iff, List.map_map] at apart
    exact apart
  rw [fillAll_eq_foldl distinct nests known]
  refine List.map_congr_left fun row _ => Projection.mapDeferred_congr (fun site member => ?_) row
  obtain ⟨batch, among, rfl⟩ := List.mem_map.1 (all.symm.subset member)
  rw [foldl_fulfil fields _ among, each batch among]

/-- Filling all sites of a plan is one map over the fields of its deferred relations. -/
theorem fillAll_eq_mapDeferred {plan : Projection} {rows : List Json} (distinct : plan.Distinct)
    (apart : ((sites plan).map Site.field).Nodup) (nests : ∀ row ∈ rows, plan.Nests row)
    {batches : List (Site × Groups)} (all : batches.map Prod.fst = sites plan)
    {change : Site → Json → Json}
    (each : ∀ batch ∈ batches, change batch.1 = batch.1.load.fulfilled batch.2) :
    fillAll rows batches = rows.map (plan.mapDeferred change []) :=
  fillAll_eq_mapDeferred_of_perm distinct apart nests (.of_eq all) each

end RelQuery
