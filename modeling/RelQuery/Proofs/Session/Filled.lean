/-
Module: RelQuery.Proofs.Session.Filled
Purpose: One deferred relation, loaded. The placeholders that a path leads to hold the keys of the rows that
  it leads to; once these are replaced by what shows the attached rows, the objects depict their rows
  with one relation less that is pending.
Main exports: ShowsRows.change, settle, DefersAt.exists_pendingKey_iff, DefersAt.depicts_fill
-/
import RelQuery.Proofs.Plan.Occurrences
import RelQuery.Proofs.Session.Fields
import RelQuery.Proofs.Session.Sites

namespace RelQuery

open Sql
open Json (Members)

variable {V : Type}

/-! ### Placeholders -/

/-- A placeholder holds its key unless that is null. -/
theorem key?_placeholder (load : LazyLoad) (key : Json) :
    LazyRef.key? (load.placeholder key) = if key.isNull then none else some key := by
  rw [LazyLoad.placeholder]
  cases key.isNull with
  | false => simp [LazyRef.pending, LazyRef.key?, Members.get?, List.lookup_cons]
  | true => cases load.kind.isToMany <;> simp [LazyRef.key?]

/-- The key is found where the placeholder stands. -/
theorem pendingKey?_middle {before after : Members} {name : String} (fresh : name ∉ before.map Prod.fst)
    (load : LazyLoad) (key : Json) :
    pendingKey? name (before ++ (name, load.placeholder key) :: after) =
      if key.isNull then none else some key := by
  rw [pendingKey?, get?_middle fresh, Option.bind_some, key?_placeholder]

section

variable {db : Database V} {registry : Registry}

/-- Nothing is attached by a key that is null. -/
theorem attachedRows_of_isNull {keys : RelationKeys} {column : String} {row : Record V}
    (parent : keys.parentColumn? = some column) (null : db.engine.isNull (db.engine.read row column) = true)
    (filter : Option Filter) : attachedRows db registry keys filter row = [] := by
  have unlinked : linked db keys row = [] := by
    apply List.filter_eq_nil_iff.2
    intro target stored
    unfold RelationKeys.parentColumn? at parent
    split at parent
    · obtain rfl := Option.some.inj parent
      simp [RelationKeys.links, pairsHold, db.engine.compare_null_right _ _ _ null]
    · obtain rfl := Option.some.inj parent
      simp [RelationKeys.links, pairsHold, db.engine.compare_null_right _ _ _ null]
    · contradiction
  rw [attachedRows, unlinked, List.filter_nil]

/-- Whatever path it was described at, a load leaves the same placeholder. -/
theorem ShowsDeferred.eq_placeholder {render : Rendering db.engine} {request : Include}
    {relation : Relation} {keys : RelationKeys} {described : String} {load : LazyLoad} {row : Record V}
    {value : Json} (loads : LazyLoad.describe relation keys request described = .ok load)
    (shown : ShowsDeferred db render registry request relation keys true row value) :
    value = load.placeholder (render.toJson (db.engine.read row load.parentColumn)) := by
  obtain ⟨column, parent', stands⟩ := shown
  obtain ⟨-, kind, parent⟩ := LazyLoad.describe_eq_ok loads
  obtain rfl := Option.some.inj (parent.symm.trans parent')
  rw [← kind] at stands
  exact standsFor_iff.1 stands

/-- Where the key is null, the placeholder shows the rows that are attached, namely none. -/
theorem ShowsDeferred.of_isNull {render : Rendering db.engine} {request : Include} {relation : Relation}
    {keys : RelationKeys} {described : String} {load : LazyLoad} {row : Record V}
    (loads : LazyLoad.describe relation keys request described = .ok load)
    (null : db.engine.isNull (db.engine.read row load.parentColumn) = true) :
    ShowsDeferred db render registry request relation keys false row
      (load.placeholder (render.toJson (db.engine.read row load.parentColumn))) := by
  obtain ⟨-, kind, parent⟩ := LazyLoad.describe_eq_ok loads
  have nothing : attachedRows db registry keys request.filter row = [] :=
    attachedRows_of_isNull parent null request.filter
  rw [ShowsDeferred, if_neg Bool.false_ne_true, nothing, LazyLoad.placeholder, render.isNull_toJson, null,
    ← kind, showsRows_iff]
  cases load.kind.isToMany with
  | true => exact ⟨[], [], .nil, .nil, rfl⟩
  | false => exact .inl ⟨rfl, rfl⟩

end

/-! ### Fields of depicted rows -/

section

variable {db : Database V} {render : Rendering db.engine} {registry : Registry} {table : Table}
  {columns : Option (List String)} {requests : List Include} {request : Include} {relation : Relation}
  {keys : RelationKeys} {pending : List String → Bool} {row : Record V} {value : Json}
  (apart : registry.NamesApart) (registered : table ∈ registry.tables)

include apart registered

/-- A relation has another name than the columns that are shown. -/
theorem ShowsColumns.not_mem {name : String} {shown : Members}
    (shows : ShowsColumns render table row (shownNames registry table columns requests) shown)
    (found : registry.relation table name = .ok (relation, keys)) : name ∉ shown.map Prod.fst := by
  intro clash
  obtain ⟨known, rfl⟩ := showsColumns_iff.1 shows
  rw [List.map_map] at clash
  obtain ⟨column, member, rfl⟩ := List.mem_map.1 clash
  have absent := apart table registered relation (Registry.mem_relations_of_relation found)
  rw [Registry.name_of_relation found] at absent
  exact absurd (known column member) (by simpa using absent)

/-- The field of a deferred relation of a row, and what may stand in its place. -/
theorem Depicts.deferred_field (distinct : (requests.map Include.relation).Nodup)
    (requested : request ∈ requests)
    (found : registry.relation table request.relation = .ok (relation, keys))
    (lazy : request.isLazy relation = true)
    (depicts : Depicts db render registry table columns requests pending row value) :
    ∃ before field after, value = .object (before ++ (request.relation, field) :: after) ∧
      request.relation ∉ before.map Prod.fst ∧
      ShowsDeferred db render registry request relation keys (pending [request.relation]) row field ∧
      ∀ (pending' : List String → Bool) (field' : Json),
        (∀ other ∈ requests, other.relation ≠ request.relation → ∀ path,
          pending' (other.relation :: path) = pending (other.relation :: path)) →
        ShowsDeferred db render registry request relation keys (pending' [request.relation]) row field' →
        Depicts db render registry table columns requests pending' row
          (.object (before ++ (request.relation, field') :: after)) := by
  obtain ⟨shown, deferred, joined, shows, relations, rfl⟩ := depicts
  obtain ⟨before, field, after, rfl, new, held, replace⟩ :=
    DepictsRelations.deferred_field distinct requested found lazy relations
  refine ⟨shown ++ before, field, after ++ joined, by simp, ?_, held, ?_⟩
  · rw [List.map_append, List.mem_append, not_or]
    exact ⟨shows.not_mem apart registered found, new⟩
  · intro pending' field' same held'
    exact ⟨shown, _, joined, shows, replace pending' field' same held', by simp⟩

/-- The field of a joined relation of a row, and what may stand in its place. -/
theorem Depicts.joined_field (distinct : (requests.map Include.relation).Nodup)
    (requested : request ∈ requests)
    (found : registry.relation table request.relation = .ok (relation, keys))
    (eager : request.isLazy relation = false)
    (depicts : Depicts db render registry table columns requests pending row value) :
    ∃ before field after, value = .object (before ++ (request.relation, field) :: after) ∧
      request.relation ∉ before.map Prod.fst ∧
      ShowsJoined db render registry request relation keys (fun path => pending (request.relation :: path)) row
        field ∧
      ∀ (pending' : List String → Bool) (field' : Json),
        (∀ other ∈ requests, other.relation ≠ request.relation → ∀ path,
          pending' (other.relation :: path) = pending (other.relation :: path)) →
        ShowsJoined db render registry request relation keys
          (fun path => pending' (request.relation :: path)) row field' →
        Depicts db render registry table columns requests pending' row
          (.object (before ++ (request.relation, field') :: after)) := by
  obtain ⟨shown, deferred, joined, shows, relations, rfl⟩ := depicts
  obtain ⟨before, field, after, rfl, new, held, replace⟩ :=
    DepictsRelations.joined_field distinct requested found eager relations
  refine ⟨shown ++ deferred ++ before, field, after, by simp, ?_, held, ?_⟩
  · rw [List.append_assoc, List.map_append, List.mem_append, not_or, List.map_append]
    exact ⟨shows.not_mem apart registered found, new⟩
  · intro pending' field' same held'
    exact ⟨shown, deferred, _, shows, replace pending' field' same held', by simp⟩

end

/-! ### Values of relations -/

/-- Matched items stay matched, in another way, once each of them is changed so. -/
theorem forall₂_map_of_mem {α β γ : Type} {fits : α → β → Prop} {fits' : α → γ → Prop} {f : β → γ}
    {as : List α} {bs : List β} (matched : List.Forall₂ fits as bs)
    (each : ∀ a ∈ as, ∀ b, fits a b → fits' a (f b)) : List.Forall₂ fits' as (bs.map f) := by
  induction matched with
  | nil => exact .nil
  | @cons a b as bs first rest ih =>
      obtain ⟨here, others⟩ := List.forall_mem_cons.1 each
      exact .cons (here b first) (ih others)

section

variable {kind : RelationKind} {rows : List (Record V)} {shows shows' : Record V → Json → Prop}
  {value : Json} {path : List String}

/-- An object is at hand in what shows some rows if it is in what shows one of them. -/
theorem ShowsRows.exists_object_iff (shown : ShowsRows kind rows shows value) {wanted : Members → Prop}
    {leads : Record V → Prop}
    (each : ∀ related ∈ rows, ∀ item, shows related item →
      ((∃ members ∈ objectsAt path item, wanted members) ↔ leads related)) :
    (∃ members ∈ objectsAt path value, wanted members) ↔ ∃ related ∈ rows, leads related := by
  rw [showsRows_iff] at shown
  split at shown
  · obtain ⟨items, order, perm, matched, rfl⟩ := shown
    have inside : ∀ related ∈ order, related ∈ rows := fun related member => perm.subset member
    have reordered : (∃ related ∈ rows, leads related) ↔ ∃ related ∈ order, leads related := by
      simp only [perm.mem_iff]
    rw [reordered, objectsAt, objectsOfItems_eq]
    clear perm reordered
    induction matched with
    | nil => simp
    | @cons related item order items first rest ih =>
        obtain ⟨here, others⟩ := List.forall_mem_cons.1 inside
        have both := or_congr (each related here item first) (ih others)
        simpa [or_and_right, exists_or] using both
  · rcases shown with ⟨rfl, rfl⟩ | ⟨row, rfl, shows⟩
    · simp [objectsAt]
    · rw [each row (List.mem_singleton_self row) value shows]
      simp

theorem ShowsRows.mono (shown : ShowsRows kind rows shows value)
    (weaker : ∀ related item, shows related item → shows' related item) :
    ShowsRows kind rows shows' value := by
  rw [showsRows_iff] at shown ⊢
  split at shown
  · rename_i many
    obtain ⟨items, order, perm, matched, rfl⟩ := shown
    rw [if_pos many]
    exact ⟨items, order, perm, matched.imp weaker, rfl⟩
  · rename_i one
    rw [if_neg one]
    rcases shown with empty | ⟨row, single, shows⟩
    · exact .inl empty
    · exact .inr ⟨row, single, weaker row value shows⟩

/-- What shows some rows still shows them, in another way, once each of them is shown so. -/
theorem ShowsRows.change (shown : ShowsRows kind rows shows value) {change : Members → Members}
    (each : ∀ related ∈ rows, ∀ item, shows related item →
      shows' related (changeObjectsAt change path item)) :
    ShowsRows kind rows shows' (changeObjectsAt change path value) := by
  rw [showsRows_iff] at shown ⊢
  split at shown
  · rename_i many
    obtain ⟨items, order, perm, matched, rfl⟩ := shown
    rw [if_pos many]
    refine ⟨items.map (changeObjectsAt change path), order, perm, ?_, ?_⟩
    · exact forall₂_map_of_mem matched fun related member => each related (perm.subset member)
    · rw [changeObjectsAt, changeItems_eq]
  · rename_i one
    rw [if_neg one]
    rcases shown with ⟨rfl, rfl⟩ | ⟨row, rfl, shows⟩
    · exact .inl ⟨rfl, rfl⟩
    · exact .inr ⟨row, rfl, each row (List.mem_singleton_self row) value shows⟩

end

/-! ### One site -/

/-- What is pending once the field at a path is filled. -/
def settle (pending : List String → Bool) (field : List String) : List String → Bool :=
  fun path => path != field && pending path

theorem settle_self (pending : List String → Bool) (field : List String) :
    settle pending field field = false := by
  simp [settle]

theorem settle_of_ne (pending : List String → Bool) {field path : List String} (other : path ≠ field) :
    settle pending field path = pending path := by
  simp [settle, other]

/-- Below the first relation of a field, what is left of it is settled. -/
theorem settle_cons (pending : List String → Bool) (name : String) (field : List String) :
    (fun path => settle pending (name :: field) (name :: path)) =
      settle (fun path => pending (name :: path)) field := by
  funext path
  rw [settle, settle, bne, bne, List.cons_beq_cons, beq_self_eq_true, Bool.true_and]

section

variable {db : Database V} {render : Rendering db.engine} {registry : Registry} {table : Table}
  {columns : Option (List String)} {requests : List Include} {pending : List String → Bool}
  {row : Record V} {value : Json} {path : List String} {deferral : Deferral} {load : LazyLoad}
  {described : String} (apart : registry.NamesApart)
  (loads : LazyLoad.describe deferral.relation deferral.keys deferral.request described = .ok load)

/-- A path leads on from the rows that its first relation attaches. -/
theorem leadsTo_cons_iff {request : Include} {relation : Relation} {keys : RelationKeys}
    (distinct : (requests.map Include.relation).Nodup) (requested : request ∈ requests)
    (found : registry.relation table request.relation = .ok (relation, keys)) {source : Record V} :
    LeadsTo db registry table requests (request.relation :: path) row source ↔
      ∃ related ∈ attachedRows db registry keys request.filter row,
        LeadsTo db registry keys.target request.includes path related source := by
  rw [LeadsTo]
  constructor
  · rintro ⟨other, listed, same, relation', keys', found', related, attached, leads⟩
    obtain ⟨rfl, rfl⟩ := Registry.relation_unique found found'
    obtain rfl := List.inj_on_of_nodup_map distinct listed requested same
    exact ⟨related, attached, leads⟩
  · rintro ⟨related, attached, leads⟩
    exact ⟨request, requested, rfl, relation, keys, found, related, attached, leads⟩

/-- The rows that a path leads to are rows of the source. -/
theorem DefersAt.stored (defers : DefersAt registry table requests path deferral)
    (distinct : RequestsDistinct registry table requests) (stored : row ∈ db.rowsOf table)
    {source : Record V} (leads : LeadsTo db registry table requests path row source) :
    source ∈ db.rowsOf deferral.source := by
  induction defers generalizing row with
  | here requested found lazy =>
      rw [LeadsTo] at leads
      rwa [leads]
  | through requested found eager further ih =>
      cases distinct with
      | intro distinct inner =>
        obtain ⟨related, attached, leads⟩ := (leadsTo_cons_iff distinct requested found).1 leads
        exact ih (inner _ requested _ _ found eager) (attachedRows_subset attached) leads

include apart loads

/-- The keys of the placeholders that a path leads to are those of the rows that it leads to. -/
theorem DefersAt.exists_pendingKey_iff (defers : DefersAt registry table requests path deferral)
    (registered : table ∈ registry.tables) (distinct : RequestsDistinct registry table requests)
    (waits : pending (deferral.field path) = true)
    (depicts : Depicts db render registry table columns requests pending row value) (key : Json) :
    (∃ members ∈ objectsAt path value, pendingKey? load.relation members = some key) ↔
      ∃ source, LeadsTo db registry table requests path row source ∧
        db.engine.isNull (db.engine.read source load.parentColumn) = false ∧
        render.toJson (db.engine.read source load.parentColumn) = key := by
  induction defers generalizing columns pending row value with
  | @here table requests request relation keys requested found lazy =>
      cases distinct with
      | intro distinct inner =>
        have named := (LazyLoad.describe_eq_ok loads).1
        rw [Registry.name_of_relation found] at named
        obtain ⟨before, field, after, rfl, new, held, -⟩ :=
          depicts.deferred_field apart registered distinct requested found lazy
        rw [Deferral.field, List.nil_append] at waits
        rw [waits] at held
        obtain rfl := held.eq_placeholder loads
        simp only [objectsAt, List.mem_singleton, exists_eq_left, LeadsTo, named, pendingKey?_middle new,
          render.isNull_toJson]
        cases db.engine.isNull (db.engine.read row load.parentColumn) <;> simp
  | @through table requests request relation keys path deferral requested found eager further ih =>
      cases distinct with
      | intro distinct inner =>
        obtain ⟨before, field, after, rfl, new, held, -⟩ :=
          depicts.joined_field apart registered distinct requested found eager
        have within : (∃ members ∈ objectsAt path field, pendingKey? load.relation members = some key) ↔
            ∃ related ∈ attachedRows db registry keys request.filter row, ∃ source,
              LeadsTo db registry keys.target request.includes path related source ∧
                db.engine.isNull (db.engine.read source load.parentColumn) = false ∧
                render.toJson (db.engine.read source load.parentColumn) = key := by
          apply ShowsRows.exists_object_iff held
          intro related attached item shown
          exact ih loads (Registry.target_mem_of_relation found)
            (inner request requested relation keys found eager) waits shown
        rw [objectsAt, objectsOfMember_middle new, within]
        constructor
        · rintro ⟨related, attached, source, leads, holds⟩
          exact ⟨source, (leadsTo_cons_iff distinct requested found).2 ⟨related, attached, leads⟩, holds⟩
        · rintro ⟨source, leads, holds⟩
          obtain ⟨related, attached, leads⟩ := (leadsTo_cons_iff distinct requested found).1 leads
          exact ⟨related, attached, source, leads, holds⟩

/-- Once its placeholders are filled with what shows the attached rows, a relation is no longer pending. -/
theorem DefersAt.depicts_fill (defers : DefersAt registry table requests path deferral)
    (registered : table ∈ registry.tables) (distinct : RequestsDistinct registry table requests)
    (waits : pending (deferral.field path) = true)
    (depicts : Depicts db render registry table columns requests pending row value) {groups : Groups}
    (loaded : ∀ source, LeadsTo db registry table requests path row source →
      db.engine.isNull (db.engine.read source load.parentColumn) = false →
        ShowsDeferred db render registry deferral.request deferral.relation deferral.keys false source
          (loadedValue load.kind (groups.of (render.toJson (db.engine.read source load.parentColumn))))) :
    Depicts db render registry table columns requests (settle pending (deferral.field path)) row
      (changeObjectsAt (fillObject load groups) path value) := by
  induction defers generalizing columns pending row value with
  | @here table requests request relation keys requested found lazy =>
      cases distinct with
      | intro distinct inner =>
        have named := (LazyLoad.describe_eq_ok loads).1
        rw [Registry.name_of_relation found] at named
        obtain ⟨before, field, after, rfl, new, held, replace⟩ :=
          depicts.deferred_field apart registered distinct requested found lazy
        rw [Deferral.field, List.nil_append] at waits ⊢
        rw [waits] at held
        obtain rfl := held.eq_placeholder loads
        have elsewhere : ∀ other ∈ requests, other.relation ≠ request.relation → ∀ path,
            settle pending [request.relation] (other.relation :: path) = pending (other.relation :: path) := by
          intro other _ different path
          exact settle_of_ne pending fun same => different (List.cons.inj same).1
        rw [changeObjectsAt, fillObject, named, pendingKey?_middle new, render.isNull_toJson]
        cases null : db.engine.isNull (db.engine.read row load.parentColumn) with
        | true =>
            apply replace _ _ elsewhere
            rw [settle_self]
            exact .of_isNull loads null
        | false =>
            simp only [Bool.false_eq_true, if_false, set_middle new]
            apply replace _ _ elsewhere
            rw [settle_self]
            exact loaded row rfl null
  | @through table requests request relation keys path deferral requested found eager further ih =>
      cases distinct with
      | intro distinct inner =>
        obtain ⟨before, field, after, rfl, new, held, replace⟩ :=
          depicts.joined_field apart registered distinct requested found eager
        rw [changeObjectsAt, changeMember_middle new]
        apply replace
        · intro other _ different steps
          exact settle_of_ne pending fun same => different (List.cons.inj same).1
        · rw [Deferral.field, List.cons_append, settle_cons]
          apply ShowsRows.change held
          intro related attached item shown
          apply ih loads (Registry.target_mem_of_relation found) (inner request requested relation keys found eager)
            waits shown
          intro source leads
          exact loaded source ((leadsTo_cons_iff distinct requested found).2 ⟨related, attached, leads⟩)

end

end RelQuery
