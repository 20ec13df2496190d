/-
Module: RelQuery.Proofs.Plan.Deferral
Purpose: Whether a relation is deferred decides how its rows are loaded, not what they look like. Trees of
  includes that differ in nothing else show the same columns, follow the same paths and, once everything
  is loaded, are depicted by the same objects.
Main exports: SameButDeferral, SameButDeferral.shownNames_eq, SameButDeferral.follow_eq,
  SameButDeferral.alike
-/
import RelQuery.Proofs.Json.Alike
import RelQuery.Proofs.Plan.Columns
import RelQuery.Proofs.Plan.Follow

namespace RelQuery

open Sql
open Json (Members)

variable {V : Type}

/-- The requests differ in nothing but which relations they defer. Where they do differ, `whole` says that
    the rows which the relations hang off show all their columns, and the related rows do so, too. -/
inductive SameButDeferral : (whole : Bool) → List Include → List Include → Prop
  | nil {whole : Bool} : SameButDeferral whole [] []
  | cons {whole : Bool} {name : String} {columns : Option (List String)} {filter : Option Filter}
      {lazy lazy' : Option Bool} {includes includes' requests requests' : List Include}
      (marked : lazy = lazy' ∨ whole = true ∧ columns = none)
      (below : SameButDeferral columns.isNone includes includes')
      (rest : SameButDeferral whole requests requests') :
      SameButDeferral whole (⟨name, columns, filter, lazy, includes⟩ :: requests)
        (⟨name, columns, filter, lazy', includes'⟩ :: requests')

/-! ### Columns -/

section

variable {registry : Registry} {table : Table}

/-- In a validated registry relations are loaded by columns of the table. -/
theorem hasColumn_of_parentColumn {relation : Relation} {keys : RelationKeys} {name column : String}
    (valid : registry.validate = .ok ()) (registered : table ∈ registry.tables)
    (found : registry.relation table name = .ok (relation, keys))
    (parent : keys.parentColumn? = some column) : table.hasColumn column = true := by
  have known := Registry.known_of_relation valid registered found
  unfold RelationKeys.parentColumn? at parent
  split at parent
  · obtain rfl := Option.some.inj parent
    exact (known _ List.mem_cons_self).2
  · obtain rfl := Option.some.inj parent
    exact (known.1 _ List.mem_cons_self).2
  · contradiction

theorem hasColumn_of_parentColumns {requests : List Include} (valid : registry.validate = .ok ())
    (registered : table ∈ registry.tables) :
    ∀ column ∈ parentColumns registry table requests, table.hasColumn column = true := by
  intro column member
  obtain ⟨request, -, read⟩ := List.mem_filterMap.1 member
  split at read
  · rename_i found
    split at read
    · exact hasColumn_of_parentColumn valid registered found read
    · contradiction
  · contradiction

/-- Where all columns are shown, nothing needs to be added to them. -/
theorem shownNames_none {requests : List Include} (valid : registry.validate = .ok ())
    (registered : table ∈ registry.tables) :
    shownNames registry table none requests = table.columns.map Column.name := by
  have nothing : (parentColumns registry table requests).filter
      (· ∉ table.columns.map Column.name) = [] := by
    refine List.filter_eq_nil_iff.2 fun name member => ?_
    have known := hasColumn_of_parentColumns valid registered name member
    obtain ⟨column, found⟩ := Option.isSome_iff_exists.1 known
    have same : column.name = name := by simpa using List.find?_some found
    have listed := List.mem_map.2 ⟨column, List.mem_of_find?_eq_some found, same⟩
    simpa using listed
  simp only [shownNames]
  rw [nothing, List.eraseDups_nil, List.append_nil]

/-- Where not all columns are shown, the same relations are deferred. -/
theorem SameButDeferral.parentColumns_eq {requests requests' : List Include}
    (same : SameButDeferral false requests requests') :
    parentColumns registry table requests = parentColumns registry table requests' := by
  generalize restricted : false = whole at same
  induction same with
  | nil => rfl
  | cons marked below rest ihBelow ih =>
      obtain rfl | ⟨whole, -⟩ := marked
      · have others := ih restricted
        simp only [parentColumns, List.filterMap_cons, Include.isLazy] at others ⊢
        rw [others]
        rfl
      · rw [← restricted] at whole
        contradiction

/-- The same columns are shown. -/
theorem SameButDeferral.shownNames_eq {columns : Option (List String)} {requests requests' : List Include}
    (same : SameButDeferral columns.isNone requests requests') (valid : registry.validate = .ok ())
    (registered : table ∈ registry.tables) :
    shownNames registry table columns requests = shownNames registry table columns requests' := by
  cases columns with
  | none => rw [shownNames_none valid registered, shownNames_none valid registered]
  | some columns => simp only [shownNames, parentColumns_eq same]

theorem isNone_requestedColumns (keys : RelationKeys) (lazy : Bool) (columns : Option (List String)) :
    (requestedColumns keys lazy columns).isNone = columns.isNone := by
  unfold requestedColumns
  split
  · simp
  · rfl

end

/-! ### Paths -/

/-- The same paths lead to the same rows. -/
theorem SameButDeferral.follow_eq {db : Database V} {registry : Registry} {whole : Bool}
    {requests requests' : List Include} (same : SameButDeferral whole requests requests') {table : Table}
    {path : List String} {row : Record V} :
    follow db registry table requests path row = follow db registry table requests' path row := by
  induction same generalizing table path row with
  | nil => rfl
  | @cons whole name columns filter lazy lazy' includes includes' requests requests' marked below rest
      ihBelow ih =>
      cases path with
      | nil => rfl
      | cons step path =>
          by_cases here : name = step
          · subst here
            simp only [follow, List.find?_cons_of_pos, beq_self_eq_true]
            split
            · rename_i found requested
              simp only [Option.some.injEq] at requested
              subst requested
              simp only [found]
              split
              · exact ihBelow
              · rfl
            · rename_i none
              split
              · rename_i found requested
                exact absurd rfl (none _ _ _ found)
              · rfl
          · rw [follow_cons_of_ne here, follow_cons_of_ne here]
            exact ih

/-! ### Objects -/

/-- Values that show the same rows are alike if they are alike row by row. -/
theorem alike_of_showsRows {kind : RelationKind} {rows : List (Record V)}
    {shows shows' : Record V → Json → Prop} {value value' : Json} (shown : ShowsRows kind rows shows value)
    (shown' : ShowsRows kind rows shows' value')
    (each : ∀ row item item', shows row item → shows' row item' → Json.Alike item item') :
    Json.Alike value value' := by
  rw [showsRows_iff] at shown shown'
  split at shown
  · rename_i many
    rw [if_pos many] at shown'
    obtain ⟨items, order, perm, matched, rfl⟩ := shown
    obtain ⟨items', order', perm', matched', rfl⟩ := shown'
    obtain ⟨reordered, itemsPerm, rematched⟩ :=
      Json.exists_perm_of_forall₂ matched.flip (perm.trans perm'.symm)
    refine .array itemsPerm ?_
    clear itemsPerm matched perm perm'
    induction rematched generalizing items' with
    | nil =>
        cases matched'
        exact .nil
    | cons first rest ih =>
        cases matched' with
        | cons first' rest' => exact .cons (each _ _ _ first first') (ih _ rest')
  · rename_i one
    rw [if_neg one] at shown'
    rcases shown with ⟨rfl, rfl⟩ | ⟨row, rfl, shows₁⟩
    · rcases shown' with ⟨-, rfl⟩ | ⟨row, nonempty, -⟩
      · exact .same _
      · simp at nonempty
    · rcases shown' with ⟨empty, -⟩ | ⟨other, same, shows₂⟩
      · simp at empty
      · obtain rfl := List.singleton_inj.1 same
        exact each _ _ _ shows₁ shows₂

section

variable {db : Database V} {render : Rendering db.engine} {registry : Registry}

/-- Fields that are matched by their names and have like values. -/
abbrev LikeFields (fields fields' : Members) : Prop :=
  List.Forall₂ (fun a b => a.1 = b.1 ∧ Json.Alike a.2 b.2) fields fields'

/-- Objects of a row are alike if their relations are. -/
theorem alike_of_isObject {table : Table} {columns : Option (List String)}
    {requests requests' : List Include} {row : Record V}
    {relations relations' : (deferred joined : Members) → Prop} {value value' : Json}
    (sameColumns : shownNames registry table columns requests = shownNames registry table columns requests')
    (each : ∀ deferred joined deferred' joined', relations deferred joined → relations' deferred' joined' →
      ∃ fields fields', (deferred ++ joined).Perm fields ∧ (deferred' ++ joined').Perm fields' ∧
        LikeFields fields fields')
    (object : IsObject db render registry table columns requests row relations value)
    (object' : IsObject db render registry table columns requests' row relations' value') :
    Json.Alike value value' := by
  obtain ⟨shown, deferred, joined, showsColumns, related, rfl⟩ := object
  obtain ⟨shown', deferred', joined', showsColumns', related', rfl⟩ := object'
  obtain rfl : shown = shown' := by
    rw [(showsColumns_iff.1 showsColumns).2, (showsColumns_iff.1 showsColumns').2, sameColumns]
  obtain ⟨fields, fields', left, right, like⟩ := each _ _ _ _ related related'
  have columnsLike : LikeFields shown shown := List.forall₂_same.2 fun field _ => ⟨rfl, .same _⟩
  rw [List.append_assoc, List.append_assoc]
  exact .object_of_perm (left.append_left _) (right.append_left _) (List.rel_append columnsLike like)

/-- A field that stands first among those that are deferred or among those that are joined can be taken
    from both. -/
theorem exists_perm_of_placed {relations : (deferred joined : Members) → Prop} {lazy : Bool}
    {field : String × Json} {deferred joined : Members}
    (placed : if lazy = true then ∃ others, deferred = field :: others ∧ relations others joined
      else ∃ others, joined = field :: others ∧ relations deferred others) :
    ∃ deferred' joined', relations deferred' joined' ∧
      (deferred ++ joined).Perm (field :: (deferred' ++ joined')) := by
  cases lazy with
  | true =>
      obtain ⟨others, rfl, more⟩ := placed
      exact ⟨others, joined, more, .refl _⟩
  | false =>
      obtain ⟨others, rfl, more⟩ := placed
      exact ⟨deferred, others, more, List.perm_middle⟩

/-- The relations of a row are depicted by the same fields. -/
theorem SameButDeferral.exists_fields {whole : Bool} {requests requests' : List Include}
    (same : SameButDeferral whole requests requests') (valid : registry.validate = .ok ())
    {table : Table} {row : Record V} {deferred joined deferred' joined' : Members}
    (depicts : DepictsRelations db render registry requests table (fun _ => false) row deferred joined)
    (depicts' : DepictsRelations db render registry requests' table (fun _ => false) row deferred' joined') :
    ∃ fields fields', (deferred ++ joined).Perm fields ∧ (deferred' ++ joined').Perm fields' ∧
      LikeFields fields fields' := by
  induction same generalizing table row deferred joined deferred' joined' with
  | nil =>
      rw [DepictsRelations] at depicts depicts'
      obtain ⟨⟨rfl, rfl⟩, rfl, rfl⟩ := And.intro depicts depicts'
      exact ⟨[], [], .nil, .nil, .nil⟩
  | @cons whole name columns filter lazy lazy' includes includes' requests requests' marked below rest
      ihBelow ih =>
      rw [DepictsRelations] at depicts depicts'
      obtain ⟨relation, keys, value, found, shows, others⟩ := depicts
      obtain ⟨relation', keys', value', found', shows', others'⟩ := depicts'
      rw [← Registry.relation_eq_ok_iff] at found found'
      obtain ⟨rfl, rfl⟩ := Registry.relation_unique found found'
      simp only [Bool.and_false, Bool.false_eq_true, if_false] at shows shows'
      have like : Json.Alike value value' := by
        refine alike_of_showsRows shows shows' fun related item item' object object' => ?_
        have sameColumns : requestedColumns keys
            (Include.isLazy ⟨name, columns, filter, lazy, includes⟩ relation) columns =
              requestedColumns keys
                (Include.isLazy ⟨name, columns, filter, lazy', includes'⟩ relation) columns := by
          rcases marked with rfl | ⟨-, rfl⟩
          · rfl
          · unfold requestedColumns
            split <;> split <;> rfl
        rw [← sameColumns] at object'
        refine alike_of_isObject ?_ (fun _ _ _ _ => ihBelow) object object'
        refine SameButDeferral.shownNames_eq ?_ valid (Registry.target_mem_of_relation found)
        rw [isNone_requestedColumns]
        exact below
      obtain ⟨deferred₁, joined₁, more, perm⟩ := exists_perm_of_placed others
      obtain ⟨deferred₂, joined₂, more', perm'⟩ := exists_perm_of_placed others'
      obtain ⟨fields, fields', left, right, matched⟩ := ih more more'
      exact ⟨_, _, perm.trans (left.cons _), perm'.trans (right.cons _), .cons ⟨rfl, like⟩ matched⟩

/-- A row is depicted by the same object. -/
theorem SameButDeferral.alike {columns : Option (List String)} {requests requests' : List Include}
    (same : SameButDeferral columns.isNone requests requests') (valid : registry.validate = .ok ())
    {table : Table} (registered : table ∈ registry.tables) {row : Record V} {value value' : Json}
    (depicts : Depicts db render registry table columns requests (fun _ => false) row value)
    (depicts' : Depicts db render registry table columns requests' (fun _ => false) row value') :
    Json.Alike value value' :=
  alike_of_isObject (same.shownNames_eq valid registered) (fun _ _ _ _ => same.exists_fields valid) depicts
    depicts'

end

end RelQuery
