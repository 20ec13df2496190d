/-
Module: RelQuery.Proofs.Hydrate.Nest
Purpose: Objects are built row by row, but what is built depends on the rows as a whole: the rows of an
  object are divided by the keys of each joined relation, in the order in which these are first seen, and
  each part makes an object of its own.
Main exports: grouped, Cell.nest, merge_nest, hydrate_eq_nest, joinedValue
-/
import RelQuery.Hydrate

namespace RelQuery

/-! ### Groups -/

section

variable {ρ α : Type} (key : ρ → Option String) (make : List ρ → α)

/-- The keys of some rows, each once, in the order in which they are first seen. -/
def keysOf (rows : List ρ) : List String := (rows.filterMap key).eraseDups

/-- The rows of one key. -/
def rowsOfKey (rows : List ρ) (k : String) : List ρ := rows.filter fun row => key row == some k

/-- What the rows of each key make. Rows without key make nothing. -/
def grouped (rows : List ρ) : List (String × α) :=
  (keysOf key rows).map fun k => (k, make (rowsOfKey key rows k))

variable {key make}

theorem keysOf_map {σ : Type} (row : σ → ρ) (items : List σ) :
    keysOf key (items.map row) = keysOf (fun item => key (row item)) items := by
  rw [keysOf, keysOf, List.filterMap_map]
  rfl

theorem mem_keysOf {rows : List ρ} {k : String} : k ∈ keysOf key rows ↔ ∃ row ∈ rows, key row = some k := by
  simp [keysOf]

theorem nodup_eraseDups {β : Type} [BEq β] [LawfulBEq β] (ks : List β) : ks.eraseDups.Nodup := by
  induction length : ks.length using Nat.strongRecOn generalizing ks with
  | ind n ih =>
      cases ks with
      | nil => simp
      | cons k ks =>
          have shorter := List.length_filter_le (fun other => !other == k) ks
          rw [List.eraseDups_cons, List.nodup_cons]
          refine ⟨by simp, ih _ ?_ _ rfl⟩
          simp only [List.length_cons] at length
          omega

/-- Whether repetitions are removed before or after items are left out makes no difference. -/
theorem eraseDups_filter {β : Type} [BEq β] [LawfulBEq β] (keep : β → Bool) (ks : List β) :
    (ks.filter keep).eraseDups = ks.eraseDups.filter keep := by
  induction length : ks.length using Nat.strongRecOn generalizing ks with
  | ind n ih =>
      cases ks with
      | nil => simp
      | cons k ks =>
          have shorter := List.length_filter_le (fun other => !other == k) ks
          have rest := ih _ (by rw [← length, List.length_cons]; omega)
            (ks.filter fun other => !other == k) rfl
          rw [List.eraseDups_cons, List.filter_cons, List.filter_cons]
          split
          · rw [List.eraseDups_cons, ← rest, List.filter_filter, List.filter_filter]
            simp only [Bool.and_comm]
          · rename_i dropped
            rw [← rest, List.filter_filter]
            congr 1
            refine List.filter_congr fun other _ => ?_
            by_cases same : other = k
            · simp [same, dropped]
            · simp [same]

theorem nodup_keysOf (rows : List ρ) : (keysOf key rows).Nodup := nodup_eraseDups _

/-- A key is appended if it is new. -/
theorem keysOf_append_some {rows : List ρ} {row : ρ} {k : String} (found : key row = some k) :
    keysOf key (rows ++ [row]) =
      if k ∈ keysOf key rows then keysOf key rows else keysOf key rows ++ [k] := by
  by_cases old : ∃ row ∈ rows, key row = some k
  · simp [keysOf, found, List.eraseDups_append, List.removeAll, old]
  · simp [keysOf, found, List.eraseDups_append, List.removeAll, List.eraseDups_cons, old]

theorem rowsOfKey_append_self {rows : List ρ} {row : ρ} {k : String} (found : key row = some k) :
    rowsOfKey key (rows ++ [row]) k = rowsOfKey key rows k ++ [row] := by
  simp [rowsOfKey, found]

theorem rowsOfKey_append_other {rows : List ρ} {row : ρ} {k other : String} (found : key row = some k)
    (different : other ≠ k) : rowsOfKey key (rows ++ [row]) other = rowsOfKey key rows other := by
  simp [rowsOfKey, found, Ne.symm different]

/-- A row without key leaves the groups as they are. -/
theorem grouped_append_none {rows : List ρ} {row : ρ} (missing : key row = none) :
    grouped key make (rows ++ [row]) = grouped key make rows := by
  simp [grouped, keysOf, rowsOfKey, missing]

theorem alterKeyed_map {k : String} {change : Option α → α} {ks : List String} {f : String → α}
    (distinct : ks.Nodup) :
    alterKeyed k change (ks.map fun other => (other, f other)) =
      if k ∈ ks then ks.map fun other => (other, if other = k then change (some (f other)) else f other)
      else ks.map (fun other => (other, f other)) ++ [(k, change none)] := by
  induction ks with
  | nil => simp [alterKeyed]
  | cons first ks ih =>
      obtain ⟨new, distinct⟩ := List.nodup_cons.1 distinct
      simp only [List.map_cons, alterKeyed]
      by_cases same : first = k
      · subst same
        have others : ∀ other ∈ ks, other ≠ first := fun other member => by
          rintro rfl
          exact new member
        simp only [if_true, List.mem_cons_self, List.cons.injEq, true_and]
        exact List.map_congr_left fun other member => by simp [others other member]
      · rw [if_neg same, ih distinct]
        by_cases member : k ∈ ks
        · simp [same, member]
        · simp [Ne.symm same, member]

/-- A row with a key changes the group of that key, or makes a new one. -/
theorem alterKeyed_grouped {rows : List ρ} {row : ρ} {k : String} {change : Option α → α}
    (found : key row = some k) (new : change none = make [row])
    (old : ∀ others, others ≠ [] → change (some (make others)) = make (others ++ [row])) :
    alterKeyed k change (grouped key make rows) = grouped key make (rows ++ [row]) := by
  rw [grouped, alterKeyed_map (nodup_keysOf rows), grouped, keysOf_append_some found]
  split
  · rename_i member
    refine List.map_congr_left fun other known => ?_
    by_cases same : other = k
    · subst same
      have inhabited : rowsOfKey key rows other ≠ [] := by
        obtain ⟨first, inside, keyed⟩ := mem_keysOf.1 member
        exact List.ne_nil_of_mem (List.mem_filter.2 ⟨inside, by simp [keyed]⟩)
      simp [rowsOfKey_append_self found, old _ inhabited]
    · simp [same, rowsOfKey_append_other found same]
  · rename_i fresh
    have none : rowsOfKey key rows k = [] := by
      refine List.filter_eq_nil_iff.2 fun row inside keyed => fresh ?_
      exact mem_keysOf.2 ⟨row, inside, by simpa using keyed⟩
    have others : ∀ other ∈ keysOf key rows, other ≠ k := fun other member => by
      rintro rfl
      exact fresh member
    simp only [List.map_append, List.map_cons, List.map_nil, new]
    congr 1
    · refine List.map_congr_left fun other known => ?_
      rw [rowsOfKey_append_other found (others other known)]
    · rw [rowsOfKey_append_self found, none, List.nil_append]

end

/-! ### Nested groups -/

/-- The rows in which an occurrence is present. -/
def presentRows (projection : Projection) (rows : List Row) : List Row :=
  rows.filter fun row => (rowKey projection row).isSome

mutual

/-- The object that some rows make of an occurrence: its fields are those of the first row, and its
    relations are made of all of them. -/
def Cell.nest : Projection → List Row → Cell
  | ⟨table, label, outputPath, key, columns, includes, lazy⟩, rows =>
    .mk (ownFields ⟨table, label, outputPath, key, columns, includes, lazy⟩ (rows.headD []))
      (Slot.nestEach includes rows)

/-- What some rows make of joined relations. -/
def Slot.nestEach : List IncludeNode → List Row → List Slot
  | [], _ => []
  | ⟨_, kind, child⟩ :: nodes, rows =>
    (if kind.isToMany then .many (grouped (rowKey child) (Cell.nest child) rows)
      else if (presentRows child rows).isEmpty then .one none
      else .one (some (Cell.nest child (presentRows child rows)))) :: Slot.nestEach nodes rows

end

theorem nestEach_nil (nodes : List IncludeNode) : Slot.nestEach nodes [] = nodes.map Slot.empty := by
  induction nodes with
  | nil => rfl
  | cons node nodes ih =>
      obtain ⟨relation, kind, child⟩ := node
      cases many : kind.isToMany <;>
        simp [Slot.nestEach, Slot.empty, ih, many, grouped, keysOf, presentRows]

theorem presentRows_append (projection : Projection) (rows : List Row) (row : Row) :
    presentRows projection (rows ++ [row]) =
      if (rowKey projection row).isSome then presentRows projection rows ++ [row]
      else presentRows projection rows := by
  cases present : (rowKey projection row).isSome <;> simp [presentRows, present]

mutual

/-- The first row of an object is merged into its empty slots. -/
theorem merge_start (row : Row) : ∀ projection : Projection,
    merge row projection (Cell.start projection row) = Cell.nest projection [row]
  | ⟨table, label, outputPath, key, columns, includes, lazy⟩ => by
      have slots := mergeSlots_nest row includes []
      rw [nestEach_nil, List.nil_append] at slots
      simp only [Cell.start, merge, Cell.nest, slots, List.headD_cons]

/-- Merging a row makes the object of one row more. -/
theorem merge_nest (row : Row) : ∀ (projection : Projection) (rows : List Row), rows ≠ [] →
    merge row projection (Cell.nest projection rows) = Cell.nest projection (rows ++ [row])
  | ⟨table, label, outputPath, key, columns, includes, lazy⟩, rows, inhabited => by
      obtain ⟨first, others, rfl⟩ := List.exists_cons_of_ne_nil inhabited
      simp only [merge, Cell.nest, mergeSlots_nest row includes (first :: others), List.cons_append,
        List.headD_cons]

/-- Merging a row into the slots of an object adds it to the rows that they are made of. -/
theorem mergeSlots_nest (row : Row) : ∀ (nodes : List IncludeNode) (rows : List Row),
    mergeSlots row nodes (Slot.nestEach nodes rows) = Slot.nestEach nodes (rows ++ [row])
  | [], rows => by simp [Slot.nestEach, mergeSlots]
  | ⟨relation, kind, child⟩ :: nodes, rows => by
      have others := mergeSlots_nest row nodes rows
      have new := merge_start row child
      have old := merge_nest row child
      simp only [Slot.nestEach, mergeSlots, others, List.cons.injEq, and_true]
      cases found : rowKey child row with
      | none =>
          cases many : kind.isToMany with
          | false => simp [presentRows_append, found]
          | true => simp [grouped_append_none found]
      | some k =>
          cases many : kind.isToMany with
          | false => 
              rcases absent : presentRows child rows with - | ⟨first, rest⟩
              · simp [presentRows_append, found, absent, new]
              · simp [presentRows_append, found, absent, old]
          | true => 
              simp only [if_true, Slot.many.injEq]
              exact alterKeyed_grouped found (by simpa using new) (by simpa using old)

end

/-- The objects of the root after some rows are those of the groups of these rows. -/
theorem foldl_addRow (root : Projection) (rows before : List Row) :
    rows.foldl (addRow root) (grouped (rowKey root) (Cell.nest root) before) =
      grouped (rowKey root) (Cell.nest root) (before ++ rows) := by
  induction rows generalizing before with
  | nil => simp
  | cons row rows ih =>
      have step : addRow root (grouped (rowKey root) (Cell.nest root) before) row =
          grouped (rowKey root) (Cell.nest root) (before ++ [row]) := by
        cases found : rowKey root row with
        | none => simp [addRow, found, grouped_append_none found]
        | some k =>
            simp only [addRow, found]
            exact alterKeyed_grouped found (merge_start row root) (merge_nest row root)
      rw [List.foldl_cons, step, ih, List.append_assoc, List.singleton_append]

theorem childValues_eq (projection : Projection) (children : List (String × Cell)) :
    childValues projection children = children.map fun child => child.2.value projection := by
  induction children with
  | nil => rfl
  | cons child children ih =>
      obtain ⟨key, cell⟩ := child
      rw [childValues, ih, List.map_cons]

/-- Hydrating rows nests them: one object for each key of the root, made of the rows with that key. -/
theorem hydrate_eq_nest (root : Projection) (rows : List Row) :
    hydrate root rows = (keysOf (rowKey root) rows).map fun k =>
      (Cell.nest root (rowsOfKey (rowKey root) rows k)).value root := by
  have folded := foldl_addRow root rows []
  simp only [grouped, keysOf, List.filterMap_nil, List.eraseDups_nil, List.map_nil, List.nil_append]
    at folded
  rw [hydrate, folded, childValues_eq, List.map_map]
  rfl

/-! ### Fields of joined relations -/

/-- What some rows make of a joined relation: the objects of the groups, or that of the present rows. -/
def joinedValue (kind : RelationKind) (child : Projection) (rows : List Row) : Json :=
  if kind.isToMany then
    .array ((keysOf (rowKey child) rows).map fun k =>
      (Cell.nest child (rowsOfKey (rowKey child) rows k)).value child)
  else if (presentRows child rows).isEmpty then .null
  else (Cell.nest child (presentRows child rows)).value child

/-- The first slot is that of the first joined relation. -/
theorem exists_nestEach_cons (node : IncludeNode) (nodes : List IncludeNode) (rows : List Row) :
    ∃ slot, Slot.nestEach (node :: nodes) rows = slot :: Slot.nestEach nodes rows ∧
      slot.value node.projection = joinedValue node.kind node.projection rows := by
  obtain ⟨relation, kind, child⟩ := node
  refine ⟨_, by rw [Slot.nestEach], ?_⟩
  rw [joinedValue]
  split
  · rw [Slot.value, childValues_eq, grouped, List.map_map]
    rfl
  · split <;> rw [Slot.value]

/-- The field of the first joined relation is written before those of the others. -/
theorem slotsOver_nestEach_cons (node : IncludeNode) (nodes : List IncludeNode) (rows : List Row)
    (fields : Json.Members) :
    slotsOver (node :: nodes) fields (Slot.nestEach (node :: nodes) rows) =
      slotsOver nodes (Json.Members.set fields node.relation (joinedValue node.kind node.projection rows))
        (Slot.nestEach nodes rows) := by
  obtain ⟨slot, made, value⟩ := exists_nestEach_cons node nodes rows
  rw [made, slotsOver, value]

end RelQuery
