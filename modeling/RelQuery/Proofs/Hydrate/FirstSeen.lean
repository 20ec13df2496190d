/-
Module: RelQuery.Proofs.Hydrate.FirstSeen
Purpose: Repetitions among rows do not matter. Nesting reads from the rows nothing but the cells of a plan,
  and of these only which are seen first, so that rows which show the same cells in the same first-seen
  order are nested to the same object.
Main exports: Projection.outputNames, SeenAlike, SeenAlike.product_left, SeenAlike.product_right,
  SeenAlike.nest_eq
-/
import Mathlib.Data.List.Basic
import RelQuery.Proofs.Hydrate.Nest

namespace RelQuery

open Json (Members)

/-! ### Repetitions -/

section

variable {α β : Type} [BEq β] [LawfulBEq β]

theorem eraseDups_append_congr {xs xs' ys ys' : List β} (left : xs.eraseDups = xs'.eraseDups)
    (right : ys.eraseDups = ys'.eraseDups) : (xs ++ ys).eraseDups = (xs' ++ ys').eraseDups := by
  have known : ∀ y, xs.elem y = xs'.elem y := by
    intro y
    rw [Bool.eq_iff_iff, List.elem_iff, List.elem_iff, ← List.mem_eraseDups, left, List.mem_eraseDups]
  rw [List.eraseDups_append, List.eraseDups_append, List.removeAll, List.removeAll, eraseDups_filter,
    eraseDups_filter, left, right]
  simp only [known]

theorem eraseDups_flatMap_congr {items : List α} {f g : α → List β}
    (each : ∀ item ∈ items, (f item).eraseDups = (g item).eraseDups) :
    (items.flatMap f).eraseDups = (items.flatMap g).eraseDups := by
  induction items with
  | nil => rfl
  | cons item items ih =>
      obtain ⟨first, others⟩ := List.forall_mem_cons.1 each
      exact eraseDups_append_congr first (ih others)

/-- Repeating a list adds nothing new. -/
theorem eraseDups_flatMap_const {items : List α} (inhabited : items ≠ []) (ys : List β) :
    (items.flatMap fun _ => ys).eraseDups = ys.eraseDups := by
  induction items with
  | nil => contradiction
  | cons item items ih =>
      cases items with
      | nil => simp
      | cons next items =>
          have again := eraseDups_append_congr (rfl : ys.eraseDups = ys.eraseDups) (ih (by simp))
          have twice : (ys ++ ys).eraseDups = ys.eraseDups := by
            have known : ys.filter (fun y => !ys.elem y) = [] := by simp
            rw [List.eraseDups_append, List.removeAll, known, List.eraseDups_nil, List.append_nil]
          exact again.trans twice

theorem eraseDups_of_nodup {xs : List β} (distinct : xs.Nodup) : xs.eraseDups = xs := by
  induction xs with
  | nil => rfl
  | cons x xs ih =>
      obtain ⟨fresh, distinct⟩ := List.nodup_cons.1 distinct
      rw [List.eraseDups_cons, eraseDups_filter, ih distinct, List.filter_eq_self.2]
      intro other member
      have apart : other ≠ x := fun same => fresh (same ▸ member)
      simpa using apart

end

/-! ### Cells -/

/-- The rows have the same cells under some names. -/
def SameCells (names : List String) (a b : Row) : Prop :=
  ∀ name ∈ names, Members.getD a name = Members.getD b name

/-- The rows show the same things in the same first-seen order, whatever is read from their cells under
    some names. -/
def SeenAlike (names : List String) (rows rows' : List Row) : Prop :=
  ∀ ⦃β : Type⦄ [BEq β] [LawfulBEq β] (view : Row → Option β),
    (∀ a b, SameCells names a b → view a = view b) →
      (rows.filterMap view).eraseDups = (rows'.filterMap view).eraseDups

theorem getD_append_of_not_mem_left {a b : Row} {name : String} (fresh : name ∉ a.map Prod.fst) :
    Members.getD (a ++ b) name = Members.getD b name := by
  have absent : a.lookup name = none := by
    refine List.lookup_eq_none_iff.2 fun cell member => ?_
    have apart : name ≠ cell.1 := fun same => fresh (same ▸ List.mem_map_of_mem member)
    simpa using apart
  rw [Members.getD, Members.get?, List.lookup_append, absent, Option.none_or]
  rfl

theorem getD_append_of_not_mem_right {a b : Row} {name : String} (fresh : name ∉ b.map Prod.fst) :
    Members.getD (a ++ b) name = Members.getD a name := by
  have absent : b.lookup name = none := by
    refine List.lookup_eq_none_iff.2 fun cell member => ?_
    have apart : name ≠ cell.1 := fun same => fresh (same ▸ List.mem_map_of_mem member)
    simpa using apart
  rw [Members.getD, Members.get?, List.lookup_append, absent, Option.or_none]
  rfl

namespace SeenAlike

variable {names : List String} {rows rows' rows'' : List Row}

theorem refl (names : List String) (rows : List Row) : SeenAlike names rows rows :=
  fun _ _ _ _ _ => rfl

theorem trans (first : SeenAlike names rows rows') (second : SeenAlike names rows' rows'') :
    SeenAlike names rows rows'' :=
  fun _ _ _ view reads => (first view reads).trans (second view reads)

theorem mono {fewer : List String} (alike : SeenAlike names rows rows') (subset : fewer ⊆ names) :
    SeenAlike fewer rows rows' :=
  fun _ _ _ view reads => alike view fun a b same => reads a b fun name member => same name (subset member)

/-- Rows that are left out are left out on both sides. -/
theorem filter (alike : SeenAlike names rows rows') {keep : Row → Bool}
    (reads : ∀ a b, SameCells names a b → keep a = keep b) :
    SeenAlike names (rows.filter keep) (rows'.filter keep) := by
  intro β _ _ view readsView
  rw [List.filterMap_filter, List.filterMap_filter]
  apply alike
  intro a b same
  rw [reads a b same, readsView a b same]

theorem keysOf_eq (alike : SeenAlike names rows rows') {key : Row → Option String}
    (reads : ∀ a b, SameCells names a b → key a = key b) : keysOf key rows = keysOf key rows' :=
  alike key reads

theorem isEmpty_eq (alike : SeenAlike names rows rows') : rows.isEmpty = rows'.isEmpty := by
  have same := alike (fun _ => some ()) fun _ _ _ => rfl
  cases rows <;> cases rows' <;> simp_all [List.eraseDups_cons]

/-- Whatever is read of the first row is the same. -/
theorem head_eq (alike : SeenAlike names rows rows') {γ : Type} {read : Row → γ}
    (reads : ∀ a b, SameCells names a b → read a = read b) :
    read (rows.headD []) = read (rows'.headD []) := by
  classical
  have first : ∀ rows : List Row, ((rows.filterMap fun row => some (read row)).eraseDups).head? =
      rows.head?.map read := by
    intro rows
    cases rows with
    | nil => simp
    | cons row rows => simp [List.eraseDups_cons]
  have same := congrArg List.head? (alike (fun row => some (read row)) fun a b agree => by
    rw [reads a b agree])
  rw [first, first] at same
  cases rows <;> cases rows' <;> simp_all

/-- Cells under other names do not matter. -/
theorem map (rows : List Row) {change : Row → Row} (kept : ∀ row ∈ rows, SameCells names (change row) row) :
    SeenAlike names (rows.map change) rows := by
  intro β _ _ view reads
  rw [List.filterMap_map]
  refine congrArg List.eraseDups (List.filterMap_congr fun row member => ?_)
  exact reads _ _ (kept row member)

/-- Behind the blocks of a product stand cells under other names. -/
theorem product_left {blocks rests : List Row} (inhabited : rests ≠ [])
    (apart : ∀ rest ∈ rests, ∀ name ∈ names, name ∉ rest.map Prod.fst) :
    SeenAlike names (blocks.flatMap fun block => rests.map (block ++ ·)) blocks := by
  intro β _ _ view reads
  rw [List.filterMap_flatMap, List.filterMap_eq_flatMap_toList view blocks]
  apply eraseDups_flatMap_congr
  intro block _
  have same : ∀ rest ∈ rests, view (block ++ rest) = view block := fun rest member =>
    reads _ _ fun name inside => getD_append_of_not_mem_right (apart rest member name inside)
  have repeated : (rests.map (block ++ ·)).filterMap view = rests.flatMap fun _ => (view block).toList := by
    rw [List.filterMap_map, List.filterMap_eq_flatMap_toList]
    exact List.flatMap_congr fun rest member => by rw [Function.comp_apply, same rest member]
  rw [repeated, eraseDups_flatMap_const inhabited]

/-- So do cells in front of what follows in a product. -/
theorem product_right {blocks rests : List Row} (inhabited : blocks ≠ [])
    (apart : ∀ block ∈ blocks, ∀ name ∈ names, name ∉ block.map Prod.fst) :
    SeenAlike names (blocks.flatMap fun block => rests.map (block ++ ·)) rests := by
  intro β _ _ view reads
  have repeated : (blocks.flatMap fun block => rests.map (block ++ ·)).filterMap view =
      blocks.flatMap fun _ => rests.filterMap view := by
    rw [List.filterMap_flatMap]
    refine List.flatMap_congr fun block member => ?_
    rw [List.filterMap_map]
    refine List.filterMap_congr fun rest _ => ?_
    exact reads _ _ fun name inside => getD_append_of_not_mem_left (apart block member name inside)
  rw [repeated, eraseDups_flatMap_const inhabited]

end SeenAlike

/-! ### What nesting reads -/

/-- The columns that are read of an occurrence in a row: the selected ones and those of its key. -/
def Projection.readColumns (projection : Projection) : List String :=
  projection.columns.map PlanColumn.name ++
    projection.key.filter fun column => !(column ∈ projection.columns.map PlanColumn.name)

mutual

/-- The names under which a plan reads the cells of a row, those of an occurrence before those below it. -/
def Projection.outputNames : Projection → List String
  | ⟨table, label, outputPath, key, columns, includes, lazy⟩ =>
    let occurrence : Projection := ⟨table, label, outputPath, key, columns, includes, lazy⟩
    occurrence.readColumns.map occurrence.outputName ++ outputNamesOf includes

/-- The names under which joined relations read the cells of a row. -/
def outputNamesOf : List IncludeNode → List String
  | [] => []
  | ⟨_, _, child⟩ :: nodes => child.outputNames ++ outputNamesOf nodes

end

section

variable {projection : Projection} {a b : Row}

theorem Projection.outputNames_eq (projection : Projection) : projection.outputNames =
    projection.readColumns.map projection.outputName ++ outputNamesOf projection.includes := by
  cases projection
  rw [Projection.outputNames]

theorem outputNames_subset {node : IncludeNode} {nodes : List IncludeNode} (member : node ∈ nodes) :
    node.projection.outputNames ⊆ outputNamesOf nodes := by
  induction nodes with
  | nil => contradiction
  | cons first nodes ih =>
      obtain ⟨relation, kind, child⟩ := first
      rw [outputNamesOf]
      rcases List.mem_cons.1 member with rfl | later
      · exact List.subset_append_left _ _
      · exact List.Subset.trans (ih later) (List.subset_append_right _ _)

/-- The columns that tell rows apart are read. -/
theorem Projection.identity_subset : projection.identity ⊆ projection.readColumns := by
  intro column member
  rw [Projection.identity] at member
  rw [Projection.readColumns, List.mem_append, List.mem_filter]
  split at member
  · exact .inl member
  · by_cases selected : column ∈ projection.columns.map PlanColumn.name
    · exact .inl selected
    · exact .inr ⟨member, by simpa using selected⟩

theorem cell_eq_of_sameCells (same : SameCells projection.outputNames a b) {column : String}
    (read : column ∈ projection.readColumns) : projection.cell a column = projection.cell b column := by
  refine same _ ?_
  rw [Projection.outputNames_eq]
  exact List.mem_append_left _ (List.mem_map_of_mem read)

/-- The key of an occurrence is among the cells of its plan. -/
theorem rowKey_eq_of_sameCells (same : SameCells projection.outputNames a b) :
    rowKey projection a = rowKey projection b := by
  have values : projection.identity.map (projection.cell a) = projection.identity.map (projection.cell b) :=
    List.map_congr_left fun column member => cell_eq_of_sameCells same (Projection.identity_subset member)
  rw [rowKey, rowKey, values]

/-- So are the fields of an object, unless some relation is deferred. -/
theorem ownFields_eq_of_sameCells (eager : projection.lazy = [])
    (same : SameCells projection.outputNames a b) : ownFields projection a = ownFields projection b := by
  rw [ownFields, ownFields, eager, List.foldl_nil, List.foldl_nil]
  refine List.foldl_ext _ _ _ fun fields column member => ?_
  rw [cell_eq_of_sameCells same (List.mem_append_left _ (List.mem_map_of_mem member))]

end

mutual

/-- Rows that show the same cells of a plan in the same first-seen order are nested to the same object. -/
theorem SeenAlike.nest_eq : ∀ (projection : Projection) {rows rows' : List Row},
    projection.hasLazy = false → SeenAlike projection.outputNames rows rows' →
      Cell.nest projection rows = Cell.nest projection rows'
  | ⟨table, label, outputPath, key, columns, includes, lazy⟩, rows, rows', eager, alike => by
      simp only [Projection.hasLazy, Bool.or_eq_false_iff, Bool.not_eq_false', List.isEmpty_iff] at eager
      rw [Cell.nest, Cell.nest]
      congr 1
      · exact alike.head_eq fun a b same => ownFields_eq_of_sameCells eager.1 same
      · refine SeenAlike.nestEach_eq includes eager.2 (alike.mono ?_)
        rw [Projection.outputNames_eq]
        exact List.subset_append_right _ _

/-- So are their slots. -/
theorem SeenAlike.nestEach_eq : ∀ (nodes : List IncludeNode) {rows rows' : List Row},
    Projection.anyLazy nodes = false → SeenAlike (outputNamesOf nodes) rows rows' →
      Slot.nestEach nodes rows = Slot.nestEach nodes rows'
  | [], _, _, _, _ => rfl
  | ⟨relation, kind, child⟩ :: nodes, rows, rows', eager, alike => by
      simp only [Projection.anyLazy, Bool.or_eq_false_iff] at eager
      rw [outputNamesOf] at alike
      have alikeChild := alike.mono (List.subset_append_left _ _)
      have others := SeenAlike.nestEach_eq nodes eager.2 (alike.mono (List.subset_append_right _ _))
      have keys : keysOf (rowKey child) rows = keysOf (rowKey child) rows' :=
        alikeChild.keysOf_eq fun a b same => rowKey_eq_of_sameCells same
      have parts : ∀ k, Cell.nest child (rowsOfKey (rowKey child) rows k) =
          Cell.nest child (rowsOfKey (rowKey child) rows' k) := fun k =>
        SeenAlike.nest_eq child eager.1 (alikeChild.filter fun a b same => by
          rw [rowKey_eq_of_sameCells same])
      have present : SeenAlike child.outputNames (presentRows child rows) (presentRows child rows') :=
        alikeChild.filter fun a b same => by rw [rowKey_eq_of_sameCells same]
      have whole := SeenAlike.nest_eq child eager.1 present
      simp only [Slot.nestEach, grouped, others, keys, parts, whole, present.isEmpty_eq]

end

/-- So are the values of their joined relations. -/
theorem SeenAlike.joinedValue_eq {kind : RelationKind} {child : Projection} {rows rows' : List Row}
    (eager : child.hasLazy = false) (alike : SeenAlike child.outputNames rows rows') :
    joinedValue kind child rows = joinedValue kind child rows' := by
  have same : Slot.nestEach [⟨"", kind, child⟩] rows = Slot.nestEach [⟨"", kind, child⟩] rows' :=
    SeenAlike.nestEach_eq _ (by simpa [Projection.anyLazy] using eager) (by simpa [outputNamesOf] using alike)
  obtain ⟨slot, made, value⟩ := exists_nestEach_cons ⟨"", kind, child⟩ [] rows
  obtain ⟨slot', made', value'⟩ := exists_nestEach_cons ⟨"", kind, child⟩ [] rows'
  rw [made, made'] at same
  rw [← value, ← value', (List.cons.inj same).1]

end RelQuery
