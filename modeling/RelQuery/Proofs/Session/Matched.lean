/-
Module: RelQuery.Proofs.Session.Matched
Purpose: Deferred rows are not matched by the database but by the texts of their keys. Where these tell the
  same values apart as the database does, no pivot row occurs twice and a pivot value refers to one row,
  the groups of a batch hold exactly the rows that the relation attaches.
Main exports: FoundByText, MatchedByText, linkRow, linkedTarget?_rel, linkedRow?_eq_some, attached_of_direct,
  attached_of_pivot
-/
import RelQuery.Proofs.Session.Gathered

namespace RelQuery

open Sql
open Json (Members)

variable {V : Type}

/-- The values of a column. -/
def Sql.Database.valuesOf (db : Database V) (table : Table) (column : String) : List V :=
  (db.rowsOf table).map fun row => db.engine.read row column

/-- Stored values are found by the texts of the values that are asked for: they have the same text exactly
    if they are equal, and a parameter stands for each value that is asked for. -/
structure FoundByText {engine : Engine V} (render : Rendering engine) (asked stored : List V)
    (form : Json → Json) : Prop where
  equal : ∀ a ∈ asked, engine.isNull a = false → ∀ b ∈ stored,
    (engine.compare .eq b a = .yes ↔ (form (render.toJson b)).text = (render.toJson a).text)
  bound : ∀ a ∈ asked, engine.isNull a = false →
    ∃ literal, Literal.ofJson? (render.toJson a) = some literal ∧
      ∀ b ∈ stored, engine.compare .eq b (engine.ofLiteral literal) = engine.compare .eq b a

/-- The rows of a relation with keys of one column are found by the texts of its keys. A pivot table links
    no pair of rows twice, and each of its rows links to one row. -/
def MatchedByText (db : Database V) (render : Rendering db.engine) (registry : Registry) (source : Table)
    (filter : Option Filter) : RelationKeys → Prop
  | .direct target [(targetColumn, parentColumn)] =>
    FoundByText render (db.valuesOf source parentColumn) (db.valuesOf target targetColumn)
      (target.form targetColumn)
  | .pivot middle target [(sourceColumn, parentColumn)] [(targetKey, targetColumn)] =>
    FoundByText render (db.valuesOf source parentColumn) (db.valuesOf middle sourceColumn) id ∧
    FoundByText render (db.valuesOf middle targetColumn) (db.valuesOf target targetKey)
      (target.form targetKey) ∧
    (∀ between ∈ db.rowsOf middle, ((db.rowsOf target).filter fun related =>
      pairsHold db.engine related between [(targetKey, targetColumn)] &&
        Filter.accepts db registry filter target related).length ≤ 1) ∧
    ∀ row ∈ db.rowsOf source, ∀ related ∈ db.rowsOf target,
      Filter.accepts db registry filter target related = true →
        ((db.rowsOf middle).filter fun between =>
          pairsHold db.engine between row [(sourceColumn, parentColumn)] &&
            pairsHold db.engine related between [(targetKey, targetColumn)]).length ≤ 1
  | _ => False

/-! ### Lists -/

theorem forall₂_filterMap {α β α' β' : Type} {fits : α → β → Prop} {fits' : α' → β' → Prop}
    {f : α → Option α'} {g : β → Option β'} {as : List α} {bs : List β} (matched : List.Forall₂ fits as bs)
    (each : ∀ a b, fits a b → Option.Rel fits' (f a) (g b)) :
    List.Forall₂ fits' (as.filterMap f) (bs.filterMap g) := by
  induction matched with
  | nil => exact .nil
  | @cons a b as bs first rest ih =>
      have related := each a b first
      rw [List.filterMap_cons, List.filterMap_cons]
      cases hf : f a <;> cases hg : g b <;> rw [hf, hg] at related
      · exact ih
      · cases related
      · cases related
      · cases related with
        | some holds => exact .cons holds ih

theorem forall₂_find? {α β : Type} {fits : α → β → Prop} {p : α → Bool} {q : β → Bool} {as : List α}
    {bs : List β} (matched : List.Forall₂ fits as bs) (same : ∀ a b, fits a b → p a = q b) :
    Option.Rel fits (as.find? p) (bs.find? q) := by
  induction matched with
  | nil => exact .none
  | @cons a b as bs first rest ih =>
      rw [List.find?_cons, List.find?_cons, same a b first]
      cases q b
      · exact ih
      · exact .some first

theorem forall₂_filter {α β : Type} {fits : α → β → Prop} {p : α → Bool} {q : β → Bool} {as : List α}
    {bs : List β} (matched : List.Forall₂ fits as bs) (same : ∀ a b, fits a b → p a = q b) :
    List.Forall₂ fits (as.filter p) (bs.filter q) := by
  induction matched with
  | nil => exact .nil
  | @cons a b as bs first rest ih =>
      rw [List.filter_cons, List.filter_cons, same a b first]
      cases q b
      · exact ih
      · exact .cons first ih

theorem eq_of_length_le_one {α : Type} {items : List α} (few : items.length ≤ 1) {a b : α}
    (first : a ∈ items) (second : b ∈ items) : a = b := by
  match items, few with
  | [item], _ => rw [List.mem_singleton.1 first, List.mem_singleton.1 second]

/-- Where all items with a property are the same, any of them is the one that is found. -/
theorem find?_eq_some_iff_of_unique {α : Type} {p : α → Bool} {items : List α}
    (unique : ∀ a ∈ items, ∀ b ∈ items, p a = true → p b = true → a = b) {a : α} :
    items.find? p = some a ↔ a ∈ items ∧ p a = true := by
  constructor
  · exact fun found => ⟨List.mem_of_find?_eq_some found, List.find?_some found⟩
  · rintro ⟨member, holds⟩
    obtain ⟨b, first⟩ := Option.isSome_iff_exists.1 (List.find?_isSome.2 ⟨a, member, holds⟩)
    rw [first, unique b (List.mem_of_find?_eq_some first) a member (List.find?_some first) holds]

/-- Where at most one item has a property, no two items at different places have it. -/
theorem pairwise_of_length_filter {α β : Type} (has : β → α → Bool) (wanted : β → Prop) {items : List α}
    (single : ∀ b, wanted b → (items.filter (has b)).length ≤ 1) :
    items.Pairwise fun x y => ∀ b, wanted b → ¬(has b x = true ∧ has b y = true) := by
  refine List.pairwise_iff_forall_sublist.2 fun pair b isWanted both => ?_
  have few := (pair.filter (has b)).length_le
  have most := single b isWanted
  simp only [List.filter_cons, both.1, both.2, if_true, List.filter_nil, List.length_cons,
    List.length_nil] at few
  omega

/-! ### Batches -/

section

variable {engine : Engine V} {render : Rendering engine} {asked stored : List V} {form : Json → Json}
  {batch : List Json}

/-- The keys of a batch are values that are asked for. -/
def AsksFor (render : Rendering engine) (asked : List V) (batch : List Json) : Prop :=
  ∀ key ∈ batch, ∃ a ∈ asked, engine.isNull a = false ∧ key = render.toJson a

/-- Batches that are asked for have keys, each of them once. -/
structure IsBatch (render : Rendering engine) (asked : List V) (batch : List Json) : Prop where
  asks : AsksFor render asked batch
  nodup : (batch.map Json.text).Nodup
  nonempty : batch ≠ []

/-- Whether a value equals one of those that a batch binds. -/
def inBatch (engine : Engine V) (batch : List Json) (value : V) : Bool :=
  (keyLiterals batch).any fun literal => engine.compare .eq value (engine.ofLiteral literal) == .yes

/-- A stored value whose text occurs in a batch equals a value that the batch binds. -/
theorem FoundByText.inBatch_of_text (found : FoundByText render asked stored form)
    (asks : AsksFor render asked batch) {b : V} (isStored : b ∈ stored) {key : Json} (inside : key ∈ batch)
    (same : (form (render.toJson b)).text = key.text) : inBatch engine batch b = true := by
  obtain ⟨a, isAsked, present, rfl⟩ := asks key inside
  obtain ⟨literal, literalOf, compares⟩ := found.bound a isAsked present
  refine List.any_eq_true.2 ⟨literal, List.mem_filterMap.2 ⟨_, inside, literalOf⟩, ?_⟩
  rw [compares b isStored, (found.equal a isAsked present b isStored).2 same, beq_self_eq_true]

/-- A value of a batch equals one that was asked for. -/
theorem FoundByText.exists_of_inBatch (found : FoundByText render asked stored form)
    (asks : AsksFor render asked batch) {b : V} (isStored : b ∈ stored)
    (bound : inBatch engine batch b = true) :
    ∃ a ∈ asked, engine.isNull a = false ∧ engine.compare .eq b a = .yes := by
  obtain ⟨literal, listed, equal⟩ := List.any_eq_true.1 bound
  obtain ⟨key, inside, made⟩ := List.mem_filterMap.1 listed
  obtain ⟨a, isAsked, present, rfl⟩ := asks key inside
  obtain ⟨literal', literalOf, compares⟩ := found.bound a isAsked present
  obtain rfl : literal' = literal := Option.some.inj (literalOf.symm.trans made)
  rw [compares b isStored] at equal
  exact ⟨a, isAsked, present, by simpa using equal⟩

/-- A value of a batch equals whatever has its text. -/
theorem FoundByText.compare_of_text (found : FoundByText render asked stored form)
    (asks : AsksFor render asked batch) {a b : V} (isAsked : a ∈ asked) (isStored : b ∈ stored)
    (bound : inBatch engine batch b = true)
    (same : (form (render.toJson b)).text = (render.toJson a).text) : engine.compare .eq b a = .yes := by
  obtain ⟨other, isOther, present, equal⟩ := found.exists_of_inBatch asks isStored bound
  have text := (found.equal other isOther present b isStored).1 equal
  -- The text is that of a value that is not null, so `a` is not null either.
  have alike := render.faithful other a present (text.symm.trans same)
  exact (found.equal a isAsked (engine.not_isNull_of_compare_right alike) b isStored).2 same

end

/-! ### Groups -/

section

variable {db : Database V} {render : Rendering db.engine} {registry : Registry} {source target : Table}
  {filter : Option Filter} {batch : List Json}

/-- The rows of a target that a batch asks for and that a filter accepts. -/
def batchRows (db : Database V) (registry : Registry) (filter : Option Filter) (target : Table)
    (column : String) (batch : List Json) : List (Record V) :=
  (db.rowsOf target).filter fun related =>
    inBatch db.engine batch (db.engine.read related column) &&
      Filter.accepts db registry filter target related

/-- Loaded values show the rows of a batch, in some order, and the text of the column tells by which key. -/
structure ShowsBatch (db : Database V) (render : Rendering db.engine) (target : Table) (column : String)
    (shows : Record V → Json → Prop) (rows : List (Record V)) (values : List Json) : Prop where
  each : List.Forall₂ shows rows values
  keyed : ∀ related value, shows related value →
    fieldOf? value column = some (target.form column (render.toJson (db.engine.read related column)))

theorem ShowsBatch.hasKeyText_eq {column : String} {shows : Record V → Json → Prop}
    {rows : List (Record V)} {values : List Json}
    (batched : ShowsBatch db render target column shows rows values) {key : Json} {related : Record V}
    {value : Json} (shown : shows related value) :
    ((target.form column (render.toJson (db.engine.read related column))).text == key.text) =
      hasKeyText column key value := by
  rw [RelQuery.hasKeyText_eq, batched.keyed related value shown]

/-- The group of a key holds the rows that the relation attaches to the row with that key. -/
theorem attached_of_direct {targetColumn parentColumn : String}
    (found : MatchedByText db render registry source filter
      (.direct target [(targetColumn, parentColumn)]))
    (asks : AsksFor render (db.valuesOf source parentColumn) batch) {shows : Record V → Json → Prop}
    {rows : List (Record V)} {values : List Json}
    (complete : rows.Perm (batchRows db registry filter target targetColumn batch))
    (batched : ShowsBatch db render target targetColumn shows rows values) {row : Record V}
    (stored : row ∈ db.rowsOf source)
    (present : db.engine.isNull (db.engine.read row parentColumn) = false) {key : Json}
    (inside : key ∈ batch) (same : key.text = (render.toJson (db.engine.read row parentColumn)).text) :
    ∃ order : List (Record V),
      order.Perm (attachedRows db registry (.direct target [(targetColumn, parentColumn)]) filter row) ∧
      List.Forall₂ shows order
        ((groupDirect targetColumn values).of (render.toJson (db.engine.read row parentColumn))) := by
  have matched : FoundByText render (db.valuesOf source parentColumn) (db.valuesOf target targetColumn)
    (target.form targetColumn) := found
  rw [Groups.of_groupDirect]
  refine ⟨_, ?_, forall₂_filter batched.each fun related value shown => batched.hasKeyText_eq shown⟩
  refine (complete.filter _).trans (.of_eq ?_)
  rw [batchRows, attachedRows, linked, List.filter_filter, List.filter_filter]
  refine List.filter_congr fun related inTarget => ?_
  have isStored : db.engine.read related targetColumn ∈ db.valuesOf target targetColumn :=
    List.mem_map_of_mem inTarget
  have equal := matched.equal _ (List.mem_map_of_mem stored) present _ isStored
  have bound : (target.form targetColumn (render.toJson (db.engine.read related targetColumn))).text =
      (render.toJson (db.engine.read row parentColumn)).text →
        inBatch db.engine batch (db.engine.read related targetColumn) = true := fun text =>
    matched.inBatch_of_text asks isStored inside (text.trans same.symm)
  rw [Bool.eq_iff_iff]
  simp only [Bool.and_eq_true, RelationKeys.links, pairsHold, List.all_cons, List.all_nil, Bool.and_true,
    beq_iff_eq, equal]
  constructor
  · rintro ⟨text, -, accepted⟩
    exact ⟨accepted, text⟩
  · rintro ⟨accepted, text⟩
    exact ⟨text, bound text, accepted⟩

/-- A row of the statement for a pivot table. -/
def linkRow (render : Rendering db.engine) (sourceColumn targetColumn : String) (between : Record V) : Row :=
  [(parentKeyColumn, render.toJson (db.engine.read between sourceColumn)),
    (childKeyColumn, render.toJson (db.engine.read between targetColumn))]

@[simp] theorem lookup_parentKey_linkRow (sourceColumn targetColumn : String) (between : Record V) :
    (linkRow render sourceColumn targetColumn between).lookup "parent_key" =
      some (render.toJson (db.engine.read between sourceColumn)) := by
  simp [linkRow, parentKeyColumn]

@[simp] theorem lookup_childKey_linkRow (sourceColumn targetColumn : String) (between : Record V) :
    (linkRow render sourceColumn targetColumn between).lookup "child_key" =
      some (render.toJson (db.engine.read between targetColumn)) := by
  simp [linkRow, List.lookup_cons, parentKeyColumn, childKeyColumn]

/-- The row that a pivot row adds to the group of a key. -/
def linkedRow? (render : Rendering db.engine) (target : Table) (sourceColumn targetColumn targetKey : String)
    (rows : List (Record V)) (key : Json) (between : Record V) : Option (Record V) :=
  if key.text = (render.toJson (db.engine.read between sourceColumn)).text then
    rows.reverse.find? fun related =>
      (target.form targetKey (render.toJson (db.engine.read related targetKey))).text ==
        (render.toJson (db.engine.read between targetColumn)).text
  else none

/-- A value is added to a group for each row that is. -/
theorem linkedTarget?_rel {sourceColumn targetColumn targetKey : String} {shows : Record V → Json → Prop}
    {rows : List (Record V)} {values : List Json}
    (batched : ShowsBatch db render target targetKey shows rows values) (key : Json) (between : Record V) :
    Option.Rel shows (linkedRow? render target sourceColumn targetColumn targetKey rows key between)
      (linkedTarget? targetKey values key (linkRow render sourceColumn targetColumn between)) := by
  rw [linkedTarget?, lookup_parentKey_linkRow, lookup_childKey_linkRow, linkedRow?]
  simp only
  split
  · rw [← targetOfKey?_eq, targetOfKey?]
    exact forall₂_find? (List.rel_reverse batched.each) fun related value shown =>
      (batched.hasKeyText_eq shown).trans (hasKeyText_eq targetKey _ value)
  · exact .none

/-- The batch for the targets of pivot rows asks for the values of these that are not null. -/
theorem asksFor_childKeys {middle : Table} {sourceColumn targetColumn : String}
    {betweens : List (Record V)} (stored : betweens ⊆ db.rowsOf middle) :
    AsksFor render (db.valuesOf middle targetColumn)
      (childKeys (betweens.map (linkRow render sourceColumn targetColumn))) := by
  intro key member
  obtain ⟨present, _, isLink, read⟩ := (gathers_childKeys _).sound key member
  obtain ⟨between, isBetween, rfl⟩ := List.mem_map.1 isLink
  obtain rfl : render.toJson (db.engine.read between targetColumn) = key := by simpa using read
  refine ⟨_, List.mem_map_of_mem (stored isBetween), ?_, rfl⟩
  rwa [← Json.isNull_eq_false_iff, render.isNull_toJson] at present

/-- The text of a value of a pivot row that is not null occurs in that batch. -/
theorem exists_mem_childKeys {sourceColumn targetColumn : String} {betweens : List (Record V)}
    {between : Record V} (member : between ∈ betweens)
    (present : db.engine.isNull (db.engine.read between targetColumn) = false) :
    ∃ key ∈ childKeys (betweens.map (linkRow render sourceColumn targetColumn)),
      key.text = (render.toJson (db.engine.read between targetColumn)).text := by
  refine (gathers_childKeys _).complete _ ⟨?_, _, List.mem_map_of_mem member, lookup_childKey_linkRow _ _ _⟩
  rwa [← Json.isNull_eq_false_iff, render.isNull_toJson]

variable {middle : Table} {sourceColumn parentColumn targetKey targetColumn : String}
  {betweens rows : List (Record V)} {row between : Record V}

/-- The rows of a batch with the text of a pivot row are those that this links to and the filter accepts. -/
theorem mem_batch_of_text_iff
    (children : FoundByText render (db.valuesOf middle targetColumn) (db.valuesOf target targetKey)
      (target.form targetKey))
    (stored : betweens ⊆ db.rowsOf middle)
    (complete : rows.Perm (batchRows db registry filter target targetKey
      (childKeys (betweens.map (linkRow render sourceColumn targetColumn)))))
    (member : between ∈ betweens) (related : Record V) :
    (related ∈ rows ∧ (target.form targetKey (render.toJson (db.engine.read related targetKey))).text =
        (render.toJson (db.engine.read between targetColumn)).text) ↔
      related ∈ db.rowsOf target ∧ Filter.accepts db registry filter target related = true ∧
        pairsHold db.engine related between [(targetKey, targetColumn)] = true := by
  have asks : AsksFor render (db.valuesOf middle targetColumn)
      (childKeys (betweens.map (linkRow render sourceColumn targetColumn))) := asksFor_childKeys stored
  have isChild := List.mem_map_of_mem (f := fun row => db.engine.read row targetColumn) (stored member)
  rw [complete.mem_iff, batchRows, List.mem_filter, Bool.and_eq_true, pairsHold_singleton]
  constructor
  · rintro ⟨⟨inTarget, bound, accepted⟩, same⟩
    exact ⟨inTarget, accepted,
      children.compare_of_text asks isChild (List.mem_map_of_mem inTarget) bound same⟩
  · rintro ⟨inTarget, accepted, equal⟩
    have isStored := List.mem_map_of_mem (f := fun row => db.engine.read row targetKey) inTarget
    have present := db.engine.not_isNull_of_compare_right equal
    have text := (children.equal _ isChild present _ isStored).1 equal
    obtain ⟨key, inBatch, ofKey⟩ :
        ∃ key ∈ childKeys (betweens.map (linkRow render sourceColumn targetColumn)),
          key.text = (render.toJson (db.engine.read between targetColumn)).text :=
      exists_mem_childKeys member present
    exact ⟨⟨inTarget, children.inBatch_of_text asks isStored inBatch (text.trans ofKey.symm), accepted⟩, text⟩

/-- A pivot row adds a row to the group of a key exactly if it links the row with that key to it, and the
    filter accepts it. -/
theorem linkedRow?_eq_some
    (found : MatchedByText db render registry source filter
      (.pivot middle target [(sourceColumn, parentColumn)] [(targetKey, targetColumn)]))
    (stored : betweens ⊆ db.rowsOf middle)
    (complete : rows.Perm (batchRows db registry filter target targetKey
      (childKeys (betweens.map (linkRow render sourceColumn targetColumn)))))
    (isRow : row ∈ db.rowsOf source)
    (present : db.engine.isNull (db.engine.read row parentColumn) = false)
    (member : between ∈ betweens) (related : Record V) :
    linkedRow? render target sourceColumn targetColumn targetKey rows
        (render.toJson (db.engine.read row parentColumn)) between = some related ↔
      related ∈ db.rowsOf target ∧ Filter.accepts db registry filter target related = true ∧
        pairsHold db.engine between row [(sourceColumn, parentColumn)] = true ∧
        pairsHold db.engine related between [(targetKey, targetColumn)] = true := by
  obtain ⟨parents, children, single, -⟩ := found
  have inBatch := mem_batch_of_text_iff children stored complete member
  have parentText : pairsHold db.engine between row [(sourceColumn, parentColumn)] = true ↔
      (render.toJson (db.engine.read row parentColumn)).text =
        (render.toJson (db.engine.read between sourceColumn)).text := by
    rw [pairsHold_singleton]
    exact (parents.equal _ (List.mem_map_of_mem isRow) present _
      (List.mem_map_of_mem (stored member))).trans eq_comm
  -- A pivot row links to one row, so that the last one with its text is the only one.
  have unique : ∀ a ∈ rows.reverse, ∀ b ∈ rows.reverse,
      ((target.form targetKey (render.toJson (db.engine.read a targetKey))).text ==
        (render.toJson (db.engine.read between targetColumn)).text) = true →
      ((target.form targetKey (render.toJson (db.engine.read b targetKey))).text ==
        (render.toJson (db.engine.read between targetColumn)).text) = true → a = b := by
    intro a memberA b memberB textA textB
    obtain ⟨inTargetA, acceptedA, linksA⟩ := (inBatch a).1 ⟨List.mem_reverse.1 memberA, beq_iff_eq.1 textA⟩
    obtain ⟨inTargetB, acceptedB, linksB⟩ := (inBatch b).1 ⟨List.mem_reverse.1 memberB, beq_iff_eq.1 textB⟩
    exact eq_of_length_le_one (single between (stored member))
      (List.mem_filter.2 ⟨inTargetA, Bool.and_eq_true_iff.2 ⟨linksA, acceptedA⟩⟩)
      (List.mem_filter.2 ⟨inTargetB, Bool.and_eq_true_iff.2 ⟨linksB, acceptedB⟩⟩)
  rw [linkedRow?, parentText]
  split
  · rename_i text
    rw [find?_eq_some_iff_of_unique unique, List.mem_reverse, beq_iff_eq, inBatch]
    simp only [text, true_and]
  · rename_i otherText
    simp only [otherText, false_and, and_false, reduceCtorEq]

section

variable (found : MatchedByText db render registry source filter
    (.pivot middle target [(sourceColumn, parentColumn)] [(targetKey, targetColumn)]))
  (answered : betweens.Perm ((db.rowsOf middle).filter fun between =>
    inBatch db.engine batch (db.engine.read between sourceColumn)))
  (complete : rows.Perm (batchRows db registry filter target targetKey
    (childKeys (betweens.map (linkRow render sourceColumn targetColumn)))))
  (stored : row ∈ db.rowsOf source)
  (present : db.engine.isNull (db.engine.read row parentColumn) = false)

include found answered complete stored present

/-- No row is added twice, for no two pivot rows link the same pair. -/
theorem nodup_linkedRows : (betweens.filterMap (linkedRow? render target sourceColumn targetColumn targetKey
    rows (render.toJson (db.engine.read row parentColumn)))).Nodup := by
  have isSome := fun (between : Record V) (member : between ∈ betweens) (related : Record V) =>
    linkedRow?_eq_some found (fun between member => List.mem_of_mem_filter (answered.subset member))
      complete stored present member related
  obtain ⟨-, -, -, once⟩ := found
  have apart : betweens.Pairwise fun x y => ∀ related : Record V,
      (related ∈ db.rowsOf target ∧ Filter.accepts db registry filter target related = true) →
        ¬((pairsHold db.engine x row [(sourceColumn, parentColumn)] &&
            pairsHold db.engine related x [(targetKey, targetColumn)]) = true ∧
          (pairsHold db.engine y row [(sourceColumn, parentColumn)] &&
            pairsHold db.engine related y [(targetKey, targetColumn)]) = true) := by
    refine pairwise_of_length_filter (fun related between =>
      pairsHold db.engine between row [(sourceColumn, parentColumn)] &&
        pairsHold db.engine related between [(targetKey, targetColumn)]) _ ?_
    rintro related ⟨inTarget, accepted⟩
    refine Nat.le_trans ?_ (once row stored related inTarget accepted)
    rw [(answered.filter _).length_eq]
    exact (List.filter_sublist.filter _).length_le
  refine List.pairwise_filterMap.2 (apart.imp_of_mem ?_)
  intro x y inX inY never related adds other adds' same
  subst same
  obtain ⟨inTarget, accepted, links⟩ := (isSome x inX related).1 adds
  obtain ⟨-, -, links'⟩ := (isSome y inY related).1 adds'
  exact never related ⟨inTarget, accepted⟩ ⟨Bool.and_eq_true_iff.2 links, Bool.and_eq_true_iff.2 links'⟩

/-- What pivot rows add is what the relation attaches. -/
theorem mem_linkedRows_iff (asks : AsksFor render (db.valuesOf source parentColumn) batch) {key : Json}
    (inside : key ∈ batch) (same : key.text = (render.toJson (db.engine.read row parentColumn)).text)
    (related : Record V) :
    related ∈ betweens.filterMap (linkedRow? render target sourceColumn targetColumn targetKey rows
        (render.toJson (db.engine.read row parentColumn))) ↔
      related ∈ attachedRows db registry
        (.pivot middle target [(sourceColumn, parentColumn)] [(targetKey, targetColumn)]) filter row := by
  have isSome := fun (between : Record V) (member : between ∈ betweens) =>
    linkedRow?_eq_some found (fun between member => List.mem_of_mem_filter (answered.subset member))
      complete stored present member related
  obtain ⟨parents, -, -, -⟩ := found
  rw [List.mem_filterMap, attachedRows, linked, List.mem_filter, List.mem_filter]
  simp only [RelationKeys.links, List.any_eq_true, Bool.and_eq_true]
  constructor
  · rintro ⟨between, member, adds⟩
    obtain ⟨inTarget, accepted, links⟩ := (isSome between member).1 adds
    have inMiddle := List.mem_of_mem_filter (answered.subset member)
    exact ⟨⟨inTarget, between, inMiddle, links⟩, accepted⟩
  · rintro ⟨⟨inTarget, between, inMiddle, links⟩, accepted⟩
    have isStored := List.mem_map_of_mem (f := fun row => db.engine.read row sourceColumn) inMiddle
    have text := (parents.equal _ (List.mem_map_of_mem stored) present _ isStored).1
      (pairsHold_singleton.1 links.1)
    have bound := parents.inBatch_of_text asks isStored inside (text.trans same.symm)
    have member : between ∈ betweens := answered.mem_iff.2 (List.mem_filter.2 ⟨inMiddle, bound⟩)
    exact ⟨between, member, (isSome between member).2 ⟨inTarget, accepted, links⟩⟩

/-- The group of a key holds the rows that the relation attaches to the row with that key. -/
theorem attached_of_pivot (keyed : db.Keyed target)
    (asks : AsksFor render (db.valuesOf source parentColumn) batch) {shows : Record V → Json → Prop}
    {values : List Json} (batched : ShowsBatch db render target targetKey shows rows values) {key : Json}
    (inside : key ∈ batch) (same : key.text = (render.toJson (db.engine.read row parentColumn)).text) :
    ∃ order : List (Record V),
      order.Perm (attachedRows db registry
        (.pivot middle target [(sourceColumn, parentColumn)] [(targetKey, targetColumn)]) filter row) ∧
      List.Forall₂ shows order
        ((groupPivot targetKey (betweens.map (linkRow render sourceColumn targetColumn)) values).of
          (render.toJson (db.engine.read row parentColumn))) := by
  rw [Groups.of_groupPivot, List.filterMap_map]
  refine ⟨betweens.filterMap (linkedRow? render target sourceColumn targetColumn targetKey rows
    (render.toJson (db.engine.read row parentColumn))), ?_, ?_⟩
  · exact (List.perm_ext_iff_of_nodup (nodup_linkedRows found answered complete stored present)
      (nodup_attachedRows keyed.nodup)).2
        (mem_linkedRows_iff found answered complete stored present asks inside same)
  · refine forall₂_filterMap (List.forall₂_same.2 fun _ _ => rfl) ?_
    rintro between _ rfl
    exact linkedTarget?_rel batched _ between

end

end

end RelQuery
