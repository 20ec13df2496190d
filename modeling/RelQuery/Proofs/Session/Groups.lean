/-
Module: RelQuery.Proofs.Session.Groups
Purpose: Batches of keys and the groups that loaded objects fall into, without their loops: a batch holds
  each text once, and the group of a key consists of what the loaded objects say of its text.
Main exports: mem_texts_distinctKeys, nodup_texts_distinctKeys, hasKeyText, linkedTarget?,
  Groups.of_groupDirect, Groups.of_groupPivot
-/
import RelQuery.Session.Lazy

namespace RelQuery

open Json (Members)

/-! ### Batches of keys -/

theorem mem_addKey {keys : List Json} {key : Json} {text : String} :
    (∃ k ∈ addKey keys key, k.text = text) ↔ (∃ k ∈ keys, k.text = text) ∨ key.text = text := by
  unfold addKey
  split
  · rename_i there
    obtain ⟨k, member, same⟩ := List.any_eq_true.1 there
    constructor
    · exact .inl
    · rintro (known | rfl)
      · exact known
      · exact ⟨k, member, by simpa using same⟩
  · simp [or_and_right, exists_or]

theorem addKey_subset (keys : List Json) (key : Json) : addKey keys key ⊆ keys ++ [key] := by
  unfold addKey
  split
  · exact List.subset_append_left _ _
  · exact List.Subset.refl _

/-- The keys of a batch have the texts of the keys that it was made of. -/
theorem mem_texts_distinctKeys {keys : List Json} {text : String} :
    (∃ k ∈ distinctKeys keys, k.text = text) ↔ ∃ k ∈ keys, k.text = text := by
  have general : ∀ (keys known : List Json), (∃ k ∈ keys.foldl addKey known, k.text = text) ↔
      (∃ k ∈ known, k.text = text) ∨ ∃ k ∈ keys, k.text = text := by
    intro keys
    induction keys with
    | nil => simp
    | cons key keys ih =>
        intro known
        rw [List.foldl_cons, ih, mem_addKey, or_assoc]
        simp [or_and_right, exists_or]
  simpa [distinctKeys] using general keys []

/-- A batch holds nothing but the keys that it was made of. -/
theorem distinctKeys_subset (keys : List Json) : distinctKeys keys ⊆ keys := by
  have general : ∀ keys known : List Json, keys.foldl addKey known ⊆ known ++ keys := by
    intro keys
    induction keys with
    | nil => simp
    | cons key keys ih =>
        intro known
        rw [List.foldl_cons]
        apply List.Subset.trans (ih _)
        intro other member
        rcases List.mem_append.1 member with member | member
        · rcases List.mem_append.1 (addKey_subset known key member) with old | new
          · exact List.mem_append_left _ old
          · exact List.mem_append_right _ (List.mem_cons.2 (.inl (List.mem_singleton.1 new)))
        · exact List.mem_append_right _ (List.mem_cons_of_mem _ member)
  simpa [distinctKeys] using general keys []

/-- No text occurs twice in a batch. -/
theorem nodup_texts_distinctKeys (keys : List Json) : ((distinctKeys keys).map Json.text).Nodup := by
  have general : ∀ keys known : List Json, (known.map Json.text).Nodup →
      ((keys.foldl addKey known).map Json.text).Nodup := by
    intro keys
    induction keys with
    | nil => exact fun known nodup => nodup
    | cons key keys ih =>
        intro known nodup
        rw [List.foldl_cons]
        apply ih
        unfold addKey
        split
        · exact nodup
        · rename_i new
          rw [List.map_append, List.map_singleton, List.nodup_append]
          refine ⟨nodup, List.nodup_cons.2 ⟨List.not_mem_nil, List.nodup_nil⟩, ?_⟩
          intro text old text' last same
          obtain ⟨k, member, spelt⟩ := List.mem_map.1 old
          refine new (List.any_eq_true.2 ⟨k, member, ?_⟩)
          rw [beq_iff_eq, spelt, same, List.mem_singleton.1 last]
  exact general keys [] List.nodup_nil

/-! ### Groups -/

theorem lookup_alterKeyed {α : Type} {key other : String} {change : Option α → α}
    {entries : List (String × α)} :
    (alterKeyed key change entries).lookup other =
      if other = key then some (change (entries.lookup key)) else entries.lookup other := by
  induction entries with
  | nil =>
      rw [alterKeyed, List.lookup_cons]
      by_cases same : other = key
      · simp [same]
      · have unequal : (other == key) = false := by simpa using same
        simp [same, unequal]
  | cons entry entries ih =>
      obtain ⟨k, a⟩ := entry
      rw [alterKeyed]
      split
      · rename_i here
        subst here
        rw [List.lookup_cons, List.lookup_cons, List.lookup_cons]
        by_cases same : other = k
        · simp [same]
        · have unequal : (other == k) = false := by simpa using same
          simp [same, unequal]
      · rename_i elsewhere
        rw [List.lookup_cons, ih, List.lookup_cons, List.lookup_cons]
        by_cases same : other = key
        · subst same
          have unequal : (other == k) = false := by simpa using Ne.symm elsewhere
          simp [unequal]
        · simp [same]

namespace Groups

theorem of_add (groups : Groups) (key value other : Json) :
    (groups.add key value).of other =
      if other.text = key.text then groups.of other ++ [value] else groups.of other := by
  rw [of, add, lookup_alterKeyed]
  split
  · rename_i same
    rw [of, same, Option.getD_some]
  · rfl

theorem of_nil (key : Json) : of [] key = [] := rfl

end Groups

/-- Whether the column of an object has the text of a key. -/
def hasKeyText (column : String) (key : Json) : Json → Bool
  | .object members =>
    match members.lookup column with
    | some k => k.text == key.text
    | none => false
  | _ => false

theorem hasKeyText_eq (column : String) (key target : Json) : hasKeyText column key target =
    match fieldOf? target column with
    | some k => k.text == key.text
    | none => false := by
  cases target <;> rfl

/-- The target of a key is the last one whose column has the text of the key. -/
theorem targetOfKey?_eq (column : String) (targets : List Json) (key : Json) :
    targetOfKey? column targets key = (targets.filter (hasKeyText column key)).getLast? := by
  have same : hasKeyText column key = fun target =>
      match fieldOf? target column with
      | some k => k.text == key.text
      | none => false := funext (hasKeyText_eq column key)
  rw [same, ← List.head?_reverse, ← List.filter_reverse, List.head?_filter]
  rfl

/-- The group of a key consists of the targets whose column has its text. -/
theorem Groups.of_groupDirect (column : String) (targets : List Json) (key : Json) :
    (groupDirect column targets).of key = targets.filter (hasKeyText column key) := by
  have general : ∀ (targets : List Json) (groups : Groups),
      (targets.foldl (fun groups target =>
        match fieldOf? target column with
        | some key => groups.add key target
        | none => groups) groups).of key = groups.of key ++ targets.filter (hasKeyText column key) := by
    intro targets
    induction targets with
    | nil => simp
    | cons target targets ih =>
        intro groups
        rw [List.foldl_cons, ih, List.filter_cons, hasKeyText_eq]
        cases fieldOf? target column with
        | none => simp
        | some k =>
            by_cases same : key.text = k.text
            · simp [Groups.of_add, same]
            · simp [Groups.of_add, same, Ne.symm same]
  have made := general targets []
  rw [Groups.of_nil, List.nil_append] at made
  exact made

/-- What a row of a pivot table links to a key: if its `parent_key` has the text of the key, the last target
    whose column has the text of its `child_key`. -/
def linkedTarget? (column : String) (targets : List Json) (key : Json) (link : Row) : Option Json :=
  match link.lookup "parent_key", link.lookup "child_key" with
  | some parent, some child =>
    if key.text = parent.text then (targets.filter (hasKeyText column child)).getLast? else none
  | _, _ => none

/-- The group of a key consists of the targets of the pivot rows that have its text, one for each row. -/
theorem Groups.of_groupPivot (column : String) (links : List Row) (targets : List Json) (key : Json) :
    (groupPivot column links targets).of key = links.filterMap (linkedTarget? column targets key) := by
  have general : ∀ (links : List Row) (groups : Groups),
      (links.foldl (fun groups link =>
        match Members.get? link parentKeyColumn, Members.get? link childKeyColumn with
        | some parent, some child =>
          match targetOfKey? column targets child with
          | some target => groups.add parent target
          | none => groups
        | _, _ => groups) groups).of key =
        groups.of key ++ links.filterMap (linkedTarget? column targets key) := by
    intro links
    induction links with
    | nil => simp
    | cons link links ih =>
        intro groups
        rw [List.foldl_cons, ih, List.filterMap_cons, linkedTarget?]
        simp only [Members.get?, parentKeyColumn, childKeyColumn]
        cases link.lookup "parent_key" with
        | none => simp
        | some parent =>
            cases link.lookup "child_key" with
            | none => simp
            | some child =>
                simp only [← targetOfKey?_eq]
                cases targetOfKey? column targets child with
                | none => simp
                | some target =>
                    by_cases same : key.text = parent.text
                    · simp [Groups.of_add, same]
                    · simp [Groups.of_add, same]
  have made := general links []
  rw [Groups.of_nil, List.nil_append] at made
  exact made

end RelQuery
