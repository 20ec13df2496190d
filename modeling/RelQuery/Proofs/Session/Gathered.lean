/-
Module: RelQuery.Proofs.Session.Gathered
Purpose: The keys that batches are made of, told without the walks that collect them. A path of relations
  leads from loaded rows to objects, in which the field of a deferred relation awaits a key; the rows of a
  pivot table name the keys of targets. A batch has the texts of these keys, each once.
Main exports: ObjectAt, AwaitedAt, Gathers, gathers_pendingKeys, NamesChild, gathers_childKeys
-/
import RelQuery.Proofs.Hydrate.Forms
import RelQuery.Proofs.Session.Fields
import RelQuery.Proofs.Session.Groups

namespace RelQuery

open Json (Members)

/-! ### Objects at a path -/

/-- A path of fields leads from a value to the members of an object. Arrays on the way are passed through. -/
inductive ObjectAt : (value : Json) → (path : List String) → (members : Members) → Prop
  | here {members : Members} : ObjectAt (.object members) [] members
  | item {items : List Json} {item : Json} {path : List String} {members : Members} (listed : item ∈ items)
      (further : ObjectAt item path members) : ObjectAt (.array items) path members
  | field {outer members : Members} {name : String} {value : Json} {path : List String}
      (held : outer.lookup name = some value) (further : ObjectAt value path members) :
      ObjectAt (.object outer) (name :: path) members

theorem objectsOfMember_eq (name : String) (path : List String) (members : Members) :
    objectsOfMember name path members =
      match members.lookup name with
      | some value => objectsAt path value
      | none => [] := by
  induction members with
  | nil => rfl
  | cons member members ih =>
      obtain ⟨other, value⟩ := member
      rw [objectsOfMember, List.lookup_cons]
      by_cases same : other = name
      · simp [same]
      · have apart : (name == other) = false := by simpa using Ne.symm same
        rw [if_neg same, apart, ih]

mutual

theorem objectAt_of_mem {found : Members} : ∀ (value : Json) (path : List String),
    found ∈ objectsAt path value → ObjectAt value path found
  | .array items, path, member => by
      rw [objectsAt] at member
      obtain ⟨item, listed, further⟩ := objectAt_of_mem_items items path member
      exact .item listed further
  | .object members, [], member => by
      rw [objectsAt, List.mem_singleton] at member
      exact member ▸ .here
  | .object members, step :: path, member => by
      rw [objectsAt] at member
      obtain ⟨value, held, further⟩ := objectAt_of_mem_member members step path member
      exact .field held further
  | .null, _, member => by simp [objectsAt] at member
  | .bool _, _, member => by simp [objectsAt] at member
  | .number _, _, member => by simp [objectsAt] at member
  | .string _, _, member => by simp [objectsAt] at member

theorem objectAt_of_mem_items {found : Members} : ∀ (items : List Json) (path : List String),
    found ∈ objectsOfItems path items → ∃ item ∈ items, ObjectAt item path found
  | [], _, member => by simp [objectsOfItems] at member
  | item :: items, path, member => by
      rw [objectsOfItems, List.mem_append] at member
      rcases member with first | later
      · exact ⟨item, List.mem_cons_self, objectAt_of_mem item path first⟩
      · obtain ⟨other, listed, further⟩ := objectAt_of_mem_items items path later
        exact ⟨other, List.mem_cons_of_mem _ listed, further⟩

theorem objectAt_of_mem_member {found : Members} : ∀ (members : List (String × Json)) (step : String)
    (path : List String), found ∈ objectsOfMember step path members →
      ∃ value, members.lookup step = some value ∧ ObjectAt value path found
  | [], _, _, member => by simp [objectsOfMember] at member
  | (name, value) :: members, step, path, member => by
      rw [objectsOfMember] at member
      rw [List.lookup_cons]
      by_cases same : name = step
      · rw [if_pos same] at member
        exact ⟨value, by simp [same], objectAt_of_mem value path member⟩
      · rw [if_neg same] at member
        have apart : (step == name) = false := by simpa using Ne.symm same
        rw [apart]
        exact objectAt_of_mem_member members step path member

end

/-- The objects that are visited at a path are those that it leads to. -/
theorem mem_objectsAt {value : Json} {path : List String} {members : Members} :
    members ∈ objectsAt path value ↔ ObjectAt value path members := by
  refine ⟨objectAt_of_mem value path, fun leads => ?_⟩
  induction leads with
  | here => simp [objectsAt]
  | item listed further ih =>
      rw [objectsAt, objectsOfItems_eq]
      exact List.mem_flatMap.2 ⟨_, listed, ih⟩
  | field held further ih => rwa [objectsAt, objectsOfMember_eq, held]

/-! ### Keys -/

/-- Keys are gathered: those that are wanted, and of each text one. -/
structure Gathers (wanted : Json → Prop) (keys : List Json) : Prop where
  nodup : (keys.map Json.text).Nodup
  sound : ∀ key ∈ keys, wanted key
  complete : ∀ key, wanted key → ∃ k ∈ keys, k.text = key.text

/-- Without repetitions some keys are gathered. -/
theorem gathers_distinctKeys {wanted : Json → Prop} {keys : List Json}
    (all : ∀ key, key ∈ keys ↔ wanted key) : Gathers wanted (distinctKeys keys) where
  nodup := nodup_texts_distinctKeys keys
  sound := fun key member => (all key).1 (distinctKeys_subset keys member)
  complete := fun key isWanted => mem_texts_distinctKeys.2 ⟨key, (all key).2 isWanted, rfl⟩

/-- At a site of some rows the field of an object awaits a key. -/
def AwaitedAt (rows : List Json) (site : Site) (key : Json) : Prop :=
  ∃ row ∈ rows, ∃ members value, ObjectAt row site.path members ∧
    members.lookup site.load.relation = some value ∧ Awaits value key

/-- The batch of a site gathers the keys that are awaited there. -/
theorem gathers_pendingKeys (rows : List Json) (site : Site) :
    Gathers (AwaitedAt rows site) (pendingKeys rows site) := by
  refine gathers_distinctKeys fun key => ?_
  simp only [objectsOfItems_eq, List.mem_filterMap, List.mem_flatMap, mem_objectsAt, pendingKey?,
    Option.bind_eq_some_iff, ← awaits_iff, Members.get?]
  constructor
  · rintro ⟨members, ⟨row, listed, leads⟩, value, held, awaits⟩
    exact ⟨row, listed, members, value, leads, held, awaits⟩
  · rintro ⟨row, listed, members, value, leads, held, awaits⟩
    exact ⟨members, ⟨row, listed, leads⟩, value, held, awaits⟩

/-- A row of a pivot table names the key of a target. -/
def NamesChild (links : List Row) (key : Json) : Prop :=
  key ≠ .null ∧ ∃ link ∈ links, link.lookup "child_key" = some key

/-- The batch for the targets of pivot rows gathers the keys that these name. -/
theorem gathers_childKeys (links : List Row) : Gathers (NamesChild links) (childKeys links) := by
  refine gathers_distinctKeys fun key => ?_
  simp only [List.mem_filter, List.mem_filterMap, Bool.not_eq_true', Json.isNull_eq_false_iff, Members.get?,
    childKeyColumn, NamesChild]
  exact and_comm

end RelQuery
