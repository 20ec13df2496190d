/-
Module: RelQuery.Proofs.Json.Members
Purpose: The members of an object: what writing one does to the names and values of all, and where it is found
  again.
Main exports: set_of_not_mem, foldl_set, mem_names_foldl_set, nodup_set, mem_set, ofRepeated_of_nodup,
  get?_eq_some_getD, getD_of_mem, get?_map, getD_foldl_set_of_agree
-/
import Mathlib.Data.List.Nodup
import RelQuery.Json.Basic

namespace RelQuery

open Json (Members)

theorem Json.isNull_iff {value : Json} : value.isNull = true ↔ value = .null := by
  cases value <;> simp [Json.isNull]

theorem Json.isNull_eq_false_iff {value : Json} : value.isNull = false ↔ value ≠ .null := by
  rw [← Bool.not_eq_true, Json.isNull_iff]

/-! ### Writing -/

/-- Writing a new member appends it. -/
theorem set_of_not_mem {members : Members} {name : String} {value : Json}
    (fresh : name ∉ members.map Prod.fst) : Members.set members name value = members ++ [(name, value)] := by
  induction members with
  | nil => rfl
  | cons member members ih =>
      obtain ⟨other, held⟩ := member
      simp only [List.map_cons, List.mem_cons, not_or] at fresh
      rw [Members.set, if_neg (Ne.symm fresh.1), ih fresh.2, List.cons_append]

/-- Writing members with new and distinct names appends all of them. -/
theorem foldl_set {ι : Type} (name : ι → String) (value : ι → Json) (items : List ι) (members : Members)
    (distinct : (members.map Prod.fst ++ items.map name).Nodup) :
    items.foldl (fun members item => Members.set members (name item) (value item)) members =
      members ++ items.map fun item => (name item, value item) := by
  induction items generalizing members with
  | nil => simp
  | cons item items ih =>
      have fresh : name item ∉ members.map Prod.fst := fun old =>
        List.disjoint_of_nodup_append distinct old List.mem_cons_self
      rw [List.foldl_cons, set_of_not_mem fresh, ih _ (by simpa using distinct)]
      simp

/-- Writing a member adds its name unless it is there. -/
theorem map_fst_set (members : Members) (name : String) (value : Json) :
    (Members.set members name value).map Prod.fst =
      if name ∈ members.map Prod.fst then members.map Prod.fst else members.map Prod.fst ++ [name] := by
  induction members with
  | nil => rfl
  | cons member members ih =>
      obtain ⟨other, held⟩ := member
      rw [Members.set]
      by_cases same : other = name
      · simp [same]
      · rw [if_neg same, List.map_cons, ih]
        by_cases old : name ∈ members.map Prod.fst
        · simp [old]
        · simp [old, Ne.symm same]

theorem nodup_set {members : Members} (name : String) (value : Json)
    (distinct : (members.map Prod.fst).Nodup) : ((Members.set members name value).map Prod.fst).Nodup := by
  rw [map_fst_set]
  split
  · exact distinct
  · rename_i new
    rw [List.nodup_append']
    exact ⟨distinct, List.nodup_singleton name, by simpa using new⟩

theorem mem_names_set {members : Members} {name other : String} {value : Json} :
    other ∈ (Members.set members name value).map Prod.fst ↔
      other ∈ members.map Prod.fst ∨ other = name := by
  rw [map_fst_set]
  split
  · rename_i old
    constructor
    · exact .inl
    · rintro (member | rfl)
      · exact member
      · exact old
  · rw [List.mem_append, List.mem_singleton]

/-- The names are those of before and those that were written. -/
theorem mem_names_foldl_set {ι : Type} {name : ι → String} {value : ι → Json} {items : List ι}
    {members : Members} {other : String} :
    other ∈ (items.foldl (fun members item => Members.set members (name item) (value item)) members).map
      Prod.fst ↔ other ∈ members.map Prod.fst ∨ other ∈ items.map name := by
  induction items generalizing members with
  | nil => simp
  | cons item items ih => rw [List.foldl_cons, ih, mem_names_set, List.map_cons, List.mem_cons, or_assoc]

/-- A member is the one that was written or an old one of another name. -/
theorem mem_set {members : Members} {name : String} {value : Json} {field : String × Json}
    (distinct : (members.map Prod.fst).Nodup) (member : field ∈ Members.set members name value) :
    field = (name, value) ∨ field ∈ members ∧ field.1 ≠ name := by
  induction members with
  | nil => exact .inl (List.mem_singleton.1 member)
  | cons first members ih =>
      obtain ⟨other, held⟩ := first
      obtain ⟨fresh, distinct⟩ := List.nodup_cons.1 distinct
      rw [Members.set] at member
      split at member
      · rename_i same
        rcases List.mem_cons.1 member with rfl | later
        · exact .inl (by rw [same])
        · refine .inr ⟨List.mem_cons_of_mem _ later, fun clash => fresh ?_⟩
          exact List.mem_map.2 ⟨field, later, clash.trans same.symm⟩
      · rename_i apart
        rcases List.mem_cons.1 member with rfl | later
        · exact .inr ⟨List.mem_cons_self, apart⟩
        · exact (ih distinct later).imp_right fun old => ⟨List.mem_cons_of_mem _ old.1, old.2⟩

theorem nodup_foldl_set {ι : Type} (name : ι → String) (value : ι → Json) (items : List ι)
    {members : Members} (distinct : (members.map Prod.fst).Nodup) :
    ((items.foldl (fun members item => Members.set members (name item) (value item)) members).map
      Prod.fst).Nodup := by
  induction items generalizing members with
  | nil => exact distinct
  | cons item items ih => exact ih (nodup_set _ _ distinct)

section

variable {before after : Members} {name : String} {value : Json}

theorem set_middle (fresh : name ∉ before.map Prod.fst) (value' : Json) :
    Members.set (before ++ (name, value) :: after) name value' = before ++ (name, value') :: after := by
  induction before with
  | nil => simp [Members.set]
  | cons field before ih =>
      simp only [List.map_cons, List.mem_cons, not_or] at fresh
      rw [List.cons_append, Members.set, if_neg (Ne.symm fresh.1), ih fresh.2, List.cons_append]

end

/-- An object whose names differ is made of its members. -/
theorem ofRepeated_of_nodup {members : Members} (distinct : (members.map Prod.fst).Nodup) :
    Members.ofRepeated members = members := by
  have all := foldl_set Prod.fst Prod.snd members [] (by simpa using distinct)
  simpa [Members.ofRepeated] using all

/-! ### Reading -/

theorem get?_middle {before after : Members} {name : String} {value : Json}
    (fresh : name ∉ before.map Prod.fst) :
    Members.get? (before ++ (name, value) :: after) name = some value := by
  induction before with
  | nil => simp [Members.get?]
  | cons field before ih =>
      simp only [List.map_cons, List.mem_cons, not_or] at fresh
      have apart : (name == field.1) = false := by simpa using fresh.1
      have rest := ih fresh.2
      simp only [Members.get?] at rest ⊢
      rw [List.cons_append, List.lookup_cons, apart]
      exact rest

/-- What is found under a name is a member of that name. -/
theorem mem_of_members_get? {members : Members} {name : String} {value : Json}
    (found : Members.get? members name = some value) : (name, value) ∈ members := by
  obtain ⟨before, after, rfl, -⟩ := List.lookup_eq_some_iff.1 found
  simp

/-- Something is found under each name that occurs. -/
theorem get?_eq_some_getD {members : Members} {name : String} (present : name ∈ members.map Prod.fst) :
    Members.get? members name = some (Members.getD members name) := by
  rw [Members.getD]
  cases found : Members.get? members name with
  | some value => rfl
  | none =>
      obtain ⟨member, inside, rfl⟩ := List.mem_map.1 present
      have apart := List.lookup_eq_none_iff.1 found member inside
      simp at apart

/-- A member is found under its name if all of that name hold the same. -/
theorem getD_of_mem_of_agree {members : Members} {name : String} {value : Json}
    (member : (name, value) ∈ members) (agree : ∀ other, (name, other) ∈ members → other = value) :
    Members.getD members name = value := by
  have found := get?_eq_some_getD (List.mem_map_of_mem member)
  exact agree _ (mem_of_members_get? found)

/-- Each member of an object with distinct names is found under its name. -/
theorem getD_of_mem {members : Members} {name : String} {value : Json}
    (distinct : (members.map Prod.fst).Nodup) (member : (name, value) ∈ members) :
    Members.getD members name = value := by
  apply getD_of_mem_of_agree member
  intro other inside
  exact (Prod.mk.inj (List.inj_on_of_nodup_map distinct inside member rfl)).2

/-- Changing values, name by name, changes what is found under each name. -/
theorem get?_map (change : String → Json → Json) (members : Members) (name : String) :
    Members.get? (members.map fun field => (field.1, change field.1 field.2)) name =
      (Members.get? members name).map (change name) := by
  induction members with
  | nil => rfl
  | cons field members ih =>
      obtain ⟨other, held⟩ := field
      simp only [Members.get?, List.map_cons, List.lookup_cons] at ih ⊢
      by_cases same : name = other
      · simp [same]
      · rw [beq_false_of_ne same, ih]

theorem getD_set_self (members : Members) (name : String) (value : Json) :
    Members.getD (Members.set members name value) name = value := by
  induction members with
  | nil => simp [Members.set, Members.getD, Members.get?]
  | cons member members ih =>
      obtain ⟨other, held⟩ := member
      rw [Members.set]
      split
      · rename_i same
        simp [same, Members.getD, Members.get?]
      · rename_i apart
        have differs : (name == other) = false := by simpa using Ne.symm apart
        simpa only [Members.getD, Members.get?, List.lookup_cons, differs] using ih

theorem getD_set_of_ne {members : Members} {name other : String} (apart : name ≠ other) (value : Json) :
    Members.getD (Members.set members other value) name = Members.getD members name := by
  induction members with
  | nil =>
      have differs : (name == other) = false := by simpa using apart
      simp [Members.set, Members.getD, Members.get?, List.lookup_cons, differs]
  | cons member members ih =>
      obtain ⟨first, held⟩ := member
      rw [Members.set]
      split
      · rename_i same
        have differs : (name == first) = false := by simpa [same] using apart
        simp [Members.getD, Members.get?, List.lookup_cons, differs]
      · simp only [Members.getD, Members.get?, List.lookup_cons] at ih ⊢
        split
        · rfl
        · exact ih

/-- Writing under other names leaves what is found. -/
theorem getD_foldl_set_of_not_mem {ι : Type} {name : ι → String} {items : List ι} {other : String}
    (absent : other ∉ items.map name) (value : ι → Json) (members : Members) :
    Members.getD (items.foldl (fun members item => Members.set members (name item) (value item)) members)
      other = Members.getD members other := by
  induction items generalizing members with
  | nil => rfl
  | cons item items ih =>
      rw [List.map_cons, List.mem_cons, not_or] at absent
      rw [List.foldl_cons, ih absent.2, getD_set_of_ne absent.1]

/-- What has been written is found if all that is written under the name is the same. -/
theorem getD_foldl_set_of_agree {ι : Type} {name : ι → String} {value : ι → Json} {items : List ι}
    {written : String} {held : Json} (present : written ∈ items.map name)
    (agree : ∀ item ∈ items, name item = written → value item = held) (members : Members) :
    Members.getD (items.foldl (fun members item => Members.set members (name item) (value item)) members)
      written = held := by
  induction items generalizing members with
  | nil => contradiction
  | cons item items ih =>
      obtain ⟨here, others⟩ := List.forall_mem_cons.1 agree
      rw [List.foldl_cons]
      by_cases later : written ∈ items.map name
      · exact ih later others _
      · obtain rfl : written = name item := by simpa [later] using present
        rw [getD_foldl_set_of_not_mem later, getD_set_self, here rfl]

end RelQuery
