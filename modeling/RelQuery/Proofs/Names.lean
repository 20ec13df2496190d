/-
Module: RelQuery.Proofs.Names
Purpose: Reserving a name always yields one that was not exposed before, so that the occurrences of a
  statement can be told apart by their names.
Main exports: numberedName_injective, firstFree_not_mem, Names.reserve_fresh, Names.exposed_reserve
-/
import Mathlib.Data.List.Nodup
import Mathlib.Data.List.Perm.Subperm
import RelQuery.Alias

namespace RelQuery

/-- Different numbers make different names. -/
theorem numberedName_injective {table : String} {m n : Nat}
    (same : numberedName table m = numberedName table n) : m = n := by
  have digits : toString m = toString n := (String.append_right_inj (table ++ "_")).1 same
  rw [Nat.toString_eq_ofList_toDigits, Nat.toString_eq_ofList_toDigits] at digits
  have characters : Nat.toDigits 10 m = Nat.toDigits 10 n := by
    simpa using congrArg String.toList digits
  rw [← Nat.ofDigitChars_ten_toDigits (n := m), characters, Nat.ofDigitChars_ten_toDigits]

/-- If the search ends at a taken name, it has passed over taken names alone. -/
theorem taken_of_firstFree_mem {table : String} {taken : List String} :
    ∀ {fuel number : Nat}, firstFree table taken fuel number ∈ taken →
      ∀ k, k ≤ fuel → numberedName table (number + k) ∈ taken
  | 0, number, found, k, bound => by
      obtain rfl : k = 0 := by omega
      exact found
  | fuel + 1, number, found, k, bound => by
      unfold firstFree at found
      split at found
      · rename_i first
        cases k with
        | zero => exact first
        | succ k =>
            have later := taken_of_firstFree_mem found k (by omega)
            rwa [Nat.add_assoc, Nat.add_comm 1 k] at later
      · contradiction

/-- Among one candidate more than there are taken names, some candidate is free. -/
theorem firstFree_not_mem (table : String) (taken : List String) (number : Nat) :
    firstFree table taken taken.length number ∉ taken := by
  intro found
  let candidates := (List.range (taken.length + 1)).map fun k => numberedName table (number + k)
  have distinct : candidates.Nodup := by
    refine List.nodup_range.map fun a b same => ?_
    have := numberedName_injective same
    omega
  have inside : candidates ⊆ taken := by
    intro name member
    obtain ⟨k, bound, rfl⟩ := List.mem_map.1 member
    exact taken_of_firstFree_mem found k (by have := List.mem_range.1 bound; omega)
  have short := (List.subperm_of_subset distinct inside).length_le
  simp only [candidates, List.length_map, List.length_range] at short
  omega

namespace Names

/-- The next name is not exposed yet. -/
theorem next_not_mem (names : Names) (table : String) (hint : Option String) :
    names.next table hint ∉ names.exposed := by
  have numbered := firstFree_not_mem table names.exposed 2
  cases bare : names.isExposed table with
  | false =>
      have free : table ∉ names.exposed := by simpa [isExposed] using bare
      simpa [next, bare] using free
  | true =>
      cases hint with
      | none => simpa [next, bare] using numbered
      | some h =>
          by_cases free : (!h.isEmpty && !names.isExposed h) = true
          · have vacant : h ∉ names.exposed := by
              simpa [isExposed] using (Bool.and_eq_true_iff.1 free).2
            simpa only [next, bare, Bool.not_true, Bool.false_eq_true, if_false, if_pos free] using vacant
          · simpa only [next, bare, Bool.not_true, Bool.false_eq_true, if_false, if_neg free] using numbered

@[simp] theorem exposed_reserve (names : Names) (table : String) (hint : Option String) :
    (names.reserve table hint).2.exposed = names.exposed ++ [(names.reserve table hint).1] := by
  simp [reserve, exposed]

/-- A reserved name was not exposed before. -/
theorem reserve_fresh (names : Names) (table : String) (hint : Option String) :
    (names.reserve table hint).1 ∉ names.exposed :=
  next_not_mem names table hint

/-- Whatever is exposed stays so, and the reserved name joins it. -/
theorem mem_exposed_reserve {names : Names} {table : String} {hint : Option String} {name : String} :
    name ∈ (names.reserve table hint).2.exposed ↔
      name ∈ names.exposed ∨ name = (names.reserve table hint).1 := by
  simp

end Names

end RelQuery
