/-
Module: RelQuery.Proofs.Json.Alike
Purpose: JSON values that differ in nothing but the order in which arrays list their items and objects
  their members. They hold the same numbers.
Main exports: Json.Alike, Json.Alike.object_of_perm, Json.Alike.numbers_perm
-/
import Mathlib.Data.List.Perm.Basic
import RelQuery.Proofs.Json.ReadBack

namespace RelQuery.Json

/-- The values are the same up to the order of items and members, at any depth. -/
inductive Alike : Json → Json → Prop
  | same (value : Json) : Alike value value
  | array {xs ys zs : List Json} (reordered : xs.Perm ys) (each : List.Forall₂ Alike ys zs) :
      Alike (.array xs) (.array zs)
  | object {xs ys zs : Members} (reordered : xs.Perm ys) (named : ys.map Prod.fst = zs.map Prod.fst)
      (each : List.Forall₂ Alike (ys.map Prod.snd) (zs.map Prod.snd)) :
      Alike (.object xs) (.object zs)

/-- Matched lists stay matched when one of them is reordered. -/
theorem exists_perm_of_forall₂ {α β : Type} {fits : α → β → Prop} {xs : List α} {ys zs : List β}
    (matched : List.Forall₂ fits xs ys) (reordered : ys.Perm zs) :
    ∃ ws, xs.Perm ws ∧ List.Forall₂ fits ws zs := by
  obtain ⟨ws, inner, outer⟩ := List.forall₂_comp_perm_eq_perm_comp_forall₂ (r := fits) ▸
    (show Relation.Comp (List.Forall₂ fits) List.Perm xs zs from ⟨ys, matched, reordered⟩)
  exact ⟨ws, inner, outer⟩

namespace Alike

/-- Objects are alike if their members can be matched. -/
theorem object_of_perm {xs ys xs' ys' : Members} (left : xs.Perm ys) (right : xs'.Perm ys')
    (each : List.Forall₂ (fun a b => a.1 = b.1 ∧ Alike a.2 b.2) ys ys') :
    Alike (.object xs) (.object xs') := by
  obtain ⟨zs, reordered, matched⟩ := exists_perm_of_forall₂ each right.symm
  refine .object (left.trans reordered) ?_ ?_
  · rw [← List.forall₂_eq_eq_eq, List.forall₂_map_left_iff, List.forall₂_map_right_iff]
    exact matched.imp fun _ _ both => both.1
  · rw [List.forall₂_map_left_iff, List.forall₂_map_right_iff]
    exact matched.imp fun _ _ both => both.2

/-- Values that are alike hold the same numbers, each as often. -/
theorem numbers_perm {a b : Json} (alike : Alike a b) : a.numbers.Perm b.numbers := by
  -- Matched lists of values are followed along with the values, as the relation is nested in them.
  refine @Alike.rec (fun a b _ => a.numbers.Perm b.numbers)
    (fun xs ys _ => (xs.flatMap numbers).Perm (ys.flatMap numbers)) ?same ?array ?object ?nil ?cons a b alike
  case same => exact fun _ => .refl _
  case array =>
    intro xs ys zs reordered _ each
    rw [numbers, numbers, numbersOfItems_eq, numbersOfItems_eq]
    exact (reordered.flatMap_right _).trans each
  case object =>
    intro xs ys zs reordered _ _ each
    rw [numbers, numbers, numbersOfMembers_eq, numbersOfMembers_eq, ← List.flatMap_map Prod.snd numbers,
      ← List.flatMap_map Prod.snd numbers]
    exact ((reordered.map _).flatMap_right _).trans each
  case nil => exact .refl _
  case cons =>
    intro x y xs ys _ _ first others
    rw [List.flatMap_cons, List.flatMap_cons]
    exact first.append others

end Alike

end RelQuery.Json
