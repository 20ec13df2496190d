/-
Module: RelQuery.Proofs.Hydrate.Blog
Purpose: The sample database meets what is asked of databases whose rows are hydrated: its tables have
  keys, its relations to one row link at most one, and its values are handed out as different texts.
Main exports: Scalar.rendering, Blog.keyed_authors, Blog.keyed_posts, Blog.keyed_tags, Blog.linksToOne,
  Blog.namesApart
-/
import RelQuery.Proofs.Blog
import RelQuery.Proofs.Json.Injective
import RelQuery.Proofs.Plan.Depicts

namespace RelQuery

namespace Sql.Scalar

/-- Integers are handed out as numbers and texts as strings. -/
def toJson : Scalar → Json
  | .null => .null
  | .int n => .int n
  | .text s => .string s

theorem toJson_injective {a b : Scalar} (same : toJson a = toJson b) : a = b := by
  cases a <;> cases b <;> simp_all [toJson]

theorem isFinite_toJson (v : Scalar) : (toJson v).IsFinite := by
  cases v <;> simp [toJson, Json.IsFinite, Json.numbers, Json.Number.IsFinite]

/-- The scalars are told apart by their texts. -/
def rendering : Rendering engine where
  toJson := toJson
  isNull_toJson := by
    intro v
    cases v <;> rfl
  faithful := by
    intro a b present same
    obtain rfl := toJson_injective ((Json.text_inj (isFinite_toJson a) (isFinite_toJson b)).1 same)
    exact engine.compare_self a present

end Sql.Scalar

namespace Blog

open Sql

theorem keyed_authors : database.Keyed authors := by
  constructor <;> decide

theorem keyed_posts : database.Keyed posts := by
  constructor <;> decide

theorem keyed_tags : database.Keyed tags := by
  constructor <;> decide

/-- A post has at most one author. -/
theorem linksToOne : database.LinksToOne registry := by
  intro source registered name relation keys found toOne row stored
  obtain ⟨declared, resolved⟩ := Registry.relation_eq_ok found
  have member := List.mem_of_find?_eq_some declared
  simp only [registry, List.mem_cons, List.not_mem_nil, or_false] at registered
  rcases registered with rfl | rfl | rfl | rfl
  · simp only [authors, List.mem_singleton] at member
    subst member
    simp [RelationKind.isToMany] at toOne
  · simp only [posts, List.mem_cons, List.not_mem_nil, or_false] at member
    rcases member with rfl | rfl
    · obtain rfl : RelationKeys.direct authors [("id", "author_id")] = keys :=
        Except.ok.inj (Eq.trans (by decide) resolved)
      revert row
      decide
    · simp [RelationKind.isToMany] at toOne
  · simp [tags] at member
  · simp [postTags] at member

theorem validated : registry.validate = .ok () := by
  rfl

theorem namesApart : registry.NamesApart := by
  simp only [Registry.NamesApart]
  decide

end Blog

end RelQuery
