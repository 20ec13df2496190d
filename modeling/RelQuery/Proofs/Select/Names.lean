/-
Module: RelQuery.Proofs.Select.Names
Purpose: No two items of a statement expose the same name. Every item is an occurrence whose name was
  reserved for it, and the names that are reserved for one statement are distinct, whatever the tables and
  relations are called.
Main exports: Occupies, Occupies.accounting, Selection.nodup_exposedNames
-/
import Mathlib.Data.List.Perm.Subperm
import RelQuery.Proofs.Blog
import RelQuery.Proofs.Select.Reserved

namespace RelQuery

open Sql

/-! ### Items under reserved names -/

/-- Each of the items exposes a name of its own that was reserved in between, and a reserved name is new. -/
structure Occupies (names names' : Names) (items : List TableRef) : Prop where
  within : ∃ labels, names'.exposed = names.exposed ++ labels ∧
    (items.map TableRef.exposedName).Subperm labels
  distinct : names.exposed.Nodup → names'.exposed.Nodup

namespace Occupies

variable {names names₁ names' : Names} {items more : List TableRef}

theorem refl (names : Names) : Occupies names names [] :=
  ⟨⟨[], by simp⟩, id⟩

/-- Names that are reserved may stay without an item. -/
theorem subperm (occupies : Occupies names names' items) (fewer : more.Subperm items) :
    Occupies names names' more := by
  obtain ⟨⟨labels, grown, inside⟩, distinct⟩ := occupies
  obtain ⟨kept, perm, sublist⟩ := fewer
  have named : (more.map TableRef.exposedName).Subperm (items.map TableRef.exposedName) :=
    ⟨kept.map TableRef.exposedName, perm.map _, sublist.map _⟩
  exact ⟨⟨labels, grown, named.trans inside⟩, distinct⟩

/-- Reservations follow each other. -/
theorem append (first : Occupies names names₁ items) (second : Occupies names₁ names' more) :
    Occupies names names' (items ++ more) := by
  obtain ⟨⟨labels, grown, inside⟩, distinct⟩ := first
  obtain ⟨⟨others, grownFurther, insideOthers⟩, distinctFurther⟩ := second
  refine ⟨⟨labels ++ others, ?_, ?_⟩, fun start => distinctFurther (distinct start)⟩
  · rw [grownFurther, grown, List.append_assoc]
  · rw [List.map_append]
    exact inside.append insideOthers

/-- An item takes up the name that is reserved for it. -/
theorem reserve {table : String} {hint : Option String} {item : TableRef}
    (exposed : item.exposedName = (names.reserve table hint).1) :
    Occupies names (names.reserve table hint).2 [item] := by
  refine ⟨⟨[(names.reserve table hint).1], Names.exposed_reserve _ _ _, ?_⟩, ?_⟩
  · rw [List.map_singleton, exposed]
  · intro start
    rw [Names.exposed_reserve, List.nodup_append]
    refine ⟨start, List.nodup_singleton _, ?_⟩
    intro name taken other new same
    rw [same, List.mem_singleton.1 new] at taken
    exact names.reserve_fresh table hint taken

/-- Items under the names of one statement expose different ones. -/
theorem nodup (occupies : Occupies .empty names' items) : (items.map TableRef.exposedName).Nodup := by
  obtain ⟨⟨labels, grown, inside⟩, distinct⟩ := occupies
  have reserved : labels.Nodup := by
    have all := distinct List.nodup_nil
    rwa [grown] at all
  obtain ⟨kept, perm, sublist⟩ := inside
  exact perm.nodup_iff.1 (reserved.sublist sublist)

end Occupies

/-! ### Statements -/

section

variable {registry : Registry} {selection : Selection}

/-- Whatever the relations are called, reservations give items names of their own. -/
theorem Occupies.accounting (tables : List Table) : Accounting tables Occupies where
  refl := .refl
  append := .append
  subperm := .subperm
  stored _ _ _ _ := .reserve (exposedName_occurrence _ _)
  derived _ _ _ := .reserve rfl

/-- The items of a built statement have names of their own. -/
theorem occupies_build {built : BuiltQuery} (build : selection.build registry = .ok built) :
    ∃ names', Occupies .empty names' built.query.occurrences := by
  obtain ⟨names', -, occupies⟩ := (Occupies.accounting (selection.table :: registry.tables)).build
    (List.subset_cons_self _ _) List.mem_cons_self build
  exact ⟨names', occupies⟩

/-- The items of a counting statement have names of their own. -/
theorem occupies_countQuery {counting : Query} (count : selection.countQuery registry = .ok counting) :
    ∃ names', Occupies .empty names' counting.occurrences := by
  obtain ⟨names', -, occupies⟩ := (Occupies.accounting (selection.table :: registry.tables)).countQuery
    (List.subset_cons_self _ _) List.mem_cons_self count
  exact ⟨names', occupies⟩

/-- No two items of a built statement expose the same name, and neither do two of a counting one. -/
theorem Selection.nodup_exposedNames (registry : Registry) (selection : Selection) :
    (∀ built, selection.build registry = .ok built →
      (built.query.occurrences.map TableRef.exposedName).Nodup) ∧
    (∀ counting, selection.countQuery registry = .ok counting →
      (counting.occurrences.map TableRef.exposedName).Nodup) := by
  constructor
  · intro built build
    obtain ⟨names', occupies⟩ := occupies_build build
    exact occupies.nodup
  · intro counting count
    obtain ⟨names', occupies⟩ := occupies_countQuery count
    exact occupies.nodup

end

/-- A computation succeeds if it succeeds with a known value once it is mapped. -/
theorem exists_of_toOption_map {ε α β : Type} {x : Except ε α} {f : α → β} {b : β}
    (known : (x.map f).toOption = some b) : ∃ a, x = .ok a ∧ f a = b := by
  cases x with
  | error e => contradiction
  | ok a => exact ⟨a, rfl, Option.some.inj known⟩

/-- The first of the posts by Ada, with its author and one of its tags. -/
def Blog.pageByAda : Selection :=
  { Selection.ofTable Blog.posts with
    filters := [.relation "author" { RelationFilter.empty with someRow := some (.eq "name" (.text "Ada")) }]
    includes := [⟨"author", none, none, none, []⟩,
      ⟨"tags", none, some (.eq "name" (.text "sql")), none, []⟩]
    order := [⟨"title", .asc, none⟩]
    limit := some 1 }

/-- The authors occur four times in the statement of a page, under four names. -/
theorem Blog.nodup_exposedNames_pageByAda :
    ∃ built counting, Blog.pageByAda.build registry = .ok built ∧
      Blog.pageByAda.countQuery registry = .ok counting ∧
      built.query.occurrences.map TableRef.exposedName = ["posts", "authors", "post_tags", "tags", "author",
        "page_keys", "posts_2", "authors_2", "authors_3"] ∧
      (built.query.occurrences.map TableRef.exposedName).Nodup ∧
      (counting.occurrences.map TableRef.exposedName).Nodup := by
  obtain ⟨builds, counts⟩ := Selection.nodup_exposedNames registry Blog.pageByAda
  have names : ((Blog.pageByAda.build registry).map fun built =>
      built.query.occurrences.map TableRef.exposedName).toOption = some ["posts", "authors", "post_tags",
        "tags", "author", "page_keys", "posts_2", "authors_2", "authors_3"] := by decide +kernel
  have joins : ((Blog.pageByAda.countQuery registry).map fun counting =>
      counting.joins.length).toOption = some 1 := by decide +kernel
  obtain ⟨built, build, exposed⟩ := exists_of_toOption_map names
  obtain ⟨counting, count, -⟩ := exists_of_toOption_map joins
  exact ⟨built, counting, build, count, exposed, builds built build, counts counting count⟩

end RelQuery
