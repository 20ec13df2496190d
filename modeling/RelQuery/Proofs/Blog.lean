/-
Module: RelQuery.Proofs.Blog
Purpose: A registry of authors, posts and tags and a small database of them. A post has at most one author
  and any number of tags, which it is linked to through a pivot table; one post has no author.
Main exports: Blog.registry, Blog.database
-/
import RelQuery.Proofs.Sql.Scalar
import RelQuery.Proofs.Sql.Semantics
import RelQuery.Schema.Registry

namespace RelQuery.Blog

open Sql

/-- A column without constraints. -/
def column (name : String) (type : ColumnType) : Column := ⟨name, type, true, none, false, none⟩

/-- Authors and their posts. -/
def authors : Table where
  name := "authors"
  schema := none
  columns := [column "id" .int, column "name" .text]
  relations := [⟨"posts", .hasMany, "posts", ["author_id"], [], none, false⟩]
  primaryKey := ["id"]

/-- Posts, their authors and their tags. -/
def posts : Table where
  name := "posts"
  schema := none
  columns := [column "id" .int, column "title" .text, column "author_id" .int]
  relations := [⟨"author", .belongsTo, "authors", ["author_id"], [], none, false⟩,
    ⟨"tags", .belongsToMany, "tags", [], [], some ⟨"post_tags", ["post_id"], ["tag_id"]⟩, false⟩]
  primaryKey := ["id"]

/-- Tags. -/
def tags : Table where
  name := "tags"
  schema := none
  columns := [column "id" .int, column "name" .text]
  relations := []
  primaryKey := ["id"]

/-- The pairs of posts and tags. -/
def postTags : Table where
  name := "post_tags"
  schema := none
  columns := [column "post_id" .int, column "tag_id" .int]
  relations := []
  primaryKey := []

/-- The registered tables. -/
def registry : Registry := ⟨[authors, posts, tags, postTags]⟩

/-- A record of an integer under `id` and a text. -/
def named (id : Int) (column name : String) : Record Scalar := [("id", .int id), (column, .text name)]

/-- The stored rows. -/
def rows : String → List (Record Scalar)
  | "authors" => [named 1 "name" "Ada", named 2 "name" "Bo"]
  | "posts" => [named 1 "title" "One" ++ [("author_id", .int 1)], named 2 "title" "Two" ++ [("author_id", .int 1)],
      named 3 "title" "Three" ++ [("author_id", .null)]]
  | "tags" => [named 1 "name" "lean", named 2 "name" "sql"]
  | "post_tags" => [[("post_id", .int 1), ("tag_id", .int 1)], [("post_id", .int 1), ("tag_id", .int 2)],
      [("post_id", .int 2), ("tag_id", .int 2)]]
  | _ => []

/-- The database. -/
def database : Database Scalar where
  engine := Scalar.engine
  tables := fun _ name => ⟨((registry.get? name).map fun table => table.columns.map Column.name).getD [], rows name⟩

end RelQuery.Blog
