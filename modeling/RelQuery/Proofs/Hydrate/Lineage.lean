/-
Module: RelQuery.Proofs.Hydrate.Lineage
Purpose: Where nested objects come from. An object and all objects that it is nested in have their keys from
  one row, provided that the rows agree on the related row of each relation to one row that has further
  objects below it. Where they do not, the first related row is given the objects of the others.
Main exports: Lineage, BeginsWith, Carries, exists_row_of_lineage
-/
import RelQuery.Proofs.Hydrate.Flattened
import RelQuery.Proofs.Hydrate.Grouping

namespace RelQuery

open Json (Members)

/-! ### Objects and what they are nested in -/

/-- An object of an occurrence and objects below it, each of which stands in the field of a relation of the
    one before, that is of the last joined relation of that name. -/
inductive Lineage : Projection → Json → List (Projection × Json) → Prop
  | last {occurrence : Projection} {object : Json} : Lineage occurrence object [(occurrence, object)]
  | above {occurrence : Projection} {object inner : Json} {node : IncludeNode}
      {before after : List IncludeNode} {chain : List (Projection × Json)}
      (joined : occurrence.includes = before ++ node :: after)
      (shown : node.relation ∉ after.map IncludeNode.relation)
      (related : inner ∈ (Members.getD object.members node.relation).related)
      (rest : Lineage node.projection inner chain) :
      Lineage occurrence object ((occurrence, object) :: chain)

/-- The object has the fields that a row gives, besides those of its joined relations. -/
def BeginsWith (occurrence : Projection) (first : Row) (object : Json) : Prop :=
  ∃ slots, object = .object (slotsOver occurrence.includes (ownFields occurrence first) slots)

/-- The row has the key of an object: that of a row which the object begins with. -/
def Carries (rows : List Row) (row : Row) (link : Projection × Json) : Prop :=
  ∃ first ∈ rows, BeginsWith link.1 first link.2 ∧ (rowKey link.1 first).isSome = true ∧
    rowKey link.1 row = rowKey link.1 first

/-! ### Fields of joined relations -/

/-- A field of another name is not touched by joined relations. -/
theorem getD_slotsOver_of_not_mem {nodes : List IncludeNode} {name : String}
    (free : name ∉ nodes.map IncludeNode.relation) (rows : List Row) (fields : Members) :
    Members.getD (slotsOver nodes fields (Slot.nestEach nodes rows)) name = Members.getD fields name := by
  induction nodes generalizing fields with
  | nil => simp [Slot.nestEach, slotsOver]
  | cons node nodes ih =>
      rw [List.map_cons, List.mem_cons, not_or] at free
      rw [slotsOver_nestEach_cons, ih free.2, getD_set_of_ne free.1]

/-- The last joined relation of a name has its field. -/
theorem getD_slotsOver {node : IncludeNode} {after : List IncludeNode}
    (shown : node.relation ∉ after.map IncludeNode.relation) (before : List IncludeNode) (rows : List Row)
    (fields : Members) :
    Members.getD (slotsOver (before ++ node :: after) fields
        (Slot.nestEach (before ++ node :: after) rows)) node.relation =
      joinedValue node.kind node.projection rows := by
  induction before generalizing fields with
  | nil => rw [List.nil_append, slotsOver_nestEach_cons, getD_slotsOver_of_not_mem shown, getD_set_self]
  | cons first before ih => rw [List.cons_append, slotsOver_nestEach_cons, ih]

theorem value_nest_eq_object (occurrence : Projection) (rows : List Row) :
    (Cell.nest occurrence rows).value occurrence =
      .object (slotsOver occurrence.includes (ownFields occurrence (rows.headD []))
        (Slot.nestEach occurrence.includes rows)) := by
  cases occurrence
  rw [Cell.nest, Cell.value]

/-- An object in the field of a relation is made of the rows of one key, or of all rows that hold a related
    one if there is only one object. -/
theorem exists_part_of_related {kind : RelationKind} {child : Projection} {rows : List Row} {inner : Json}
    (related : inner ∈ (joinedValue kind child rows).related) :
    (∃ k ∈ keysOf (rowKey child) rows, kind.isToMany = true ∧
      inner = (Cell.nest child (rowsOfKey (rowKey child) rows k)).value child) ∨
    (kind.isToMany = false ∧ presentRows child rows ≠ [] ∧
      inner = (Cell.nest child (presentRows child rows)).value child) := by
  rw [joinedValue] at related
  split at related
  · rename_i many
    obtain ⟨k, keyed, rfl⟩ := List.mem_map.1 related
    exact .inl ⟨k, keyed, many, rfl⟩
  · rename_i one
    split at related
    · simp [Json.related] at related
    · rename_i inhabited
      rw [value_nest_eq_object] at related
      rw [value_nest_eq_object]
      exact .inr ⟨by simpa using one, by simpa using inhabited, List.mem_singleton.1 related⟩

/-! ### One row for a chain -/

theorem Lineage.eq_cons {occurrence : Projection} {object : Json} {chain : List (Projection × Json)}
    (lineage : Lineage occurrence object chain) : ∃ below, chain = (occurrence, object) :: below := by
  cases lineage <;> exact ⟨_, rfl⟩

/-- The rows of one occurrence agree on the key of each related row of the relations to one row that a chain
    leads through. -/
def AgreesAlong (occurrence : Projection) (rows : List Row) (chain : List (Projection × Json)) : Prop :=
  ∀ inner part, PartOf occurrence rows inner part → ∀ node ∈ inner.includes,
    node.projection ∈ chain.dropLast.map Prod.fst → RelatesOnce node part

/-- What the rows of an occurrence agree on, the rows of one below it agree on. -/
theorem AgreesAlong.below {occurrence : Projection} {node : IncludeNode} {rows : List Row}
    {link : Projection × Json} {chain : List (Projection × Json)} {k : String}
    (agrees : AgreesAlong occurrence rows (link :: chain)) (joined : node ∈ occurrence.includes)
    (keyed : k ∈ keysOf (rowKey node.projection) rows) :
    AgreesAlong node.projection (rowsOfKey (rowKey node.projection) rows k) chain := by
  intro inner part inside further among through
  refine agrees inner part (.under joined keyed inside) further among ?_
  cases chain with
  | nil => simp at through
  | cons next chain => exact List.mem_cons_of_mem _ through

/-- The rows of one key are alike, and at least one. -/
theorem exists_rowsOfKey_eq_cons {child : Projection} {rows : List Row} {k : String}
    (keyed : k ∈ keysOf (rowKey child) rows) :
    ∃ first others, rowsOfKey (rowKey child) rows k = first :: others ∧ first :: others ⊆ rows ∧
      ∀ row ∈ first :: others, rowKey child row = some k := by
  obtain ⟨row, member, found⟩ := mem_keysOf.1 keyed
  have inhabited : rowsOfKey (rowKey child) rows k ≠ [] :=
    List.ne_nil_of_mem (List.mem_filter.2 ⟨member, by simp [found]⟩)
  obtain ⟨first, others, split⟩ := List.exists_cons_of_ne_nil inhabited
  refine ⟨first, others, split, split ▸ List.filter_sublist.subset, ?_⟩
  intro row member
  rw [← split] at member
  simpa using (List.mem_filter.1 member).2

/-- An object in the field of a relation is made of some of the rows. They have the same key, and agree along
    the rest of the chain, if anything is nested in the object. -/
theorem exists_part_below {occurrence : Projection} {node : IncludeNode} {rows : List Row} {inner : Json}
    {link : Projection × Json} {chain : List (Projection × Json)} (joined : node ∈ occurrence.includes)
    (related : inner ∈ (joinedValue node.kind node.projection rows).related)
    (agrees : AgreesAlong occurrence rows (link :: (node.projection, inner) :: chain)) :
    ∃ first others, first :: others ⊆ rows ∧
      inner = (Cell.nest node.projection (first :: others)).value node.projection ∧
      (rowKey node.projection first).isSome = true ∧
      (chain ≠ [] → ∀ row ∈ others, rowKey node.projection row = rowKey node.projection first) ∧
      AgreesAlong node.projection (first :: others) ((node.projection, inner) :: chain) := by
  rcases exists_part_of_related related with ⟨k, keyed, -, made⟩ | ⟨one, inhabited, made⟩
  · obtain ⟨first, others, split, inside, alike⟩ := exists_rowsOfKey_eq_cons keyed
    have firstKey := alike first List.mem_cons_self
    have further := agrees.below joined keyed
    rw [split] at made further
    refine ⟨first, others, inside, made, by rw [firstKey]; rfl, ?_, further⟩
    exact fun _ row member => (alike row (List.mem_cons_of_mem _ member)).trans firstKey.symm
  · obtain ⟨first, others, split⟩ := List.exists_cons_of_ne_nil inhabited
    have shown : ∀ row ∈ first :: others, row ∈ rows ∧ (rowKey node.projection row).isSome = true :=
      fun row member => List.mem_filter.1 (by rwa [← presentRows, split])
    obtain ⟨firstInside, present⟩ := shown first List.mem_cons_self
    rw [split] at made
    refine ⟨first, others, fun row member => (shown row member).1, made, present, ?_, ?_⟩
    · intro deeper row member
      obtain ⟨next, chain, rfl⟩ := List.exists_cons_of_ne_nil deeper
      have once := agrees _ _ .whole node joined (by simp)
      obtain ⟨rowInside, rowPresent⟩ := shown row (List.mem_cons_of_mem _ member)
      exact once one row rowInside first firstInside rowPresent present
    · cases chain with
      | nil =>
          intro _ _ _ _ _ through
          simp at through
      | cons next chain =>
          -- All rows that hold a related row hold the same one, so that these are the rows of one key.
          have once := agrees _ _ .whole node joined (by simp)
          obtain ⟨k, found⟩ := Option.isSome_iff_exists.1 present
          obtain ⟨keys, part⟩ := keysOf_eq_singleton firstInside found fun row member shown =>
            (once one row member first firstInside shown present).trans found
          have keyed : k ∈ keysOf (rowKey node.projection) rows := keys ▸ List.mem_singleton_self k
          have further := agrees.below joined keyed
          rwa [part, ← presentRows, split] at further

/-- A row of the part that the innermost object of a chain is made of has the keys of all objects in it. -/
theorem exists_row_of_made {rows : List Row} {occurrence : Projection} {object : Json}
    {chain : List (Projection × Json)} (lineage : Lineage occurrence object chain) {first : Row}
    {others : List Row} (inside : first :: others ⊆ rows)
    (made : object = (Cell.nest occurrence (first :: others)).value occurrence)
    (present : (rowKey occurrence first).isSome = true)
    (alike : 1 < chain.length → ∀ row ∈ others, rowKey occurrence row = rowKey occurrence first)
    (agrees : AgreesAlong occurrence (first :: others) chain) :
    ∃ row ∈ first :: others, ∀ link ∈ chain, Carries rows row link := by
  induction lineage generalizing first others with
  | last =>
      have begins : BeginsWith _ first _ := ⟨_, made.trans (value_nest_eq_object _ (first :: others))⟩
      refine ⟨first, List.mem_cons_self, ?_⟩
      intro link member
      obtain rfl := List.mem_singleton.1 member
      exact ⟨first, inside List.mem_cons_self, begins, present, rfl⟩
  | @above occurrence object inner node before after chain joined shown related rest ih =>
      have value := value_nest_eq_object occurrence (first :: others)
      have begins : BeginsWith occurrence first object := ⟨_, made.trans value⟩
      obtain ⟨below, rfl⟩ := rest.eq_cons
      rw [made, value, Json.members, joined, getD_slotsOver shown] at related
      have among : node ∈ occurrence.includes := by simp [joined]
      obtain ⟨next, more, within, made, nextPresent, nextAlike, further⟩ :=
        exists_part_below among related agrees
      obtain ⟨row, member, carries⟩ := ih (List.Subset.trans within inside) made nextPresent
        (fun deeper => nextAlike (by simpa [List.length_pos_iff] using deeper)) further
      refine ⟨row, within member, List.forall_mem_cons.2 ⟨?_, carries⟩⟩
      refine ⟨first, inside List.mem_cons_self, begins, present, ?_⟩
      rcases List.mem_cons.1 (within member) with rfl | later
      · rfl
      · exact alike (by simp) row later

/-- Hydrating never attaches an object to one that no row of its own belongs to: of an object in the output
    and the objects that it is nested in, one row has all keys, provided that the rows of one occurrence agree
    on the related row of each relation to one row that leads further. -/
theorem exists_row_of_lineage {root : Projection} {rows : List Row} {object : Json}
    {chain : List (Projection × Json)} (shown : object ∈ hydrate root rows)
    (lineage : Lineage root object chain)
    (agrees : ∀ k ∈ keysOf (rowKey root) rows, AgreesAlong root (rowsOfKey (rowKey root) rows k) chain) :
    ∃ row ∈ rows, ∀ link ∈ chain, Carries rows row link := by
  rw [hydrate_eq_nest] at shown
  obtain ⟨k, keyed, made⟩ := List.mem_map.1 shown
  obtain ⟨first, others, split, inside, alike⟩ := exists_rowsOfKey_eq_cons keyed
  have firstKey := alike first List.mem_cons_self
  have further := agrees k keyed
  rw [split] at made further
  obtain ⟨row, member, carries⟩ := exists_row_of_made lineage inside made.symm (by rw [firstKey]; rfl)
    (fun _ row member => (alike row (List.mem_cons_of_mem _ member)).trans firstKey.symm) further
  exact ⟨row, inside member, carries⟩

namespace Blog

/-- The posts of the authors of the library. -/
def authorPosts : Projection :=
  ⟨"posts", "author_posts", "author__posts", ["id"], [⟨"id", .int⟩], [], []⟩

/-- The authors of the library. -/
def postAuthor : Projection :=
  ⟨"authors", "authors", "author", ["id"], [⟨"id", .int⟩, ⟨"name", .text⟩],
    [⟨"posts", .hasMany, authorPosts⟩], []⟩

/-- A post of an author's. -/
def secondPost : Json := .object [("id", .int 2)]

/-- Ada as the author of a post, with both of her posts. -/
def adaWithPosts : Json :=
  .object [("id", .int 1), ("name", .string "Ada"), ("posts", .array [secondPost, .object [("id", .int 1)]])]

/-- The first post of the library, with its author and its tags. -/
def firstPost : Json :=
  .object [("id", .int 1), ("title", .string "One"), ("author", adaWithPosts),
    ("tags", .array [.object [("name", .string "lean")], .object [("name", .string "sql")]])]

/-- A post of the author of the first post is nested in that post. -/
def postsOfFirstPost : List (Projection × Json) :=
  [(library, firstPost), (postAuthor, adaWithPosts), (authorPosts, secondPost)]

theorem lineage_postsOfFirstPost : Lineage library firstPost postsOfFirstPost := by
  have author : library.includes = [] ++ ⟨"author", .belongsTo, postAuthor⟩ :: library.includes.tail := rfl
  have posts : postAuthor.includes = [] ++ ⟨"posts", .hasMany, authorPosts⟩ :: [] := rfl
  refine .above author (by decide) ?_ (.above posts (by decide) ?_ .last)
  · exact List.mem_singleton_self adaWithPosts
  · exact List.mem_cons_self

/-- The rows of a post agree on the author, so that some row shows the first post, its author and the other
    post of that author. -/
theorem row_of_postsOfFirstPost :
    firstPost ∈ hydrate library libraryRows ∧ Lineage library firstPost postsOfFirstPost ∧
      ∃ row ∈ libraryRows, ∀ link ∈ postsOfFirstPost, Carries libraryRows row link := by
  have shown : firstPost ∈ hydrate library libraryRows := List.mem_of_getElem? (i := 0) rfl
  exact ⟨shown, lineage_postsOfFirstPost, exists_row_of_lineage shown lineage_postsOfFirstPost
    fun k keyed inner part inside node joined _ => relatesOnce_library k keyed inner part inside node joined⟩

/-- Authors with their profile and the links on it. -/
def profiled : Projection :=
  ⟨"authors", "authors", "", ["id"], [⟨"id", .int⟩],
    [⟨"profile", .hasOne, "profiles", "profiles", "profile", ["id"], [⟨"id", .int⟩],
      [⟨"links", .hasMany, "links", "links", "profile__links", ["id"], [⟨"id", .int⟩], [], []⟩], []⟩], []⟩

/-- A row of an author with one link on a profile. -/
def profiledRow (profile link : Int) : Row :=
  [("id", .int 1), ("profile__id", .int profile), ("profile__links__id", .int link)]

/-- Of an author with two profiles the first one stays, and is given the link of the other. -/
theorem hydrate_twoProfiles :
    let rows := [profiledRow 10 100, profiledRow 20 200]
    hydrate profiled rows = [.object [("id", .int 1), ("profile", .object [("id", .int 10),
      ("links", .array [.object [("id", .int 100)], .object [("id", .int 200)]])])]] ∧
    ¬∃ row ∈ rows, Members.getD row "profile__id" = .int 10 ∧
      Members.getD row "profile__links__id" = .int 200 := by
  refine ⟨by rfl, ?_⟩
  simp [profiledRow, Members.getD, Members.get?, List.lookup_cons]

end Blog

end RelQuery
