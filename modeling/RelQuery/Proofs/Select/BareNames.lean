/-
Module: RelQuery.Proofs.Select.BareNames
Purpose: Which occurrence of a table keeps the table's own name. The first one that is reserved for a table
  does, unless another table's occurrence has been given that name before, after a relation, after the pivot
  of one or by a number. All later ones have aliases. Occurrences are counted as they are reserved, also
  those inside a filter that is given up afterwards.
Main exports: TableRef.reservation?, Enters, BareFirst, Selection.first_bare_iff_free
-/
import RelQuery.Proofs.Reservations
import RelQuery.Proofs.Select.Names

namespace RelQuery

open Sql

/-- The table that an item stands for and the name that it exposes; nothing for a derived table. -/
def Sql.TableRef.reservation? : TableRef → Option (String × String)
  | ⟨.stored schema table, label⟩ => some (table, TableRef.exposedName ⟨.stored schema table, label⟩)
  | ⟨.derived _, _⟩ => none

@[simp] theorem reservation?_occurrence (table : Table) (label : String) :
    (occurrence table label).reservation? = some (table.name, label) := by
  change some (table.name, (occurrence table label).exposedName) = _
  rw [exposedName_occurrence]

/-! ### Items and the log -/

/-- The items are entered in the log of the reservations made in between, each once, and have an alias where
    their name is not the table's. The requests have hints of the given tables' relations. -/
structure Enters (tables : List Table) (names names' : Names) (items : List TableRef) : Prop where
  requested : ∃ requests : List NameRequest, names' = (names.reserveAll requests).2 ∧
    ∀ request ∈ requests, ∀ hint, request.hint = some hint → ProposedBy tables hint
  logged : ∃ entries, names'.reservations = names.reservations ++ entries ∧
    (items.filterMap TableRef.reservation?).Subperm entries
  aliased : ∀ item ∈ items, ∀ table name, item.reservation? = some (table, name) →
    item.label = if name = table then none else some name

namespace Enters

variable {tables : List Table} {names names₁ names' : Names} {items more : List TableRef}

theorem refl (names : Names) : Enters tables names names [] :=
  ⟨⟨[], rfl, by simp⟩, ⟨[], by simp⟩, by simp⟩

/-- Entries may stay without an item. -/
theorem subperm (enters : Enters tables names names' items) (fewer : more.Subperm items) :
    Enters tables names names' more := by
  obtain ⟨requested, ⟨entries, grown, inside⟩, aliased⟩ := enters
  have entered : (more.filterMap TableRef.reservation?).Subperm (items.filterMap TableRef.reservation?) := by
    obtain ⟨kept, perm, sublist⟩ := fewer
    exact ⟨kept.filterMap TableRef.reservation?, perm.filterMap _, sublist.filterMap _⟩
  exact ⟨requested, ⟨entries, grown, entered.trans inside⟩,
    fun item member => aliased item (fewer.subset member)⟩

/-- Reservations follow each other. -/
theorem append (first : Enters tables names names₁ items) (second : Enters tables names₁ names' more) :
    Enters tables names names' (items ++ more) := by
  obtain ⟨⟨requests, rfl, proposed⟩, ⟨entries, grown, inside⟩, aliased⟩ := first
  obtain ⟨⟨others, rfl, proposedToo⟩, ⟨entriesToo, grownToo, insideToo⟩, aliasedToo⟩ := second
  refine ⟨⟨requests ++ others, (names.reserveAll_append requests others).symm, ?_⟩,
    ⟨entries ++ entriesToo, ?_, ?_⟩, ?_⟩
  · exact List.forall_mem_append.2 ⟨proposed, proposedToo⟩
  · rw [grownToo, grown, List.append_assoc]
  · rw [List.filterMap_append]
    exact inside.append insideToo
  · exact List.forall_mem_append.2 ⟨aliased, aliasedToo⟩

/-- A single reservation. -/
theorem reserve {table : String} {hint : Option String} {item : TableRef}
    (proposed : ∀ name, hint = some name → ProposedBy tables name)
    (entered : ∀ entry, item.reservation? = some entry → entry = (table, (names.reserve table hint).1))
    (aliased : ∀ table name, item.reservation? = some (table, name) →
      item.label = if name = table then none else some name) :
    Enters tables names (names.reserve table hint).2 [item] := by
  refine ⟨⟨[⟨table, hint⟩], rfl, by simpa using proposed⟩,
    ⟨[(table, (names.reserve table hint).1)], rfl, ?_⟩, by simpa using aliased⟩
  cases entry : item.reservation? with
  | none => simp [entry]
  | some pair =>
      rw [List.filterMap_cons_some entry, entered pair entry]
      exact .refl _

/-- Reservations enter the items that they are made for. -/
theorem accounting (tables : List Table) : Accounting tables (Enters tables) where
  refl := .refl
  append := .append
  subperm := .subperm
  stored names table hint proposed := by
    refine .reserve proposed (by simp) fun known name entry => ?_
    obtain ⟨rfl, rfl⟩ : table.name = known ∧ (names.reserve table.name hint).1 = name := by simpa using entry
    rfl
  derived _ _ _ := .reserve (by simp) (by simp [TableRef.derived, TableRef.reservation?])
    (by simp [TableRef.derived, TableRef.reservation?])

end Enters

/-! ### Bare names -/

/-- How the tables of a statement are named. An entry of the log is the first one for its table if no entry
    before it is for that table. -/
structure BareFirst (tables : List Table) (names : Names) (items : List TableRef) : Prop where
  /-- The items that stand for tables have entries of their own. -/
  entered : (items.filterMap TableRef.reservation?).Subperm names.reservations
  /-- They have an alias exactly where their name is not the table's. -/
  aliased : ∀ item ∈ items, ∀ table name, item.reservation? = some (table, name) →
    item.label = if name = table then none else some name
  /-- The first occurrence of a table has the table's name exactly if that is free. -/
  first : ∀ {before after table name}, names.reservations = before ++ (table, name) :: after →
    table ∉ before.map Prod.fst → (name = table ↔ table ∉ before.map Prod.snd)
  /-- If it is not free, then a relation or its pivot is called so, or it is a numbered name of another
      table. -/
  taken : ∀ {before after table name}, names.reservations = before ++ (table, name) :: after →
    table ∉ before.map Prod.fst → table ∈ before.map Prod.snd →
      ProposedBy tables table ∨ ∃ other ∈ before.map Prod.fst, ∃ k, 2 ≤ k ∧ table = numberedName other k
  /-- A later occurrence has a name that is neither the table's nor empty nor that of another occurrence. -/
  later : ∀ {before after table name}, names.reservations = before ++ (table, name) :: after →
    table ∈ before.map Prod.fst → name ≠ table ∧ name ≠ "" ∧ name ∉ before.map Prod.snd

section

variable {tables : List Table} {requests : List NameRequest} {before after : List (String × String)}
  {table name : String}

/-- Once a table has an entry, its name is taken, by that entry or by one before it. -/
theorem mem_names_of_mem_tables
    (logged : (Names.empty.reserveAll requests).2.reservations = before ++ after)
    (entered : table ∈ before.map Prod.fst) : table ∈ before.map Prod.snd := by
  obtain ⟨⟨_, name⟩, member, rfl⟩ := List.mem_map.1 entered
  obtain ⟨earlier, others, rfl⟩ := List.append_of_mem member
  rw [List.append_assoc, List.cons_append] at logged
  obtain ⟨request, -, rfl, chosen⟩ := Names.exists_chosen_of_entry logged
  by_cases occupied : request.table ∈ earlier.map Prod.snd
  · rw [List.map_append]
    exact List.mem_append_left _ occupied
  · simp [chosen.eq_table_iff.2 occupied]

/-- The names of a statement whose items are entered as they are reserved. -/
theorem Enters.bareFirst {names : Names} {items : List TableRef} (enters : Enters tables .empty names items) :
    BareFirst tables names items := by
  obtain ⟨⟨requests, rfl, proposed⟩, ⟨entries, grown, inside⟩, aliased⟩ := enters
  refine ⟨?_, aliased, ?_, ?_, ?_⟩
  · rwa [grown]
  · intro before after table name logged new
    obtain ⟨request, -, rfl, chosen⟩ := Names.exists_chosen_of_entry logged
    exact chosen.eq_table_iff
  · intro before after table name logged new occupied
    obtain ⟨⟨other, label⟩, member, same⟩ := List.mem_map.1 occupied
    obtain rfl : label = table := same
    have listed : other ∈ before.map Prod.fst := List.mem_map_of_mem member
    obtain ⟨earlier, others, rfl⟩ := List.append_of_mem member
    rw [List.append_assoc, List.cons_append] at logged
    obtain ⟨request, asked, rfl, chosen⟩ := Names.exists_chosen_of_entry logged
    -- It was another table's occurrence that got the name, so that the name was not that table's own.
    have aliased : label ≠ request.table := fun own => new (own ▸ listed)
    rcases (chosen.hinted_or_numbered aliased).2 with given | ⟨k, second, numbered⟩
    · exact .inl (proposed request asked label given)
    · exact .inr ⟨request.table, listed, k, second, numbered⟩
  · intro before after table name logged seen
    obtain ⟨request, -, rfl, chosen⟩ := Names.exists_chosen_of_entry logged
    have occupied := mem_names_of_mem_tables logged seen
    have aliased : name ≠ request.table := fun bare => chosen.eq_table_iff.1 bare occupied
    exact ⟨aliased, (chosen.hinted_or_numbered aliased).1, chosen.fresh⟩

end

/-- In a built statement and in a counting one, the first occurrence that is reserved for a table has the
    table's own name exactly if no other occurrence was given it before, which takes a relation or a number
    that makes this name. Every later occurrence has an alias of its own. -/
theorem Selection.first_bare_iff_free (registry : Registry) (selection : Selection) :
    (∀ built, selection.build registry = .ok built → ∃ names, selection.buildNames registry = .ok names ∧
      BareFirst (selection.table :: registry.tables) names built.query.occurrences) ∧
    (∀ counting, selection.countQuery registry = .ok counting →
      ∃ names, selection.countNames registry = .ok names ∧
        BareFirst (selection.table :: registry.tables) names counting.occurrences) := by
  have accounting := Enters.accounting (selection.table :: registry.tables)
  have registered : registry.tables ⊆ selection.table :: registry.tables := List.subset_cons_self _ _
  constructor
  · intro built build
    obtain ⟨names, traced, enters⟩ := accounting.build registered List.mem_cons_self build
    exact ⟨names, traced, enters.bareFirst⟩
  · intro counting count
    obtain ⟨names, traced, enters⟩ := accounting.countQuery registered List.mem_cons_self count
    exact ⟨names, traced, enters.bareFirst⟩

/-- The authors occur first under their own name and then under three aliases. -/
theorem Blog.bare_pageByAda :
    ∃ built counting names counted, Blog.pageByAda.build registry = .ok built ∧
      Blog.pageByAda.countQuery registry = .ok counting ∧
      Blog.pageByAda.buildNames registry = .ok names ∧ Blog.pageByAda.countNames registry = .ok counted ∧
      names.reservations = [("posts", "posts"), ("authors", "authors"), ("post_tags", "post_tags"),
        ("tags", "tags"), ("authors", "author"), ("posts", "posts_2"), ("authors", "authors_2"),
        ("authors", "authors_3"), ("page_keys", "page_keys")] ∧
      BareFirst (Blog.posts :: registry.tables) names built.query.occurrences ∧
      BareFirst (Blog.posts :: registry.tables) counted counting.occurrences := by
  obtain ⟨builds, counts⟩ := Selection.first_bare_iff_free registry Blog.pageByAda
  have joins : ((Blog.pageByAda.build registry).map fun built => built.query.joins.length).toOption = some 4 ∧
      ((Blog.pageByAda.countQuery registry).map fun counting => counting.joins.length).toOption = some 1 := by
    decide +kernel
  have log : ((Blog.pageByAda.buildNames registry).map Names.reservations).toOption =
      some [("posts", "posts"), ("authors", "authors"), ("post_tags", "post_tags"), ("tags", "tags"),
        ("authors", "author"), ("posts", "posts_2"), ("authors", "authors_2"), ("authors", "authors_3"),
        ("page_keys", "page_keys")] := by decide +kernel
  obtain ⟨built, build, -⟩ := exists_of_toOption_map joins.1
  obtain ⟨counting, count, -⟩ := exists_of_toOption_map joins.2
  obtain ⟨names, traced, bare⟩ := builds built build
  obtain ⟨counted, tracedCount, bareCount⟩ := counts counting count
  obtain ⟨other, tracedToo, logged⟩ := exists_of_toOption_map log
  obtain rfl : names = other := Except.ok.inj (traced.symm.trans tracedToo)
  exact ⟨built, counting, names, counted, build, count, traced, tracedCount, logged, bare, bareCount⟩

namespace Staff

/-- Employees, whose managers are employees, and the records of those who are managers. -/
def employees : Table where
  name := "employees"
  schema := none
  columns := [Blog.column "id" .int, Blog.column "manager_id" .int, Blog.column "record_id" .int]
  relations := [⟨"manager", .belongsTo, "employees", ["manager_id"], [], none, false⟩,
    ⟨"record", .belongsTo, "manager", ["record_id"], [], none, false⟩]
  primaryKey := ["id"]

/-- The records of managers, in a table that is named like the relation to an employee's manager. -/
def records : Table where
  name := "manager"
  schema := none
  columns := [Blog.column "id" .int]
  relations := []
  primaryKey := ["id"]

/-- The registered tables. -/
def registry : Registry := ⟨[employees, records]⟩

/-- All employees with their managers and records. -/
def withRecords : Selection :=
  { Selection.ofTable employees with
    includes := [⟨"manager", none, none, none, []⟩, ⟨"record", none, none, none, []⟩] }

/-- The manager of an employee is named before the records are, and takes their name: the only occurrence of
    that table has an alias. -/
theorem records_aliased : registry.validate = .ok () ∧
    ∃ built names, withRecords.build registry = .ok built ∧ withRecords.buildNames registry = .ok names ∧
      names.reservations = [("employees", "employees"), ("employees", "manager"), ("manager", "record")] ∧
      built.query.occurrences.filterMap TableRef.reservation? = names.reservations := by
  have items : ((withRecords.build registry).map fun built =>
      built.query.occurrences.filterMap TableRef.reservation?).toOption =
        some [("employees", "employees"), ("employees", "manager"), ("manager", "record")] := by
    decide +kernel
  have log : ((withRecords.buildNames registry).map Names.reservations).toOption =
      some [("employees", "employees"), ("employees", "manager"), ("manager", "record")] := by
    decide +kernel
  obtain ⟨built, build, shown⟩ := exists_of_toOption_map items
  obtain ⟨names, traced, logged⟩ := exists_of_toOption_map log
  exact ⟨by decide +kernel, built, names, build, traced, logged, shown.trans logged.symm⟩

end Staff

end RelQuery
