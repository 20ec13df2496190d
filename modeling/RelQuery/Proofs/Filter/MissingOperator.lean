/-
Module: RelQuery.Proofs.Filter.MissingOperator
Purpose: Where a missing operator is reported. If all of a filter is valid but for one condition on a
  relation that lacks an operator, the filter is refused, and the report names the relations that lead to
  this condition: those of a joined include, if the filter is one's, then those of the conditions around it.
Main exports: dottedPath, Filter.LacksOperator, Filter.Constrains, Filter.lower_eq_error,
  Include.AddsFilter, Selection.build_eq_error, Filter.missingOperator_reported
-/
import RelQuery.Proofs.Filter.Valid
import RelQuery.Session.Lazy

namespace RelQuery

open Sql

/-! ### Paths -/

/-- Steps with dots between them. Nameless steps at the beginning add nothing. -/
def dottedPath (steps : List String) : String := ".".intercalate (steps.dropWhile String.isEmpty)

/-- Paths that are made step by step are dotted. -/
theorem foldl_joinPath (path : String) (steps : List String) :
    steps.foldl joinPath path = dottedPath (path :: steps) := by
  induction steps generalizing path with
  | nil =>
      rw [dottedPath, List.dropWhile_cons]
      split
      · rename_i nameless
        exact String.isEmpty_iff.1 nameless
      · rfl
  | cons step steps ih =>
      rw [List.foldl_cons, ih, joinPath, dottedPath, dottedPath, List.dropWhile_cons (x := path)]
      split
      · rfl
      · -- a path that goes on does not begin with a nameless step
        rename_i named
        have longer : (path ++ "." ++ step).isEmpty = false := by simp
        rw [List.dropWhile_cons, longer, if_neg Bool.false_ne_true]
        rfl

namespace Filter

/-! ### Filters without an operator -/

/-- The relation through which a filter leads to what is inside it, if it is about one. -/
def passes : Filter → List String
  | .relation name _ => [name]
  | _ => []

/-- Exactly one node of a filter is a condition on a relation that lacks an operator, and all others are
    valid. `around` lists the relations of the conditions that this node is inside of, from the outside, and
    the node itself asks for the relation `name` of `target`. -/
inductive LacksOperator (registry : Registry) :
    (table : Table) → (filter : Filter) → (around : List String) → (target : Table) → (name : String) → Prop
  | here {table : Table} {name : String} {conditions : RelationFilter}
      (none : conditions.hasNoOperator = true) :
      LacksOperator registry table (.relation name conditions) [] table name
  | inside {table inner target : Table} {filter part : Filter} {before after : List Filter}
      {around : List String} {name : String} (fits : filter.Fits registry table)
      (scope : filter.scope? registry table = some inner) (split : filter.parts = before ++ part :: after)
      (others : ∀ other ∈ before ++ after, other.Valid registry parts inner)
      (lacks : LacksOperator registry inner part around target name) :
      LacksOperator registry table filter (filter.passes ++ around) target name

/-- The parts of a filter that is a disjunction. -/
def alternatives : Filter → List Filter
  | .any parts => parts
  | _ => []

/-- No part of any disjunction accepts every row by its form. -/
def Constrains (registry : Registry) (table : Table) (filter : Filter) : Prop :=
  ∀ target node, Within registry parts table filter target node →
    ∀ part ∈ node.alternatives, part.isUnconstrained = false

section

variable {registry : Registry} {table target : Table} {filter : Filter} {around : List String} {name : String}

theorem constrains_iff : filter.Constrains registry table ↔
    (∀ part ∈ filter.alternatives, part.isUnconstrained = false) ∧
      ∀ inner, filter.scope? registry table = some inner → ∀ part ∈ filter.parts,
        part.Constrains registry inner :=
  forall_within

@[simp] theorem constrains_all {parts : List Filter} :
    (Filter.all parts).Constrains registry table ↔ ∀ part ∈ parts, part.Constrains registry table := by
  rw [constrains_iff]
  simp [alternatives, scope?, Filter.parts]

@[simp] theorem constrains_any {parts : List Filter} : (Filter.any parts).Constrains registry table ↔
    ∀ part ∈ parts, part.isUnconstrained = false ∧ part.Constrains registry table := by
  rw [constrains_iff]
  simp [alternatives, scope?, Filter.parts, forall_and]

@[simp] theorem constrains_not {part : Filter} :
    (Filter.not part).Constrains registry table ↔ part.Constrains registry table := by
  rw [constrains_iff]
  simp [alternatives, scope?, Filter.parts]

@[simp] theorem constrains_field {column : String} {op : FieldOp} :
    (Filter.field column op).Constrains registry table := by
  rw [constrains_iff]
  simp [alternatives, Filter.parts]

theorem constrains_relation {conditions : RelationFilter} {inner : Table}
    (scope : (Filter.relation name conditions).scope? registry table = some inner) :
    (Filter.relation name conditions).Constrains registry table ↔
      ∀ part ∈ conditions.parts, part.Constrains registry inner := by
  rw [constrains_iff, scope]
  simp [alternatives, Filter.parts]

theorem upToUnconstrained_eq_self {parts : List Filter} (each : ∀ part ∈ parts, part.isUnconstrained = false) :
    upToUnconstrained parts = parts := by
  induction parts with
  | nil => rfl
  | cons part parts ih =>
      rw [List.forall_mem_cons] at each
      rw [upToUnconstrained, each.1, if_neg Bool.false_ne_true, ih each.2]

/-- So nothing stands behind such a part. -/
theorem Constrains.hidesNothing (constrains : filter.Constrains registry table) :
    filter.HidesNothing registry table := by
  intro target node within
  cases node with
  | any alternatives => exact upToUnconstrained_eq_self (constrains target _ within)
  | all parts => rfl
  | not part => rfl
  | field column op => rfl
  | relation name conditions => rfl

/-- A condition on a column is valid if the table has the column. -/
theorem valid_field {column : String} {op : FieldOp} (known : table.hasColumn column = true) :
    (Filter.field column op).Valid registry parts table := by
  rw [valid_iff]
  exact ⟨known, by simp [Filter.parts]⟩

/-- A filter that lacks an operator is not valid. -/
theorem LacksOperator.not_valid (lacks : filter.LacksOperator registry table around target name) :
    ¬filter.Valid registry parts table := by
  induction lacks with
  | here none =>
      intro valid
      have fits := valid _ _ .here
      rw [Fits, none] at fits
      exact Bool.noConfusion fits.2
  | inside fits scope split others lacks ih =>
      intro valid
      apply ih
      apply (valid_iff.1 valid).2 _ scope
      rw [split]
      exact List.mem_append_right _ List.mem_cons_self

end

/-! ### Failures -/

section

variable {registry : Registry} {table : Table} {label path : String} {joinable : Bool} {names : Names}
  {fault : QueryError}

/-- The filter is lowered somewhere on the table and at the path, and that fails. -/
def FailsWith (registry : Registry) (table : Table) (path : String) (fault : QueryError) (filter : Filter) :
    Prop :=
  ∃ label joinable names, filter.lower registry table label path joinable names = .error fault

theorem exists_failsWith_of_lowerAll {parts : List Filter}
    (failed : lowerAll registry table label path joinable names parts = .error fault) :
    ∃ part ∈ parts, part.FailsWith registry table path fault := by
  induction parts generalizing names with
  | nil => contradiction
  | cons part parts ih =>
      rw [lowerAll, Except.bind_eq_error] at failed
      rcases failed with first | ⟨translation, -, later⟩
      · exact ⟨part, List.mem_cons_self, label, joinable, names, first⟩
      · rcases ih (Except.bind_pure_eq_error.1 later) with ⟨other, member, fails⟩
        exact ⟨other, List.mem_cons_of_mem _ member, fails⟩

theorem exists_failsWith_of_lowerAny {parts : List Filter}
    (failed : lowerAny registry table label path names parts = .error fault) :
    ∃ part ∈ parts, part.FailsWith registry table path fault := by
  induction parts generalizing names with
  | nil => contradiction
  | cons part parts ih =>
      rw [lowerAny, Except.bind_eq_error] at failed
      rcases failed with first | ⟨translation, -, later⟩
      · exact ⟨part, List.mem_cons_self, label, false, names, first⟩
      · split at later
        · contradiction
        · rcases ih (Except.bind_pure_eq_error.1 later) with ⟨other, member, fails⟩
          exact ⟨other, List.mem_cons_of_mem _ member, fails⟩

theorem exists_failsWith_of_lowerRelation {declared : Relation} {keys : RelationKeys}
    {conditions : RelationFilter}
    (failed : lowerRelation registry label path joinable names declared keys conditions = .error fault) :
    ∃ part ∈ conditions.parts, part.FailsWith registry keys.target path fault := by
  obtain ⟨someRow, noRow, everyRow, isEmpty, isNotEmpty⟩ := conditions
  rw [lowerRelation.eq_def] at failed
  simp only [RelationFilter.parts, List.mem_append, Option.mem_toList]
  rcases Except.bind_eq_error.1 failed with inSome | ⟨matching, -, failed⟩
  · cases someRow with
    | none => contradiction
    | some part =>
        refine ⟨part, .inl (.inl rfl), ?_⟩
        simp only [reach_target] at inSome
        split at inSome
        · exact ⟨_, _, _, Except.bind_pure_eq_error.1 inSome⟩
        · exact ⟨_, _, _, Except.bind_pure_eq_error.1 inSome⟩
  rcases Except.bind_eq_error.1 failed with inNo | ⟨absent, -, failed⟩
  · cases noRow with
    | none => contradiction
    | some part =>
        refine ⟨part, .inl (.inr rfl), ?_⟩
        simp only [reach_target] at inNo
        exact ⟨_, _, _, Except.bind_pure_eq_error.1 inNo⟩
  have inEvery := Except.bind_pure_eq_error.1 failed
  cases everyRow with
  | none => contradiction
  | some part =>
      refine ⟨part, .inr rfl, ?_⟩
      simp only [reach_target] at inEvery
      exact ⟨_, _, _, Except.bind_pure_eq_error.1 inEvery⟩

/-- A condition on a known relation is lowered at the path that the relation leads to, or reported there. -/
theorem lower_relation {conditions : RelationFilter} {name : String} {declared : Relation}
    {keys : RelationKeys} (found : registry.relation table name = .ok (declared, keys)) :
    (Filter.relation name conditions).lower registry table label path joinable names =
      if conditions.hasNoOperator then .error (.missingOperator (joinPath path name))
      else (lowerRelation registry label (joinPath path name) joinable names declared keys conditions).map
        fun conjuncts => ⟨Expr.conjunction? conjuncts.predicates, conjuncts.joins, conjuncts.names⟩ := by
  have declares : (table.relation? name).isNone = false := by
    rw [(Registry.relation_eq_ok found).1]
    rfl
  rw [lower, found]
  simp only [declares, Bool.false_and, Bool.false_eq_true, if_false]
  rfl

/-- A filter that fails although its own node is valid fails where one of its parts does. -/
theorem exists_failsWith_part {filter : Filter} (fits : filter.Fits registry table)
    (failed : filter.lower registry table label path joinable names = .error fault) :
    ∃ inner, filter.scope? registry table = some inner ∧
      ∃ part ∈ filter.parts, part.FailsWith registry inner (filter.passes.foldl joinPath path) fault := by
  cases filter with
  | all parts =>
      rw [lower] at failed
      exact ⟨table, rfl, exists_failsWith_of_lowerAll (Except.bind_pure_eq_error.1 failed)⟩
  | any parts =>
      cases parts with
      | nil => contradiction
      | cons part parts =>
          rw [lower] at failed
          exact ⟨table, rfl, exists_failsWith_of_lowerAny (Except.bind_pure_eq_error.1 failed)⟩
  | not part =>
      rw [lower] at failed
      rcases Except.bind_eq_error.1 failed with inPart | ⟨inner, -, made⟩
      · exact ⟨table, rfl, part, List.mem_singleton_self part, label, false, names, inPart⟩
      · cases predicate : inner.predicate <;> rw [predicate] at made <;> contradiction
  | field column op =>
      rw [Fits] at fits
      rw [lower, if_pos fits] at failed
      contradiction
  | relation name conditions =>
      obtain ⟨known, operated⟩ := fits
      obtain ⟨⟨declared, keys⟩, found⟩ := relation_succeeds.2 known
      rw [lower_relation found, operated, if_neg Bool.false_ne_true] at failed
      apply Exists.intro keys.target
      apply And.intro (by simp [scope?, found, Except.toOption])
      exact exists_failsWith_of_lowerRelation (Except.bind_pure_eq_error.1 failed)

/-- A filter that is valid but for an operator fails on account of that operator. The induction follows the
    nodes around it: a valid node fails where one of its parts does, and all parts but one succeed. -/
theorem lower_eq_error {filter : Filter} {target : Table} {around : List String} {name : String}
    (lacks : filter.LacksOperator registry table around target name)
    (known : ∃ pair, registry.relation target name = .ok pair) (hides : filter.HidesNothing registry table) :
    filter.lower registry table label path joinable names =
      .error (.missingOperator ((around ++ [name]).foldl joinPath path)) := by
  induction lacks generalizing label path joinable names with
  | here none =>
      obtain ⟨⟨declared, keys⟩, found⟩ := known
      rw [lower_relation found, if_pos none]
      rfl
  | @inside table inner target filter part before after around name fits scope split others lacks ih =>
      cases lowered : filter.lower registry table label path joinable names with
      | ok translation =>
          have valid := (filter.judgedAsSeen table label path joinable names).1 ⟨translation, lowered⟩
          have invalid := (LacksOperator.inside fits scope split others lacks).not_valid
          exact absurd (hides.valid_iff.1 valid) invalid
      | error fault =>
          obtain ⟨inner', scope', other, member, label', joinable', names', fails⟩ :=
            exists_failsWith_part fits lowered
          obtain rfl : inner = inner' := Option.some.inj (scope.symm.trans scope')
          have inFilter := member
          rw [split, List.mem_append, List.mem_cons] at member
          by_cases same : other = part
          · subst same
            rw [ih known (hides.inside scope inFilter)] at fails
            rw [← Except.error.inj fails, List.append_assoc, ← List.foldl_append]
          · have valid := others other (List.mem_append.2 (member.imp_right fun rest => rest.resolve_left same))
            have seen := (hides.inside scope inFilter).valid_iff.2 valid
            obtain ⟨translation, succeeds⟩ := (other.judgedAsSeen inner label' _ joinable' names').2 seen
            rw [fails] at succeeds
            contradiction

end

end Filter

/-! ### Includes -/

/-- Two trees of includes differ in one filter: the second has it, and the first has none, on the request
    that some steps lead to through joined relations. -/
inductive Include.AddsFilter (registry : Registry) :
    (table : Table) → (steps : List String) → (target : Table) → Filter → (cleared tree : List Include) → Prop
  | here {table : Table} {name : String} {columns : Option (List String)} {filter : Filter}
      {lazy : Option Bool} {includes requests : List Include} {relation : Relation} {keys : RelationKeys}
      (found : registry.relation table name = .ok (relation, keys)) (eager : lazy.getD relation.lazy = false) :
      Include.AddsFilter registry table [name] keys.target filter
        (⟨name, columns, none, lazy, includes⟩ :: requests)
        (⟨name, columns, some filter, lazy, includes⟩ :: requests)
  | through {table target : Table} {steps : List String} {filter : Filter} {name : String}
      {columns : Option (List String)} {own : Option Filter} {lazy : Option Bool}
      {cleared includes requests : List Include} {relation : Relation} {keys : RelationKeys}
      (found : registry.relation table name = .ok (relation, keys)) (eager : lazy.getD relation.lazy = false)
      (inner : Include.AddsFilter registry keys.target steps target filter cleared includes) :
      Include.AddsFilter registry table (name :: steps) target filter
        (⟨name, columns, own, lazy, cleared⟩ :: requests) (⟨name, columns, own, lazy, includes⟩ :: requests)
  | later {table target : Table} {steps : List String} {filter : Filter} {request : Include}
      {cleared requests : List Include}
      (rest : Include.AddsFilter registry table steps target filter cleared requests) :
      Include.AddsFilter registry table steps target filter (request :: cleared) (request :: requests)

/-- How a request that is not deferred is attached. -/
theorem attach_of_eager {registry : Registry} {table : Table} {name : String} {relation : Relation}
    {keys : RelationKeys} {lazy : Option Bool} (found : registry.relation table name = .ok (relation, keys))
    (eager : lazy.getD relation.lazy = false) (label outputPath here : String) (attached : Attachment)
    (columns : Option (List String)) (filter : Option Filter) (includes : List Include) :
    attach registry table label outputPath here attached ⟨name, columns, filter, lazy, includes⟩ = (do
      let reached := reach attached.names label relation.name keys
      let (condition, names) ← includeCondition registry reached here filter
      let selected ← selectColumns reached.target columns
      let inner ← attachAll registry reached.target reached.label (extendOutputPath outputPath name) here []
        ⟨selected, [], [], attached.joins ++ reached.joins condition, names⟩ includes
      return { attached with
        includes := attached.includes ++
          [⟨name, relation.kind, inner.projection reached.target reached.label (extendOutputPath outputPath name)⟩]
        joins := inner.joins
        names := inner.names }) := by
  rw [attach, found]
  simp only [bind, Except.bind, Include.isLazy, eager, Bool.false_eq_true, if_false]

/-- Where a tree without the filter can be attached, a fault of the filter is that of the tree. -/
theorem Include.AddsFilter.attachAll_eq_error {registry : Registry} {table target : Table}
    {steps : List String} {filter : Filter} {cleared tree : List Include} {fault : QueryError}
    (adds : Include.AddsFilter registry table steps target filter cleared tree) :
    ∀ {label outputPath path : String} {seen : List String} {attached after : Attachment},
      (∀ label names, filter.correlated registry target label (steps.foldl joinPath path) names = .error fault) →
        attachAll registry table label outputPath path seen attached cleared = .ok after →
          attachAll registry table label outputPath path seen attached tree = .error fault := by
  induction adds with
  | @here table name columns filter lazy includes requests relation keys found eager =>
      intro label outputPath path seen attached after fails attaches
      rw [attachAll] at attaches ⊢
      split at attaches
      · contradiction
      · rename_i fresh
        have refused : includeCondition registry (reach attached.names label relation.name keys)
            (joinPath path name) (some filter) = .error fault := by
          rw [includeCondition, reach_target]
          exact fails _ _
        rw [if_neg fresh, attach_of_eager found eager]
        exact Except.bind_eq_error.2 (.inl (Except.bind_eq_error.2 (.inl refused)))
  | through found eager inner ih =>
      intro label outputPath path seen attached after fails attaches
      rw [attachAll] at attaches ⊢
      split at attaches
      · contradiction
      · rename_i fresh
        obtain ⟨between, first, -⟩ := Except.bind_eq_ok.1 attaches
        rw [attach_of_eager found eager] at first
        simp only [reach_target, Except.bind_eq_ok, Prod.exists] at first
        obtain ⟨condition, names, narrowed, selected, chosen, _, below, -⟩ := first
        rw [if_neg fresh, attach_of_eager found eager]
        simp only [reach_target, Except.bind_eq_error, Prod.exists]
        refine .inl (.inr ⟨condition, names, narrowed, .inr ⟨selected, chosen, .inl ?_⟩⟩)
        exact ih fails below
  | later rest ih =>
      intro label outputPath path seen attached after fails attaches
      rw [attachAll] at attaches ⊢
      split at attaches
      · contradiction
      · rename_i fresh
        obtain ⟨between, first, others⟩ := Except.bind_eq_ok.1 attaches
        rw [if_neg fresh, first]
        exact ih fails others

/-! ### Statements -/

/-- Where the filters in front can be added, a fault of a filter is that of all. -/
theorem addFilters_eq_error {registry : Registry} {table : Table} {label : String} {filter : Filter}
    {before after : List Filter} {query narrowed : Query} {names names' : Names} {fault : QueryError}
    (fails : ∀ label names, filter.translate registry table label names = .error fault)
    (added : addFilters registry table label query names before = .ok (narrowed, names')) :
    addFilters registry table label query names (before ++ filter :: after) = .error fault := by
  induction before generalizing query names with
  | nil =>
      rw [List.nil_append, addFilters, fails]
      rfl
  | cons first before ih =>
      rw [addFilters] at added
      obtain ⟨translation, translated, rest⟩ := Except.bind_eq_ok.1 added
      rw [List.cons_append, addFilters, translated]
      exact ih rest

/-- Where a statement can be built of the filters in front, a fault of a filter on the root is that of the
    whole selection. -/
theorem Selection.build_eq_error {registry : Registry} {selection : Selection} {filter : Filter}
    {before after : List Filter} {built : BuiltQuery} {fault : QueryError}
    (fails : ∀ label names, filter.translate registry selection.table label names = .error fault)
    (build : { selection with filters := before }.build registry = .ok built) :
    { selection with filters := before ++ filter :: after }.build registry = .error fault := by
  simp only [Selection.build, Selection.assemble, Except.bind_eq_ok, Prod.exists] at build
  obtain ⟨assembly, ⟨resolution, resolved, query, names, added, -⟩, -⟩ := build
  simp only [Selection.build, Selection.assemble, resolved, Except.bind_eq_error]
  exact .inl (.inr ⟨resolution, rfl, .inl (addFilters_eq_error fails added)⟩)

/-- A filter that is valid but for one condition without operator, and whose disjunctions all constrain
    something, is refused with a report of that condition. Its path consists of the relations of the
    conditions around it and of its own; no conjunction, disjunction or negation adds to it. In front stand
    the path that the filter is lowered at and, for the filter of a joined include, the relations that lead
    to the include; where the filter is one on the root of a statement, as that of a deferred include is,
    nothing stands in front. -/
theorem Filter.missingOperator_reported (registry : Registry) (table target : Table) (filter : Filter)
    (around : List String) (name : String)
    (lacks : filter.LacksOperator registry table around target name)
    (known : ∃ pair, registry.relation target name = .ok pair)
    (constrains : filter.Constrains registry table) :
    (∀ label names, filter.translate registry table label names =
      .error (.missingOperator (dottedPath (around ++ [name])))) ∧
    (∀ label path names, filter.correlated registry table label path names =
      .error (.missingOperator (dottedPath (path :: around ++ [name])))) ∧
    (∀ root steps cleared tree, Include.AddsFilter registry root steps table filter cleared tree →
      ∀ label columns names resolution, resolve registry root label columns cleared names = .ok resolution →
        resolve registry root label columns tree names =
          .error (.missingOperator (dottedPath (steps ++ around ++ [name])))) ∧
    ∀ (selection : Selection) before after built, selection.table = table →
      { selection with filters := before }.build registry = .ok built →
        { selection with filters := before ++ filter :: after }.build registry =
          .error (.missingOperator (dottedPath (around ++ [name]))) := by
  have lowered : ∀ label path joinable names, filter.lower registry table label path joinable names =
      .error (.missingOperator (dottedPath (path :: around ++ [name]))) := by
    intro label path joinable names
    rw [lower_eq_error lacks known constrains.hidesNothing, foldl_joinPath]
    rfl
  have translates : ∀ label names, filter.translate registry table label names =
      .error (.missingOperator (dottedPath (around ++ [name]))) := by
    intro label names
    exact lowered label "" true names
  have correlates : ∀ label path names, filter.correlated registry table label path names =
      .error (.missingOperator (dottedPath (path :: around ++ [name]))) := by
    intro label path names
    rw [correlated, lowered]
    rfl
  refine ⟨translates, correlates, ?_, ?_⟩
  · intro root steps cleared tree adds label columns names resolution resolved
    have joined : dottedPath (steps.foldl joinPath "" :: around ++ [name]) =
        dottedPath (steps ++ around ++ [name]) := by
      rw [List.cons_append, ← foldl_joinPath, ← List.foldl_append, foldl_joinPath, List.append_assoc]
      rfl
    simp only [resolve, Except.bind_eq_ok] at resolved
    obtain ⟨selected, chosen, attached, attaches, -⟩ := resolved
    rw [resolve, chosen, ← joined]
    simp only [bind, Except.bind, adds.attachAll_eq_error (fun label names => correlates label _ names) attaches]
  · rintro selection before after built rfl build
    exact Selection.build_eq_error translates build

namespace Blog

/-- Something of the posts of an author, but nothing is said of them. -/
def unspecified : Filter := .relation "posts" RelationFilter.empty

/-- Every author of a post has a name and that. -/
def namedAndUnspecified : Filter :=
  .relation "author" { RelationFilter.empty with
    everyRow := some (.all [.field "name" (.isNull false), unspecified]) }

/-- The first post and those of which that is not so. -/
def undecided : Filter := .any [.field "id" (.compare .eq (.int 1)), .not namedAndUnspecified]

theorem lacksOperator_undecided : undecided.LacksOperator registry posts ["author"] authors "posts" := by
  have both : (Filter.all [.field "name" (.isNull false), unspecified]).LacksOperator registry authors []
      authors "posts" :=
    .inside trivial rfl (show _ = [.field "name" (.isNull false)] ++ unspecified :: [] from rfl)
      (by simpa using Filter.valid_field rfl) (.here rfl)
  have every : namedAndUnspecified.LacksOperator registry posts ["author"] authors "posts" :=
    .inside ⟨⟨_, _, rfl, rfl⟩, rfl⟩ rfl (show _ = [] ++ _ :: [] from rfl) (by simp) both
  have negated : (Filter.not namedAndUnspecified).LacksOperator registry posts ["author"] authors "posts" :=
    .inside trivial rfl (show _ = [] ++ namedAndUnspecified :: [] from rfl) (by simp) every
  exact .inside trivial rfl (show _ = [.field "id" (.compare .eq (.int 1))] ++ _ :: [] from rfl)
    (by simpa using Filter.valid_field rfl) negated

theorem constrains_undecided : undecided.Constrains registry posts := by
  have bare : unspecified.Constrains registry authors :=
    (Filter.constrains_relation rfl).2 (by simp [RelationFilter.parts, RelationFilter.empty])
  have scope : namedAndUnspecified.scope? registry posts = some authors := rfl
  have every : namedAndUnspecified.Constrains registry posts :=
    (Filter.constrains_relation scope).2 (by simpa [RelationFilter.parts, RelationFilter.empty] using bare)
  simpa [undecided, Filter.isUnconstrained] using every

/-- The posts of the author of a post, narrowed to these. -/
def undecidedPosts (filter : Option Filter) : List Include :=
  [⟨"author", none, none, none, [⟨"posts", none, filter, none, []⟩]⟩]

/-- The report names the relations around the condition, behind those that lead to the include. -/
theorem reported_undecided :
    undecided.translate registry posts "posts" ⟨[("posts", "posts")]⟩ =
      .error (.missingOperator "author.posts") ∧
    (∃ resolution, resolve registry posts "posts" none (undecidedPosts none) ⟨[("posts", "posts")]⟩ =
      .ok resolution) ∧
    resolve registry posts "posts" none (undecidedPosts (some undecided)) ⟨[("posts", "posts")]⟩ =
      .error (.missingOperator "author.posts.author.posts") := by
  obtain ⟨translated, -, included, -⟩ := Filter.missingOperator_reported registry posts authors undecided
    ["author"] "posts" lacksOperator_undecided ⟨_, rfl⟩ constrains_undecided
  obtain ⟨resolution, resolved⟩ : ∃ resolution, resolve registry posts "posts" none (undecidedPosts none)
      ⟨[("posts", "posts")]⟩ = .ok resolution := ⟨_, rfl⟩
  have inner : Include.AddsFilter registry authors ["posts"] posts undecided
      [⟨"posts", none, none, none, []⟩] [⟨"posts", none, some undecided, none, []⟩] :=
    .here (show registry.relation authors "posts" = .ok (_, .direct posts _) from rfl) rfl
  have adds : Include.AddsFilter registry posts ["author", "posts"] posts undecided (undecidedPosts none)
      (undecidedPosts (some undecided)) :=
    .through (show registry.relation posts "author" = .ok (_, .direct authors _) from rfl) rfl inner
  exact ⟨translated _ _, ⟨resolution, resolved⟩, included posts _ _ _ adds _ _ _ resolution resolved⟩

/-- Posts whose relation to their author has no name. -/
def anonymous : Table :=
  { posts with relations := [⟨"", .belongsTo, "authors", ["author_id"], [], none, false⟩] }

/-- The registry with these posts. -/
def anonymousRegistry : Registry := ⟨[authors, anonymous]⟩

/-- Posts by an author of whose posts nothing is said. -/
def byUnspecified : Filter := .relation "" { RelationFilter.empty with someRow := some unspecified }

/-- A condition on a column as if it were a relation. -/
def titleAsRelation : Filter := .relation "title" RelationFilter.empty

/-- The author, if nothing is said of the author's posts, to be loaded later. -/
def deferredUnspecified : List Include := [⟨"author", none, some unspecified, some true, []⟩]

/-- A step without a name is not seen in the report, the operator of a condition on what is not a relation is
    not missed, and the relations that lead to a deferred include are not part of the report of its filter. -/
theorem missingOperator_unnamed :
    (byUnspecified.LacksOperator anonymousRegistry anonymous [""] authors "posts" ∧
      byUnspecified.Constrains anonymousRegistry anonymous ∧
      byUnspecified.translate anonymousRegistry anonymous "posts" ⟨[("posts", "posts")]⟩ =
        .error (.missingOperator "posts") ∧
      "posts" ≠ ".".intercalate ["", "posts"]) ∧
    (titleAsRelation.LacksOperator registry posts [] posts "title" ∧
      titleAsRelation.Constrains registry posts ∧
      titleAsRelation.translate registry posts "posts" ⟨[("posts", "posts")]⟩ =
        .error (.invalidFilter ⟨"title", .noFieldOperator⟩)) ∧
    unspecified.LacksOperator registry authors [] authors "posts" ∧ unspecified.Constrains registry authors ∧
    ∃ resolution load, resolve registry posts "posts" none deferredUnspecified ⟨[("posts", "posts")]⟩ =
        .ok resolution ∧
      resolution.plan.lazy = [load] ∧ load.path = "author" ∧
      (targetSelection authors load "id" [.int 1]).build registry = .error (.missingOperator "posts") ∧
      "posts" ≠ ".".intercalate ["author", "posts"] := by
  refine ⟨⟨?_, ?_, rfl, by decide⟩, ⟨.here rfl, ?_, rfl⟩, .here rfl, ?_, _, _, rfl, rfl, rfl, rfl, by decide⟩
  · exact .inside ⟨⟨_, _, rfl, rfl⟩, rfl⟩ rfl (show _ = [] ++ unspecified :: [] from rfl) (by simp) (.here rfl)
  · have bare : unspecified.Constrains anonymousRegistry authors :=
      (Filter.constrains_relation rfl).2 (by simp [RelationFilter.parts, RelationFilter.empty])
    have scope : byUnspecified.scope? anonymousRegistry anonymous = some authors := rfl
    exact (Filter.constrains_relation scope).2 (by simpa [RelationFilter.parts, RelationFilter.empty] using bare)
  · rw [titleAsRelation, Filter.constrains_iff]
    simp [Filter.alternatives, Filter.parts, RelationFilter.parts, RelationFilter.empty]
  · exact (Filter.constrains_relation rfl).2 (by simp [RelationFilter.parts, RelationFilter.empty])

end Blog

end RelQuery
