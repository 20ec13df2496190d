/-
Module: RelQuery.Proofs.Filter.Valid
Purpose: Which nodes of a filter are judged when it is lowered. Every node has a table in force where it
  stands, and lowering succeeds exactly if each node that is looked at fits its table. A disjunction is looked
  at up to its first part that accepts every row; a filter where nothing stands behind such a part is lowered
  only if all of it is valid.
Main exports: Filter.isUnconstrained, Filter.Within, Filter.Fits, Filter.judgedAsSeen, Filter.judged_whole
-/
import RelQuery.Proofs.Blog
import RelQuery.Proofs.Filter.Meaning
import RelQuery.Proofs.Schema.Keys

namespace RelQuery

open Sql

/-! ### Parts of filters -/

mutual

/-- Whether the filter accepts every row by its form alone. -/
def Filter.isUnconstrained : Filter → Bool
  | .all parts => Filter.allUnconstrained parts
  | .any parts => Filter.anyUnconstrained parts
  | .not _ => false
  | .field _ _ => false
  | .relation _ _ => false

/-- Whether each of some filters does. -/
def Filter.allUnconstrained : List Filter → Bool
  | [] => true
  | part :: parts => part.isUnconstrained && Filter.allUnconstrained parts

/-- Whether one of some filters does. -/
def Filter.anyUnconstrained : List Filter → Bool
  | [] => false
  | part :: parts => part.isUnconstrained || Filter.anyUnconstrained parts

end

namespace Filter

/-- The alternatives up to the first one that accepts every row. -/
def upToUnconstrained : List Filter → List Filter
  | [] => []
  | part :: parts => if part.isUnconstrained then [part] else part :: upToUnconstrained parts

/-- The filters directly inside a filter that lowering looks at. -/
def seenParts : Filter → List Filter
  | .any parts => upToUnconstrained parts
  | filter => filter.parts

/-- The table in force inside a filter on a table, unless the filter is about an unknown relation. -/
def scope? (registry : Registry) (table : Table) : Filter → Option Table
  | .relation name _ => (registry.relation table name).toOption.map fun (_, keys) => keys.target
  | _ => some table

/-- The second filter, on its table, is a node of the first one. `step` lists what is directly inside a
    filter: `parts` for all nodes, `seenParts` for those that are looked at. -/
inductive Within (registry : Registry) (step : Filter → List Filter) :
    Table → Filter → Table → Filter → Prop where
  | here {table filter} : Within registry step table filter table filter
  | inside {table filter inner part target node} : filter.scope? registry table = some inner →
      part ∈ step filter → Within registry step inner part target node →
      Within registry step table filter target node

/-- A node is valid on its table: a column or a relation that it names is one of the table, the keys of the
    relation can be determined, and there is a condition on the related rows. -/
def Fits (registry : Registry) (table : Table) : Filter → Prop
  | .field column _ => table.hasColumn column = true
  | .relation name conditions =>
    (∃ relation keys, table.relation? name = some relation ∧
      registry.relationKeys table relation = .ok keys) ∧ conditions.hasNoOperator = false
  | _ => True

/-- All nodes are valid on their tables. -/
def Valid (registry : Registry) (step : Filter → List Filter) (table : Table) (filter : Filter) : Prop :=
  ∀ target node, Within registry step table filter target node → node.Fits registry target

/-- No part of any disjunction stands behind one that accepts every row. -/
def HidesNothing (registry : Registry) (table : Table) (filter : Filter) : Prop :=
  ∀ target node, Within registry parts table filter target node → node.seenParts = node.parts

section

variable {registry : Registry} {table : Table} {step : Filter → List Filter}

theorem allUnconstrained_eq (parts : List Filter) :
    allUnconstrained parts = parts.all isUnconstrained := by
  induction parts with
  | nil => rfl
  | cons part parts ih => rw [allUnconstrained, ih, List.all_cons]

theorem anyUnconstrained_eq (parts : List Filter) :
    anyUnconstrained parts = parts.any isUnconstrained := by
  induction parts with
  | nil => rfl
  | cons part parts ih => rw [anyUnconstrained, ih, List.any_cons]

/-- What holds of all nodes of a filter holds of itself and of the nodes of its parts. -/
theorem forall_within {holds : Table → Filter → Prop} {filter : Filter} :
    (∀ target node, Within registry step table filter target node → holds target node) ↔
      holds table filter ∧ ∀ inner, filter.scope? registry table = some inner → ∀ part ∈ step filter,
        ∀ target node, Within registry step inner part target node → holds target node := by
  constructor
  · intro every
    refine ⟨every table filter .here, ?_⟩
    intro inner scope part member target node within
    exact every target node (.inside scope member within)
  · rintro ⟨own, below⟩ target node within
    cases within with
    | here => exact own
    | inside scope member within => exact below _ scope _ member _ _ within

theorem valid_iff {filter : Filter} : filter.Valid registry step table ↔ filter.Fits registry table ∧
    ∀ inner, filter.scope? registry table = some inner → ∀ part ∈ step filter,
      part.Valid registry step inner :=
  forall_within

theorem hidesNothing_iff {filter : Filter} : filter.HidesNothing registry table ↔
    filter.seenParts = filter.parts ∧ ∀ inner, filter.scope? registry table = some inner →
      ∀ part ∈ filter.parts, part.HidesNothing registry inner :=
  forall_within

/-- So nothing is hidden in the parts of a filter that hides nothing. -/
theorem HidesNothing.inside {filter part : Filter} {inner : Table} (hides : filter.HidesNothing registry table)
    (scope : filter.scope? registry table = some inner) (member : part ∈ filter.parts) :
    part.HidesNothing registry inner := by
  intro target node within
  exact hides target node (.inside scope member within)

/-- Where nothing is hidden, every node is looked at. -/
theorem within_seenParts {filter node : Filter} {target : Table}
    (within : Within registry parts table filter target node) :
    filter.HidesNothing registry table → Within registry seenParts table filter target node := by
  induction within with
  | here =>
      intro _
      exact .here
  | @inside table filter inner part target node scope member within ih =>
      intro hides
      have seen : part ∈ filter.seenParts := by rwa [hides table filter .here]
      exact .inside scope seen (ih (hides.inside scope member))

theorem mem_of_mem_upToUnconstrained {part : Filter} {alternatives : List Filter}
    (member : part ∈ upToUnconstrained alternatives) : part ∈ alternatives := by
  induction alternatives with
  | nil => exact member
  | cons first alternatives ih =>
      rw [upToUnconstrained] at member
      split at member
      · exact List.mem_cons.2 (.inl (List.mem_singleton.1 member))
      · rcases List.mem_cons.1 member with rfl | member
        · exact List.mem_cons_self
        · exact List.mem_cons_of_mem _ (ih member)

theorem mem_parts_of_mem_seenParts {part filter : Filter} (member : part ∈ filter.seenParts) :
    part ∈ filter.parts := by
  cases filter with
  | any alternatives => exact mem_of_mem_upToUnconstrained member
  | all _ => exact member
  | not _ => exact member
  | field _ _ => exact member
  | relation _ _ => exact member

/-- A node that is looked at is a node. -/
theorem within_parts {filter node : Filter} {target : Table}
    (within : Within registry seenParts table filter target node) :
    Within registry parts table filter target node := by
  induction within with
  | here => exact .here
  | inside scope member within ih => exact .inside scope (mem_parts_of_mem_seenParts member) ih

/-- Where nothing is hidden, all nodes are valid if those are that lowering looks at. -/
theorem HidesNothing.valid_iff {filter : Filter} (hides : filter.HidesNothing registry table) :
    filter.Valid registry seenParts table ↔ filter.Valid registry parts table := by
  constructor
  · intro valid target node within
    exact valid target node (within_seenParts within hides)
  · intro valid target node within
    exact valid target node (within_parts within)

end

/-! ### Constraints -/

section

variable {registry : Registry} {table : Table} {label path : String} {joinable : Bool} {names : Names}

/-- The filter gets no predicate exactly if it accepts every row by its form. -/
def Marks (registry : Registry) (filter : Filter) : Prop :=
  ∀ {table : Table} {label path : String} {joinable : Bool} {names : Names} {translation : Translation},
    filter.lower registry table label path joinable names = .ok translation →
      translation.predicate.isNone = filter.isUnconstrained

theorem isNone_conjunction (predicates : List Expr) :
    (Expr.conjunction? predicates).isNone = predicates.isEmpty := by
  cases predicates <;> rfl

theorem predicates_lowerAll {parts : List Filter} {conjuncts : Conjuncts}
    (each : ∀ part ∈ parts, part.Marks registry)
    (lowered : lowerAll registry table label path joinable names parts = .ok conjuncts) :
    conjuncts.predicates.isEmpty = parts.all isUnconstrained := by
  induction parts generalizing names conjuncts with
  | nil =>
      obtain rfl := Except.ok.inj lowered
      rfl
  | cons part parts ih =>
      rw [lowerAll] at lowered
      obtain ⟨first, made, others, rest, result⟩ := by simpa only [Except.bind_eq_ok] using lowered
      obtain rfl := Except.ok.inj result
      have own := each part List.mem_cons_self made
      have below := ih (fun part member => each part (List.mem_cons_of_mem _ member)) rest
      rw [List.all_cons, ← own, ← below]
      cases first.predicate <;> rfl

/-- A disjunction is given up exactly if one of its parts gets no predicate. Otherwise each part has one. -/
theorem alternatives_lowerAny {parts : List Filter} {lowered : Option (List Expr) × Names}
    (each : ∀ part ∈ parts, part.Marks registry)
    (made : lowerAny registry table label path names parts = .ok lowered) :
    lowered.1.isNone = parts.any isUnconstrained ∧
      ∀ predicates, lowered.1 = some predicates → predicates.length = parts.length := by
  induction parts generalizing names lowered with
  | nil =>
      obtain rfl := Except.ok.inj made
      simp
  | cons part parts ih =>
      rw [lowerAny] at made
      obtain ⟨first, lowers, made⟩ := Except.bind_eq_ok.1 made
      have own := each part List.mem_cons_self lowers
      cases predicate : first.predicate with
      | none =>
          rw [predicate] at made own
          obtain rfl := Except.ok.inj made
          simp [← own]
      | some e =>
          rw [predicate] at made own
          obtain ⟨others, rest, result⟩ := Except.bind_eq_ok.1 made
          obtain rfl := Except.ok.inj result
          obtain ⟨given, lengths⟩ := ih (fun part member => each part (List.mem_cons_of_mem _ member)) rest
          refine ⟨by simp [← own, ← given], ?_⟩
          intro predicates combined
          obtain ⟨alternatives, found, rfl⟩ := Option.map_eq_some_iff.1 combined
          rw [List.length_cons, lengths alternatives found, List.length_cons]

theorem isNone_disjunction {predicates : List Expr} (present : predicates ≠ []) :
    (disjunction? predicates).isNone = false := by
  cases predicates with
  | nil => contradiction
  | cons e es => rfl

theorem emptinessTest_eq_nil {name : String} {keys : RelationKeys} {wanted : Bool} {flag : Option Bool} :
    (emptinessTest names label name keys wanted flag).1 = [] ↔ flag = none := by
  cases flag <;> simp [emptinessTest]

/-- Conditions on related rows, if there are any, get predicates. -/
theorem predicates_lowerRelation {here : String} {declared : Relation} {keys : RelationKeys}
    {conditions : RelationFilter} {conjuncts : Conjuncts} (present : conditions.hasNoOperator = false)
    (lowered : lowerRelation registry label here joinable names declared keys conditions = .ok conjuncts) :
    conjuncts.predicates ≠ [] := by
  obtain ⟨someRow, noRow, everyRow, isEmpty, isNotEmpty⟩ := conditions
  rw [lowerRelation.eq_def] at lowered
  simp only [Except.bind_eq_ok] at lowered
  obtain ⟨matching, first, absent, second, throughout, third, result⟩ := lowered
  obtain rfl := Except.ok.inj result
  have some : matching.predicates = [] → someRow = none := by
    cases someRow with
    | none => exact fun _ => rfl
    | some part =>
        simp only at first
        split at first <;>
          obtain ⟨inner, -, result⟩ := Except.bind_eq_ok.1 first <;>
          obtain rfl := Except.ok.inj result <;> simp
  have no : absent.1 = [] → noRow = none := by
    cases noRow with
    | none => exact fun _ => rfl
    | some part =>
        obtain ⟨inner, -, result⟩ := Except.bind_eq_ok.1 second
        obtain rfl := Except.ok.inj result
        simp
  have every : throughout.1 = [] → everyRow = none := by
    cases everyRow with
    | none => exact fun _ => rfl
    | some part =>
        obtain ⟨inner, -, result⟩ := Except.bind_eq_ok.1 third
        obtain rfl := Except.ok.inj result
        simp
  intro nothing
  simp only [List.append_eq_nil_iff, emptinessTest_eq_nil] at nothing
  obtain ⟨⟨⟨⟨noneMatching, noneAbsent⟩, noneThroughout⟩, rfl⟩, rfl⟩ := nothing
  obtain rfl := some noneMatching
  obtain rfl := no noneAbsent
  obtain rfl := every noneThroughout
  simp [RelationFilter.hasNoOperator] at present

/-- Without predicate is exactly what accepts every row by its form. -/
theorem marks (filter : Filter) : filter.Marks registry := by
  induction filter using Filter.induction with
  | all parts each =>
      intro table label path joinable names translation lowered
      rw [lower] at lowered
      obtain ⟨conjuncts, made, result⟩ := Except.bind_eq_ok.1 lowered
      obtain rfl := Except.ok.inj result
      rw [isNone_conjunction, predicates_lowerAll each made, isUnconstrained, allUnconstrained_eq]
  | any parts each =>
      intro table label path joinable names translation lowered
      cases parts with
      | nil =>
          obtain rfl := Except.ok.inj lowered
          rfl
      | cons part parts =>
          rw [lower] at lowered
          obtain ⟨⟨alternatives, rest⟩, made, result⟩ := Except.bind_eq_ok.1 lowered
          obtain rfl := Except.ok.inj result
          obtain ⟨given, lengths⟩ := alternatives_lowerAny each made
          rw [isUnconstrained, anyUnconstrained_eq, ← given]
          cases alternatives with
          | none => rfl
          | some predicates =>
              apply isNone_disjunction
              intro none
              simpa [none] using lengths predicates rfl
  | not part _ =>
      intro table label path joinable names translation lowered
      rw [lower] at lowered
      obtain ⟨inner, -, result⟩ := Except.bind_eq_ok.1 lowered
      cases predicate : inner.predicate <;> rw [predicate] at result <;>
        obtain rfl := Except.ok.inj result <;> rfl
  | field column op =>
      intro table label path joinable names translation lowered
      rw [lower] at lowered
      split at lowered
      · obtain rfl := Except.ok.inj lowered
        rfl
      · contradiction
  | relation name conditions _ =>
      intro table label path joinable names translation lowered
      rw [lower] at lowered
      simp only at lowered
      split at lowered
      · contradiction
      obtain ⟨⟨declared, keys⟩, -, lowered⟩ := Except.bind_eq_ok.1 lowered
      simp only at lowered
      split at lowered
      · contradiction
      rename_i present
      obtain ⟨conjuncts, made, result⟩ := Except.bind_eq_ok.1 lowered
      obtain rfl := Except.ok.inj result
      rw [isNone_conjunction, isUnconstrained]
      simpa using predicates_lowerRelation (by simpa using present) made

end

/-! ### Success -/

section

variable {registry : Registry} {table : Table}

/-- A computation whose second step does not depend on what the first one yields succeeds if both do. -/
theorem succeeds_bind {ε α β : Type} {x : Except ε α} {f : α → Except ε β} {p q : Prop}
    (first : (∃ a, x = .ok a) ↔ p) (second : ∀ a, x = .ok a → ((∃ b, f a = .ok b) ↔ q)) :
    (∃ b, (x >>= f) = .ok b) ↔ p ∧ q := by
  constructor
  · rintro ⟨b, made⟩
    obtain ⟨a, found, made⟩ := Except.bind_eq_ok.1 made
    exact ⟨first.1 ⟨a, found⟩, (second a found).1 ⟨b, made⟩⟩
  · rintro ⟨holds, next⟩
    obtain ⟨a, found⟩ := first.2 holds
    obtain ⟨b, made⟩ := (second a found).2 next
    exact ⟨b, Except.bind_eq_ok.2 ⟨a, found, made⟩⟩

/-- So it is with a second step that always succeeds. -/
theorem succeeds_return {ε α β : Type} {x : Except ε α} {f : α → β} {p : Prop}
    (first : (∃ a, x = .ok a) ↔ p) : (∃ b, (x >>= fun a => pure (f a)) = .ok b) ↔ p := by
  have always : ∀ a, x = .ok a → ((∃ b, (pure (f a) : Except ε β) = .ok b) ↔ True) := by
    intro a _
    simp [pure, Except.pure]
  rw [succeeds_bind first always, and_true]

/-- The filter is lowered exactly if every node that is looked at is valid. -/
def JudgedAsSeen (registry : Registry) (filter : Filter) : Prop :=
  ∀ (table : Table) (label path : String) (joinable : Bool) (names : Names),
    (∃ translation, filter.lower registry table label path joinable names = .ok translation) ↔
      filter.Valid registry seenParts table

variable {parts : List Filter}

theorem lowerAll_succeeds (each : ∀ part ∈ parts, part.JudgedAsSeen registry) (label path : String)
    (joinable : Bool) (names : Names) :
    (∃ conjuncts, lowerAll registry table label path joinable names parts = .ok conjuncts) ↔
      ∀ part ∈ parts, part.Valid registry seenParts table := by
  induction parts generalizing names with
  | nil => simp [lowerAll]
  | cons part parts ih =>
      rw [lowerAll, List.forall_mem_cons]
      refine succeeds_bind (each part List.mem_cons_self table label path joinable names) ?_
      intro first _
      exact succeeds_return (ih (fun part member => each part (List.mem_cons_of_mem _ member)) first.names)

theorem lowerAny_succeeds (each : ∀ part ∈ parts, part.JudgedAsSeen registry) (label path : String)
    (names : Names) :
    (∃ alternatives, lowerAny registry table label path names parts = .ok alternatives) ↔
      ∀ part ∈ upToUnconstrained parts, part.Valid registry seenParts table := by
  induction parts generalizing names with
  | nil => simp [lowerAny, upToUnconstrained]
  | cons part parts ih =>
      have judged := each part List.mem_cons_self table label path false names
      rw [lowerAny, upToUnconstrained]
      by_cases unconstrained : part.isUnconstrained
      · rw [if_pos unconstrained, List.forall_mem_singleton]
        rw [succeeds_bind judged (q := True), and_true]
        intro first lowered
        have none : first.predicate = none := by
          simpa [unconstrained] using marks part lowered
        simp [none, pure, Except.pure]
      · rw [if_neg unconstrained, List.forall_mem_cons]
        refine succeeds_bind judged ?_
        intro first lowered
        obtain ⟨e, predicate⟩ : ∃ e, first.predicate = some e := by
          have present := marks part lowered
          rw [Bool.not_eq_true] at unconstrained
          rw [unconstrained] at present
          exact Option.isSome_iff_exists.1 (by simpa using present)
        rw [predicate]
        exact succeeds_return (ih (fun part member => each part (List.mem_cons_of_mem _ member)) first.names)

/-- Conditions on related rows are lowered exactly if the filters among them are. -/
theorem lowerRelation_succeeds {conditions : RelationFilter}
    (each : ∀ part ∈ conditions.parts, part.JudgedAsSeen registry) (label here : String) (joinable : Bool)
    (names : Names) (declared : Relation) (keys : RelationKeys) :
    (∃ conjuncts, lowerRelation registry label here joinable names declared keys conditions = .ok conjuncts) ↔
      ∀ part ∈ conditions.parts, part.Valid registry seenParts keys.target := by
  obtain ⟨someRow, noRow, everyRow, isEmpty, isNotEmpty⟩ := conditions
  simp only [RelationFilter.parts, List.forall_mem_append] at each ⊢
  obtain ⟨⟨eachSome, eachNo⟩, eachEvery⟩ := each
  rw [lowerRelation.eq_def, and_assoc]
  refine succeeds_bind ?_ fun matching _ => succeeds_bind ?_ fun absent _ => succeeds_return ?_
  · cases someRow with
    | none => simp
    | some part =>
        have judged := eachSome part (by simp)
        simp only [Option.toList_some, List.forall_mem_singleton]
        split
        · exact succeeds_return (by simpa using judged _ _ here true _)
        · exact succeeds_return (by simpa using judged _ _ here false _)
  · cases noRow with
    | none => simp
    | some part =>
        simp only [Option.toList_some, List.forall_mem_singleton]
        exact succeeds_return (by simpa using eachNo part (by simp) _ _ here false _)
  · cases everyRow with
    | none => simp
    | some part =>
        simp only [Option.toList_some, List.forall_mem_singleton]
        exact succeeds_return (by simpa using eachEvery part (by simp) _ _ here false _)

/-- The keys of a relation can be determined exactly if it is declared and its links can be. -/
theorem relation_succeeds {name : String} : (∃ pair, registry.relation table name = .ok pair) ↔
    ∃ relation keys, table.relation? name = some relation ∧
      registry.relationKeys table relation = .ok keys := by
  constructor
  · rintro ⟨⟨relation, keys⟩, found⟩
    exact ⟨relation, keys, Registry.relation_eq_ok found⟩
  · rintro ⟨relation, keys, declared, determined⟩
    exact ⟨(relation, keys), by simp [Registry.relation, declared, determined]⟩

/-- What there is to look at in a condition on related rows. -/
theorem valid_relation {name : String} {conditions : RelationFilter} :
    (Filter.relation name conditions).Valid registry seenParts table ↔
      ∃ declared keys, registry.relation table name = .ok (declared, keys) ∧
        conditions.hasNoOperator = false ∧
        ∀ part ∈ conditions.parts, part.Valid registry seenParts keys.target := by
  rw [valid_iff, Fits, ← relation_succeeds]
  constructor
  · rintro ⟨⟨⟨⟨declared, keys⟩, found⟩, present⟩, below⟩
    exact ⟨declared, keys, found, present, below keys.target (by simp [scope?, found, Except.toOption])⟩
  · rintro ⟨declared, keys, found, present, below⟩
    refine ⟨⟨⟨(declared, keys), found⟩, present⟩, ?_⟩
    intro inner scope
    obtain rfl : keys.target = inner := by simpa [scope?, found, Except.toOption] using scope
    exact below

/-- Lowering succeeds exactly if every node that is looked at is valid. -/
theorem judgedAsSeen (filter : Filter) : filter.JudgedAsSeen registry := by
  induction filter using Filter.induction with
  | all parts each =>
      intro table label path joinable names
      have nodes : (Filter.all parts).Valid registry seenParts table ↔
          ∀ part ∈ parts, part.Valid registry seenParts table := by
        rw [valid_iff]
        simp [Fits, scope?, seenParts, Filter.parts]
      rw [lower, nodes]
      exact succeeds_return (lowerAll_succeeds each label path joinable names)
  | any parts each =>
      intro table label path joinable names
      have nodes : (Filter.any parts).Valid registry seenParts table ↔
          ∀ part ∈ upToUnconstrained parts, part.Valid registry seenParts table := by
        rw [valid_iff]
        simp [Fits, scope?, seenParts]
      rw [nodes]
      cases parts with
      | nil => simp [lower, upToUnconstrained]
      | cons part parts =>
          rw [lower]
          exact succeeds_return (lowerAny_succeeds each label path names)
  | not part judged =>
      intro table label path joinable names
      have nodes : (Filter.not part).Valid registry seenParts table ↔ part.Valid registry seenParts table := by
        rw [valid_iff]
        simp [Fits, scope?, seenParts, Filter.parts]
      rw [lower, nodes, succeeds_bind (judged table label path false names) (q := True), and_true]
      intro inner _
      cases inner.predicate <;> simp [pure, Except.pure]
  | field column op =>
      intro table label path joinable names
      rw [lower, valid_iff]
      by_cases known : table.hasColumn column <;> simp [known, Fits, seenParts, Filter.parts]
  | relation name conditions each =>
      intro table label path joinable names
      rw [lower, valid_relation]
      simp only
      split
      · -- the name is one of a column
        rename_i misnamed
        have undeclared : table.relation? name = none := by simp at misnamed; exact misnamed.1
        simp [Registry.relation, undeclared]
      · cases found : registry.relation table name with
        | error fault => simp [bind, Except.bind]
        | ok pair =>
            obtain ⟨declared, keys⟩ := pair
            have lowered := lowerRelation_succeeds each label (joinPath path name) joinable names declared keys
            by_cases missing : conditions.hasNoOperator
            · simp [missing, bind, Except.bind]
            · have nodes : (∃ declared' keys', (Except.ok (declared, keys) : Except QueryError _) =
                    .ok (declared', keys') ∧ conditions.hasNoOperator = false ∧
                      ∀ part ∈ conditions.parts, part.Valid registry seenParts keys'.target) ↔
                  ∀ part ∈ conditions.parts, part.Valid registry seenParts keys.target := by
                simp [missing]
              rw [nodes, ← lowered]
              simp only [bind, Except.bind, if_neg missing]
              exact succeeds_return Iff.rfl

/-- A filter in which no part stands behind an alternative that accepts every row is lowered, with joins or
    without, exactly if all of it is valid: every column and every relation that it names, at any depth, is
    one of the table in force there, and every relation in it has keys and a condition. -/
theorem judged_whole {filter : Filter} (hides : filter.HidesNothing registry table)
    (label path : String) (names : Names) :
    ((∃ translation, filter.translate registry table label names = .ok translation) ↔
        filter.Valid registry Filter.parts table) ∧
      ((∃ lowered, filter.correlated registry table label path names = .ok lowered) ↔
        filter.Valid registry Filter.parts table) := by
  rw [← hides.valid_iff]
  constructor
  · exact judgedAsSeen filter table label "" true names
  · rw [← judgedAsSeen filter table label path false names, correlated]
    cases filter.lower registry table label path false names <;> simp [Except.map]

end

end Filter

namespace Blog

/-- Posts by Ada, posts that have a title, and so every post. -/
def adaOrTitled : Filter :=
  let ada : Filter := .field "name" (.compare .eq (.text "Ada"))
  .any [.relation "author" { RelationFilter.empty with someRow := some ada },
    .not (.field "title" (.isNull true)), .all []]

/-- Nothing in it stands behind the last alternative, and it is lowered, so all of it is valid. -/
theorem valid_adaOrTitled : adaOrTitled.HidesNothing registry posts ∧
    adaOrTitled.Valid registry Filter.parts posts := by
  have leaf : ∀ (table : Table) (column : String) (op : FieldOp),
      (Filter.field column op).HidesNothing registry table := by
    intro table column op
    rw [Filter.hidesNothing_iff]
    simp [Filter.seenParts, Filter.parts]
  have hides : adaOrTitled.HidesNothing registry posts := by
    rw [adaOrTitled, Filter.hidesNothing_iff]
    refine ⟨by rfl, ?_⟩
    simp only [Filter.scope?, Filter.parts, List.forall_mem_cons, Option.some.injEq, forall_eq']
    refine ⟨?_, ?_, ?_, by simp⟩
    · rw [Filter.hidesNothing_iff]
      refine ⟨rfl, ?_⟩
      simp [Filter.parts, RelationFilter.parts, RelationFilter.empty, leaf]
    · rw [Filter.hidesNothing_iff]
      simp [Filter.seenParts, Filter.parts, leaf]
    · rw [Filter.hidesNothing_iff]
      simp [Filter.seenParts, Filter.parts]
  have lowered : ∃ translation, adaOrTitled.translate registry posts "posts" .empty = .ok translation := by
    have succeeds : (adaOrTitled.translate registry posts "posts" .empty).toOption.isSome := by
      decide +kernel
    cases made : adaOrTitled.translate registry posts "posts" .empty with
    | error fault => simp [made, Except.toOption] at succeeds
    | ok translation => exact ⟨translation, rfl⟩
  exact ⟨hides, (Filter.judged_whole hides "posts" "" .empty).1.1 lowered⟩

/-- Every post, or those without a value in a column that there is not. -/
def everyPostOrNope : Filter := .any [.all [], .field "nope" (.isNull true)]

/-- Behind an alternative that accepts every row, an unknown column is not noticed. -/
theorem lowered_everyPostOrNope :
    (∃ translation, everyPostOrNope.translate registry posts "posts" .empty = .ok translation) ∧
      ¬everyPostOrNope.Valid registry Filter.parts posts := by
  refine ⟨⟨_, rfl⟩, fun valid => ?_⟩
  have known : posts.hasColumn "nope" = true := valid posts (.field "nope" (.isNull true))
    (.inside rfl (List.mem_cons_of_mem _ List.mem_cons_self) .here)
  exact absurd known (by decide)

end Blog

end RelQuery
