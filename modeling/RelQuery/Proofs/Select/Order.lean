/-
Module: RelQuery.Proofs.Select.Order
Purpose: The order that a selection asks for, as an order of the rows of its root: by the values at the
  ends of the paths of its orderings, as long as these stay within relations to one row, and then by the
  remaining columns of the primary key, which tells all rows apart.
Main exports: SortKey, sortsByKeys, Selection.orderKeys, Selection.pageKeys, orderItems_eq_ok,
  withKeyOrder_eq, ordersBefore_eq
-/
import RelQuery.Proofs.Keyed
import RelQuery.Proofs.Plan.Columns
import RelQuery.Proofs.Plan.Follow
import RelQuery.Proofs.Select.Assembled
import RelQuery.Proofs.Sql.Answer

namespace RelQuery

open Sql

variable {V : Type}

/-! ### Sorting rows -/

/-- A value by which rows are sorted, and the direction in which they are. -/
structure SortKey (V : Type) where
  direction : Option Direction
  nulls : Option NullsOrder
  value : Record V → V

/-- Whether a row may stand before another one. -/
def sortsByKeys (engine : Engine V) (keys : List (SortKey V)) (a b : Record V) : Bool :=
  engine.sortsBeforeAll (keys.map fun key => (key.direction, key.nulls)) (keys.map fun key => key.value a)
    (keys.map fun key => key.value b)

section

variable {engine : Engine V} {keys : List (SortKey V)} {a b c : Record V}

theorem sortsByKeys_total (engine : Engine V) (keys : List (SortKey V)) (a b : Record V) :
    sortsByKeys engine keys a b || sortsByKeys engine keys b a :=
  engine.sortsBeforeAll_total _ _ _

theorem sortsByKeys_trans (first : sortsByKeys engine keys a b) (second : sortsByKeys engine keys b c) :
    sortsByKeys engine keys a c :=
  engine.sortsBeforeAll_trans _ _ _ _ (by simp) (by simp) (by simp) first second

/-- Rows that may stand either way are told apart by no key. -/
theorem sortsByKeys_antisymm (first : sortsByKeys engine keys a b) (second : sortsByKeys engine keys b a) :
    ∀ key ∈ keys, engine.sortsBefore key.direction key.nulls (key.value a) (key.value b) = true ∧
      engine.sortsBefore key.direction key.nulls (key.value b) (key.value a) = true := by
  induction keys with
  | nil => simp
  | cons key keys ih =>
      simp only [sortsByKeys, List.map_cons, Engine.sortsBeforeAll] at first second
      have forth : engine.sortsBefore key.direction key.nulls (key.value a) (key.value b) = true := by
        by_contra never
        rw [if_neg never] at first
        contradiction
      have back : engine.sortsBefore key.direction key.nulls (key.value b) (key.value a) = true := by
        by_contra never
        rw [if_neg never] at second
        contradiction
      rw [if_pos forth, if_pos back] at first
      rw [if_pos back, if_pos forth] at second
      exact List.forall_mem_cons.2 ⟨⟨forth, back⟩, ih first second⟩

/-- Further keys only refine an order. -/
theorem sortsByKeys_of_append {more : List (SortKey V)} (before : sortsByKeys engine (keys ++ more) a b) :
    sortsByKeys engine keys a b := by
  induction keys with
  | nil => simp [sortsByKeys, Engine.sortsBeforeAll]
  | cons key keys ih =>
      simp only [sortsByKeys, List.cons_append, List.map_cons, Engine.sortsBeforeAll] at before ⊢
      split at before
      · rename_i forth
        rw [if_pos forth]
        split at before
        · rename_i back
          rw [if_pos back]
          exact ih before
        · rename_i never
          rw [if_neg never]
      · contradiction

/-- Rows that are told apart by the keys stand as sorting puts them once they stand in order. -/
theorem eq_mergeSort_of_sorted {rows sorted : List (Record V)} (perm : sorted.Perm rows)
    (inOrder : sorted.Pairwise fun a b => sortsByKeys engine keys a b = true)
    (decides : ∀ a ∈ rows, ∀ b ∈ rows,
      sortsByKeys engine keys a b → sortsByKeys engine keys b a → a = b) :
    sorted = rows.mergeSort (sortsByKeys engine keys) := by
  have sortedRows := List.pairwise_mergeSort
    (fun a b c => sortsByKeys_trans (a := a) (b := b) (c := c))
    (sortsByKeys_total engine keys) rows
  refine (perm.trans (List.mergeSort_perm _ _).symm).eq_of_pairwise ?_ inOrder sortedRows
  intro a b memberA memberB
  exact decides a (perm.mem_iff.1 memberA) b (List.mem_mergeSort.1 memberB)

end

namespace Selection

variable (db : Database V) (registry : Registry) (selection : Selection)

/-- The requested orderings of the root's rows. -/
def orderKeys : List (SortKey V) :=
  selection.order.map fun term => ⟨some term.direction, term.nulls, fun row =>
    db.engine.read (follow db registry selection.table selection.includes term.relations row) term.column⟩

/-- The columns of the primary key that no ordering names, each once. -/
def remainingKey : List String :=
  (selection.table.primaryKey.filter fun column =>
    !selection.order.any fun term => term.relations.isEmpty && term.column == column).eraseDups

/-- The requested orderings, and the remaining columns of the primary key behind them. -/
def pageKeys : List (SortKey V) :=
  selection.orderKeys db registry ++
    selection.remainingKey.map fun column => ⟨some .asc, none, fun row => db.engine.read row column⟩

/-- The rows of the page that a selection asks for. -/
def page : List (Record V) :=
  window selection.limit selection.offset
    ((selection.roots db registry).mergeSort (sortsByKeys db.engine (selection.pageKeys db registry)))

variable {db registry selection}

/-- The whole key tells the rows of a page apart. -/
theorem pageKeys_antisymm (keyed : db.Keyed selection.table) {a b : Record V}
    (storedA : a ∈ db.rowsOf selection.table) (storedB : b ∈ db.rowsOf selection.table)
    (first : sortsByKeys db.engine (selection.pageKeys db registry) a b)
    (second : sortsByKeys db.engine (selection.pageKeys db registry) b a) : a = b := by
  have both := sortsByKeys_antisymm first second
  refine keyed.eq_of_compare storedA storedB fun column member => ?_
  have sorted : ∃ direction nulls, db.engine.sortsBefore direction nulls (db.engine.read a column)
      (db.engine.read b column) = true ∧ db.engine.sortsBefore direction nulls (db.engine.read b column)
      (db.engine.read a column) = true := by
    by_cases ordered : selection.order.any fun term => term.relations.isEmpty && term.column == column
    · obtain ⟨term, inOrder, named⟩ := List.any_eq_true.1 ordered
      simp only [Bool.and_eq_true, List.isEmpty_iff, beq_iff_eq] at named
      have sorts := both _ (List.mem_append_left _ (List.mem_map_of_mem inOrder))
      simp only [named.1, named.2, follow] at sorts
      exact ⟨_, _, sorts⟩
    · refine ⟨_, _, both ⟨some .asc, none, fun row => db.engine.read row column⟩
        (List.mem_append_right _ (List.mem_map_of_mem ?_))⟩
      simp [remainingKey, member, ordered]
  obtain ⟨direction, nulls, forth, back⟩ := sorted
  exact db.engine.sortsBefore_antisymm _ _ _ _ (keyed.present a storedA column member) forth back

end Selection

/-! ### ORDER BY lists -/

section

variable {db : Database V} {registry : Registry} {selection : Selection}

/-- The items of an ORDER BY list are columns of the occurrences that the paths of its terms lead to. -/
theorem orderItems_eq_ok {plan : Projection} {items : List OrderItem}
    (ordered : selection.orderItems registry plan = .ok items) :
    List.Forall₂ (fun term item => ∃ reached, plan.find? term.relations = some reached ∧
      item = ⟨Expr.of reached.label term.column, some term.direction, term.nulls⟩) selection.order items := by
  refine (forall₂_of_mapM ordered).imp fun term item made => ?_
  unfold Selection.orderItem at made
  obtain ⟨table, -, made⟩ := Except.bind_eq_ok.1 made
  split at made
  · contradiction
  · split at made
    · rename_i reached found
      exact ⟨reached, found, (Except.ok.inj made).symm⟩
    · contradiction

theorem exists_of_mem_orderItems {plan : Projection} {items : List OrderItem}
    (ordered : selection.orderItems registry plan = .ok items) :
    ∀ item ∈ items, ∃ label column, item.expr = Expr.of label column := by
  have made := orderItems_eq_ok ordered
  generalize selection.order = terms at made
  clear ordered
  induction made with
  | nil => simp
  | cons first rest ih =>
      obtain ⟨reached, -, rfl⟩ := first
      exact List.forall_mem_cons.2 ⟨⟨_, _, rfl⟩, ih⟩

/-- An item of an ORDER BY list sorts a scope like a key sorts a row. -/
structure SortsLike (db : Database V) (scope : Scope V) (row : Record V) (key : SortKey V)
    (item : OrderItem) : Prop where
  direction : item.direction = key.direction
  nulls : item.nulls = key.nulls
  value : item.expr.eval db scope [] = key.value row

theorem ordersBefore_eq {keys : List (SortKey V)} {items : List OrderItem} {s s' : Scope V} {a b : Record V}
    (first : List.Forall₂ (SortsLike db s a) keys items)
    (second : List.Forall₂ (SortsLike db s' b) keys items) :
    ordersBefore db items s s' = sortsByKeys db.engine keys a b := by
  have terms : (items.map fun item => (item.direction, item.nulls)) =
      keys.map fun key => (key.direction, key.nulls) := by
    clear second
    induction first with
    | nil => rfl
    | cons like rest ih => rw [List.map_cons, List.map_cons, ih, like.direction, like.nulls]
  have values : ∀ (scope : Scope V) (row : Record V),
      List.Forall₂ (SortsLike db scope row) keys items →
        OrderItem.keys db scope [] items = keys.map fun key => key.value row := by
    intro scope row like
    clear terms first second
    rw [OrderItem.keys_eq]
    induction like with
    | nil => rfl
    | cons like rest ih => rw [List.map_cons, List.map_cons, ih, like.value]
  rw [ordersBefore, sortsByKeys, terms, values s a first, values s' b second]

/-- The rest of the key is appended, column by column. -/
theorem withKeyOrder_eq (label : String) (key : List String) (items : List OrderItem) :
    Selection.withKeyOrder label items key = items ++
      ((key.filter fun column => !items.any fun item => item.expr.isColumn label column).eraseDups).map
        fun column => ⟨Expr.of label column, some .asc, none⟩ := by
  induction key generalizing items with
  | nil => simp [Selection.withKeyOrder]
  | cons column key ih =>
      by_cases ordered : items.any fun item => item.expr.isColumn label column
      · rw [Selection.withKeyOrder, if_pos ordered, ih, List.filter_cons_of_neg (by simpa using ordered)]
      · rw [Selection.withKeyOrder, if_neg ordered, ih, List.filter_cons_of_pos (by simpa using ordered),
          List.eraseDups_cons, List.filter_filter]
        simp only [List.any_append, List.append_assoc, List.map_cons, List.singleton_append]
        congr 3
        refine congrArg List.eraseDups (List.filter_congr fun other _ => ?_)
        simp [Expr.of, Expr.isColumn, Bool.and_comm, Bool.beq_comm]

variable {includes : List Include} {names : Names} {assembly : Assembly}
  (parts : assembly.Parts db registry selection includes names)

include parts

/-- What stands under the name that a path of relations to one row leads to, in a scope of the statement. -/
theorem Assembly.Parts.read_follow (unique : db.LinksToOne registry)
    (registered : selection.table ∈ registry.tables) {outer scope : Scope V}
    (member : scope ∈ assembly.query.matching db outer) {steps : List String} {reached : Projection}
    (toOne : assembly.plan.isToOnePath steps = true) (found : assembly.plan.find? steps = some reached)
    (column : String) :
    db.engine.read (scope.get reached.label) column =
      db.engine.read (follow db registry selection.table includes steps (scope.get parts.label)) column := by
  obtain ⟨root, stored, extended, first, second, -⟩ := parts.mem_matching.1 member
  obtain ⟨-, kept⟩ := parts.get_label first second
  rw [parts.plan_eq] at toOne found
  cases steps with
  | nil =>
      obtain rfl := Option.some.inj found
      rfl
  | cons name steps =>
      simp only [Projection.isToOnePath, Projection.find?, Projection.node?] at toOne found
      split at found
      · rename_i node inNode
        simp only [inNode, Bool.and_eq_true, Bool.not_eq_true'] at toOne
        have agrees : Agrees parts.attached extended scope := fun name old =>
          (parts.lowered.reserved.get_eq second old).symm
        have held : db.Holds selection.table (Scope.get ((parts.label, root) :: outer) parts.label) := by
          rw [Scope.get_cons_self]
          exact .inl stored
        have reads := parts.attaches.reads_follow parts.label_mem_rooted unique registered held first agrees
          inNode toOne.1 toOne.2 found column
        rw [reads, Scope.get_cons_self, kept]
      · contradiction

/-- The ORDER BY items sort the scopes of the statement by the ends of the paths. -/
theorem Assembly.Parts.sortsLike_orderItems (unique : db.LinksToOne registry)
    (registered : selection.table ∈ registry.tables) {outer scope : Scope V}
    (member : scope ∈ assembly.query.matching db outer) {items : List OrderItem}
    (ordered : selection.orderItems registry assembly.plan = .ok items)
    (toOne : ∀ term ∈ selection.order, assembly.plan.isToOnePath term.relations = true)
    (sameWay : ∀ term ∈ selection.order,
      follow db registry selection.table includes term.relations (scope.get parts.label) =
        follow db registry selection.table selection.includes term.relations (scope.get parts.label)) :
    List.Forall₂ (SortsLike db scope (scope.get parts.label)) (selection.orderKeys db registry) items := by
  have listed := (List.forall₂_and_left _ _).2 ⟨fun _ inOrder => inOrder, orderItems_eq_ok ordered⟩
  rw [Selection.orderKeys, List.forall₂_map_left_iff]
  refine listed.imp ?_
  rintro term item ⟨inOrder, reached, found, rfl⟩
  refine ⟨rfl, rfl, ?_⟩
  rw [Expr.eval_of, parts.read_follow unique registered member (toOne term inOrder) found,
    sameWay term inOrder]

end

end RelQuery
