/-
Module: RelQuery.Proofs.Sql.ReadMeaning
Purpose: What is read from the tokens of a readable expression or query means what was written. Grouping
  does not matter to three-valued AND and OR, and the count that stands for want of a limit cuts nothing
  off unless there are more rows than it counts.
Main exports: Engine.Reads, Query.Fits, Expr.eval_readBack, Query.answer_readBack, Expr.truth_readBack
-/
import RelQuery.Proofs.Sql.Answer
import RelQuery.Proofs.Sql.Predicates
import RelQuery.Proofs.Sql.ReadQuery

namespace RelQuery.Sql

variable {V : Type}

/-- An engine sees nothing of a query but what it reads from its tokens. -/
def Engine.Reads (engine : Engine V) (d : Dialect) : Prop :=
  ∀ q r, readStatement? d (q.tokens d) = some r → engine.arrange q = engine.arrange r

/-- There are no more rows than the limit of a query counts, where the dialect writes the same count for
    want of a limit. -/
def Query.Fits (db : Database V) (d : Dialect) (q : Query) : Prop :=
  ∀ n, q.limit = some n → q.offset.isSome → unboundedLimit? d = some (.count n) →
    ∀ outer, (q.matching db outer).length ≤ n.toNat

/-! ### Limits -/

theorem window_meantLimit {α : Type} {d : Dialect} {limit offset : Option UInt64} {rows : List α}
    (fits : ∀ n, limit = some n → offset.isSome → unboundedLimit? d = some (.count n) →
      rows.length ≤ n.toNat) :
    window (meantLimit d limit offset) offset rows = window limit offset rows := by
  cases limit with
  | none => rfl
  | some n =>
      cases offset with
      | none => rfl
      | some start =>
          rw [meantLimit]
          split
          · rename_i stands
            have enough := fits n rfl rfl stands
            refine (List.take_of_length_le ?_).symm
            exact Nat.le_trans (List.length_drop ▸ Nat.sub_le _ _) enough
          · rfl

/-- Removing duplicates adds nothing. -/
theorem length_eraseDupsBy_le {α : Type} (same : α → α → Bool) (xs : List α) :
    (xs.eraseDupsBy same).length ≤ xs.length := by
  induction size : xs.length using Nat.strongRecOn generalizing xs with
  | ind n ih =>
      cases xs with
      | nil => simp
      | cons a as =>
          have shorter := List.length_filter_le (fun b => decide (same b a = false)) as
          rw [List.eraseDupsBy_cons, List.length_cons]
          rw [List.length_cons] at size
          have rest := ih _ (by omega) (as.filter fun b => decide (same b a = false)) rfl
          omega

/-! ### Queries -/

theorem TableRef.exposedName_readBack (d : Dialect) (table : TableRef) :
    (table.readBack d).exposedName = table.exposedName := by
  obtain ⟨source, label⟩ := table
  cases source <;> cases label <;> rfl

section

variable {db : Database V} {d : Dialect}

/-- A column or a value aggregates nothing. -/
theorem Expr.aggregates_of_isAtom (engine : Engine V) {e : Expr} (atom : e.IsAtom) :
    e.aggregates engine = false := by
  cases e <;> first | rfl | contradiction

namespace Query

/-- A readable query answers with rows. -/
theorem Readable.isGrouped {q : Query} (readable : q.Readable) (engine : Engine V) :
    q.isGrouped engine = false := by
  obtain ⟨select, distinct, source, joins, condition, groupBy, having, orderBy, limit, offset⟩ := q
  obtain ⟨selected, -, -, -, rfl, rfl, sorted⟩ := readable
  have plain : select.any (fun item => item.expr.aggregates engine) = false := by
    simp only [List.any_eq_false, Bool.not_eq_true]
    exact fun item member => Expr.aggregates_of_isAtom engine (selected item member)
  have plainOrder : orderBy.any (fun item => item.expr.aggregates engine) = false := by
    simp only [List.any_eq_false, Bool.not_eq_true]
    exact fun item member => Expr.aggregates_of_isAtom engine (sorted item member)
  rw [Query.isGrouped, plain, plainOrder]
  rfl

theorem columns_answer (outer : Scope V) (q : Query) :
    (q.answer db outer).columns =
      (SelectItem.record db outer (q.joined db outer).absent [] q.select).map Prod.fst := by
  cases q
  rfl

/-- A query answers as before if its items and its condition do. -/
theorem answer_readBack_of {q : Query} (readable : q.Readable) (reads : db.engine.Reads d)
    (fits : q.Fits db d) (outer : Scope V) (joined : (q.readBack d).joined db outer = q.joined db outer)
    (condition : ∀ scope, conditionTruth db scope (q.readBack d).condition =
      conditionTruth db scope q.condition) :
    (q.readBack d).answer db outer = q.answer db outer := by
  have arranged : db.engine.arrange (q.readBack d) = db.engine.arrange q :=
    (reads q _ (readStatement?_tokens d readable)).symm
  have matching : (q.readBack d).matching db outer = q.matching db outer := by
    simp only [Query.matching, joined, condition]
  have kept : (q.readBack d).select = q.select ∧ (q.readBack d).distinct = q.distinct ∧
      (q.readBack d).orderBy = q.orderBy ∧ (q.readBack d).offset = q.offset ∧
        (q.readBack d).limit = meantLimit d q.limit q.offset ∧
          (q.readBack d).isGrouped db.engine = q.isGrouped db.engine := by
    cases q
    exact ⟨rfl, rfl, rfl, rfl, rfl, rfl⟩
  obtain ⟨select, distinct, orderBy, offset, limit, grouped⟩ := kept
  have ordered : (q.readBack d).ordered db outer = q.ordered db outer := by
    simp only [Query.ordered, arranged, matching, orderBy]
  have columns : ((q.readBack d).answer db outer).columns = (q.answer db outer).columns := by
    rw [columns_answer, columns_answer, joined, select]
  have rows : ((q.readBack d).answer db outer).rows = (q.answer db outer).rows := by
    rw [rows_of_ungrouped db outer _ (grouped.trans (readable.isGrouped db.engine)),
      rows_of_ungrouped db outer _ (readable.isGrouped db.engine), ordered, select, distinct, limit, offset]
    refine window_meantLimit fun n limited started stands => ?_
    have enough : (q.ordered db outer).length ≤ n.toNat := by
      rw [(q.ordered_perm db outer).length_eq]
      exact fits n limited started stands outer
    split
    · exact Nat.le_trans (length_eraseDupsBy_le _ _) (by rwa [List.length_map])
    · rwa [List.length_map]
  change Instance.mk _ _ = Instance.mk _ _
  rw [columns, rows]

end Query

/-! ### Expressions -/

variable (scope : Scope V) (group : List (Scope V))

/-- Appending conjuncts one by one conjoins them. -/
theorem Expr.eval_appendAnd (e f : Expr) :
    (e.appendAnd f).eval db scope group = (e.and f).eval db scope group := by
  fun_induction Expr.appendAnd e f with
  | case1 f g ih =>
      simp only [Expr.and, Expr.eval_binary, BinaryOp.apply, db.engine.truth_ofTruth] at ih ⊢
      rw [ih, db.engine.truth_ofTruth, Truth.and_assoc]
  | case2 f other => rfl

/-- Appending disjuncts one by one disjoins them. -/
theorem Expr.eval_appendOr (e f : Expr) :
    (e.appendOr f).eval db scope group = (e.or f).eval db scope group := by
  fun_induction Expr.appendOr e f with
  | case1 f g ih =>
      simp only [Expr.or, Expr.eval_binary, BinaryOp.apply, db.engine.truth_ofTruth] at ih ⊢
      rw [ih, db.engine.truth_ofTruth, Truth.or_assoc]
  | case2 f other => rfl

/-- Membership in the empty list is a constant. -/
theorem Expr.eval_inList_nil (e : Expr) (negated : Bool) :
    ((Expr.int 1).eq (Expr.int (if negated then 1 else 0))).eval db scope group =
      (Expr.inList e [] negated).eval db scope group := by
  cases negated <;>
    simp [Expr.eq, Expr.compare, Expr.int, BinaryOp.apply, db.engine.compare_int, Truth.not]

/-- The absence of rows is the negation of their presence. -/
theorem Expr.eval_not_existsQuery (query : Query) :
    (Expr.not (.existsQuery query false)).eval db scope group =
      (Expr.existsQuery query true).eval db scope group := by
  simp [db.engine.truth_ofTruth]

end

/-! ### Whole expressions and queries -/

section

variable {db : Database V} {d : Dialect}

mutual

/-- What is read from an expression has the value of the expression. -/
theorem Expr.eval_readBack (reads : db.engine.Reads d) : ∀ e : Expr, e.Readable →
    (∀ q ∈ e.queries, q.Fits db d) → ∀ scope group, (e.readBack d).eval db scope group = e.eval db scope group
  | .column _ _, _, _, _, _ => rfl
  | .literal _, _, _, _, _ => rfl
  | .param _, _, _, _, _ => rfl
  | .binary op left right, readable, fits, scope, group => by
      obtain ⟨readableLeft, readableRight, shape⟩ := readable
      obtain ⟨fitsLeft, fitsRight⟩ := List.forall_mem_append.1 fits
      have first := Expr.eval_readBack reads left readableLeft fitsLeft scope group
      have second := Expr.eval_readBack reads right readableRight fitsRight scope group
      rw [Expr.eval_binary, ← first, ← second]
      cases op with
      | and => exact Expr.eval_appendAnd scope group _ _
      | or => exact Expr.eval_appendOr scope group _ _
      | compare operator => rfl
      | like => contradiction
  | .not operand, readable, fits, scope, group => by
      have same := Expr.eval_readBack reads operand readable fits scope group
      rw [Expr.readBack, Expr.eval_not, Expr.eval_not, same]
  | .isNull _ _, _, _, _, _ => rfl
  | .caseWhen none branches (some _), readable, fits, scope, group => by
      have inside : ∀ q ∈ Expr.queriesOfBranches branches, q.Fits db d := fun q member => fits q (by
        rw [Expr.queries]
        exact List.mem_append_left _ (List.mem_append_right _ member))
      exact Expr.evalBranches_readBack reads branches readable.1 inside scope group _
  | .caseWhen none _ none, readable, _, _, _ => absurd readable (by simp [Expr.Readable])
  | .caseWhen (some _) _ _, readable, _, _, _ => absurd readable (by simp [Expr.Readable])
  | .existsQuery query negated, readable, fits, scope, group => by
      have same := Query.answer_readBack reads query readable fits scope
      cases negated with
      | false => rw [Expr.readBack, Expr.eval_existsQuery, Expr.eval_existsQuery, same]
      | true =>
          rw [Expr.readBack, Expr.eval_not_existsQuery, Expr.eval_existsQuery, Expr.eval_existsQuery, same]
  | .inList operand values negated, _, _, scope, group => by
      rw [Expr.readBack]
      split
      · rename_i empty
        rw [List.isEmpty_iff.1 empty, Expr.eval_inList_nil]
      · rfl
  | .inQuery operand query negated, readable, fits, scope, group => by
      have same := Query.answer_readBack reads query readable.2 (List.forall_mem_append.1 fits).2 scope
      rw [Expr.readBack, Expr.eval_inQuery, Expr.eval_inQuery, same]
  | .likeEscape _ _ _ _, _, _, _, _ => rfl
  | .subquery _, readable, _, _, _ => absurd readable (by simp [Expr.Readable])
  | .call _ _ _, readable, _, _, _ => absurd readable (by simp [Expr.Readable])
  | .star _, readable, _, _, _ => absurd readable (by simp [Expr.Readable])
  | .paren _, readable, _, _, _ => absurd readable (by simp [Expr.Readable])

theorem Expr.evalOption_readBack (reads : db.engine.Reads d) : ∀ condition : Option Expr,
    Expr.ReadableOption condition →
    (∀ q ∈ Expr.queriesOfOption condition, q.Fits db d) →
      ∀ scope, Expr.evalOption db scope [] (Expr.readBackOption d condition) =
        Expr.evalOption db scope [] condition
  | none, _, _, _ => rfl
  | some e, readable, fits, scope => congrArg some (Expr.eval_readBack reads e readable fits scope [])

theorem Expr.evalBranches_readBack (reads : db.engine.Reads d) : ∀ branches : List (Expr × Expr),
    Expr.ReadableBranches branches → (∀ q ∈ Expr.queriesOfBranches branches, q.Fits db d) →
      ∀ scope group fallback,
        Expr.evalBranches db scope group none fallback (Expr.readBackBranches d branches) =
          Expr.evalBranches db scope group none fallback branches
  | [], _, _, _, _, _ => rfl
  | (condition, _) :: branches, readable, fits, scope, group, fallback => by
      obtain ⟨fitsFirst, fitsLater⟩ := List.forall_mem_append.1 fits
      have fitsCondition := (List.forall_mem_append.1 fitsFirst).1
      have first := Expr.eval_readBack reads condition readable.1 fitsCondition scope group
      have later := Expr.evalBranches_readBack reads branches readable.2.2 fitsLater scope group fallback
      rw [Expr.readBackBranches, Expr.evalBranches_cons, Expr.evalBranches_cons, first, later]

theorem TableRef.contents_readBack (reads : db.engine.Reads d) : ∀ table : TableRef, table.Readable →
    (∀ q ∈ table.queries, q.Fits db d) →
      ∀ outer, (table.readBack d).contents db outer = table.contents db outer
  | ⟨.stored _ _, _⟩, _, _, _ => rfl
  | ⟨.derived query, _⟩, readable, fits, outer => Query.answer_readBack reads query readable fits outer

theorem Join.combineAll_readBack (reads : db.engine.Reads d) : ∀ joins : List Join,
    Join.ReadableEach joins → (∀ q ∈ Join.queriesOfEach joins, q.Fits db d) →
      ∀ outer joined, Join.combineAll db outer joined (Join.readBackEach d joins) =
        Join.combineAll db outer joined joins
  | [], _, _, _, _ => rfl
  | ⟨_, table, condition⟩ :: joins, readable, fits, outer, joined => by
      obtain ⟨fitsFirst, fitsLater⟩ := List.forall_mem_append.1 fits
      obtain ⟨fitsTable, fitsCondition⟩ := List.forall_mem_append.1 fitsFirst
      have contents := TableRef.contents_readBack reads table readable.1 fitsTable outer
      have holds := Expr.evalOption_readBack reads condition readable.2.1 fitsCondition
      have named : (table.readBack d).exposedName = table.exposedName := TableRef.exposedName_readBack d table
      rw [Join.readBackEach, Join.combineAll_cons, Join.combineAll_cons, contents, named]
      simp only [holds]
      exact Join.combineAll_readBack reads joins readable.2.2 fitsLater outer _

/-- What is read from a query has the answer of the query. -/
theorem Query.answer_readBack (reads : db.engine.Reads d) : ∀ q : Query, q.Readable →
    (∀ r ∈ q.queries, r.Fits db d) → ∀ outer, (q.readBack d).answer db outer = q.answer db outer
  | ⟨_, _, none, _, _, _, _, _, _, _⟩, readable, _, _ =>
    absurd readable.2.1 (by simp [TableRef.ReadableOption])
  | ⟨select, distinct, some source, joins, condition, groupBy, having, orderBy, limit, offset⟩,
      readable, fits, outer => by
      have fitsInside := fits
      rw [readable.queries_eq, List.forall_mem_cons, List.forall_mem_append, List.forall_mem_append]
        at fitsInside
      obtain ⟨fitsItself, ⟨fitsSource, fitsJoins⟩, fitsCondition⟩ := fitsInside
      have contents := TableRef.contents_readBack reads source readable.2.1 fitsSource outer
      have conditions := Expr.evalOption_readBack reads condition readable.2.2.2.1 fitsCondition
      have start : TableRef.start db outer (some (source.readBack d)) =
          TableRef.start db outer (some source) := by
        rw [TableRef.start_some, TableRef.start_some, contents, TableRef.exposedName_readBack]
      refine Query.answer_readBack_of readable reads fitsItself outer ?_ fun scope => ?_
      · have joined := Join.combineAll_readBack reads joins readable.2.2.1 fitsJoins outer
          (TableRef.start db outer (some source))
        rw [Query.joined, Query.readBack, TableRef.readBackOption, start, joined]
        rfl
      · have same := conditions scope
        cases condition with
        | none => rfl
        | some e => exact congrArg db.engine.truth (Option.some.inj same)

end

/-- The condition that is read has the truth value of the condition. -/
theorem Expr.truth_readBack (reads : db.engine.Reads d) {e : Expr} (readable : e.Readable)
    (fits : ∀ q ∈ e.queries, q.Fits db d) (scope : Scope V) :
    (e.readBack d).truth db scope = e.truth db scope :=
  congrArg db.engine.truth (Expr.eval_readBack reads e readable fits scope [])

end

end RelQuery.Sql
