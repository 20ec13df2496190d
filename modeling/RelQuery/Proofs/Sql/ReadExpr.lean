/-
Module: RelQuery.Proofs.Sql.ReadExpr
Purpose: Readers get back the expressions that were written: the tokens of each are read in front of
  whatever holds on to it less tightly than it holds together, constructor by constructor. Queries inside
  expressions are left to their own readers.
Main exports: words_append, LooserThan, Expr.ReadsBack, Expr.readOr_of_isAtom, Expr.ReadsBack.and,
  Expr.ReadsBack.or, Expr.ReadsBack.not, Expr.readsBack_inList
-/
import RelQuery.Proofs.Sql.ReadBack

namespace RelQuery.Sql

open Dialect

/-! ### Words -/

section

variable (tokens : List Token)

@[simp] theorem words_nil : words [] = [] := rfl

@[simp] theorem words_cons (token : Token) :
    words (token :: tokens) = if token.isLayout then words tokens else token :: words tokens := by
  cases layout : token.isLayout <;> simp [words, layout]

@[simp] theorem words_append (more : List Token) : words (tokens ++ more) = words tokens ++ words more :=
  List.filter_append ..

@[simp] theorem words_parenthesized :
    words (parenthesized tokens) = .openParen :: (words tokens ++ [.closeParen]) := by
  simp [parenthesized, Token.isLayout]

@[simp] theorem words_commaSeparated_singleton : words (commaSeparated [tokens]) = words tokens := by
  simp [commaSeparated]

theorem words_commaSeparated_cons (next : List Token) (others : List (List Token)) :
    words (commaSeparated (tokens :: next :: others)) =
      words tokens ++ .comma :: words (commaSeparated (next :: others)) := by
  simp [commaSeparated, List.intercalate_cons_cons, Token.isLayout]

/-- What is separated by commas begins with its first part. -/
theorem words_commaSeparated_begins {t : Token} {more : List Token} (others : List (List Token))
    (begins : words tokens = t :: more) :
    ∃ rest, words (commaSeparated (tokens :: others)) = t :: rest := by
  cases others with
  | nil => exact ⟨more, by rw [words_commaSeparated_singleton, begins]⟩
  | cons next others =>
      rw [words_commaSeparated_cons, begins]
      exact ⟨_, rfl⟩

end

/-! ### What may follow -/

/-- How tightly a token holds on to the expression before it. -/
def Token.grip : Token → Nat
  | .comparison _ => 3
  | .keyword .isNull => 3
  | .keyword .isNotNull => 3
  | .keyword .in => 3
  | .keyword .like => 3
  | .keyword .not => 3
  | .keyword .and => 2
  | .keyword .or => 1
  | _ => 0

/-- What follows an expression holds on to it less tightly than that. -/
def LooserThan (n : Nat) (ts : List Token) : Prop := ∀ t ∈ ts.head?, t.grip < n

theorem LooserThan.mono {m n : Nat} {ts : List Token} (looser : LooserThan m ts) (le : m ≤ n) :
    LooserThan n ts := fun t member => Nat.lt_of_lt_of_le (looser t member) le

@[simp] theorem looserThan_cons {n : Nat} {t : Token} {ts : List Token} :
    LooserThan n (t :: ts) ↔ t.grip < n := by
  simp [LooserThan]

section

variable (d : Dialect) (e : Expr) {ts : List Token}

theorem readOrs_stop (looser : LooserThan 1 ts) : readOrs d e ts = some (e, ts) := by
  unfold readOrs
  split
  · simp [Token.grip] at looser
  · rfl

theorem readAnds_stop (looser : LooserThan 2 ts) : readAnds d e ts = some (e, ts) := by
  unfold readAnds
  split
  · simp [Token.grip] at looser
  · rfl

theorem readTest_stop (looser : LooserThan 3 ts) : readTest d e ts = some (e, ts) := by
  unfold readTest
  split <;> first | rfl | simp [Token.grip] at looser

/-- What begins with an operand does not begin with NOT. -/
theorem readNot_eq {ts' : List Token} {e : Expr} (read : readOperand d ts = some (e, ts')) :
    readNot d ts = readTest d e ts' := by
  unfold readNot
  split
  · simp [readOperand] at read
  · rw [readPredicate, read]
    rfl

@[simp] theorem expect_cons (t : Token) (ts : List Token) : expect t (t :: ts) = some ts := by
  simp [expect]

end

/-! ### Expressions -/

/-- The words of an expression. -/
def Expr.words (d : Dialect) (e : Expr) : List Token := RelQuery.Sql.words (e.tokens d)

/-- What the readers make of the words of an expression. An expression that holds together tightly enough is
    read by the reader of its kind in front of whatever holds on less tightly; in front of what continues a
    conjunction or a disjunction, the readers go on from what has been read so far. -/
structure Expr.ReadsBack (d : Dialect) (e : Expr) : Prop where
  operand : e.rank = 5 → ∀ ts, readOperand d (e.words d ++ ts) = some (e.readBack d, ts)
  negation : 3 ≤ e.rank → ∀ ts, LooserThan 3 ts → readNot d (e.words d ++ ts) = some (e.readBack d, ts)
  conjunct : 2 ≤ e.rank → ∀ ts, LooserThan 3 ts →
    readAnd d (e.words d ++ ts) = readAnds d (e.readBack d) ts
  conjuncts : 2 ≤ e.rank → ∀ f ts, LooserThan 3 ts →
    readAnds d f (kw .and :: (e.words d ++ ts)) = readAnds d (f.appendAnd (e.readBack d)) ts
  disjunct : ∀ ts, LooserThan 2 ts → readOr d (e.words d ++ ts) = readOrs d (e.readBack d) ts
  disjuncts : ∀ f ts, LooserThan 2 ts →
    readOrs d f (kw .or :: (e.words d ++ ts)) = readOrs d (f.appendOr (e.readBack d)) ts

namespace Expr

variable {d : Dialect}

/-- The whole expression is read where nothing continues it. -/
theorem ReadsBack.whole {e : Expr} (reads : e.ReadsBack d) {ts : List Token} (looser : LooserThan 1 ts) :
    readOr d (e.words d ++ ts) = some (e.readBack d, ts) := by
  rw [reads.disjunct ts (looser.mono (by decide)), readOrs_stop d _ looser]

/-- In parentheses, an expression is an operand. -/
theorem ReadsBack.parenthesized {e : Expr} (reads : e.ReadsBack d) (ts : List Token) :
    readOperand d (.openParen :: (e.words d ++ .closeParen :: ts)) = some (e.readBack d, ts) := by
  have inner : readOr d (e.words d ++ .closeParen :: ts) = some (e.readBack d, .closeParen :: ts) :=
    reads.whole (by simp [Token.grip])
  simp [readOperand, inner]

/-- What is read as a conjunct is read as a disjunct. -/
theorem ReadsBack.ofConjunct {e : Expr} (rank : e.rank = 2)
    (conjunct : ∀ ts, LooserThan 3 ts → readAnd d (e.words d ++ ts) = readAnds d (e.readBack d) ts)
    (conjuncts : ∀ f ts, LooserThan 3 ts →
      readAnds d f (kw .and :: (e.words d ++ ts)) = readAnds d (f.appendAnd (e.readBack d)) ts) :
    e.ReadsBack d := by
  have stop : ∀ ts, LooserThan 2 ts → readAnd d (e.words d ++ ts) = some (e.readBack d, ts) := by
    intro ts looser
    rw [conjunct ts (looser.mono (by decide)), readAnds_stop d _ looser]
  refine ⟨by omega, by omega, fun _ => conjunct, fun _ => conjuncts, ?_, ?_⟩
  · intro ts looser
    simp [readOr, stop ts looser]
  · intro f ts looser
    rw [appendOr_of_rank (by simp [rank])]
    simp [readOrs, stop ts looser]

/-- What is read as a negation is read as a conjunct and a disjunct. -/
theorem ReadsBack.ofNegation {e : Expr} (rank : 3 ≤ e.rank)
    (operand : e.rank = 5 → ∀ ts, readOperand d (e.words d ++ ts) = some (e.readBack d, ts))
    (negation : ∀ ts, LooserThan 3 ts → readNot d (e.words d ++ ts) = some (e.readBack d, ts)) :
    e.ReadsBack d := by
  have conjunct : ∀ ts, LooserThan 3 ts → readAnd d (e.words d ++ ts) = readAnds d (e.readBack d) ts := by
    intro ts looser
    simp [readAnd, negation ts looser]
  have stop : ∀ ts, LooserThan 2 ts → readAnd d (e.words d ++ ts) = some (e.readBack d, ts) := by
    intro ts looser
    rw [conjunct ts (looser.mono (by decide)), readAnds_stop d _ looser]
  refine ⟨operand, fun _ => negation, fun _ => conjunct, ?_, ?_, ?_⟩
  · intro _ f ts looser
    rw [appendAnd_of_rank (by rw [rank_readBack]; omega)]
    simp [readAnds, negation ts looser]
  · intro ts looser
    simp [readOr, stop ts looser]
  · intro f ts looser
    rw [appendOr_of_rank (by rw [rank_readBack]; omega)]
    simp [readOrs, stop ts looser]

/-- An operand is read as a predicate that tests nothing. -/
theorem ReadsBack.ofOperand {e : Expr} (rank : e.rank = 5)
    (operand : ∀ ts, readOperand d (e.words d ++ ts) = some (e.readBack d, ts)) : e.ReadsBack d := by
  refine .ofNegation (by omega) (fun _ => operand) fun ts looser => ?_
  rw [readNot_eq d (operand ts), readTest_stop d _ looser]

/-- A test of an operand is read as a predicate. -/
theorem ReadsBack.ofTest {e : Expr} (tested : Expr) (test : List Token) (rank : e.rank = 4)
    (spelled : ∀ ts, e.words d ++ ts = tested.words d ++ (test ++ ts)) (reads : tested.ReadsBack d)
    (isOperand : tested.rank = 5)
    (testReads : ∀ ts, readTest d (tested.readBack d) (test ++ ts) = some (e.readBack d, ts)) :
    e.ReadsBack d := by
  refine .ofNegation (by omega) (by omega) fun ts _ => ?_
  rw [spelled, readNot_eq d (reads.operand isOperand _), testReads]

/-! ### One lemma for each constructor -/

theorem readsBack_of_isAtom {e : Expr} (atom : e.IsAtom) : e.ReadsBack d := by
  cases e with
  | column qualifier name =>
      cases qualifier with
      | none => contradiction
      | some qualifier =>
          refine .ofOperand rfl fun ts => ?_
          simp [Expr.words, tokens, qualifierTokens, Token.isLayout, readOperand, readBack]
  | literal value =>
      refine .ofOperand rfl fun ts => ?_
      simp [Expr.words, tokens, Token.isLayout, readOperand, readBack]
  | param value =>
      refine .ofOperand rfl fun ts => ?_
      simp [Expr.words, tokens, Token.isLayout, readOperand, readBack]
  | _ => contradiction

/-- Only a disjunction needs parentheses under AND, and nothing does under OR. -/
theorem parenthesizes_and (isRight : Bool) (e : Expr) :
    BinaryOp.and.parenthesizes isRight e = (e.rank == 1) := by
  cases e with
  | binary op left right => cases op <;> cases isRight <;> rfl
  | existsQuery query negated => cases negated <;> rfl
  | _ => rfl

theorem parenthesizes_or (isRight : Bool) (e : Expr) : BinaryOp.or.parenthesizes isRight e = false := by
  cases e with
  | binary op left right => cases op <;> cases isRight <;> rfl
  | _ => rfl

/-- An operand needs no parentheses. -/
theorem parenthesizes_of_rank {op : BinaryOp} {isRight : Bool} {e : Expr} (rank : e.rank = 5) :
    op.parenthesizes isRight e = false := by
  cases e with
  | binary operator left right => cases operator <;> simp [Expr.rank] at rank
  | _ => rfl

/-- The words of an operand of AND. -/
def conjunctWords (d : Dialect) (e : Expr) : List Token :=
  RelQuery.Sql.words (parenthesizedIf (e.rank == 1) (e.tokens d))

/-- An operand of AND is read whether it stands in parentheses or not. -/
theorem ReadsBack.conjunctWords {e : Expr} (reads : e.ReadsBack d) (ts : List Token)
    (looser : LooserThan 3 ts) :
    readAnd d (Expr.conjunctWords d e ++ ts) = readAnds d (e.readBack d) ts ∧
      ∀ f, readAnds d f (kw .and :: (Expr.conjunctWords d e ++ ts)) =
        readAnds d (f.appendAnd (e.readBack d)) ts := by
  by_cases disjunction : e.rank = 1
  · have spelled : Expr.conjunctWords d e ++ ts = .openParen :: (e.words d ++ .closeParen :: ts) := by
      simp [Expr.conjunctWords, disjunction, parenthesizedIf, Expr.words]
    have negation : readNot d (Expr.conjunctWords d e ++ ts) = some (e.readBack d, ts) := by
      rw [spelled, readNot_eq d (reads.parenthesized ts), readTest_stop d _ looser]
    refine ⟨by simp [readAnd, negation], fun f => ?_⟩
    rw [appendAnd_of_rank (by simp [disjunction])]
    simp [readAnds, negation]
  · have spelled : Expr.conjunctWords d e = e.words d := by
      simp [Expr.conjunctWords, disjunction, parenthesizedIf, Expr.words]
    have rank : 2 ≤ e.rank := by
      cases e with
      | binary op left right => cases op <;> simp_all [Expr.rank]
      | existsQuery query negated => cases negated <;> simp [Expr.rank]
      | _ => simp [Expr.rank]
    rw [spelled]
    exact ⟨reads.conjunct rank ts looser, fun f => reads.conjuncts rank f ts looser⟩

theorem ReadsBack.and {left right : Expr} (readsLeft : left.ReadsBack d) (readsRight : right.ReadsBack d) :
    (Expr.binary .and left right).ReadsBack d := by
  have spelled : ∀ ts, (Expr.binary .and left right).words d ++ ts =
      Expr.conjunctWords d left ++ kw .and :: (Expr.conjunctWords d right ++ ts) := by
    intro ts
    simp [Expr.words, Expr.conjunctWords, tokens, parenthesizes_and, BinaryOp.token, Token.isLayout]
  have follows : ∀ ts, LooserThan 3 (kw .and :: ts) := fun ts => by simp [Token.grip]
  refine .ofConjunct rfl ?_ ?_
  · intro ts looser
    rw [spelled, (readsLeft.conjunctWords _ (follows _)).1, (readsRight.conjunctWords ts looser).2]
    rfl
  · intro f ts looser
    rw [spelled, (readsLeft.conjunctWords _ (follows _)).2, (readsRight.conjunctWords ts looser).2,
      ← appendAnd_assoc]
    rfl

theorem ReadsBack.or {left right : Expr} (readsLeft : left.ReadsBack d) (readsRight : right.ReadsBack d) :
    (Expr.binary .or left right).ReadsBack d := by
  have spelled : ∀ ts, (Expr.binary .or left right).words d ++ ts =
      left.words d ++ kw .or :: (right.words d ++ ts) := by
    intro ts
    simp [Expr.words, tokens, parenthesizes_or, parenthesizedIf, BinaryOp.token, Token.isLayout]
  have follows : ∀ ts, LooserThan 2 (kw .or :: ts) := fun ts => by simp [Token.grip]
  have small : (Expr.binary .or left right).rank = 1 := rfl
  refine ⟨by omega, by omega, by omega, by omega, ?_, ?_⟩
  · intro ts looser
    rw [spelled, readsLeft.disjunct _ (follows _), readsRight.disjuncts _ ts looser]
    rfl
  · intro f ts looser
    rw [spelled, readsLeft.disjuncts _ _ (follows _), readsRight.disjuncts _ ts looser, ← appendOr_assoc]
    rfl

theorem ReadsBack.not {operand : Expr} (reads : operand.ReadsBack d) : (Expr.not operand).ReadsBack d := by
  refine .ofNegation (by simp [Expr.rank]) (by simp [Expr.rank]) fun ts looser => ?_
  cases wraps : operand.isBinary with
  | true =>
      have spelled : (Expr.not operand).words d ++ ts =
          kw .not :: .openParen :: (operand.words d ++ .closeParen :: ts) := by
        simp [Expr.words, tokens, wraps, parenthesizedIf, Token.isLayout]
      have inner : readNot d (.openParen :: (operand.words d ++ .closeParen :: ts)) =
          some (operand.readBack d, ts) := by
        rw [readNot_eq d (reads.parenthesized ts), readTest_stop d _ looser]
      rw [spelled, readNot, inner]
      rfl
  | false =>
      have spelled : (Expr.not operand).words d ++ ts = kw .not :: (operand.words d ++ ts) := by
        simp [Expr.words, tokens, wraps, parenthesizedIf, Token.isLayout]
      have rank : 3 ≤ operand.rank := by
        cases operand with
        | binary op left right => contradiction
        | existsQuery query negated => cases negated <;> simp [Expr.rank]
        | _ => simp [Expr.rank]
      rw [spelled, readNot, reads.negation rank ts looser]
      rfl

theorem ReadsBack.compare {operator : Comparison} {left right : Expr} (readsLeft : left.ReadsBack d)
    (readsRight : right.ReadsBack d) (isLeft : left.rank = 5) (isRight : right.rank = 5) :
    (Expr.binary (.compare operator) left right).ReadsBack d := by
  refine .ofTest left (.comparison operator :: right.words d) rfl (fun ts => ?_) readsLeft isLeft
    fun ts => ?_
  · simp [Expr.words, tokens, parenthesizes_of_rank isLeft, parenthesizes_of_rank isRight, parenthesizedIf,
      BinaryOp.token, Token.isLayout]
  · simp [readTest, readsRight.operand isRight ts]
    rfl

theorem rank_of_isAtom {e : Expr} (atom : e.IsAtom) : e.rank = 5 := by
  cases e <;> first | rfl | contradiction

theorem readsBack_isNull {operand : Expr} (negated : Bool) (atom : operand.IsAtom) :
    (Expr.isNull operand negated).ReadsBack d := by
  refine .ofTest operand [kw (if negated then .isNotNull else .isNull)] rfl (fun ts => ?_)
    (readsBack_of_isAtom atom) (rank_of_isAtom atom) fun ts => ?_
  · simp [Expr.words, tokens, Token.isLayout]
  · rw [readBack_of_isAtom d atom]
    cases negated <;> simp [readTest, readBack]

theorem readsBack_likeEscape {operand pattern : Expr} (escape : Char) (negated : Bool)
    (atom : operand.IsAtom) (simple : pattern.IsAtom) :
    (Expr.likeEscape operand pattern escape negated).ReadsBack d := by
  have patternReads : ∀ ts, readPattern d operand negated (pattern.words d ++
      kw .escape :: .literal (.text (String.singleton escape)) :: ts) =
        some (.likeEscape operand pattern escape negated, ts) := by
    intro ts
    have read := (readsBack_of_isAtom (d := d) simple).operand (rank_of_isAtom simple)
    simp [readPattern, read, readBack_of_isAtom d simple]
  refine .ofTest operand ((if negated then [kw .not] else []) ++ kw .like :: (pattern.words d ++
      [kw .escape, .literal (.text (String.singleton escape))])) rfl (fun ts => ?_)
    (readsBack_of_isAtom atom) (rank_of_isAtom atom) fun ts => ?_
  · cases negated <;> simp [Expr.words, tokens, notBefore, Token.isLayout]
  · rw [readBack_of_isAtom d atom]
    cases negated <;> simp [readTest, patternReads, readBack]

/-- A column or a value is read where nothing continues it. -/
theorem readOr_of_isAtom {e : Expr} (atom : e.IsAtom) {ts : List Token} (looser : LooserThan 1 ts) :
    readOr d (e.words d ++ ts) = some (e, ts) := by
  rw [(readsBack_of_isAtom atom).whole looser, readBack_of_isAtom d atom]

/-- An atom begins with neither a parenthesis nor a keyword. -/
theorem head_of_isAtom (d : Dialect) {e : Expr} (atom : e.IsAtom) :
    ∃ t more, e.words d = t :: more ∧ t ≠ .openParen ∧ ∀ word, t ≠ kw word := by
  cases e with
  | column qualifier name =>
      cases qualifier with
      | none => contradiction
      | some qualifier =>
          exact ⟨.identifier qualifier, [.dot, .identifier name], rfl, by simp⟩
  | literal value => exact ⟨.literal value, [], rfl, by simp⟩
  | param value => exact ⟨.param value, [], rfl, by simp⟩
  | _ => contradiction

/-- Values with commas between them are read one by one. -/
theorem readValues_words {value : Expr} {values : List Expr} (atoms : ∀ e ∈ value :: values, e.IsAtom)
    (ts : List Token) :
    readValues d (RelQuery.Sql.words (commaSeparated (value.tokens d :: tokensOfEach d values)) ++
      .closeParen :: ts) = some (value :: values, .closeParen :: ts) := by
  induction values generalizing value with
  | nil =>
      have atom := atoms value (by simp)
      have read : readOr d (value.words d ++ .closeParen :: ts) = some (value, .closeParen :: ts) :=
        readOr_of_isAtom atom (by simp [Token.grip])
      rw [Expr.words] at read
      rw [readValues, tokensOfEach, words_commaSeparated_singleton]
      simp [read]
  | cons next values ih =>
      have atom := atoms value (by simp)
      have read : ∀ ts, readOr d (value.words d ++ .comma :: ts) = some (value, .comma :: ts) := fun ts =>
        readOr_of_isAtom atom (by simp [Token.grip])
      simp only [Expr.words] at read
      rw [readValues, tokensOfEach, words_commaSeparated_cons, List.append_assoc, List.cons_append, read]
      simp [ih fun e member => atoms e (List.mem_cons_of_mem _ member)]

theorem readsBack_inList {operand : Expr} {values : List Expr} (negated : Bool) (atom : operand.IsAtom)
    (atoms : ∀ value ∈ values, value.IsAtom) : (Expr.inList operand values negated).ReadsBack d := by
  cases values with
  | nil =>
      -- Membership in the empty list is spelled as the comparison of two constants.
      refine .ofTest (Expr.int 1) [.comparison .eq, .literal (.int (if negated then 1 else 0))] rfl
        (fun ts => ?_)
        (readsBack_of_isAtom trivial) rfl fun ts => ?_
      · simp [Expr.words, tokens, constantTokens, Expr.int, Token.isLayout]
      · simp [readTest, readOperand, readBack, Expr.int, Expr.eq]
  | cons value values =>
      obtain ⟨t, more, begins, -, noKeyword⟩ := head_of_isAtom d (atoms value (by simp))
      have membersRead : ∀ ts, readMembers d operand negated (.openParen ::
          (RelQuery.Sql.words (commaSeparated (value.tokens d :: tokensOfEach d values)) ++
            .closeParen :: ts)) = some (.inList operand (value :: values) negated, ts) := by
        intro ts
        have read := readValues_words (d := d) atoms ts
        obtain ⟨rest, spelled⟩ :=
          words_commaSeparated_begins _ (tokensOfEach d values) begins
        rw [spelled] at read ⊢
        rw [List.cons_append] at read ⊢
        rw [readMembers.eq_2 _ _ _ _ fun ts same => noKeyword .select (List.cons.inj same).1, read]
        simp
      refine .ofTest operand ((if negated then [kw .not] else []) ++ kw .in :: .openParen ::
          (RelQuery.Sql.words (commaSeparated (value.tokens d :: tokensOfEach d values)) ++
            [.closeParen])) rfl (fun ts => ?_)
        (readsBack_of_isAtom atom) (rank_of_isAtom atom) fun ts => ?_
      · cases negated <;> simp [Expr.words, tokens, notBefore, Token.isLayout]
      · rw [readBack_of_isAtom d atom]
        cases negated <;> simp [readTest, membersRead, readBack]

/-- The branches of a case distinction are read back in front of ELSE. -/
def BranchesReadBack (d : Dialect) (branches : List (Expr × Expr)) : Prop :=
  ∀ ts, readBranches d (RelQuery.Sql.words (tokensOfBranches d branches) ++ kw .else :: ts) =
    some (readBackBranches d branches, kw .else :: ts)

theorem branchesReadBack_nil : BranchesReadBack d [] := by
  intro ts
  simp [tokensOfBranches, readBranches, readBackBranches]

theorem BranchesReadBack.cons {condition result : Expr} {branches : List (Expr × Expr)}
    (reads : condition.ReadsBack d) (atom : result.IsAtom) (others : BranchesReadBack d branches) :
    BranchesReadBack d ((condition, result) :: branches) := by
  intro ts
  have follows : LooserThan 1 (RelQuery.Sql.words (tokensOfBranches d branches) ++ kw .else :: ts) := by
    cases branches with
    | nil => simp [tokensOfBranches, Token.grip]
    | cons branch branches => simp [tokensOfBranches, Token.grip, Token.isLayout]
  have readCondition : ∀ ts, readOr d (RelQuery.Sql.words (condition.tokens d) ++ kw .then :: ts) =
      some (condition.readBack d, kw .then :: ts) := fun ts => reads.whole (by simp [Token.grip])
  have readResult : readOr d (RelQuery.Sql.words (result.tokens d) ++
      (RelQuery.Sql.words (tokensOfBranches d branches) ++ kw .else :: ts)) =
        some (result, RelQuery.Sql.words (tokensOfBranches d branches) ++ kw .else :: ts) :=
    readOr_of_isAtom atom follows
  simp [tokensOfBranches, Token.isLayout, readBranches, readCondition, readResult, others ts, readBackBranches]

theorem BranchesReadBack.caseWhen {branches : List (Expr × Expr)} {otherwise : Expr}
    (reads : BranchesReadBack d branches) (atom : otherwise.IsAtom) :
    (Expr.caseWhen none branches (some otherwise)).ReadsBack d := by
  refine .ofOperand rfl fun ts => ?_
  have readOtherwise : readOr d (RelQuery.Sql.words (otherwise.tokens d) ++ kw .end :: ts) =
      some (otherwise, kw .end :: ts) :=
    readOr_of_isAtom atom (by simp [Token.grip])
  simp [Expr.words, tokens, Token.isLayout, readOperand, reads _, readOtherwise, readBack]

end Expr

end RelQuery.Sql
