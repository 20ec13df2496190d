/-
Module: RelQuery.Proofs.Sql.DecodeExpr
Purpose: The words of an expression decode to its written form, constructor by constructor: in front of what
  holds on to it no more tightly than it holds together, the decoder goes on from the written form. Lists
  and queries inside expressions are left to their own decoders.
Main exports: Expr.Decodes, Expr.Decodes.whole, Expr.Decodes.and, Expr.Decodes.or, Expr.Decodes.not,
  Expr.Decodes.compare, Expr.Decodes.like
-/
import RelQuery.Proofs.Sql.Decoder

namespace RelQuery.Sql

open Dialect

/-! ### What follows an expression -/

@[simp] theorem pull_cons (t : Token) (ts : List Token) : pull (t :: ts) = t.pull := rfl

@[simp] theorem begins_cons (t : Token) (ts : List Token) : begins (t :: ts) = t.begins := rfl

/-- Nothing holds on to an expression as tightly as a negation holds together. -/
theorem pull_ne_three (ts : List Token) : pull ts ≠ 3 := by
  cases ts with
  | nil => exact Nat.succ_ne_zero 2 ∘ Eq.symm
  | cons t ts =>
      rw [pull_cons]
      unfold Token.pull
      split <;> decide

section

variable {d : Dialect} {n : Nat} {e : Expr} {ts : List Token}

theorem decodeRest_stop (looser : pull ts < n) : decodeRest d n e ts = some (e, ts) := by
  unfold decodeRest
  rw [if_pos looser]

/-- An operator that holds on tightly enough is read. -/
theorem decodeRest_or {f : Expr} {rest : List Token} (le : n ≤ 1)
    (read : decodeExpr d 2 ts = some (f, rest)) :
    decodeRest d n e (kw .or :: ts) = decodeRest d n (e.or f) rest := by
  simp [decodeRest, Token.pull, Nat.not_lt.2 le, read]

theorem decodeRest_and {f : Expr} {rest : List Token} (le : n ≤ 2)
    (read : decodeExpr d 3 ts = some (f, rest)) :
    decodeRest d n e (kw .and :: ts) = decodeRest d n (e.and f) rest := by
  simp [decodeRest, Token.pull, Nat.not_lt.2 le, read]

theorem decodeRest_comparison {f : Expr} {rest : List Token} (le : n ≤ 4) (operator : Comparison)
    (read : decodeExpr d 5 ts = some (f, rest)) :
    decodeRest d n e (.comparison operator :: ts) = decodeRest d n (.compared operator e f) rest := by
  simp [decodeRest, Token.pull, Nat.not_lt.2 le, read]

theorem decodeRest_isNull (le : n ≤ 4) (negated : Bool) :
    decodeRest d n e (kw (if negated then .isNotNull else .isNull) :: ts) =
      decodeRest d n (.isNull e negated) ts := by
  cases negated <;> simp [decodeRest, Token.pull, Nat.not_lt.2 le]

/-- The NOT of a negated operator, without a blank. -/
def notWords (negated : Bool) : List Token := if negated then [kw .not] else []

theorem words_notBefore (negated : Bool) : words (notBefore negated) = notWords negated := by
  cases negated <;> rfl

theorem decodeRest_in {f : Expr} {rest : List Token} (le : n ≤ 4) (negated : Bool)
    (read : decodeMembers d e negated ts = some (f, rest)) :
    decodeRest d n e (notWords negated ++ kw .in :: ts) = decodeRest d n f rest := by
  cases negated <;> simp [notWords, decodeRest, Token.pull, Nat.not_lt.2 le, read]

theorem decodeRest_like {f : Expr} {rest : List Token} (le : n ≤ 4) (negated : Bool)
    (read : decodePattern d e negated ts = some (f, rest)) :
    decodeRest d n e (notWords negated ++ kw .like :: ts) = decodeRest d n f rest := by
  cases negated <;> simp [notWords, decodeRest, Token.pull, Nat.not_lt.2 le, read]

/-- What begins with an operand does not begin with NOT. -/
theorem decodeExpr_of_operand {rest : List Token} (read : decodeOperand d ts = some (e, rest)) :
    decodeExpr d n ts = decodeRest d n e rest := by
  unfold decodeExpr
  split
  · simp [decodeOperand] at read
  · rw [read]
    rfl

/-- What is read as an expression begins as one. -/
theorem begins_of_decodeExpr {result : Expr × List Token} (read : decodeExpr d n ts = some result) :
    begins ts = true := by
  unfold decodeExpr at read
  split at read
  · rfl
  · unfold decodeOperand at read
    split at read <;> first | rfl | simp at read

end

/-! ### Expressions -/

/-- What the decoder makes of the words of an expression. In front of what holds on to it no more tightly
    than it holds together, the decoder goes on from its written form; behind AND and OR, it goes on from
    what has been read before with the conjuncts or disjuncts appended. -/
structure Expr.Decodes (d : Dialect) (e : Expr) : Prop where
  alone : ∀ n ts, n ≤ e.tightness → pull ts ≤ e.tightness →
    decodeExpr d n (e.words d ++ ts) = decodeRest d n (e.asWritten d) ts
  conjunct : 2 ≤ e.tightness → ∀ n f ts, n ≤ 2 → pull ts ≤ 2 →
    decodeRest d n f (kw .and :: (e.words d ++ ts)) = decodeRest d n (f.appendAnd (e.asWritten d)) ts
  disjunct : ∀ n f ts, n ≤ 1 → pull ts ≤ 1 →
    decodeRest d n f (kw .or :: (e.words d ++ ts)) = decodeRest d n (f.appendOr (e.asWritten d)) ts

namespace Expr

variable {d : Dialect}

theorem tightness_pos (e : Expr) : 1 ≤ e.tightness := by
  unfold tightness
  split <;> decide

/-- An expression is read where what follows holds on less tightly than is asked for. -/
theorem Decodes.tight {e : Expr} (decodes : e.Decodes d) {n : Nat} {ts : List Token} (le : n ≤ e.tightness)
    (looser : pull ts < n) : decodeExpr d n (e.words d ++ ts) = some (e.asWritten d, ts) := by
  rw [decodes.alone n ts le (Nat.le_trans (Nat.le_of_lt looser) le), decodeRest_stop looser]

/-- The whole expression is read where nothing continues it. -/
theorem Decodes.whole {e : Expr} (decodes : e.Decodes d) {ts : List Token} (ends : pull ts = 0) :
    decodeExpr d 1 (e.words d ++ ts) = some (e.asWritten d, ts) :=
  decodes.tight e.tightness_pos (by omega)

/-- An operand is read in front of an operator. -/
theorem Decodes.operand {e : Expr} (decodes : e.Decodes d) (tight : e.tightness = 5) {ts : List Token}
    (looser : pull ts ≤ 4) : decodeExpr d 5 (e.words d ++ ts) = some (e.asWritten d, ts) :=
  decodes.tight (Nat.le_of_eq tight.symm) (Nat.lt_succ_of_le looser)

theorem Decodes.begins {e : Expr} (decodes : e.Decodes d) {ts : List Token} (ends : pull ts = 0) :
    Sql.begins (e.words d ++ ts) = true :=
  begins_of_decodeExpr (decodes.whole ends)

/-- What is read as a conjunction is read behind OR. -/
theorem Decodes.ofConjunction {e : Expr} (tight : e.tightness = 2)
    (alone : ∀ n ts, n ≤ 2 → pull ts ≤ 2 →
      decodeExpr d n (e.words d ++ ts) = decodeRest d n (e.asWritten d) ts)
    (conjunct : ∀ n f ts, n ≤ 2 → pull ts ≤ 2 →
      decodeRest d n f (kw .and :: (e.words d ++ ts)) = decodeRest d n (f.appendAnd (e.asWritten d)) ts) :
    e.Decodes d := by
  refine ⟨by rwa [tight], fun _ => conjunct, fun n f ts le looser => ?_⟩
  have read : decodeExpr d 2 (e.words d ++ ts) = some (e.asWritten d, ts) := by
    rw [alone 2 ts (by decide) (by omega), decodeRest_stop (by omega)]
  rw [decodeRest_or le read, appendOr_of_tightness (by simp [tight])]

/-- What is read as a negation or a part of one is read behind AND and OR. -/
theorem Decodes.ofTight {e : Expr} (tight : 3 ≤ e.tightness)
    (alone : ∀ n ts, n ≤ e.tightness → pull ts ≤ e.tightness →
      decodeExpr d n (e.words d ++ ts) = decodeRest d n (e.asWritten d) ts) : e.Decodes d := by
  have read : ∀ n ts, n ≤ 3 → pull ts < n →
      decodeExpr d n (e.words d ++ ts) = some (e.asWritten d, ts) := by
    intro n ts le looser
    rw [alone n ts (by omega) (by omega), decodeRest_stop looser]
  refine ⟨alone, fun _ n f ts le looser => ?_, fun n f ts le looser => ?_⟩
  · rw [decodeRest_and le (read 3 ts (by decide) (by omega)), appendAnd_of_tightness]
    rw [tightness_asWritten]
    omega
  · rw [decodeRest_or le (read 2 ts (by decide) (by omega)), appendOr_of_tightness]
    rw [tightness_asWritten]
    omega

/-- An operand is read in front of anything but what goes on with its qualifier. -/
theorem Decodes.ofOperand {e : Expr} (tight : e.tightness = 5)
    (operand : ∀ ts, pull ts ≤ 5 → decodeOperand d (e.words d ++ ts) = some (e.asWritten d, ts)) :
    e.Decodes d := by
  refine .ofTight (by omega) fun n ts _ looser => ?_
  exact decodeExpr_of_operand (operand ts (by omega))

/-- A test is read from the expression that it tests and what is written behind it. -/
theorem Decodes.ofTest {e : Expr} (tested : Expr) (test : List Token) (tight : e.tightness = 4)
    (decodes : tested.Decodes d) (holds : 4 ≤ tested.tightness) (spelled : e.words d = tested.words d ++ test)
    (pulls : ∀ ts, pull (test ++ ts) = 4)
    (goesOn : ∀ n ts, n ≤ 4 → pull ts ≤ 4 →
      decodeRest d n (tested.asWritten d) (test ++ ts) = decodeRest d n (e.asWritten d) ts) :
    e.Decodes d := by
  refine .ofTight (by omega) fun n ts le looser => ?_
  rw [tight] at le looser
  rw [spelled, List.append_assoc, decodes.alone n (test ++ ts) (by omega) (by rw [pulls]; exact holds),
    goesOn n ts le looser]

/-! ### Operands -/

theorem decodes_column (qualifier : Option String) (name : String) :
    (Expr.column qualifier name).Decodes d := by
  refine .ofOperand rfl fun ts looser => ?_
  cases qualifier with
  | some qualifier => simp [Expr.words, tokens, qualifierTokens, Token.isLayout, decodeOperand, asWritten]
  | none =>
      have noDot : ∀ more, ts ≠ .dot :: more := by
        rintro more rfl
        simp [Token.pull] at looser
      have spelled : (Expr.column none name).words d = [.identifier name] := rfl
      rw [spelled, List.singleton_append, decodeOperand]
      · rfl
      · exact fun _ _ => noDot _
      · exact fun _ => noDot _

theorem decodes_star (qualifier : Option String) : (Expr.star qualifier).Decodes d := by
  refine .ofOperand rfl fun ts _ => ?_
  cases qualifier <;> simp [Expr.words, tokens, qualifierTokens, Token.isLayout, decodeOperand, asWritten]

theorem decodes_literal (value : Literal) : (Expr.literal value).Decodes d := by
  refine .ofOperand rfl fun ts _ => ?_
  simp [Expr.words, tokens, Token.isLayout, decodeOperand, asWritten]

theorem decodes_param (value : Literal) : (Expr.param value).Decodes d := by
  refine .ofOperand rfl fun ts _ => ?_
  simp [Expr.words, tokens, Token.isLayout, decodeOperand, asWritten]

/-- What begins an expression is no query. -/
theorem ne_select_of_begins {ts : List Token} (opens : Sql.begins ts = true) (more : List Token) :
    ts ≠ kw .select :: more := by
  rintro rfl
  simp [Token.begins] at opens

/-- In parentheses, an expression is an operand. -/
theorem Decodes.paren {e : Expr} (decodes : e.Decodes d) : (Expr.paren e).Decodes d := by
  refine .ofOperand rfl fun ts _ => ?_
  have ends : pull (.closeParen :: ts) = 0 := rfl
  have spelled : (Expr.paren e).words d ++ ts = .openParen :: (e.words d ++ .closeParen :: ts) := by
    simp [Expr.words, tokens]
  rw [spelled, decodeOperand]
  · simp [decodes.whole ends, asWritten]
  · exact ne_select_of_begins (decodes.begins ends)

/-- An operand is read whether it stands in parentheses or not. -/
theorem Decodes.guarded {e : Expr} (decodes : e.Decodes d) (wrap : Bool) : (e.guarded wrap).Decodes d := by
  cases wrap with
  | false => exact decodes
  | true => exact decodes.paren

/-! ### Operations -/

/-- The words of an operation are those of its operands in their parentheses. -/
theorem words_binary (op : BinaryOp) (left right : Expr) :
    (Expr.binary op left right).words d =
      (left.guarded (op.parenthesizes false left)).words d ++
        op.token :: (right.guarded (op.parenthesizes true right)).words d := by
  cases op <;> simp [Expr.words, tokens, BinaryOp.token, Token.isLayout]

/-- An operand of AND holds together as a conjunct. -/
theorem tightness_conjunct (isRight : Bool) (e : Expr) :
    2 ≤ (e.guarded (BinaryOp.and.parenthesizes isRight e)).tightness := by
  rw [parenthesizes_and, tightness_guarded]
  cases e with
  | binary op left right => cases op <;> simp [rank, tightness]
  | existsQuery query negated => cases negated <;> simp [rank, tightness]
  | _ => simp [rank, tightness]

theorem Decodes.and {left right : Expr} (decodesLeft : left.Decodes d) (decodesRight : right.Decodes d) :
    (Expr.binary .and left right).Decodes d := by
  have first := decodesLeft.guarded (BinaryOp.and.parenthesizes false left)
  have second := decodesRight.guarded (BinaryOp.and.parenthesizes true right)
  have firstTight := tightness_conjunct false left
  have secondTight := tightness_conjunct true right
  have spelled : ∀ ts, (Expr.binary .and left right).words d ++ ts =
      (left.guarded (BinaryOp.and.parenthesizes false left)).words d ++
        kw .and :: ((right.guarded (BinaryOp.and.parenthesizes true right)).words d ++ ts) := by
    intro ts
    rw [words_binary, List.append_assoc]
    rfl
  have written : (Expr.binary .and left right).asWritten d =
      ((left.guarded (BinaryOp.and.parenthesizes false left)).asWritten d).appendAnd
        ((right.guarded (BinaryOp.and.parenthesizes true right)).asWritten d) := by
    rw [asWritten_guarded, asWritten_guarded]
    rfl
  refine .ofConjunction rfl (fun n ts le looser => ?_) fun n f ts le looser => ?_
  · rw [spelled, first.alone n (kw .and :: _) (Nat.le_trans le firstTight) firstTight, written,
      second.conjunct secondTight n _ ts le looser]
  · rw [spelled, first.conjunct firstTight n f (kw .and :: _) le (Nat.le_refl 2), written,
      second.conjunct secondTight n _ ts le looser, appendAnd_assoc]

theorem Decodes.or {left right : Expr} (decodesLeft : left.Decodes d) (decodesRight : right.Decodes d) :
    (Expr.binary .or left right).Decodes d := by
  have first := decodesLeft.guarded (BinaryOp.or.parenthesizes false left)
  have second := decodesRight.guarded (BinaryOp.or.parenthesizes true right)
  have firstTight := tightness_pos (left.guarded (BinaryOp.or.parenthesizes false left))
  have spelled : ∀ ts, (Expr.binary .or left right).words d ++ ts =
      (left.guarded (BinaryOp.or.parenthesizes false left)).words d ++
        kw .or :: ((right.guarded (BinaryOp.or.parenthesizes true right)).words d ++ ts) := by
    intro ts
    rw [words_binary, List.append_assoc]
    rfl
  have written : (Expr.binary .or left right).asWritten d =
      ((left.guarded (BinaryOp.or.parenthesizes false left)).asWritten d).appendOr
        ((right.guarded (BinaryOp.or.parenthesizes true right)).asWritten d) := by
    rw [asWritten_guarded, asWritten_guarded]
    rfl
  have loose : (Expr.binary .or left right).tightness = 1 := rfl
  refine ⟨fun n ts le looser => ?_, by omega, fun n f ts le looser => ?_⟩
  · rw [spelled, first.alone n (kw .or :: _) (Nat.le_trans le firstTight) firstTight, written,
      second.disjunct n _ ts le looser]
  · rw [spelled, first.disjunct n f (kw .or :: _) le (Nat.le_refl 1), written,
      second.disjunct n _ ts le looser, appendOr_assoc]

/-- What is negated holds together at least as a negation. -/
theorem tightness_negated (e : Expr) : 3 ≤ (e.guarded e.isBinary).tightness := by
  rw [tightness_guarded]
  cases e with
  | existsQuery query negated => cases negated <;> simp [isBinary, tightness]
  | _ => simp [isBinary, tightness]

theorem Decodes.not {operand : Expr} (decodes : operand.Decodes d) : (Expr.not operand).Decodes d := by
  have inner := decodes.guarded operand.isBinary
  refine .ofTight (Nat.le_refl 3) fun n ts le looser => ?_
  have looser : pull ts < 3 := Nat.lt_of_le_of_ne looser (pull_ne_three ts)
  have spelled : (Expr.not operand).words d = kw .not :: (operand.guarded operand.isBinary).words d := by
    simp [Expr.words, tokens, Token.isLayout]
  rw [spelled, List.cons_append, decodeExpr, inner.tight (tightness_negated operand) looser,
    asWritten_guarded]
  rfl

theorem Decodes.compare {operator : Comparison} {left right : Expr} (decodesLeft : left.Decodes d)
    (decodesRight : right.Decodes d) (apart : (BinaryOp.compare operator).Separates left right) :
    (Expr.binary (.compare operator) left right).Decodes d := by
  have first := decodesLeft.guarded ((BinaryOp.compare operator).parenthesizes false left)
  have second := decodesRight.guarded ((BinaryOp.compare operator).parenthesizes true right)
  refine .ofTest _ _ rfl first apart.1 (words_binary _ left right) (fun _ => rfl) fun n ts le looser => ?_
  rw [List.cons_append, BinaryOp.token, decodeRest_comparison le operator (second.operand apart.2 looser),
    asWritten_guarded, asWritten_guarded]
  rfl

/-! ### Patterns -/

/-- A pattern is read in front of anything but an escape character. -/
theorem Decodes.decodePattern {pattern : Expr} (decodes : pattern.Decodes d) (tight : pattern.tightness = 5)
    (e : Expr) {ts : List Token} (looser : pull ts ≤ 4) :
    decodePattern d e false (pattern.words d ++ ts) = some (.binary .like e (pattern.asWritten d), ts) := by
  have noEscape : ∀ more, ts ≠ kw .escape :: more := by
    rintro more rfl
    simp [Token.pull] at looser
  rw [Dialect.decodePattern, decodes.operand tight looser]
  simp only [Option.bind_eq_bind, Option.bind_some]
  split
  · exact absurd rfl (noEscape _)
  · rfl

/-- A pattern is read together with its escape character. -/
theorem Decodes.decodePattern_escape {pattern : Expr} (decodes : pattern.Decodes d)
    (tight : pattern.tightness = 5) (e : Expr) (negated : Bool) (escape : Char) (ts : List Token) :
    Dialect.decodePattern d e negated (pattern.words d ++
        kw .escape :: .literal (.text (String.singleton escape)) :: ts) =
      some (.likeEscape e (pattern.asWritten d) escape negated, ts) := by
  have read := decodes.alone 5 (kw .escape :: .literal (.text (String.singleton escape)) :: ts)
    (Nat.le_of_eq tight.symm) (Nat.le_of_eq tight.symm)
  simp [Dialect.decodePattern, read, decodeRest, Token.pull]

theorem Decodes.like {left right : Expr} (decodesLeft : left.Decodes d) (decodesRight : right.Decodes d)
    (apart : BinaryOp.like.Separates left right) : (Expr.binary .like left right).Decodes d := by
  have first := decodesLeft.guarded (BinaryOp.like.parenthesizes false left)
  have second := decodesRight.guarded (BinaryOp.like.parenthesizes true right)
  refine .ofTest _ _ rfl first apart.1 (words_binary _ left right) (fun _ => rfl) fun n ts le looser => ?_
  have goesOn := decodeRest_like le false (second.decodePattern apart.2
    ((left.guarded (BinaryOp.like.parenthesizes false left)).asWritten d) looser)
  rw [asWritten_guarded, asWritten_guarded] at goesOn
  rw [asWritten_guarded]
  exact goesOn

theorem Decodes.likeEscape {operand pattern : Expr} (escape : Char) (negated : Bool)
    (decodes : operand.Decodes d) (holds : 4 ≤ operand.tightness) (decodesPattern : pattern.Decodes d)
    (tight : pattern.tightness = 5) : (Expr.likeEscape operand pattern escape negated).Decodes d := by
  refine .ofTest operand (notWords negated ++ kw .like :: (pattern.words d ++
    [kw .escape, .literal (.text (String.singleton escape))])) rfl decodes holds ?_ (fun ts => ?_)
    fun n ts le _ => ?_
  · simp [Expr.words, tokens, words_notBefore, Token.isLayout]
  · cases negated <;> rfl
  · have goesOn := decodeRest_like le negated (decodesPattern.decodePattern_escape tight
      (operand.asWritten d) negated escape ts)
    rw [asWritten, ← goesOn]
    simp

/-! ### Tests -/

theorem Decodes.isNull {operand : Expr} (negated : Bool) (decodes : operand.Decodes d)
    (holds : 4 ≤ operand.tightness) : (Expr.isNull operand negated).Decodes d := by
  refine .ofTest operand [kw (if negated then .isNotNull else .isNull)] rfl decodes holds ?_ (fun ts => ?_)
    fun n ts le _ => ?_
  · simp [Expr.words, tokens, Token.isLayout]
  · cases negated <;> rfl
  · exact decodeRest_isNull le negated

/-- A membership is read from the expression that it tests and the members behind IN. -/
theorem Decodes.ofMembers {e operand : Expr} (negated : Bool) (members : List Token) (tight : e.tightness = 4)
    (decodes : operand.Decodes d) (holds : 4 ≤ operand.tightness)
    (spelled : e.words d = operand.words d ++ (notWords negated ++ kw .in :: members))
    (reads : ∀ ts, decodeMembers d (operand.asWritten d) negated (members ++ ts) =
      some (e.asWritten d, ts)) : e.Decodes d := by
  refine .ofTest operand _ tight decodes holds spelled (fun ts => ?_) fun n ts le _ => ?_
  · cases negated <;> rfl
  · rw [← decodeRest_in le negated (reads ts), List.append_assoc]
    rfl

/-- A membership in the empty list is read from the comparison that stands for it. -/
theorem decodes_inList_nil (operand : Expr) (negated : Bool) : (Expr.inList operand [] negated).Decodes d := by
  have one : (Expr.int 1).Decodes d := decodes_literal (.int 1)
  have other : (Expr.int (if negated then 1 else 0)).Decodes d := decodes_literal _
  refine .ofTest (.int 1) (.comparison .eq :: (Expr.int (if negated then 1 else 0)).words d) rfl one
    (by decide) ?_ (fun _ => rfl) fun n ts le looser => ?_
  · simp [Expr.words, tokens, constantTokens, Expr.int, Token.isLayout]
  · have goesOn := decodeRest_comparison (e := .int 1) le .eq (other.operand rfl looser)
    rw [List.cons_append, asWritten, ← compared_constants]
    exact goesOn

end Expr

end RelQuery.Sql
