/-
Module: RelQuery.Proofs.Sql.DecodeList
Purpose: The words of a list decode to the written forms of its entries, whether it lists arguments, values,
  the items of a SELECT list or the terms of an ordering. With that, functions, memberships in lists and case
  distinctions decode to their written forms.
Main exports: Past, Entry.asWritten, decodeEntries_words, decodeList_words, Expr.Decodes.call,
  Expr.Decodes.inList, Expr.Decodes.caseWhen
-/
import RelQuery.Proofs.Sql.DecodeExpr
import RelQuery.Proofs.Sql.ReadQuery

namespace RelQuery.Sql

open Dialect

/-! ### What follows a list -/

/-- What follows begins with a later clause, or the query ends there. -/
def Past (n : Nat) (ts : List Token) : Prop := ∀ t ∈ ts.head?, n < t.stage

theorem Past.mono {m n : Nat} {ts : List Token} (past : Past n ts) (le : m ≤ n) : Past m ts :=
  fun t member => Nat.lt_of_le_of_lt le (past t member)

@[simp] theorem past_cons {n : Nat} {t : Token} {ts : List Token} : Past n (t :: ts) ↔ n < t.stage := by
  simp [Past]

/-- Neither does a clause hold on to the expression before it, nor can an expression begin with its keyword. -/
theorem Token.of_stage {t : Token} (later : 0 < t.stage) : t.pull = 0 ∧ t.begins = false := by
  unfold Token.stage at later
  split at later <;> first | exact ⟨rfl, rfl⟩ | exact absurd later (Nat.not_lt_zero 0)

theorem Past.pull {n : Nat} {ts : List Token} (past : Past n ts) : Sql.pull ts = 0 := by
  cases ts with
  | nil => rfl
  | cons t ts => exact (Token.of_stage (Nat.zero_lt_of_lt (past t rfl))).1

theorem Past.not_begins {n : Nat} {ts : List Token} (past : Past n ts) : Sql.begins ts = false := by
  cases ts with
  | nil => rfl
  | cons t ts => exact (Token.of_stage (Nat.zero_lt_of_lt (past t rfl))).2

/-- A keyword that begins no later clause does not follow. -/
theorem Past.apart {n : Nat} {ts : List Token} (past : Past n ts) {token : Token} (early : token.stage ≤ n) :
    ∀ t ∈ ts.head?, t ≠ token := by
  rintro t member rfl
  exact absurd (past t member) (Nat.not_lt.2 early)

/-! ### Entries -/

namespace Entry

/-- The tokens of an entry. -/
def tokens (d : Dialect) (entry : Entry) : List Token :=
  entry.expr.tokens d ++ aliasTokens entry.label ++ directionTokens entry.direction ++ nullsTokens entry.nulls

/-- The words behind the expression of an entry. -/
def tail (entry : Entry) : List Token :=
  words (aliasTokens entry.label) ++
    (words (directionTokens entry.direction) ++ words (nullsTokens entry.nulls))

/-- The written form of an entry. -/
def asWritten (d : Dialect) (entry : Entry) : Entry := { entry with expr := entry.expr.asWritten d }

end Entry

/-- What follows an entry is a comma, or what follows the list. -/
def EndsEntry (ts : List Token) : Prop := ∀ t ∈ ts.head?, t = .comma ∨ 0 < t.stage

theorem Past.endsEntry {n : Nat} {ts : List Token} (past : Past n ts) : EndsEntry ts :=
  fun t member => .inr (Nat.zero_lt_of_lt (past t member))

theorem endsEntry_comma (ts : List Token) : EndsEntry (.comma :: ts) := by simp [EndsEntry]

theorem EndsEntry.apart {ts : List Token} (ends : EndsEntry ts) (word : Keyword)
    (inside : (kw word).stage = 0) :
    ∀ t ∈ ts.head?, t ≠ kw word := by
  rintro t member rfl
  rcases ends _ member with same | later
  · contradiction
  · exact absurd inside (Nat.ne_of_gt later)

theorem EndsEntry.pull {ts : List Token} (ends : EndsEntry ts) : Sql.pull ts = 0 := by
  cases ts with
  | nil => rfl
  | cons t ts =>
      obtain rfl | later := ends t rfl
      · rfl
      · exact (Token.of_stage later).1

section

variable {d : Dialect} (entry : Entry) {ts : List Token}

/-- What stands behind the expression of an entry does not hold on to it. -/
theorem pull_tail (ends : EndsEntry ts) : pull (entry.tail ++ ts) = 0 := by
  obtain ⟨e, label, direction, nulls⟩ := entry
  rcases label with _ | label
  · rcases direction with _ | _ | _
    · rcases nulls with _ | _ | _
      · exact ends.pull
      · rfl
      · rfl
    · rfl
    · rfl
  · rfl

/-- The parts of an entry behind its expression are read one after the other. -/
theorem read_tail (ends : EndsEntry ts) :
    ∃ first second, readAlias (entry.tail ++ ts) = (entry.label, first) ∧
      readDirection first = (entry.direction, second) ∧ readNulls second = (entry.nulls, ts) := by
  refine ⟨words (directionTokens entry.direction) ++ (words (nullsTokens entry.nulls) ++ ts),
    words (nullsTokens entry.nulls) ++ ts, ?_, ?_, ?_⟩
  · rw [Entry.tail, List.append_assoc, List.append_assoc]
    refine readAlias_words entry.label ?_
    rcases entry.direction with _ | _ | _
    · rcases entry.nulls with _ | _ | _
      · exact ends.apart .as rfl
      · simp [directionTokens, nullsTokens, Token.isLayout]
      · simp [directionTokens, nullsTokens, Token.isLayout]
    · simp [directionTokens, Token.isLayout]
    · simp [directionTokens, Token.isLayout]
  · refine readDirection_words entry.direction ?_
    rcases entry.nulls with _ | _ | _
    · exact fun t member => ⟨ends.apart .asc rfl t member, ends.apart .desc rfl t member⟩
    · simp [nullsTokens, Token.isLayout]
    · simp [nullsTokens, Token.isLayout]
  · exact readNulls_words entry.nulls fun t member =>
      ⟨ends.apart .nullsFirst rfl t member, ends.apart .nullsLast rfl t member⟩

theorem Entry.words_tokens (d : Dialect) :
    words (entry.tokens d) = entry.expr.words d ++ entry.tail := by
  simp [Entry.tokens, Entry.tail, Expr.words]

/-- The last entry of a list. -/
theorem decodeEntries_last {entry : Entry} (decodes : entry.expr.Decodes d) (past : Past 0 ts) :
    decodeEntries d (words (entry.tokens d) ++ ts) = some ([entry.asWritten d], ts) := by
  obtain ⟨first, second, aliased, directed, placed⟩ := read_tail entry past.endsEntry
  have read := decodes.whole (pull_tail entry past.endsEntry)
  have noComma : ∀ more, ts ≠ .comma :: more := by
    rintro more rfl
    simp [Token.stage] at past
  rw [Entry.words_tokens, List.append_assoc, decodeEntries, read]
  simp only [Option.bind_eq_bind, Option.bind_some, aliased, directed, placed]
  rfl

/-- An entry in front of others. -/
theorem decodeEntries_comma {entry : Entry} {entries : List Entry} {rest : List Token}
    (decodes : entry.expr.Decodes d) (others : decodeEntries d ts = some (entries, rest)) :
    decodeEntries d (words (entry.tokens d) ++ .comma :: ts) = some (entry.asWritten d :: entries, rest) := by
  obtain ⟨first, second, aliased, directed, placed⟩ := read_tail entry (endsEntry_comma ts)
  have read := decodes.whole (pull_tail entry (endsEntry_comma ts))
  rw [Entry.words_tokens, List.append_assoc, decodeEntries, read]
  simp only [Option.bind_eq_bind, Option.bind_some, aliased, directed, placed, others]
  rfl

theorem begins_of_decodeEntries {result : List Entry × List Token} (read : decodeEntries d ts = some result) :
    begins ts = true := by
  rw [decodeEntries] at read
  obtain ⟨first, decoded, -⟩ := Option.bind_eq_some_iff.1 read
  exact begins_of_decodeExpr decoded

end

section

variable {d : Dialect} {ts : List Token}

/-- The words of a list. -/
def listWords (d : Dialect) (entries : List Entry) : List Token :=
  words (commaSeparated (entries.map (Entry.tokens d)))

/-- Entries are read one by one. -/
theorem decodeEntries_words {entry : Entry} {entries : List Entry}
    (decodes : ∀ x ∈ entry :: entries, x.expr.Decodes d) (past : Past 0 ts) :
    decodeEntries d (listWords d (entry :: entries) ++ ts) =
      some ((entry :: entries).map (Entry.asWritten d), ts) := by
  induction entries generalizing entry with
  | nil =>
      rw [listWords, List.map_singleton, words_commaSeparated_singleton]
      exact decodeEntries_last (decodes entry List.mem_cons_self) past
  | cons next entries ih =>
      have others := ih fun x member => decodes x (List.mem_cons_of_mem _ member)
      rw [listWords, List.map_cons, List.map_cons, words_commaSeparated_cons, List.append_assoc,
        List.cons_append]
      exact decodeEntries_comma (decodes entry List.mem_cons_self) others

/-- A list is read in front of what follows it, and without entries it is seen to be empty. -/
theorem decodeList_words {entries : List Entry} (decodes : ∀ x ∈ entries, x.expr.Decodes d)
    (past : Past 0 ts) :
    decodeList d (listWords d entries ++ ts) = some (entries.map (Entry.asWritten d), ts) := by
  cases entries with
  | nil =>
      have nothing : decodeList d ts = some ([], ts) := by
        rw [decodeList, past.not_begins]
        rfl
      exact nothing
  | cons entry entries =>
      have read := decodeEntries_words decodes past
      rw [decodeList, begins_of_decodeEntries read, if_pos rfl, read]

/-- A token that neither begins an expression nor a clause does not begin a list or what follows it. -/
theorem apart_of_list {entries : List Entry} (decodes : ∀ x ∈ entries, x.expr.Decodes d) (past : Past 0 ts)
    (token : Token) (inside : token.begins = false) (early : token.stage = 0) :
    ∀ t ∈ (listWords d entries ++ ts).head?, t ≠ token := by
  cases entries with
  | nil => exact past.apart (Nat.le_of_eq early)
  | cons entry entries =>
      have opens := begins_of_decodeEntries (decodeEntries_words decodes past)
      rintro t member rfl
      cases front : listWords d (entry :: entries) ++ ts with
      | nil => simp [front] at member
      | cons first rest =>
          rw [front] at opens member
          obtain rfl : first = t := by simpa using member
          simp [inside] at opens

/-! ### Lists of expressions -/

theorem Expr.tokensOfEach_eq (es : List Expr) :
    Expr.tokensOfEach d es = (es.map Entry.ofExpr).map (Entry.tokens d) := by
  induction es with
  | nil => rfl
  | cons e es ih =>
      have alone : (Entry.ofExpr e).tokens d = e.tokens d := by
        simp [Entry.tokens, Entry.ofExpr, aliasTokens, directionTokens, nullsTokens]
      rw [Expr.tokensOfEach, List.map_cons, List.map_cons, ih, alone]

theorem Expr.asWrittenEach_eq (es : List Expr) :
    Expr.asWrittenEach d es = ((es.map Entry.ofExpr).map (Entry.asWritten d)).map Entry.expr := by
  induction es with
  | nil => rfl
  | cons e es ih =>
      rw [Expr.asWrittenEach, ih]
      rfl

/-- The expressions of a list decode if they do as entries. -/
theorem decodes_ofExpr {es : List Expr} (decodes : ∀ e ∈ es, e.Decodes d) :
    ∀ x ∈ es.map Entry.ofExpr, x.expr.Decodes d := by
  simpa [Entry.ofExpr] using decodes

namespace Expr

theorem Decodes.call (function : String) {arguments : List Expr} (distinct : Bool)
    (decodes : ∀ e ∈ arguments, e.Decodes d) : (Expr.call function arguments distinct).Decodes d := by
  refine .ofOperand rfl fun ts _ => ?_
  have ends : Past 0 (.closeParen :: ts) := by simp [Token.stage]
  have read := decodeList_words (decodes_ofExpr decodes) ends
  have noDistinct := apart_of_list (decodes_ofExpr decodes) ends (kw .distinct) rfl rfl
  have spelled : (Expr.call function arguments distinct).words d ++ ts =
      .function function :: .openParen :: ((if distinct then [kw .distinct] else []) ++
        (listWords d (arguments.map Entry.ofExpr) ++ .closeParen :: ts)) := by
    cases distinct <;> simp [Expr.words, tokens, listWords, tokensOfEach_eq, Token.isLayout]
  rw [spelled, decodeOperand, readDistinct_words distinct noDistinct]
  simp [read, asWritten, asWrittenEach_eq]

theorem Decodes.inList {operand value : Expr} {values : List Expr} (negated : Bool)
    (decodes : operand.Decodes d) (holds : 4 ≤ operand.tightness)
    (decodesValues : ∀ e ∈ value :: values, e.Decodes d) :
    (Expr.inList operand (value :: values) negated).Decodes d := by
  have written : (Expr.inList operand (value :: values) negated).asWritten d =
      .inList (operand.asWritten d) (asWrittenEach d (value :: values)) negated := rfl
  have listed : value.tokens d :: tokensOfEach d values =
      ((value :: values).map Entry.ofExpr).map (Entry.tokens d) := tokensOfEach_eq (value :: values)
  refine .ofMembers negated (.openParen :: (listWords d ((value :: values).map Entry.ofExpr) ++ [.closeParen]))
    rfl decodes holds ?_ fun ts => ?_
  · simp [Expr.words, tokens, words_notBefore, Token.isLayout, listed, listWords]
  · have ends : Past 0 (.closeParen :: ts) := by simp [Token.stage]
    have read := decodeEntries_words (decodes_ofExpr decodesValues) ends
    rw [List.cons_append, List.append_assoc, List.singleton_append, List.map_cons, decodeMembers, read,
      written, asWrittenEach_eq]
    · simp
    · exact ne_select_of_begins (begins_of_decodeEntries read)

/-! ### Case distinctions -/

/-- What follows a branch of a case distinction or its results. -/
theorem pull_branches (d : Dialect) (branches : List (Expr × Expr)) {ts : List Token} (ends : pull ts = 0) :
    pull (RelQuery.Sql.words (tokensOfBranches d branches) ++ ts) = 0 := by
  cases branches with
  | nil => exact ends
  | cons branch branches => rfl

/-- The branches of a case distinction are read in front of what follows them. -/
theorem decodeBranches_words {branches : List (Expr × Expr)}
    (decodes : ∀ branch ∈ branches, branch.1.Decodes d ∧ branch.2.Decodes d)
    (noWhen : ∀ more, ts ≠ kw .when :: more) (ends : pull ts = 0) :
    decodeBranches d (RelQuery.Sql.words (tokensOfBranches d branches) ++ ts) =
      some (asWrittenBranches d branches, ts) := by
  induction branches with
  | nil =>
      rw [tokensOfBranches, words_nil, List.nil_append, decodeBranches]
      · rfl
      · exact noWhen
  | cons branch branches ih =>
      obtain ⟨condition, result⟩ := branch
      obtain ⟨decodesCondition, decodesResult⟩ := decodes _ List.mem_cons_self
      have others := ih fun branch member => decodes branch (List.mem_cons_of_mem _ member)
      have tested : ∀ ts, decodeExpr d 1 (condition.words d ++ kw .then :: ts) =
          some (condition.asWritten d, kw .then :: ts) := fun ts => decodesCondition.whole rfl
      have chosen := decodesResult.whole (pull_branches d branches ends)
      have spelled : RelQuery.Sql.words (tokensOfBranches d ((condition, result) :: branches)) ++ ts =
          kw .when :: (condition.words d ++ kw .then :: (result.words d ++
            (RelQuery.Sql.words (tokensOfBranches d branches) ++ ts))) := by
        simp [tokensOfBranches, Expr.words, Token.isLayout]
      rw [spelled, decodeBranches]
      simp [tested, chosen, others, asWrittenBranches]

/-- The condition behind a keyword is read where it stands, and seen to be missing otherwise. -/
theorem decodeCondition_words {word : Keyword} {condition : Option Expr}
    (decodes : ∀ e ∈ condition, e.Decodes d) (ends : pull ts = 0) (apart : ∀ t ∈ ts.head?, t ≠ kw word) :
    decodeCondition d word (conditionWords d word condition ++ ts) =
      some (asWrittenOption d condition, ts) := by
  cases condition with
  | none => simp [conditionWords, decodeCondition, expect_eq_none apart, asWrittenOption]
  | some e => simp [conditionWords, decodeCondition, (decodes e rfl).whole ends, asWrittenOption]

/-- The words of the expression that a case distinction compares with. -/
def subjectWords (d : Dialect) : Option Expr → List Token
  | some e => e.words d
  | none => []

theorem decodeSubject_words {subject : Option Expr} (decodes : ∀ e ∈ subject, e.Decodes d)
    (ends : pull ts = 0) (apart : Sql.begins ts = false) :
    decodeSubject d (subjectWords d subject ++ ts) = some (asWrittenOption d subject, ts) := by
  cases subject with
  | none => simp [subjectWords, decodeSubject, apart, asWrittenOption]
  | some e =>
      have decodesSubject := decodes e rfl
      simp [subjectWords, decodeSubject, decodesSubject.begins ends, decodesSubject.whole ends,
        asWrittenOption]

theorem Decodes.caseWhen {subject otherwise : Option Expr} {branches : List (Expr × Expr)}
    (decodesSubject : ∀ e ∈ subject, e.Decodes d)
    (decodes : ∀ branch ∈ branches, branch.1.Decodes d ∧ branch.2.Decodes d)
    (decodesOtherwise : ∀ e ∈ otherwise, e.Decodes d) :
    (Expr.caseWhen subject branches otherwise).Decodes d := by
  refine .ofOperand rfl fun ts _ => ?_
  have fallback : decodeCondition d .else (conditionWords d .else otherwise ++ kw .end :: ts) =
      some (asWrittenOption d otherwise, kw .end :: ts) :=
    decodeCondition_words decodesOtherwise rfl (by simp)
  obtain ⟨ending, endingIs⟩ : ∃ ending, ending = conditionWords d .else otherwise ++ kw .end :: ts := ⟨_, rfl⟩
  have atEnd : pull ending = 0 ∧ Sql.begins ending = false ∧ ∀ more, ending ≠ kw .when :: more := by
    rw [endingIs]
    cases otherwise <;> simp [conditionWords, Token.pull, Token.begins]
  obtain ⟨looseEnd, closedEnd, noWhen⟩ := atEnd
  have chosen := decodeBranches_words decodes noWhen looseEnd
  have notOpen : Sql.begins (RelQuery.Sql.words (tokensOfBranches d branches) ++ ending) = false := by
    cases branches with
    | nil => exact closedEnd
    | cons branch branches => rfl
  have compared := decodeSubject_words decodesSubject (pull_branches d branches looseEnd) notOpen
  have spelled : (Expr.caseWhen subject branches otherwise).words d ++ ts =
      kw .case :: (subjectWords d subject ++
        (RelQuery.Sql.words (tokensOfBranches d branches) ++ ending)) := by
    rw [endingIs]
    cases subject <;> cases otherwise <;>
      simp [Expr.words, tokens, subjectWords, conditionWords, Token.isLayout]
  rw [← endingIs] at fallback
  rw [spelled, decodeOperand]
  simp [compared, chosen, fallback, asWritten]

end Expr

end

end RelQuery.Sql
