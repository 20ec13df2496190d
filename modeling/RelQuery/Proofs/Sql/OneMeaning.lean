/-
Module: RelQuery.Proofs.Sql.OneMeaning
Purpose: What is rendered has one meaning: expressions whose operands hold together tightly enough for their
  places have the same value in every row if they are rendered to the same tokens. Other operands lose their
  meaning, since a test or a negation puts no parentheses around what it tests.
Main exports: Expr.eval_eq_of_render_eq, Expr.nullOfNegation, Expr.negationOfNull
-/
import RelQuery.Proofs.Blog
import RelQuery.Proofs.Sql.DecodeQuery

namespace RelQuery.Sql

/-- Rendering loses no meaning where every operand holds together tightly enough for its place: expressions
    with the same tokens have the same value and the same truth value in every row, whatever their
    grouping. -/
theorem Expr.eval_eq_of_render_eq {V : Type} {db : Database V} {d : Dialect} (sees : db.engine.SeesTokens d)
    {e f : Expr} (bracketed : e.Bracketed db.engine) (others : f.Bracketed db.engine)
    (fits : ∀ q ∈ e.queries ++ f.queries, q.Fits db d) {tokens : List Token}
    (rendered : e.render d = .ok tokens) (same : f.render d = .ok tokens) (scope : Scope V) :
    (∀ group, e.eval db scope group = f.eval db scope group) ∧ e.truth db scope = f.truth db scope := by
  obtain ⟨fitsFirst, fitsSecond⟩ := List.forall_mem_append.1 fits
  have spelled : e.tokens d = f.tokens d := (eq_of_accepted rendered).symm.trans (eq_of_accepted same)
  have written : e.asWritten d = f.asWritten d := Expr.asWritten_eq_of_tokens_eq bracketed others spelled
  have values : ∀ group, e.eval db scope group = f.eval db scope group := fun group =>
    calc e.eval db scope group
      _ = (e.asWritten d).eval db scope group := (e.eval_asWritten sees bracketed fitsFirst scope group).symm
      _ = (f.asWritten d).eval db scope group := by rw [written]
      _ = f.eval db scope group := f.eval_asWritten sees others fitsSecond scope group
  exact ⟨values, congrArg db.engine.truth (values [])⟩

/-- The posts of an author. -/
def Query.postsOfAuthor : Query :=
  { Query.empty with
    select := [.plain (.int 1)]
    source := some (.stored none "posts")
    condition := some (.eq (.of "posts" "author_id") (.of "authors" "id")) }

/-- The second author has a name and no posts. -/
def Expr.idleAuthor : Expr :=
  (Expr.existsQuery .postsOfAuthor true).and
    ((Expr.isNull (.of "authors" "name") true).and (.eq (.of "authors" "id") (.param (.int 2))))

/-- The same condition, grouped to the left and with a negation in front of EXISTS. -/
def Expr.idleAuthorRegrouped : Expr :=
  ((Expr.not (.existsQuery .postsOfAuthor false)).and (.isNull (.of "authors" "name") true)).and
    (.eq (.of "authors" "id") (.param (.int 2)))

/-- Neither the grouping nor the spelling of the condition matters. -/
theorem Expr.truth_idleAuthor : Expr.idleAuthor.render .mysql = Expr.idleAuthorRegrouped.render .mysql ∧
    ∀ scope, Expr.idleAuthor.truth Blog.database scope =
      Expr.idleAuthorRegrouped.truth Blog.database scope := by
  have rendered : Expr.idleAuthor.render .mysql = .ok (Expr.idleAuthor.tokens .mysql) := rfl
  have same : Expr.idleAuthorRegrouped.render .mysql = .ok (Expr.idleAuthor.tokens .mysql) := rfl
  have posts : Query.postsOfAuthor.Bracketed Blog.database.engine :=
    ⟨⟨trivial, trivial⟩, trivial, trivial, ⟨⟨by decide, by decide⟩, trivial, trivial⟩, trivial, trivial,
      trivial⟩
  have named : (Expr.isNull (.of "authors" "name") true).Bracketed Blog.database.engine :=
    ⟨by decide, trivial⟩
  have identified : (Expr.eq (.of "authors" "id") (.param (.int 2))).Bracketed Blog.database.engine :=
    ⟨⟨by decide, by decide⟩, trivial, trivial⟩
  have unlimited : ∀ q ∈ Expr.idleAuthor.queries ++ Expr.idleAuthorRegrouped.queries,
      q.Fits Blog.database .mysql := by
    have only : Expr.idleAuthor.queries ++ Expr.idleAuthorRegrouped.queries =
        [Query.postsOfAuthor, Query.postsOfAuthor] := rfl
    rw [only]
    intro q member n limited
    obtain rfl : q = Query.postsOfAuthor := by simpa using member
    contradiction
  have first : Expr.idleAuthor.Bracketed Blog.database.engine := ⟨trivial, posts, trivial, named, identified⟩
  have second : Expr.idleAuthorRegrouped.Bracketed Blog.database.engine :=
    ⟨trivial, ⟨trivial, posts, named⟩, identified⟩
  have sees : Blog.database.engine.SeesTokens .mysql := fun _ _ _ => rfl
  exact ⟨rendered.trans same.symm, fun scope =>
    (Expr.eval_eq_of_render_eq sees first second unlimited rendered same scope).2⟩

/-- A test for null of a negation. -/
def Expr.nullOfNegation : Expr := .isNull (.not (.column none "a")) false

/-- A negation of a test for null. -/
def Expr.negationOfNull : Expr := .not (.isNull (.column none "a") false)

/-- Both are rendered to the same tokens, although they differ in a row without a value. -/
theorem Expr.nullOfNegation_reads_as_negationOfNull :
    (∀ d, ∃ tokens, Expr.nullOfNegation.render d = .ok tokens ∧ Expr.negationOfNull.render d = .ok tokens) ∧
      Expr.nullOfNegation.truth Blog.database [("t", [("a", .null)])] = .yes ∧
      Expr.negationOfNull.truth Blog.database [("t", [("a", .null)])] = .no := by
  refine ⟨fun d => ⟨Expr.negationOfNull.tokens d, ?_, ?_⟩, ?_, ?_⟩
  · rfl
  · rfl
  · rfl
  · rfl

end RelQuery.Sql
