/-
Module: RelQuery.Proofs.Settings.Expansion
Purpose: A template is expanded from left to right and once. Whatever pieces it is written from, text without
  dollar signs, single dollar signs and references with and without braces, its expansion is made of what these
  pieces stand for; values are copied, not read. Where variables are unset, the first one is reported.
Main exports: Piece, Piece.written, template, Piece.Stands, WellFormed, substitution, expand_pieces
-/
import RelQuery.Settings.Basic

namespace RelQuery.Template

/-! ### Writing templates -/

/-- What a template is written from. -/
inductive Piece where
  | text (content : String)
  | dollar
  | bare (name : String)
  | braced (name : String)
deriving DecidableEq, Repr, Inhabited

/-- The characters of a piece. -/
def Piece.written : Piece → List Char
  | .text content => content.toList
  | .dollar => ['$']
  | .bare name => '$' :: name.toList
  | .braced name => '$' :: '{' :: (name.toList ++ ['}'])

/-- The characters of pieces one behind the other. -/
def written (pieces : List Piece) : List Char := pieces.flatMap Piece.written

/-- The template that pieces make. -/
def template (pieces : List Piece) : String := String.ofList (written pieces)

/-- In front of the rest of a template, a piece ends where it was meant to end. -/
def Piece.Stands (rest : List Char) : Piece → Prop
  | .text content => '$' ∉ content.toList
  | .dollar => ∀ c ∈ rest.head?, isNameChar c = false ∧ c ≠ '{'
  | .bare name =>
    name ≠ "" ∧ (∀ c ∈ name.toList, isNameChar c = true) ∧ ∀ c ∈ rest.head?, isNameChar c = false
  | .braced name => '}' ∉ name.toList

/-- Each piece ends where it was meant to end. -/
def WellFormed : List Piece → Prop
  | [] => True
  | piece :: pieces => piece.Stands (written pieces) ∧ WellFormed pieces

/-! ### What templates stand for -/

/-- The variable that a piece refers to. -/
def Piece.variable? : Piece → Option String
  | .text _ | .dollar => none
  | .bare name | .braced name => some name

/-- What a piece stands for: itself, or the value of its variable. -/
def Piece.meaning (environment : String → Option String) : Piece → String
  | .text content => content
  | .dollar => "$"
  | .bare name | .braced name => (environment name).getD ""

/-- The first variable that pieces refer to without its being set. -/
def firstUnset? (environment : String → Option String) (pieces : List Piece) : Option String :=
  (pieces.filterMap Piece.variable?).find? fun name => (environment name).isNone

/-- What pieces stand for, or the first variable that is not set. -/
def substitution (environment : String → Option String) (pieces : List Piece) : Except String String :=
  match firstUnset? environment pieces with
  | some name => .error name
  | none => .ok (String.join (pieces.map (Piece.meaning environment)))

/-! ### Reading templates -/

/-- How a piece is read. -/
def Piece.segments : Piece → List Segment
  | .text content => content.toList.map .char
  | .dollar => [.char '$']
  | .bare name | .braced name => [.reference name]

/-- The characters of a class in front of one that is not in it are those up to there. -/
theorem span_eq {p : Char → Bool} {body rest : List Char} (inside : ∀ c ∈ body, p c = true)
    (ends : ∀ c ∈ rest.head?, p c = false) :
    (body ++ rest).takeWhile p = body ∧ (body ++ rest).dropWhile p = rest := by
  rw [List.takeWhile_append_of_pos inside, List.dropWhile_append_of_pos inside]
  cases rest with
  | nil => simp
  | cons c rest => simp [ends c rfl]

theorem segments_char {c : Char} (plain : c ≠ '$') (rest : List Char) :
    segments (c :: rest) = .char c :: segments rest := by
  rw [segments.eq_4]
  · rintro tail rfl
    contradiction
  · exact plain

/-- Text without dollar signs stands for itself. -/
theorem segments_text {content : List Char} (plain : '$' ∉ content) (rest : List Char) :
    segments (content ++ rest) = content.map .char ++ segments rest := by
  induction content with
  | nil => rfl
  | cons c content ih =>
      rw [List.mem_cons, not_or] at plain
      rw [List.cons_append, segments_char (Ne.symm plain.1), ih plain.2]
      rfl

/-- A dollar sign that no brace follows is read by the name behind it. -/
theorem segments_dollar {rest : List Char} (unbraced : rest.head? ≠ some '{') :
    segments ('$' :: rest) =
      if (rest.takeWhile isNameChar).isEmpty then .char '$' :: segments rest
      else .reference (String.ofList (rest.takeWhile isNameChar)) :: segments (rest.dropWhile isNameChar) := by
  rw [segments.eq_3]
  rintro tail rfl
  exact unbraced rfl

/-- A piece is read as such where it ends as it was meant to. -/
theorem segments_piece {piece : Piece} {rest : List Char} (stands : piece.Stands rest) :
    segments (piece.written ++ rest) = piece.segments ++ segments rest := by
  cases piece with
  | text content => exact segments_text stands rest
  | dollar =>
      have unnamed : rest.takeWhile isNameChar = [] := by
        have ends : ∀ c ∈ rest.head?, isNameChar c = false := fun c first => (stands c first).1
        simpa using (span_eq (by simp : ∀ c ∈ [], isNameChar c = true) ends).1
      have unbraced : rest.head? ≠ some '{' := fun opened => (stands '{' opened).2 rfl
      rw [Piece.written, List.singleton_append, segments_dollar unbraced, unnamed]
      rfl
  | bare name =>
      obtain ⟨named, inside, ends⟩ := stands
      obtain ⟨taken, left⟩ := span_eq inside ends
      obtain ⟨c, cs, spelled⟩ := List.exists_cons_of_ne_nil (mt String.toList_eq_nil_iff.1 named)
      have unbraced : (name.toList ++ rest).head? ≠ some '{' := by
        rw [spelled, List.cons_append, List.head?_cons]
        rintro ⟨⟩
        have : isNameChar '{' = true := inside '{' (spelled ▸ List.mem_cons_self)
        revert this
        decide
      have nonempty : ¬name.toList.isEmpty = true := by simp [spelled]
      rw [Piece.written, List.cons_append, segments_dollar unbraced, taken, left, if_neg nonempty,
        String.ofList_toList]
      rfl
  | braced name =>
      have inside : ∀ c ∈ name.toList, isBraced c = true := by
        intro c member
        simpa [isBraced] using ne_of_mem_of_not_mem member stands
      have ends : ∀ c ∈ ('}' :: rest).head?, isBraced c = false := by
        rintro c ⟨⟩
        rfl
      obtain ⟨taken, left⟩ := span_eq inside ends
      rw [Piece.written, List.cons_append, List.cons_append, List.append_assoc, List.singleton_append,
        segments.eq_2, taken, left, String.ofList_toList]
      rfl

/-- A template is read as the pieces that it is written from. -/
theorem segments_written {pieces : List Piece} (wellFormed : WellFormed pieces) :
    segments (written pieces) = pieces.flatMap Piece.segments := by
  induction pieces with
  | nil => exact segments.eq_1
  | cons piece pieces ih =>
      rw [List.flatMap_cons, ← ih wellFormed.2]
      exact segments_piece wellFormed.1

/-! ### Expanding what was read -/

section

variable (environment : String → Option String)

/-- Segments are expanded one behind the other, up to the first that has no value. -/
theorem expandSegments_append (front back : List Segment) :
    expandSegments environment (front ++ back) = (do
      let values ← expandSegments environment front
      let others ← expandSegments environment back
      return values ++ others) := by
  induction front with
  | nil =>
      rw [List.nil_append, expandSegments]
      cases expandSegments environment back <;> rfl
  | cons segment front ih =>
      rw [List.cons_append, expandSegments, expandSegments, ih]
      cases segment.value environment with
      | error name => rfl
      | ok value =>
          cases expandSegments environment front with
          | error name => rfl
          | ok values =>
              cases expandSegments environment back with
              | error name => rfl
              | ok others => simp [bind, Except.bind, pure, Except.pure]

theorem expandSegments_map_char (content : List Char) :
    expandSegments environment (content.map .char) = .ok content := by
  induction content with
  | nil => rfl
  | cons c content ih =>
      rw [List.map_cons, expandSegments, ih]
      rfl

variable {environment} {piece : Piece} {name : String}

/-- A piece whose variable is not set cannot be expanded. -/
theorem expandSegments_unset (refers : piece.variable? = some name) (unset : environment name = none) :
    expandSegments environment piece.segments = .error name := by
  cases piece with
  | text content => contradiction
  | dollar => contradiction
  | bare other | braced other =>
      obtain rfl : other = name := Option.some.inj refers
      simp [Piece.segments, expandSegments, Segment.value, unset, bind, Except.bind]

/-- Any other piece is expanded to what it stands for. -/
theorem expandSegments_piece (set : ∀ name ∈ piece.variable?, environment name ≠ none) :
    expandSegments environment piece.segments = .ok (piece.meaning environment).toList := by
  cases piece with
  | text content => exact expandSegments_map_char environment content.toList
  | dollar =>
      have spelled : (Piece.dollar.meaning environment).toList = ['$'] := String.toList_singleton '$'
      rw [spelled]
      exact expandSegments_map_char environment ['$']
  | bare name | braced name =>
      obtain ⟨value, found⟩ := Option.ne_none_iff_exists'.1 (set name rfl)
      simp [Piece.segments, Piece.meaning, expandSegments, Segment.value, found, bind, Except.bind, pure,
        Except.pure]

/-- A piece whose variable is not set is the first one that is not, if it is the first piece. -/
theorem substitution_unset (refers : piece.variable? = some name) (unset : environment name = none)
    (pieces : List Piece) : substitution environment (piece :: pieces) = .error name := by
  have first : firstUnset? environment (piece :: pieces) = some name := by
    simp [firstUnset?, refers, unset]
  rw [substitution, first]

/-- Any other first piece stands in front of what the others stand for. -/
theorem substitution_cons (set : ∀ name ∈ piece.variable?, environment name ≠ none) (pieces : List Piece) :
    substitution environment (piece :: pieces) =
      (substitution environment pieces).map (piece.meaning environment ++ ·) := by
  have same : firstUnset? environment (piece :: pieces) = firstUnset? environment pieces := by
    cases refers : piece.variable? with
    | none => simp [firstUnset?, refers]
    | some name =>
        have known : (environment name).isNone = false := by
          rw [Option.isNone_eq_false_iff, Option.isSome_iff_ne_none]
          exact set name refers
        rw [firstUnset?, firstUnset?, List.filterMap_cons_some refers, List.find?_cons_of_neg (by simp [known])]
  rw [substitution, substitution, same]
  cases firstUnset? environment pieces with
  | some name => rfl
  | none => simp [Except.map, String.join_cons]

/-- Expanding what the pieces are read as gives what they stand for. -/
theorem expandSegments_flatMap (pieces : List Piece) :
    expandSegments environment (pieces.flatMap Piece.segments) =
      (substitution environment pieces).map String.toList := by
  induction pieces with
  | nil => rfl
  | cons piece pieces ih =>
      rw [List.flatMap_cons, expandSegments_append, ih]
      by_cases set : ∀ name ∈ piece.variable?, environment name ≠ none
      · rw [expandSegments_piece set, substitution_cons set]
        cases substitution environment pieces with
        | error name => rfl
        | ok value => simp [Except.map, bind, Except.bind, pure, Except.pure]
      · obtain ⟨name, refers, unset⟩ : ∃ name, piece.variable? = some name ∧ environment name = none := by
          simpa using set
        rw [expandSegments_unset refers unset, substitution_unset refers unset]
        rfl

end

/-- Expansion is one substitution from left to right: the template that pieces make stands for their texts, for
    a dollar sign where one stands alone, and for the values of the variables, as they are. If a variable is not
    set, expansion fails with the first such one, and so does the place of the table definitions. -/
theorem expand_pieces (environment : String → Option String) {pieces : List Piece}
    (wellFormed : WellFormed pieces) :
    expand environment (template pieces) = substitution environment pieces ∧
      ∀ dialect bounds, Settings.expandedSchemaPath ⟨dialect, bounds, some (template pieces)⟩ environment =
        match firstUnset? environment pieces with
        | some name => .error (.missingVariable name)
        | none => .ok (some (String.join (pieces.map (Piece.meaning environment)))) := by
  have expanded : expand environment (template pieces) = substitution environment pieces := by
    rw [expand, template, String.toList_ofList, segments_written wellFormed, expandSegments_flatMap]
    cases substitution environment pieces <;> simp [Except.map]
  refine ⟨expanded, fun dialect bounds => ?_⟩
  simp only [Settings.expandedSchemaPath, expanded, substitution]
  cases firstUnset? environment pieces <;> rfl

/-- A place with a name that ends before a slash, a single dollar sign in front of a reference, and another one
    at the end. -/
def versionedPlace : List Piece :=
  [.bare "APP_DIR", .text "/v1.", .dollar, .braced "my env", .text ".toml", .dollar]

/-- A value that looks like a reference is copied, and a variable without a value is reported. -/
theorem expand_versionedPlace :
    WellFormed versionedPlace ∧ template versionedPlace = "$APP_DIR/v1.$$\x7bmy env\x7d.toml$" ∧
      expand (fun name => if name = "APP_DIR" then some "$HOME" else some "\x7d") (template versionedPlace) =
        .ok "$HOME/v1.$\x7d.toml$" ∧
      expand (fun name => if name = "APP_DIR" then some "$HOME" else none) (template versionedPlace) =
        .error "my env" := by
  have wellFormed : WellFormed versionedPlace := by
    have named : "APP_DIR".toList.all isNameChar = true := by decide
    refine ⟨⟨by decide, List.all_eq_true.1 named, ?_⟩, ?_, ?_, ?_, ?_, ?_, trivial⟩
    · rintro c ⟨⟩
      decide
    · show '$' ∉ "/v1.".toList
      decide
    · rintro c ⟨⟩
      decide
    · show '}' ∉ "my env".toList
      decide
    · show '$' ∉ ".toml".toList
      decide
    · rintro c ⟨⟩
  refine ⟨wellFormed, by decide, ?_, ?_⟩
  · rw [(expand_pieces _ wellFormed).1]
    rfl
  · rw [(expand_pieces _ wellFormed).1]
    rfl

end RelQuery.Template
