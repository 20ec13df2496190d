/-
Module: RelQuery.Proofs.Sql.Quoted
Purpose: Names and string literals as a database reads them. A quoted name stays inside its marks, whatever
  it is made of. A string literal is read back as its value, except that MySQL takes a backslash inside it
  for the beginning of an escape sequence, which is not provided for.
Main exports: scan, scan_enclosed, Dialect.readIdentifier, Dialect.readQualified, names_read_back,
  Dialect.readString, Dialect.readTyped, BackslashesStay, literals_read_back
-/
import RelQuery.Sql.Token

namespace RelQuery.Sql

/-! ### Scanning -/

/-- The characters that a backslash and the character behind it stand for. In front of the wildcards of
    LIKE the backslash stays. -/
def unescaped : Char → List Char
  | '0' => ['\x00']
  | 'b' => ['\x08']
  | 'n' => ['\n']
  | 'r' => ['\r']
  | 't' => ['\t']
  | 'Z' => ['\x1a']
  | '%' => ['\\', '%']
  | '_' => ['\\', '_']
  | c => [c]

/-- Puts characters in front of what was read. -/
def prepend (cs : List Char) (read : Option (List Char × List Char)) : Option (List Char × List Char) :=
  read.map fun (text, rest) => (cs ++ text, rest)

/-- The text up to the first mark that stands alone, and what follows that. A mark that is written twice
    stands for itself, and a backslash may begin an escape sequence. -/
def scan (escapes : Bool) (mark : Char) : List Char → Option (List Char × List Char)
  | [] => none
  | [c] => if c = mark then some ([], []) else none
  | c :: d :: cs =>
    if c = mark then
      if d = mark then prepend [mark] (scan escapes mark cs) else some ([], d :: cs)
    else if escapes = true ∧ c = '\\' then prepend (unescaped d) (scan escapes mark cs)
    else prepend [c] (scan escapes mark (d :: cs))

namespace Dialect

/-- Reads a quoted name. -/
def readIdentifier (d : Dialect) : List Char → Option (List Char × List Char)
  | [] => none
  | c :: cs => if c = d.identifierMarks.1 then scan false d.identifierMarks.2 cs else none

/-- Reads a quoted schema, a dot and a quoted name. -/
def readQualified (d : Dialect) (cs : List Char) : Option (List Char × List Char × List Char) :=
  match d.readIdentifier cs with
  | some (schema, '.' :: rest) => (d.readIdentifier rest).map fun (name, rest) => (schema, name, rest)
  | _ => none

/-- Whether a backslash inside a string literal begins an escape sequence. -/
def escapesBackslash : Dialect → Bool
  | .mysql => true
  | .postgres | .sqlite | .tsql => false

/-- Reads a string literal, which SQL Server also knows with a mark for Unicode text. -/
def readString (d : Dialect) : List Char → Option (List Char × List Char)
  | '\'' :: cs => scan d.escapesBackslash '\'' cs
  | 'N' :: '\'' :: cs => if d = .tsql then scan d.escapesBackslash '\'' cs else none
  | _ => none

/-- Reads a literal of a type whose name, with a blank, stands before the quoted part in some dialects. -/
def readTyped (d : Dialect) (type : String) (cs : List Char) : Option (List Char × List Char) :=
  if d.typesDates = false then d.readString cs
  else if type.toList <+: cs then d.readString (cs.drop type.toList.length)
  else none

end Dialect

/-! ### Doubled marks -/

@[simp] theorem prepend_none (cs : List Char) : prepend cs none = none := rfl

@[simp] theorem prepend_some (cs text rest : List Char) :
    prepend cs (some (text, rest)) = some (cs ++ text, rest) := rfl

theorem prepend_prepend (cs ds : List Char) (read : Option (List Char × List Char)) :
    prepend cs (prepend ds read) = prepend (cs ++ ds) read := by
  cases read <;> simp [prepend]

theorem prepend_eq_some {cs text rest : List Char} {read : Option (List Char × List Char)} :
    prepend cs read = some (text, rest) ↔ ∃ tail, read = some (tail, rest) ∧ cs ++ tail = text := by
  rcases read with - | ⟨tail, other⟩
  · simp
  · simp [and_comm, and_assoc]

variable {escapes : Bool} {mark : Char}

/-- A mark that stands alone ends the text. -/
theorem scan_mark (rest : List Char) :
    scan escapes mark (mark :: rest) = some ([], rest) ↔ rest.head? ≠ some mark := by
  cases rest with
  | nil => simp [scan]
  | cons d rest =>
      by_cases same : d = mark
      · simp [scan, same, prepend_eq_some]
      · simp [scan, same]

/-- A mark that is written twice stands for itself. -/
theorem scan_doubled_mark (cs : List Char) :
    scan escapes mark (mark :: mark :: cs) = prepend [mark] (scan escapes mark cs) := by
  simp [scan]

/-- Any other character stands for itself unless it begins an escape sequence. -/
theorem scan_plain {c : Char} (other : c ≠ mark) (alone : ¬(escapes = true ∧ c = '\\')) (cs : List Char) :
    scan escapes mark (c :: cs) = prepend [c] (scan escapes mark cs) := by
  cases cs with
  | nil => simp [scan, other]
  | cons d cs => simp only [scan, if_neg other, if_neg alone]

theorem scan_escape {d : Char} (other : '\\' ≠ mark) (cs : List Char) :
    scan true mark ('\\' :: d :: cs) = prepend (unescaped d) (scan true mark cs) := by
  simp [scan, other]

/-- Each backslash stands before a wildcard of LIKE. -/
def BackslashesStay : List Char → Prop
  | [] => True
  | c :: cs => (c = '\\' → cs.head? = some '%' ∨ cs.head? = some '_') ∧ BackslashesStay cs

/-- A character with its mark doubled is read as that character unless it begins an escape sequence. -/
theorem scan_doubled_cons {c : Char} (alone : ¬(escapes = true ∧ c = '\\')) (cs rest : List Char) :
    scan escapes mark (doubled mark (c :: cs) ++ rest) =
      prepend [c] (scan escapes mark (doubled mark cs ++ rest)) := by
  by_cases same : c = mark
  · rw [same, doubled, if_pos rfl, List.cons_append, List.cons_append, scan_doubled_mark]
  · rw [doubled, if_neg same, List.cons_append, scan_plain same alone]

/-- Text with its marks doubled is read as that text, unless escape sequences change it. -/
theorem scan_doubled (quotes : escapes = true → mark = '\'') (rest : List Char) :
    ∀ cs : List Char, (escapes = true → BackslashesStay cs) →
      scan escapes mark (doubled mark cs ++ rest) = prepend cs (scan escapes mark rest)
  | [], _ => by
      rw [doubled, List.nil_append]
      cases scan escapes mark rest <;> rfl
  | [c], stays => by
      have alone : ¬(escapes = true ∧ c = '\\') := fun escape => by
        simpa using (stays escape.1).1 escape.2
      rw [scan_doubled_cons alone, doubled, List.nil_append]
  | c :: d :: cs, stays => by
      by_cases escape : escapes = true ∧ c = '\\'
      · -- The wildcard behind the backslash is no mark, and both are kept.
        have later := scan_doubled quotes rest cs fun escapes => (stays escapes).2.2
        obtain ⟨rfl, rfl⟩ := escape
        have wildcard : d = '%' ∨ d = '_' := by simpa using (stays rfl).1 rfl
        obtain rfl := quotes rfl
        rcases wildcard with rfl | rfl <;>
          simp [doubled, scan_escape, later, prepend_prepend, unescaped]
      · have others := scan_doubled quotes rest (d :: cs) fun escapes => (stays escapes).2
        rw [scan_doubled_cons escape, others, prepend_prepend, List.singleton_append]

/-! ### Escape sequences -/

/-- What an escape sequence stands for takes up no more room, quotation marks being doubled. -/
theorem length_doubled_unescaped (d : Char) : (doubled '\'' (unescaped d)).length ≤ 2 := by
  unfold unescaped
  split
  all_goals first | decide | skip
  rw [doubled]
  split <;> simp [doubled]

theorem length_doubled_append (mark : Char) (cs ds : List Char) :
    (doubled mark (cs ++ ds)).length = (doubled mark cs).length + (doubled mark ds).length := by
  induction cs with
  | nil => simp [doubled]
  | cons c cs ih =>
      rw [List.cons_append, doubled, doubled]
      split <;> simp [ih] <;> omega

/-- What is read takes up less room than the text that it is read from, quotation marks being doubled. -/
theorem length_of_scan {cs text rest : List Char} (read : scan escapes '\'' cs = some (text, rest)) :
    (doubled '\'' text).length + rest.length < cs.length := by
  fun_induction scan escapes '\'' cs generalizing text with
  | case1 => contradiction
  | case2 =>
      obtain ⟨rfl, rfl⟩ := Prod.mk.inj (Option.some.inj read)
      simp [doubled]
  | case3 => contradiction
  | case4 cs ih =>
      obtain ⟨tail, found, rfl⟩ := prepend_eq_some.1 read
      have shorter := ih found
      rw [length_doubled_append]
      simp only [doubled, if_true, List.length_cons, List.length_nil]
      omega
  | case5 d cs apart =>
      obtain ⟨rfl, rfl⟩ := Prod.mk.inj (Option.some.inj read)
      simp [doubled]
  | case6 c d cs apart escape ih =>
      obtain ⟨tail, found, rfl⟩ := prepend_eq_some.1 read
      have shorter := ih found
      have narrow := length_doubled_unescaped d
      rw [length_doubled_append]
      simp only [List.length_cons]
      omega
  | case7 c d cs apart escape ih =>
      obtain ⟨tail, found, rfl⟩ := prepend_eq_some.1 read
      have shorter := ih found
      rw [length_doubled_append]
      simp only [doubled, if_neg apart, List.length_cons, List.length_nil] at shorter ⊢
      omega

/-- Only a backslash stands for a backslash alone, and only wildcards keep the one before them. -/
theorem unescaped_append_eq {d : Char} {tail text : List Char} (same : unescaped d ++ tail = '\\' :: text) :
    (d = '%' ∨ d = '_') ∧ d :: tail = text ∨ d = '\\' ∧ tail = text := by
  unfold unescaped at same
  split at same
  all_goals simp_all

/-- Text that is read back as itself has no escape sequences. -/
theorem backslashesStay_of_scan {rest : List Char} : ∀ {cs : List Char},
    scan true '\'' (doubled '\'' cs ++ '\'' :: rest) = some (cs, rest) → BackslashesStay cs
  | [], _ => trivial
  | [c], read => by
      refine ⟨?_, trivial⟩
      rintro rfl
      simp [doubled, scan_escape, unescaped, prepend_eq_some] at read
  | c :: d :: cs, read => by
      by_cases escape : c = '\\'
      · subst escape
        by_cases quote : d = '\''
        · simp [quote, doubled, scan_escape, unescaped, prepend_eq_some] at read
        · rw [doubled, if_neg (by decide), doubled, if_neg quote, List.cons_append, List.cons_append,
            scan_escape (by decide)] at read
          obtain ⟨tail, found, same⟩ := prepend_eq_some.1 read
          rcases unescaped_append_eq same with ⟨wildcard, same⟩ | ⟨rfl, rfl⟩
          · obtain rfl : cs = tail := by simpa using same.symm
            have apart : d ≠ '\\' := by rcases wildcard with rfl | rfl <;> decide
            exact ⟨fun _ => by simpa using wildcard, fun same => absurd same apart,
              backslashesStay_of_scan found⟩
          · -- Of two backslashes one is left, so that too little text has been read.
            have shorter := length_of_scan found
            rw [doubled, if_neg (by decide)] at shorter
            simp at shorter
            omega
      · rw [scan_doubled_cons (by simp [escape])] at read
        obtain ⟨tail, found, same⟩ := prepend_eq_some.1 read
        obtain rfl : tail = d :: cs := by simpa using same
        exact ⟨fun backslash => absurd backslash escape, backslashesStay_of_scan found⟩

/-- Enclosed text is read back exactly where no mark follows and no escape sequence changes it. -/
theorem scan_enclosed (quotes : escapes = true → mark = '\'') (cs rest : List Char) :
    scan escapes mark (doubled mark cs ++ mark :: rest) = some (cs, rest) ↔
      rest.head? ≠ some mark ∧ (escapes = true → BackslashesStay cs) := by
  constructor
  · intro read
    have stays : escapes = true → BackslashesStay cs := by
      intro escape
      rw [escape, quotes escape] at read
      exact backslashesStay_of_scan read
    rw [scan_doubled quotes _ cs stays] at read
    obtain ⟨tail, found, same⟩ := prepend_eq_some.1 read
    obtain rfl : tail = [] := by simpa using same
    exact ⟨(scan_mark rest).1 found, stays⟩
  · rintro ⟨apart, stays⟩
    rw [scan_doubled quotes _ cs stays, (scan_mark rest).2 apart, prepend_some, List.append_nil]

/-! ### Names -/

theorem readIdentifier_identifier (d : Dialect) (name : String) (rest : List Char) :
    d.readIdentifier ((d.identifier name).toList ++ rest) =
      scan false d.identifierMarks.2 (doubled d.identifierMarks.2 name.toList ++ d.identifierMarks.2 :: rest) := by
  simp [Dialect.identifier, enclosed, Dialect.readIdentifier]

/-- A name is read back unless the closing mark follows it once more. -/
theorem readIdentifier_eq_iff (d : Dialect) (name : String) (rest : List Char) :
    d.readIdentifier ((d.identifier name).toList ++ rest) = some (name.toList, rest) ↔
      rest.head? ≠ some d.identifierMarks.2 := by
  rw [readIdentifier_identifier, scan_enclosed (by simp)]
  simp

/-- Whatever a name is made of, it is read back with all that follows it, as long as that does not begin
    with the closing mark; and so is a name that is qualified by a schema. -/
theorem names_read_back (d : Dialect) (schema name : String) (rest : List Char) :
    (d.readIdentifier (((Token.identifier name).text d).toList ++ rest) = some (name.toList, rest) ↔
      rest.head? ≠ some d.identifierMarks.2) ∧
    (d.readQualified (((Token.qualified (some schema) name).text d).toList ++ rest) =
        some (schema.toList, name.toList, rest) ↔
      rest.head? ≠ some d.identifierMarks.2) := by
  refine ⟨readIdentifier_eq_iff d name rest, ?_⟩
  have dotted : ((Token.qualified (some schema) name).text d).toList ++ rest =
      (d.identifier schema).toList ++ '.' :: ((d.identifier name).toList ++ rest) := by
    simp [Token.text]
  have noMark : some '.' ≠ some d.identifierMarks.2 := by
    cases d <;> decide
  have first := (readIdentifier_eq_iff d schema ('.' :: ((d.identifier name).toList ++ rest))).2 noMark
  rw [dotted, Dialect.readQualified, first, ← readIdentifier_eq_iff d name rest]
  cases found : d.readIdentifier ((d.identifier name).toList ++ rest) <;> simp [found, Prod.ext_iff]

/-- The opening bracket needs no doubling, and a name that ends in closing ones is told from what follows. -/
example : Dialect.readIdentifier .tsql ("[a[b]]]]] AS [x]".toList) =
    some ("a[b]]".toList, " AS [x]".toList) := by
  decide

/-! ### String literals -/

theorem readString_singleQuoted (d : Dialect) (s : String) (rest : List Char) :
    d.readString ((Dialect.singleQuoted s).toList ++ rest) =
      scan d.escapesBackslash '\'' (doubled '\'' s.toList ++ '\'' :: rest) := by
  simp [Dialect.singleQuoted, enclosed, Dialect.readString]

/-- The mark for Unicode text stands outside the quoted part. -/
theorem readString_string (d : Dialect) (s : String) (rest : List Char) :
    d.readString ((d.string s).toList ++ rest) = d.readString ((Dialect.singleQuoted s).toList ++ rest) := by
  cases d with
  | tsql =>
      rw [Dialect.string]
      split
      · rfl
      · simp [Dialect.singleQuoted, enclosed, Dialect.readString]
  | _ => rfl

/-- The name of a type stands outside the quoted part. -/
theorem readTyped_typed (d : Dialect) (type s : String) (rest : List Char) :
    d.readTyped type ((if d.typesDates then type ++ Dialect.singleQuoted s
        else Dialect.singleQuoted s).toList ++ rest) =
      d.readString ((Dialect.singleQuoted s).toList ++ rest) := by
  rw [Dialect.readTyped]
  cases d.typesDates
  · simp only [if_true, Bool.false_eq_true, if_false]
  · simp only [if_true, Bool.true_eq_false, if_false, String.toList_append, List.append_assoc,
      List.prefix_append, List.drop_left]

/-- The text between single quotes is read back unless another one follows, or MySQL finds an escape sequence
    in it. -/
theorem readString_eq_iff (d : Dialect) (s : String) (rest : List Char) :
    d.readString ((Dialect.singleQuoted s).toList ++ rest) = some (s.toList, rest) ↔
      rest.head? ≠ some '\'' ∧ (d = .mysql → BackslashesStay s.toList) := by
  have escapes : d.escapesBackslash = true ↔ d = .mysql := by
    cases d <;> simp [Dialect.escapesBackslash]
  rw [readString_singleQuoted, scan_enclosed (fun _ => rfl), escapes]

/-- String literals are read back as their value, and so are the quoted parts of dates and timestamps, as
    long as no quotation mark follows and, on MySQL, the value has no backslash but before a wildcard of
    LIKE. -/
theorem literals_read_back (d : Dialect) (s : String) (rest : List Char) :
    (d.readString (((Token.literal (.text s)).text d).toList ++ rest) = some (s.toList, rest) ↔
      rest.head? ≠ some '\'' ∧ (d = .mysql → BackslashesStay s.toList)) ∧
    (d.readTyped "DATE " (((Token.literal (.date s)).text d).toList ++ rest) = some (s.toList, rest) ↔
      rest.head? ≠ some '\'' ∧ (d = .mysql → BackslashesStay s.toList)) ∧
    (d.readTyped "TIMESTAMP " (((Token.literal (.timestamp s)).text d).toList ++ rest) =
        some (s.toList, rest) ↔
      rest.head? ≠ some '\'' ∧ (d = .mysql → BackslashesStay s.toList)) := by
  have quoted := readString_eq_iff d s rest
  refine ⟨?_, ?_, ?_⟩
  · rw [← quoted, ← readString_string]
    rfl
  · rw [← quoted, ← readTyped_typed d "DATE "]
    rfl
  · rw [← quoted, ← readTyped_typed d "TIMESTAMP "]
    rfl

/-- On MySQL a backslash takes the quotation mark behind it into the literal, which ends too early then: what
    was a part of the value follows it as SQL. -/
theorem mysql_literal_ends_early :
    Dialect.readString .mysql
        (((Token.literal (.text "\\' OR 1=1 -- ")).text .mysql).toList ++ [';']) =
      some (['\''], " OR 1=1 -- ';".toList) := by
  decide

end RelQuery.Sql
