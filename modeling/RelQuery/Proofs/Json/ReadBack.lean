/-
Module: RelQuery.Proofs.Json.ReadBack
Purpose: JSON values are read back from their texts: nested within the limit and with numbers that are read
  back themselves. What is read keeps repeated names; where no object repeats one, the value itself is what
  the document stands for.
Main exports: Json.depth, Json.numbers, readValue_chars, Document.read_text, Json.Proper, ofText?_text
-/
import RelQuery.Proofs.Json.Members
import RelQuery.Proofs.Json.Numbers
import RelQuery.Proofs.Json.Strings

namespace RelQuery.Json

/-! ### Nesting and numbers -/

mutual

/-- How deep arrays and objects are nested. -/
def depth : Json → Nat
  | .array items => depthOfItems items + 1
  | .object members => depthOfMembers members + 1
  | _ => 0

/-- The greatest depth of an item. -/
def depthOfItems : List Json → Nat
  | [] => 0
  | item :: items => max item.depth (depthOfItems items)

/-- The greatest depth of a member. -/
def depthOfMembers : List (String × Json) → Nat
  | [] => 0
  | (_, value) :: members => max value.depth (depthOfMembers members)

end

mutual

/-- The numbers in a value. -/
def numbers : Json → List Number
  | .number n => [n]
  | .array items => numbersOfItems items
  | .object members => numbersOfMembers members
  | _ => []

/-- The numbers in the items of an array. -/
def numbersOfItems : List Json → List Number
  | [] => []
  | item :: items => item.numbers ++ numbersOfItems items

/-- The numbers in the members of an object. -/
def numbersOfMembers : List (String × Json) → List Number
  | [] => []
  | (_, value) :: members => value.numbers ++ numbersOfMembers members

end

/-! ### First characters -/

/-- The text starts with a character that neither is blank nor closes an array. -/
def Opens (cs : List Char) : Prop := ∃ c others, cs = c :: others ∧ isBlank c = false ∧ c ≠ ']'

theorem Opens.append {cs : List Char} (opens : Opens cs) (rest : List Char) : Opens (cs ++ rest) := by
  obtain ⟨c, others, rfl, plain⟩ := opens
  exact ⟨c, others ++ rest, rfl, plain⟩

theorem Opens.skipBlanks_eq {cs : List Char} (opens : Opens cs) : skipBlanks cs = cs := by
  obtain ⟨c, others, rfl, plain, -⟩ := opens
  simp [skipBlanks, plain]

theorem Opens.length_pos {cs : List Char} (opens : Opens cs) : 0 < cs.length := by
  obtain ⟨c, others, rfl, -⟩ := opens
  exact Nat.succ_pos _

/-- A character that starts a number starts no other value. -/
theorem starts_number {c : Char} (starts : c = '-' ∨ c.isDigit = true) :
    isBlank c = false ∧ c ≠ ']' ∧ c ≠ 'n' ∧ c ≠ 't' ∧ c ≠ 'f' ∧ c ≠ '"' ∧ c ≠ '[' ∧ c ≠ '\x7b' := by
  rcases starts with rfl | digit
  · decide
  · refine ⟨?_, ?_, ?_, ?_, ?_, ?_, ?_, ?_⟩
    · simp only [isBlank, Bool.or_eq_false_iff, decide_eq_false_iff_not]
      refine ⟨⟨⟨?_, ?_⟩, ?_⟩, ?_⟩ <;> rintro rfl <;> revert digit <;> decide
    all_goals rintro rfl; revert digit; decide

theorem Number.ReadsBack.exists_parts {n : Number} (reads : n.ReadsBack) :
    ∃ parts, numberText n.text.toList = some (parts, []) ∧ parts.value? = some n := by
  rw [Number.ReadsBack, Number.ofText?] at reads
  split at reads
  · exact ⟨_, ‹_›, reads⟩
  · contradiction

theorem opens_chars : ∀ {value : Json}, (∀ n ∈ value.numbers, n.ReadsBack) → Opens value.chars
  | .null, _ => ⟨_, _, rfl, by decide, by decide⟩
  | .bool true, _ => ⟨_, _, rfl, by decide, by decide⟩
  | .bool false, _ => ⟨_, _, rfl, by decide, by decide⟩
  | .number n, reads => by
      obtain ⟨parts, found, -⟩ := (reads n (by simp [numbers])).exists_parts
      obtain ⟨c, others, same, starts⟩ := exists_cons_of_numberText found
      obtain ⟨plain, noBracket, -⟩ := starts_number starts
      exact ⟨c, others, same, plain, noBracket⟩
  | .string s, _ => ⟨_, _, rfl, by decide, by decide⟩
  | .array [], _ => ⟨_, _, rfl, by decide, by decide⟩
  | .array (_ :: _), _ => ⟨_, _, rfl, by decide, by decide⟩
  | .object [], _ => ⟨_, _, rfl, by decide, by decide⟩
  | .object ((_, _) :: _), _ => ⟨_, _, rfl, by decide, by decide⟩

theorem delimits_followingItems (items : List Json) (rest : List Char) :
    Delimits (followingItems items ++ rest) := by
  cases items <;> simp [followingItems, Delimits]

theorem delimits_followingMembers (members : List (String × Json)) (rest : List Char) :
    Delimits (followingMembers members ++ rest) := by
  rcases members with - | ⟨⟨name, value⟩, members⟩ <;> simp [followingMembers, Delimits]

/-! ### Values -/

section

variable {fuel depth : Nat} {rest : List Char}

/-- A number is read to its end, in front of what may follow it. -/
theorem readValue_number {n : Number} (reads : n.ReadsBack) (delimits : Delimits rest) :
    readValue (fuel + 1) depth (n.text.toList ++ rest) = (.number n, some rest) := by
  obtain ⟨parts, found, value⟩ := reads.exists_parts
  have read : numberText (n.text.toList ++ rest) = some (parts, rest) := by
    rw [numberText_append delimits, found]
    rfl
  obtain ⟨c, others, same, starts⟩ := exists_cons_of_numberText read
  obtain ⟨plain, -, h₁, h₂, h₃, h₄, h₅, h₆⟩ := starts_number starts
  rw [same] at read ⊢
  have unblanked : skipBlanks (c :: others) = c :: others := by simp [skipBlanks, plain]
  rw [readValue, unblanked]
  simp [h₁, h₂, h₃, h₄, h₅, h₆, read, value]

/-- A string is read to its closing quotation mark. -/
theorem readValue_quoted (s : String) :
    readValue (fuel + 1) depth (quoted s ++ rest) = (.string s, some rest) := by
  simp [readValue, quoted, skipBlanks, isBlank, stringBody_escaped]

theorem readValue_array {cs : List Char} (opens : Opens cs) :
    readValue (fuel + 1) (depth + 1) ('[' :: cs) =
      (.array (readItems fuel depth cs).1, (readItems fuel depth cs).2) := by
  have same := opens.skipBlanks_eq
  obtain ⟨c, others, rfl, -, noBracket⟩ := opens
  have bracket : skipBlanks ('[' :: c :: others) = '[' :: c :: others := by simp [skipBlanks, isBlank]
  rw [readValue, bracket]
  simp [same, noBracket]

theorem readValue_object (cs : List Char) :
    readValue (fuel + 1) (depth + 1) ('\x7b' :: '"' :: cs) =
      (.object (readMembers fuel depth ('"' :: cs)).1, (readMembers fuel depth ('"' :: cs)).2) := by
  simp [readValue, skipBlanks, isBlank]

/-- A value is read up to what may follow it, then the items behind it. -/
theorem readItems_cons {cs : List Char} {item : Document} {items : List Document} {others : List Char}
    (first : readValue fuel depth cs = (item, some (',' :: others)))
    (behind : readItems fuel depth others = (items, some rest)) :
    readItems (fuel + 1) depth cs = (item :: items, some rest) := by
  simp [readItems, first, skipBlanks, isBlank, behind]

theorem readItems_last {cs : List Char} {item : Document}
    (first : readValue fuel depth cs = (item, some (']' :: rest))) :
    readItems (fuel + 1) depth cs = ([item], some rest) := by
  simp [readItems, first, skipBlanks, isBlank]

theorem readMembers_cons {name : String} {cs : List Char} {item : Document}
    {members : List (String × Document)} {others : List Char}
    (first : readValue fuel depth cs = (item, some (',' :: others)))
    (behind : readMembers fuel depth others = (members, some rest)) :
    readMembers (fuel + 1) depth (quoted name ++ ':' :: cs) = ((name, item) :: members, some rest) := by
  simp [readMembers, quoted, stringBody_escaped, first, skipBlanks, isBlank, behind]

theorem readMembers_last {name : String} {cs : List Char} {item : Document}
    (first : readValue fuel depth cs = (item, some ('\x7d' :: rest))) :
    readMembers (fuel + 1) depth (quoted name ++ ':' :: cs) = ([(name, item)], some rest) := by
  simp [readMembers, quoted, stringBody_escaped, first, skipBlanks, isBlank]

end

mutual

/-- A value is read back from its text, and what may follow it is left. -/
theorem readValue_chars : ∀ (value : Json) (fuel depth : Nat) (rest : List Char),
    value.chars.length ≤ fuel → value.depth ≤ depth → (∀ n ∈ value.numbers, n.ReadsBack) → Delimits rest →
      readValue fuel depth (value.chars ++ rest) = (Document.ofJson value, some rest)
  | .null, fuel + 1, _, _, _, _, _, _ => by simp [readValue, chars, skipBlanks, isBlank, Document.ofJson]
  | .bool true, fuel + 1, _, _, _, _, _, _ => by simp [readValue, chars, skipBlanks, isBlank, Document.ofJson]
  | .bool false, fuel + 1, _, _, _, _, _, _ => by simp [readValue, chars, skipBlanks, isBlank, Document.ofJson]
  | .number n, 0, _, _, long, _, reads, _ => absurd (opens_chars reads).length_pos (Nat.not_lt.2 long)
  | .number n, fuel + 1, _, _, _, _, reads, delimits => by
      rw [chars, readValue_number (reads n (by simp [numbers])) delimits, Document.ofJson]
  | .string s, fuel + 1, _, _, _, _, _, _ => by rw [chars, readValue_quoted, Document.ofJson]
  | .array [], fuel + 1, depth + 1, _, _, _, _, _ => by
      simp [readValue, chars, skipBlanks, isBlank, Document.ofJson, itemsOfJson]
  | .array (item :: items), fuel + 1, depth + 1, rest, long, deep, reads, _ => by
      have opens : Opens item.chars :=
        opens_chars fun n member => reads n (by simp [numbers, numbersOfItems, member])
      have inside := readItems_chars item items fuel depth rest
        (by simpa [chars] using long) (by simpa [Json.depth] using deep) (by simpa [numbers] using reads)
      simp only [chars, List.cons_append, List.append_assoc]
      rw [readValue_array (opens.append _), inside]
      rfl
  | .object [], fuel + 1, depth + 1, _, _, _, _, _ => by
      simp [readValue, chars, skipBlanks, isBlank, Document.ofJson, membersOfJson]
  | .object ((name, value) :: members), fuel + 1, depth + 1, rest, long, deep, reads, _ => by
      have inside := readMembers_chars name value members fuel depth rest
        (by simpa [chars] using long) (by simpa [Json.depth] using deep) (by simpa [numbers] using reads)
      simp only [chars, List.cons_append, List.append_assoc]
      simp only [quoted, List.cons_append, List.append_assoc] at inside ⊢
      rw [readValue_object, inside]
      rfl

/-- Items are read back up to the closing bracket. -/
theorem readItems_chars : ∀ (item : Json) (items : List Json) (fuel depth : Nat) (rest : List Char),
    (item.chars ++ followingItems items).length ≤ fuel → depthOfItems (item :: items) ≤ depth →
      (∀ n ∈ numbersOfItems (item :: items), n.ReadsBack) →
      readItems fuel depth (item.chars ++ (followingItems items ++ rest)) =
        (itemsOfJson (item :: items), some rest)
  | item, items, 0, depth, rest, long, deep, reads => by
      rw [numbersOfItems, List.forall_mem_append] at reads
      exact absurd ((opens_chars reads.1).append _).length_pos (Nat.not_lt.2 long)
  | item, [], fuel + 1, depth, rest, long, deep, reads => by
      have first := readValue_chars item fuel depth (']' :: rest)
        (by simpa [followingItems] using long) (by simpa [depthOfItems] using deep)
        (by simpa [numbersOfItems] using reads) (by simp [Delimits])
      exact readItems_last first
  | item, next :: items, fuel + 1, depth, rest, long, deep, reads => by
      rw [numbersOfItems, List.forall_mem_append] at reads
      rw [depthOfItems, Nat.max_le] at deep
      have opens := (opens_chars reads.1).length_pos
      simp only [followingItems, List.length_append, List.length_cons] at long
      have first := readValue_chars item fuel depth
        (followingItems (next :: items) ++ rest) (by omega) deep.1 reads.1
        (delimits_followingItems _ _)
      have behind := readItems_chars next items fuel depth rest
        (by simp; omega) deep.2 reads.2
      simp only [followingItems, List.cons_append, List.append_assoc] at first ⊢
      exact readItems_cons first behind

/-- Members are read back up to the closing brace. -/
theorem readMembers_chars : ∀ (name : String) (value : Json) (members : List (String × Json))
    (fuel depth : Nat) (rest : List Char),
    (quoted name ++ ':' :: (value.chars ++ followingMembers members)).length ≤ fuel →
      depthOfMembers ((name, value) :: members) ≤ depth →
      (∀ n ∈ numbersOfMembers ((name, value) :: members), n.ReadsBack) →
      readMembers fuel depth (quoted name ++ ':' :: (value.chars ++ (followingMembers members ++ rest))) =
        (membersOfJson ((name, value) :: members), some rest)
  | name, value, members, 0, depth, rest, long, deep, reads => by
      simp at long
  | name, value, [], fuel + 1, depth, rest, long, deep, reads => by
      simp only [followingMembers, List.length_append, List.length_cons, List.length_nil] at long
      have first := readValue_chars value fuel depth ('\x7d' :: rest)
        (by omega) (by simpa [depthOfMembers] using deep)
        (by simpa [numbersOfMembers] using reads) (by simp [Delimits])
      exact readMembers_last first
  | name, value, (nextName, next) :: members, fuel + 1, depth, rest, long, deep, reads => by
      rw [numbersOfMembers, List.forall_mem_append] at reads
      rw [depthOfMembers, Nat.max_le] at deep
      simp only [followingMembers, List.length_append, List.length_cons] at long
      have first := readValue_chars value fuel depth
        (followingMembers ((nextName, next) :: members) ++ rest) (by omega) deep.1 reads.1
        (delimits_followingMembers _ _)
      have behind := readMembers_chars nextName next members fuel depth rest
        (by simp; omega) deep.2 reads.2
      simp only [followingMembers, List.cons_append, List.append_assoc] at first ⊢
      exact readMembers_cons first behind

end

/-- The document of a value is read from its text, which ends there. -/
theorem Document.read_text {value : Json} (shallow : value.depth ≤ nestingLimit)
    (reads : ∀ n ∈ value.numbers, n.ReadsBack) :
    Document.read value.text = (Document.ofJson value, true) := by
  have all := readValue_chars value (2 * value.chars.length + 2) nestingLimit [] (by omega) shallow
    reads delimits_nil
  rw [List.append_nil] at all
  simp [Document.read, text, all, skipBlanks]

/-! ### Values of documents -/

/-- No object in the value repeats a name, and all numbers in it satisfy a condition. -/
inductive Proper (fits : Number → Prop) : Json → Prop
  | null : Proper fits .null
  | bool (value : Bool) : Proper fits (.bool value)
  | number {n : Number} (fit : fits n) : Proper fits (.number n)
  | string (value : String) : Proper fits (.string value)
  | array {items : List Json} (each : ∀ item ∈ items, Proper fits item) : Proper fits (.array items)
  | object {members : Members} (distinct : (members.map Prod.fst).Nodup)
      (each : ∀ member ∈ members, Proper fits member.2) : Proper fits (.object members)

theorem itemsToJson?_itemsOfJson {items : List Json}
    (each : ∀ item ∈ items, (Document.ofJson item).toJson? = some item) :
    itemsToJson? (itemsOfJson items) = some items := by
  induction items with
  | nil => rfl
  | cons item items ih =>
      obtain ⟨first, others⟩ := List.forall_mem_cons.1 each
      rw [itemsOfJson, itemsToJson?, first, ih others]

theorem membersToJson?_membersOfJson {members : Members}
    (each : ∀ member ∈ members, (Document.ofJson member.2).toJson? = some member.2) :
    membersToJson? (membersOfJson members) = some members := by
  induction members with
  | nil => rfl
  | cons member members ih =>
      obtain ⟨name, value⟩ := member
      obtain ⟨first, others⟩ := List.forall_mem_cons.1 each
      rw [membersOfJson, membersToJson?, first, ih others]

theorem numbersOfItems_eq (items : List Json) : numbersOfItems items = items.flatMap numbers := by
  induction items with
  | nil => rfl
  | cons item items ih => rw [numbersOfItems, ih, List.flatMap_cons]

theorem numbersOfMembers_eq (members : Members) :
    numbersOfMembers members = members.flatMap fun member => member.2.numbers := by
  induction members with
  | nil => rfl
  | cons member members ih => rw [numbersOfMembers, ih, List.flatMap_cons]

section

variable {fits : Number → Prop} {value : Json}

theorem Proper.numbers (proper : value.Proper fits) : ∀ n ∈ value.numbers, fits n := by
  induction proper with
  | number fit => simpa [Json.numbers] using fit
  | array _ each =>
      intro n member
      rw [Json.numbers, numbersOfItems_eq] at member
      obtain ⟨item, among, inside⟩ := List.mem_flatMap.1 member
      exact each item among n inside
  | object _ _ each =>
      intro n member
      rw [Json.numbers, numbersOfMembers_eq] at member
      obtain ⟨field, among, inside⟩ := List.mem_flatMap.1 member
      exact each field among n inside
  | _ => simp [Json.numbers]

/-- Where names differ, a value is what its document stands for. -/
theorem Proper.toJson?_ofJson (proper : value.Proper fits) :
    (Document.ofJson value).toJson? = some value := by
  induction proper with
  | array _ same =>
      rw [Document.ofJson, Document.toJson?, itemsToJson?_itemsOfJson same]
      rfl
  | object distinct _ same =>
      rw [Document.ofJson, Document.toJson?, membersToJson?_membersOfJson same, Option.map_some,
        ofRepeated_of_nodup distinct]
  | _ => rfl

/-- A value without repeated names is read back from its text. -/
theorem ofText?_text (proper : value.Proper Number.ReadsBack) (shallow : value.depth ≤ nestingLimit) :
    ofText? value.text = some value := by
  rw [ofText?, Document.read_text shallow proper.numbers]
  exact proper.toJson?_ofJson

end

end RelQuery.Json
