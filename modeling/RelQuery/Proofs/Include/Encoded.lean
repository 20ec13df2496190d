/-
Module: RelQuery.Proofs.Include.Encoded
Purpose: Include trees written as JSON: an object with one member for each include, in order and with repeated
  relations. An include without options is the value true; any other is an object of the options that are set.
  Reading the text gives the tree back, repeated relations included.
Main exports: Include.encode, Include.encodeTree, Include.Expressible, Include.treeOfText_encodeTree
-/
import RelQuery.Include.Json
import RelQuery.Proofs.Filter.Encoded
import RelQuery.Proofs.Json.ReadBack

namespace RelQuery

open Sql
open Json (Document Members)

/-! ### Writing -/

namespace Include

/-- The members for the options that are set. -/
def setOptions (options : List (String × Option Json)) : Members :=
  options.filterMap fun (name, value?) => value?.map fun value => (name, value)

/-- The options of an include, some of them set. Nested includes are an option only if there are any. -/
def optionsOf (columns : Option (List String)) (filter : Option Filter) (lazy : Option Bool)
    (nested : Members) : List (String × Option Json) :=
  [("columns", columns.map fun names => .array (names.map .string)), ("filter", filter.map Filter.encode),
    ("lazy", lazy.map .bool), ("include", if nested.isEmpty then none else some (.object nested))]

mutual

/-- The value of an include: true if no option is set, else an object of those that are. -/
def encode : Include → Json
  | ⟨_, columns, filter, lazy, includes⟩ =>
    match setOptions (optionsOf columns filter lazy (encodeMembers includes)) with
    | [] => .bool true
    | options => .object options

/-- The members of a tree, one for each include, under the names of their relations. -/
def encodeMembers : List Include → Members
  | [] => []
  | first :: others => (first.relation, first.encode) :: encodeMembers others

end

/-- The tree as JSON. A relation that is requested twice is a name that occurs twice. -/
def encodeTree (tree : List Include) : Json := .object (encodeMembers tree)

/-- All filters can be written, at any depth. -/
inductive Expressible : Include → Prop
  | mk {relation : String} {columns : Option (List String)} {filter : Option Filter} {lazy : Option Bool}
      {includes : List Include} (writable : ∀ part ∈ filter, part.Expressible)
      (each : ∀ inner ∈ includes, Expressible inner) :
      Expressible ⟨relation, columns, filter, lazy, includes⟩

end Include

/-! ### Filters -/

/-- An integer fits a signed 64-bit word. -/
def Json.Number.FitsWord : Json.Number → Prop
  | .int n => Json.minSigned ≤ n ∧ n ≤ Json.maxSigned
  | .float _ => True

namespace Filter

/-- The value names each member once, and its integers fit a word. -/
abbrev IsProper (value : Json) : Prop := value.Proper Json.Number.FitsWord

theorem isProper_toJson {value : Literal} (json : value.IsJson) : IsProper value.toJson := by
  cases value with
  | int n => exact .number json
  | float x =>
      rw [Literal.toJson, if_pos (show x.isFinite = true from json)]
      exact .number trivial
  | date _ => exact json.elim
  | timestamp _ => exact json.elim
  | _ => constructor

theorem isProper_operand {op : FieldOp} (expressible : op.Expressible) : IsProper op.operand := by
  cases op with
  | compare operator value => exact isProper_toJson expressible.1
  | isIn values negated =>
      refine .array fun item member => ?_
      obtain ⟨value, among, rfl⟩ := List.mem_map.1 member
      exact isProper_toJson (expressible value among)
  | _ => constructor

theorem isProper_single {name : String} {value : Json} (proper : IsProper value) :
    IsProper (.object [(name, value)]) :=
  .object (List.nodup_singleton _) (by simpa using proper)

theorem isProper_encodeEach {parts : List Filter} (each : ∀ part ∈ parts, IsProper part.encode) :
    ∀ item ∈ encodeEach parts, IsProper item := by
  induction parts with
  | nil => simp [encodeEach]
  | cons part parts ih =>
      obtain ⟨first, others⟩ := List.forall_mem_cons.1 each
      rw [encodeEach]
      exact List.forall_mem_cons.2 ⟨first, ih others⟩

/-- Operators of conditions on related rows are written in a fixed order, each at most once. -/
theorem names_encode (conditions : RelationFilter) :
    (conditions.encode.map Prod.fst).Sublist relationOperators := by
  have part (operator : String) (part? : Option Filter) :
      ((encodeMember operator part?).map Prod.fst).Sublist [operator] := by
    cases part? <;> simp [encodeMember]
  have flag (operator : String) (flag? : Option Bool) :
      ((flagMember operator flag?).map Prod.fst).Sublist [operator] := by
    cases flag? <;> simp [flagMember]
  obtain ⟨someRow, noRow, everyRow, isEmpty, isNotEmpty⟩ := conditions
  rw [RelationFilter.encode]
  simp only [List.map_append]
  exact (part "some" _).append ((part "none" _).append ((part "every" _).append
    ((flag "isEmpty" _).append (flag "isNotEmpty" _))))

theorem isProper_conditions {conditions : RelationFilter}
    (each : ∀ part ∈ conditions.parts, IsProper part.encode) : IsProper (.object conditions.encode) := by
  refine .object ((names_encode conditions).nodup (by decide)) ?_
  have part (operator : String) {part? : Option Filter} (each : ∀ part ∈ part?, IsProper part.encode) :
      ∀ member ∈ encodeMember operator part?, IsProper member.2 := by
    cases part? with
    | none => simp [encodeMember]
    | some part => simpa [encodeMember] using each
  have flag (operator : String) (flag? : Option Bool) :
      ∀ member ∈ flagMember operator flag?, IsProper member.2 := by
    cases flag? with
    | none => simp [flagMember]
    | some b => simpa [flagMember] using Json.Proper.bool b
  obtain ⟨someRow, noRow, everyRow, isEmpty, isNotEmpty⟩ := conditions
  simp only [RelationFilter.parts, List.forall_mem_append, Option.mem_toList] at each
  rw [RelationFilter.encode]
  simp only [List.forall_mem_append]
  exact ⟨part _ each.1.1, part _ each.1.2, part _ each.2, flag _ _, flag _ _⟩

/-- A filter that can be written names each member once, and its integers fit a word. -/
theorem isProper_encode {filter : Filter} (expressible : filter.Expressible) : IsProper filter.encode := by
  induction expressible with
  | all _ each => exact isProper_single (.array (isProper_encodeEach each))
  | any _ each => exact isProper_single (.array (isProper_encodeEach each))
  | not _ part => exact isProper_single part
  | field _ expressible => exact isProper_single (isProper_single (isProper_operand expressible))
  | relation _ _ each => exact isProper_single (isProper_conditions each)

end Filter

/-! ### Reading options back -/

namespace Include

theorem membersOfJson_eq (members : Members) :
    Json.membersOfJson members = members.map fun member => (member.1, Document.ofJson member.2) := by
  induction members with
  | nil => rfl
  | cons member members ih => rw [Json.membersOfJson, ih, List.map_cons]

/-- The document of an option, null where it is not set. -/
def optionDocument (value? : Option Json) : Document := (value?.map Document.ofJson).getD .null

section

variable {options : List (String × Option Json)}

theorem setOptions_none (name : String) : setOptions ((name, none) :: options) = setOptions options := rfl

theorem setOptions_some (name : String) (value : Json) :
    setOptions ((name, some value) :: options) = (name, value) :: setOptions options := rfl

theorem mem_setOptions {name : String} {value : Json} :
    (name, value) ∈ setOptions options ↔ (name, some value) ∈ options := by
  simp [setOptions, List.mem_filterMap]

theorem names_setOptions (options : List (String × Option Json)) :
    ((setOptions options).map Prod.fst).Sublist (options.map Prod.fst) := by
  induction options with
  | nil => exact .slnil
  | cons first options ih =>
      obtain ⟨name, value?⟩ := first
      cases value? with
      | none => exact ih.cons name
      | some value => exact ih.cons_cons name

/-- Each option is found under its name. -/
theorem option_setOptions (distinct : (options.map Prod.fst).Nodup) {name : String} {value? : Option Json}
    (listed : (name, value?) ∈ options) :
    option (Json.membersOfJson (setOptions options)) name = optionDocument value? := by
  induction options with
  | nil => simp at listed
  | cons first options ih =>
      obtain ⟨other, held⟩ := first
      obtain ⟨fresh, others⟩ := List.nodup_cons.1 distinct
      rcases List.mem_cons.1 listed with same | later
      · obtain ⟨rfl, rfl⟩ := Prod.mk.inj same
        cases value? with
        | none =>
            have missing : (Json.membersOfJson (setOptions options)).lookup name = none := by
              rw [List.lookup_eq_none_iff, membersOfJson_eq]
              intro item member
              obtain ⟨field, written, rfl⟩ := List.mem_map.1 member
              have known := (names_setOptions options).subset (List.mem_map_of_mem written)
              exact bne_iff_ne.2 fun same => fresh (same ▸ known)
            rw [setOptions_none, option, missing]
            rfl
        | some value => simp [setOptions_some, Json.membersOfJson, option, optionDocument]
      · have apart : (name == other) = false := by
          refine beq_false_of_ne fun same => fresh ?_
          exact List.mem_map.2 ⟨_, later, same⟩
        cases held with
        | none => exact ih others later
        | some value =>
            rw [setOptions_some, Json.membersOfJson, option, List.lookup_cons, apart]
            exact ih others later

end

theorem columnsOf_names (columns : Option (List String)) :
    columnsOf (optionDocument (columns.map fun names => .array (names.map .string))) = .ok columns := by
  cases columns with
  | none => rfl
  | some names =>
      have each : stringsOf (Json.itemsOfJson (names.map .string)) = .ok names := by
        induction names with
        | nil => rfl
        | cons name names ih =>
            rw [List.map_cons, Json.itemsOfJson, Document.ofJson, stringsOf, ih]
            rfl
      rw [optionDocument, Option.map_some, Option.map_some, Option.getD_some, Document.ofJson, columnsOf, each]
      rfl

theorem lazyOf_flag (lazy : Option Bool) : lazyOf (optionDocument (lazy.map .bool)) = .ok lazy := by
  cases lazy <;> rfl

theorem filterValueOf_encode {filter : Option Filter} (writable : ∀ part ∈ filter, part.Expressible) :
    filterValueOf (optionDocument (filter.map Filter.encode)) = .ok (filter.map Filter.encode) := by
  cases filter with
  | none => rfl
  | some part =>
      have value := (Filter.isProper_encode (writable part rfl)).toJson?_ofJson
      obtain ⟨members, object⟩ := Filter.exists_encode_eq_object part
      rw [object] at value
      rw [Option.map_some, object, optionDocument, Option.map_some, Option.getD_some, Document.ofJson,
        filterValueOf]
      rw [Document.ofJson] at value
      · simp only [value]
      · simp

theorem filterOf_encode {filter : Option Filter} (writable : ∀ part ∈ filter, part.Expressible) :
    filterOf (filter.map Filter.encode) = .ok filter := by
  cases filter with
  | none => rfl
  | some part =>
      have read : Filter.ofJson part.encode = .ok part := Filter.readsBack (writable part rfl) ""
      rw [Option.map_some, filterOf, read]

/-- The nested includes are what the include option says. -/
theorem nestedOf_eq (members : List (String × Document)) :
    nestedOf members = nestedTree (option members "include") := by
  induction members with
  | nil => rfl
  | cons member members ih =>
      obtain ⟨name, document⟩ := member
      rw [nestedOf, option, List.lookup_cons]
      by_cases same : name = "include"
      · simp [same]
      · have differs : ("include" == name) = false := by simpa using Ne.symm same
        rw [if_neg same, differs, ih, option]

/-- The include is read back from the member for it. -/
def ReadsBack (request : Include) : Prop :=
  ofDocument request.relation (Document.ofJson request.encode) = .ok (some request)

theorem treeOfMembers_encodeMembers {tree : List Include} (each : ∀ request ∈ tree, request.ReadsBack) :
    treeOfMembers (Json.membersOfJson (encodeMembers tree)) = .ok tree := by
  induction tree with
  | nil => rfl
  | cons first others ih =>
      obtain ⟨read, rest⟩ := List.forall_mem_cons.1 each
      rw [encodeMembers, Json.membersOfJson, treeOfMembers, read, ih rest]
      rfl

section

variable (columns : Option (List String)) (filter : Option Filter) (lazy : Option Bool) (nested : Members)

theorem names_optionsOf :
    (optionsOf columns filter lazy nested).map Prod.fst = ["columns", "filter", "lazy", "include"] := rfl

theorem nodup_optionsOf : ((optionsOf columns filter lazy nested).map Prod.fst).Nodup := by
  rw [names_optionsOf]
  decide

/-- The options that are set are known and not repeated. -/
theorem areOptions_setOptions :
    areOptions ((Json.membersOfJson (setOptions (optionsOf columns filter lazy nested))).map Prod.fst) =
      true := by
  have names := names_setOptions (optionsOf columns filter lazy nested)
  have known : ∀ name ∈ (optionsOf columns filter lazy nested).map Prod.fst, name ∈ optionNames := by
    rw [names_optionsOf]
    decide
  have same : (Json.membersOfJson (setOptions (optionsOf columns filter lazy nested))).map Prod.fst =
      (setOptions (optionsOf columns filter lazy nested)).map Prod.fst := by
    simp [membersOfJson_eq]
  rw [same, areOptions, Bool.and_eq_true, List.all_eq_true, decide_eq_true_iff]
  exact ⟨fun name member => decide_eq_true (known name (names.subset member)),
    names.nodup (nodup_optionsOf columns filter lazy nested)⟩

end

/-- An object of options that are set is read as the include with these options. -/
theorem ofDocument_options {columns : Option (List String)} {filter : Option Filter} {lazy : Option Bool}
    {includes : List Include} (writable : ∀ part ∈ filter, part.Expressible)
    (each : ∀ inner ∈ includes, inner.ReadsBack) (relation : String) :
    ofDocument relation (Document.ofJson
        (.object (setOptions (optionsOf columns filter lazy (encodeMembers includes))))) =
      .ok (some ⟨relation, columns, filter, lazy, includes⟩) := by
  have distinct := nodup_optionsOf columns filter lazy (encodeMembers includes)
  have known := areOptions_setOptions columns filter lazy (encodeMembers includes)
  have nested : nestedTree (optionDocument
      (if (encodeMembers includes).isEmpty then none else some (.object (encodeMembers includes)))) =
        .ok includes := by
    have read := treeOfMembers_encodeMembers each
    split
    · rename_i nothing
      rw [List.isEmpty_iff.1 nothing] at read
      exact read
    · exact read
  rw [Document.ofJson, ofDocument, if_pos known, nestedOf_eq]
  rw [option_setOptions distinct (.head _),
    option_setOptions distinct (.tail _ (.head _)),
    option_setOptions distinct (.tail _ (.tail _ (.head _))),
    option_setOptions distinct (.tail _ (.tail _ (.tail _ (.head _))))]
  rw [withOptions, columnsOf_names, filterValueOf_encode writable, nested, lazyOf_flag]
  simp only [asShape, bind, Except.bind, filterOf_encode writable]
  rfl

/-- An include whose filters can be written is read back from the member for it. -/
theorem readsBack {request : Include} (expressible : request.Expressible) : request.ReadsBack := by
  induction expressible with
  | @mk relation columns filter lazy includes writable _ each =>
      rw [ReadsBack, encode]
      split
      · -- No option is set, so that the member says nothing but the relation.
        rename_i nothing
        obtain ⟨rfl, rfl, rfl, unnested⟩ :
            columns = none ∧ filter = none ∧ lazy = none ∧ encodeMembers includes = [] := by
          simpa [setOptions, optionsOf] using nothing
        cases includes with
        | nil => rfl
        | cons first others => simp [encodeMembers] at unnested
      · exact ofDocument_options writable each relation

/-! ### Texts of trees -/

/-- The integers in a tree fit a word. -/
theorem fitsWord_encodeMembers {tree : List Include}
    (each : ∀ request ∈ tree, ∀ n ∈ request.encode.numbers, n.FitsWord) :
    ∀ n ∈ (encodeTree tree).numbers, n.FitsWord := by
  rw [encodeTree, Json.numbers]
  induction tree with
  | nil => simp [encodeMembers, Json.numbersOfMembers]
  | cons first others ih =>
      obtain ⟨here, there⟩ := List.forall_mem_cons.1 each
      rw [encodeMembers, Json.numbersOfMembers, List.forall_mem_append]
      exact ⟨here, ih there⟩

theorem fitsWord_encode {request : Include} (expressible : request.Expressible) :
    ∀ n ∈ request.encode.numbers, n.FitsWord := by
  induction expressible with
  | @mk relation columns filter lazy includes writable _ each =>
      have nested := fitsWord_encodeMembers each
      rw [encode]
      split
      · simp [Json.numbers]
      intro n member
      rw [Json.numbers, Json.numbersOfMembers_eq] at member
      obtain ⟨⟨name, value⟩, written, inside⟩ := List.mem_flatMap.1 member
      have listed := mem_setOptions.1 written
      simp only [optionsOf, List.mem_cons, Prod.mk.injEq, List.not_mem_nil, or_false] at listed
      rcases listed with ⟨-, set⟩ | ⟨-, set⟩ | ⟨-, set⟩ | ⟨-, set⟩
      · obtain ⟨names, -, rfl⟩ := Option.map_eq_some_iff.1 set.symm
        simp [Json.numbers, Json.numbersOfItems_eq] at inside
      · obtain ⟨part, chosen, rfl⟩ := Option.map_eq_some_iff.1 set.symm
        exact (Filter.isProper_encode (writable part chosen)).numbers n inside
      · obtain ⟨flag, -, rfl⟩ := Option.map_eq_some_iff.1 set.symm
        simp [Json.numbers] at inside
      · split at set
        · contradiction
        · obtain rfl := Option.some.inj set
          exact nested n inside

/-- Reading the text of a tree gives the tree back, with its siblings in order and repeated relations at every
    depth, as long as the text is not nested too deeply and each floating-point number in it is read back from
    its own text. -/
theorem treeOfText_encodeTree {tree : List Include} (expressible : ∀ request ∈ tree, request.Expressible)
    (shallow : (encodeTree tree).depth ≤ Json.nestingLimit)
    (survive : ∀ x, .float x ∈ (encodeTree tree).numbers → (Json.Number.float x).ReadsBack) :
    treeOfText (encodeTree tree).text = .ok tree := by
  have reads : ∀ n ∈ (encodeTree tree).numbers, n.ReadsBack := by
    intro n member
    cases n with
    | int k =>
        obtain ⟨low, high⟩ := fitsWord_encodeMembers
          (fun request among => fitsWord_encode (expressible request among)) _ member
        exact Json.readsBack_int low (Int.le_trans high (by decide))
    | float x => exact survive x member
  have read : treeOfDocument (Document.ofJson (encodeTree tree)) = .ok tree :=
    treeOfMembers_encodeMembers fun request among => readsBack (expressible request among)
  simp only [treeOfText, Document.read_text shallow reads, read, if_true]

end Include

namespace Blog

/-- The comments of low number. -/
def earlyComments : Include := ⟨"comments", none, some (.field "id" (.compare .lt (.int 10))), none, []⟩

/-- The posts twice, once with the ids of those of some rank and with their comments twice. -/
def repeatedPosts : List Include :=
  [⟨"posts", some ["id"], some (.field "rank" (.compare .gt (.float 0.1))), some false,
    [.plain "comments", earlyComments]⟩, .plain "posts"]

/-- Repeated relations are read back at both depths. -/
theorem treeOfText_repeatedPosts :
    (Include.encodeTree repeatedPosts).depth ≤ Json.nestingLimit ∧
      Include.treeOfText (Include.encodeTree repeatedPosts).text = .ok repeatedPosts := by
  have shallow : (Include.encodeTree repeatedPosts).depth ≤ Json.nestingLimit := by decide
  have plain (relation : String) : (Include.plain relation).Expressible := .mk (by simp) (by simp)
  have early : earlyComments.Expressible := by
    refine .mk (fun part same => ?_) (by simp)
    obtain rfl := Option.mem_some.1 same
    exact .field (by decide) ⟨by simp [Literal.IsJson, Json.minSigned, Json.maxSigned], by simp⟩
  have finite : (0.1 : Float).isFinite = true := by decide +kernel
  have numbers : (Include.encodeTree repeatedPosts).numbers = [.float 0.1, .int 10] := by
    decide +kernel
  refine ⟨shallow, Include.treeOfText_encodeTree ?_ shallow ?_⟩
  · refine List.forall_mem_cons.2 ⟨.mk (fun part same => ?_) ?_, by simpa using plain "posts"⟩
    · obtain rfl := Option.mem_some.1 same
      exact .field (by decide) ⟨finite, by simp⟩
    · simpa using ⟨plain "comments", early⟩
  · intro x member
    have single : Json.Number.float x = .float 0.1 := by simpa [numbers] using member
    rw [single]
    decide +kernel

end Blog

end RelQuery
