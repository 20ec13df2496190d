/-
Module: RelQuery.Session.Lazy
Purpose: Loading deferred relations. All placeholders of one relation are filled from one batch: a statement
  for the targets of their keys, behind one for the pivot rows where the relation has a pivot. All
  batches are fetched before any object is changed, so that a failure leaves the objects as they were.
Main exports: Site, sites, pendingKeys, Groups, fetch, fill, Output.loadAll
-/
import RelQuery.Session.Run

namespace RelQuery

open Sql
open Json (Members)

/-! ### Sites -/

/-- A deferred relation and the path of joined relations that leads to its sources. -/
structure Site where
  path : List String
  load : LazyLoad

mutual

/-- The deferred relations of a plan, those of an occurrence before those below it. -/
def sitesFrom (path : List String) : Projection → List Site
  | ⟨_, _, _, _, _, includes, lazy⟩ =>
    lazy.map (fun load => ⟨path, load⟩) ++ sitesOfNodes path includes

/-- The deferred relations below joined relations. -/
def sitesOfNodes (path : List String) : List IncludeNode → List Site
  | [] => []
  | ⟨relation, _, projection⟩ :: nodes =>
    sitesFrom (path ++ [relation]) projection ++ sitesOfNodes path nodes

end

/-- The deferred relations of a plan. -/
def sites (plan : Projection) : List Site := sitesFrom [] plan

mutual

/-- The objects that a path of relations leads to. Arrays on the way are passed through. -/
def objectsAt (path : List String) : Json → List Members
  | .array items => objectsOfItems path items
  | .object members =>
    match path with
    | [] => [members]
    | relation :: path => objectsOfMember relation path members
  | _ => []

/-- The objects that a path leads to from the items of an array. -/
def objectsOfItems (path : List String) : List Json → List Members
  | [] => []
  | item :: items => objectsAt path item ++ objectsOfItems path items

/-- The objects that a path leads to from the first member of a name. -/
def objectsOfMember (name : String) (path : List String) : List (String × Json) → List Members
  | [] => []
  | (n, value) :: members => if n = name then objectsAt path value else objectsOfMember name path members

end

mutual

/-- Changes the objects that a path of relations leads to. -/
def changeObjectsAt (change : Members → Members) (path : List String) : Json → Json
  | .array items => .array (changeItems change path items)
  | .object members =>
    match path with
    | [] => .object (change members)
    | relation :: path => .object (changeMember change relation path members)
  | value => value

/-- Changes the objects that a path leads to from the items of an array. -/
def changeItems (change : Members → Members) (path : List String) : List Json → List Json
  | [] => []
  | item :: items => changeObjectsAt change path item :: changeItems change path items

/-- Changes the objects that a path leads to from the first member of a name. -/
def changeMember (change : Members → Members) (name : String) (path : List String) :
    List (String × Json) → List (String × Json)
  | [] => []
  | (n, value) :: members =>
    if n = name then (n, changeObjectsAt change path value) :: members
    else (n, value) :: changeMember change name path members

end

/-! ### Keys and groups -/

/-- Adds a key unless one with the same text is there already. -/
def addKey (keys : List Json) (key : Json) : List Json :=
  if keys.any fun k => k.text == key.text then keys else keys ++ [key]

/-- The keys without those whose text occurred before. -/
def distinctKeys (keys : List Json) : List Json := keys.foldl addKey []

/-- The key of the placeholder in the field of a relation. -/
def pendingKey? (relation : String) (members : Members) : Option Json :=
  (Members.get? members relation).bind LazyRef.key?

/-- The keys of the placeholders at a site, each once, in the order of the objects. -/
def pendingKeys (rows : List Json) (site : Site) : List Json :=
  distinctKeys ((objectsOfItems site.path rows).filterMap (pendingKey? site.load.relation))

/-- Loaded objects under the texts of the keys that they belong to. -/
abbrev Groups := List (String × List Json)

/-- Appends an object to the group of a key. -/
def Groups.add (groups : Groups) (key value : Json) : Groups :=
  alterKeyed key.text (fun group => group.getD [] ++ [value]) groups

/-- The objects of a group. -/
def Groups.of (groups : Groups) (key : Json) : List Json := (groups.lookup key.text).getD []

/-- The field of a JSON object. -/
def fieldOf? (value : Json) (name : String) : Option Json :=
  match value with
  | .object members => Members.get? members name
  | _ => none

/-- Keys as literals. Arrays and objects are none and are left out. -/
def keyLiterals (keys : List Json) : List Literal := keys.filterMap Literal.ofJson?

/-- Targets grouped by the value of their link column. -/
def groupDirect (column : String) (targets : List Json) : Groups :=
  targets.foldl (fun groups target =>
    match fieldOf? target column with
    | some key => Groups.add groups key target
    | none => groups) []

/-- The last target whose column has the text of a key. -/
def targetOfKey? (column : String) (targets : List Json) (key : Json) : Option Json :=
  targets.reverse.find? fun target =>
    match fieldOf? target column with
    | some k => k.text == key.text
    | none => false

/-- The column of a pivot statement that holds the keys of the sources. -/
def parentKeyColumn : String := "parent_key"

/-- The column of a pivot statement that holds the keys of the targets. -/
def childKeyColumn : String := "child_key"

/-- Targets grouped through the rows of a pivot table, in the order of these rows. -/
def groupPivot (column : String) (links : List Row) (targets : List Json) : Groups :=
  links.foldl (fun groups link =>
    match Members.get? link parentKeyColumn, Members.get? link childKeyColumn with
    | some parent, some child =>
      match targetOfKey? column targets child with
      | some target => Groups.add groups parent target
      | none => groups
    | _, _ => groups) []

/-- The keys of the targets in the rows of a pivot table, each once. -/
def childKeys (links : List Row) : List Json :=
  distinctKeys ((links.filterMap fun link => Members.get? link childKeyColumn).filter fun key =>
    !key.isNull)

/-- The statement for the rows of a pivot table that belong to keys. -/
def pivotQuery (pivot : Table) (sourceColumn targetColumn : String) (keys : List Json) : Query :=
  { Query.empty with
    select := [⟨Expr.of pivot.name sourceColumn, some parentKeyColumn⟩,
      ⟨Expr.of pivot.name targetColumn, some childKeyColumn⟩]
    source := some (occurrence pivot pivot.name)
    condition := some
      (.inList (Expr.of pivot.name sourceColumn) ((keyLiterals keys).map .param) false) }

/-- The selection of the targets whose column holds one of the keys. The column is always selected. -/
def targetSelection (table : Table) (load : LazyLoad) (column : String) (keys : List Json) : Selection :=
  { Selection.ofTable table with
    columns := load.columns.map fun columns =>
      if column ∈ columns then columns else columns ++ [column]
    filters := .field column (.isIn (keyLiterals keys) false) :: load.filter.toList
    includes := load.includes }

/-! ### Loading -/

/-- What stands in the field of a relation once its group is known. -/
def loadedValue (kind : RelationKind) (group : List Json) : Json :=
  if kind.isToMany then .array group else group.head?.getD .null

/-- Fills the placeholder of a relation in an object. -/
def fillObject (load : LazyLoad) (groups : Groups) (members : Members) : Members :=
  match pendingKey? load.relation members with
  | some key => Members.set members load.relation (loadedValue load.kind (groups.of key))
  | none => members

/-- Fills the placeholders at a site. -/
def fill (rows : List Json) (site : Site) (groups : Groups) : List Json :=
  rows.map (changeObjectsAt (fillObject site.load groups) site.path)

/-- Fills the placeholders of all sites from their groups. -/
def fillAll (rows : List Json) (batches : List (Site × Groups)) : List Json :=
  batches.foldl (fun rows (site, groups) => fill rows site groups) rows

mutual

/-- How deep an include goes. -/
def Include.depth : Include → Nat
  | ⟨_, _, _, _, includes⟩ => depthOfIncludes includes + 1

/-- How deep a tree of includes goes. -/
def depthOfIncludes : List Include → Nat
  | [] => 0
  | request :: requests => max request.depth (depthOfIncludes requests)

end

/-- How many rounds of loading the deferred relations of a plan may take. -/
def rounds (plan : Projection) : Nat :=
  (sites plan).foldl (fun n site => max n (depthOfIncludes site.load.includes + 1)) 0

section

variable {σ : Type} (registry : Registry) (executor : Executor σ)

/-- The targets of keys, loaded by way of `loadAll` for what is deferred below them. -/
def loadTargets (loadAll : Output → SessionM σ Output) (load : LazyLoad) (column : String)
    (keys : List Json) : SessionM σ (List Json) := do
  let table ← SessionM.ofExcept (registry.table load.target)
  let output ← (targetSelection table load column keys).execute registry executor
  let output ← loadAll output
  return output.rows

/-- The groups of a deferred relation. Without keys no statement is issued, nor is one for targets where
    the pivot table has no rows. -/
def fetch (loadAll : Output → SessionM σ Output) (load : LazyLoad) (keys : List Json) :
    SessionM σ Groups :=
  if keys.isEmpty then pure []
  else
    match load.link with
    | .direct targetColumn => do
      let targets ← loadTargets registry executor loadAll load targetColumn keys
      return groupDirect targetColumn targets
    | .pivot pivotName sourceColumn targetColumn targetKey => do
      let pivot ← SessionM.ofExcept (registry.table pivotName)
      let query := pivotQuery pivot sourceColumn targetColumn keys
      let statement ← SessionM.ofExcept (query.compile executor.dialect)
      let links ← executor.run statement
      let children := childKeys links
      if children.isEmpty then return []
      else
        let targets ← loadTargets registry executor loadAll load targetKey children
        return groupPivot targetKey links targets

/-- Loads the deferred relations of an output, site by site, with a bound on the rounds. -/
def loadRounds : (fuel : Nat) → Output → SessionM σ Output
  | 0, output => pure output
  | fuel + 1, output => do
    let batches ← (sites output.plan).mapM fun site => do
      let groups ← fetch registry executor (loadRounds fuel) site.load (pendingKeys output.rows site)
      return (site, groups)
    return { output with rows := fillAll output.rows batches }

/-- Loads all deferred relations of an output. -/
def Output.loadAll (output : Output) : SessionM σ Output :=
  loadRounds registry executor (rounds output.plan) output

end

end RelQuery
