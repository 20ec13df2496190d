/-
Module: RelQuery.Proofs.Reservations
Purpose: The names that a sequence of reservations hands out, beginning with none. Each is the one that the
  rule for names gives in view of the names before it, it is found after few candidates, and the log and the
  exposed names are exactly what was handed out.
Main exports: NameRequest, Names.reserveAll, Search, Chosen, Names.chosen_reserve, Names.reserved_in_sequence
-/
import RelQuery.Proofs.Names

namespace RelQuery

/-- A request for a name: the table that occurs, and the hint, if there is one. -/
structure NameRequest where
  table : String
  hint : Option String
deriving DecidableEq, Repr, Inhabited

/-- Reserves names one after the other. Beside the names that are handed out stands what is reserved then. -/
def Names.reserveAll (names : Names) : List NameRequest → List String × Names
  | [] => ([], names)
  | request :: requests =>
    let (name, names) := names.reserve request.table request.hint
    let (others, names) := names.reserveAll requests
    (name :: others, names)

/-! ### The rule for names -/

/-- A search through the numbered names of a table that goes on until one of them is free. Beginning with
    `number`, it looks at `tries` candidates and ends with the number `k`. -/
inductive Search (table : String) (taken : List String) : (number tries k : Nat) → Prop where
  | found {number : Nat} (free : numberedName table number ∉ taken) : Search table taken number 1 number
  | next {number tries k : Nat} (occupied : numberedName table number ∈ taken)
      (later : Search table taken (number + 1) tries k) : Search table taken number (tries + 1) k

/-- The name that a request gets in view of the exposed names. -/
inductive Chosen (exposed : List String) (request : NameRequest) : String → Prop where
  /-- The name of the table, if it is free. -/
  | bare (free : request.table ∉ exposed) : Chosen exposed request request.table
  /-- Else the hint, if it is not empty and free. -/
  | hinted {hint : String} (occupied : request.table ∈ exposed) (given : request.hint = some hint)
      (named : hint ≠ "") (free : hint ∉ exposed) : Chosen exposed request hint
  /-- Else the name of the table with the least number from two on that makes a free name. At most one
      candidate more is looked at than there are exposed names. -/
  | numbered {tries k : Nat} (occupied : request.table ∈ exposed)
      (unhinted : ∀ hint, request.hint = some hint → hint = "" ∨ hint ∈ exposed)
      (search : Search request.table exposed 2 tries k) (few : tries ≤ exposed.length + 1)
      (second : 2 ≤ k) (free : numberedName request.table k ∉ exposed)
      (least : ∀ j, 2 ≤ j → j < k → numberedName request.table j ∈ exposed) :
      Chosen exposed request (numberedName request.table k)

/-- Whatever the rule gives is free. -/
theorem Chosen.fresh {exposed : List String} {request : NameRequest} {name : String}
    (chosen : Chosen exposed request name) : name ∉ exposed := by
  cases chosen <;> assumption

/-- The name of the table is chosen exactly if it is free. -/
theorem Chosen.eq_table_iff {exposed : List String} {request : NameRequest} {name : String}
    (chosen : Chosen exposed request name) : name = request.table ↔ request.table ∉ exposed := by
  constructor
  · rintro rfl
    exact chosen.fresh
  · intro free
    cases chosen with
    | bare _ => rfl
    | hinted occupied => exact absurd occupied free
    | numbered occupied => exact absurd occupied free

/-- A name that is not the table's is the hint or a numbered name, and not empty. -/
theorem Chosen.hinted_or_numbered {exposed : List String} {request : NameRequest} {name : String}
    (chosen : Chosen exposed request name) (aliased : name ≠ request.table) :
    name ≠ "" ∧ (request.hint = some name ∨ ∃ k, 2 ≤ k ∧ name = numberedName request.table k) := by
  cases chosen with
  | bare _ => exact absurd rfl aliased
  | hinted _ given named _ => exact ⟨named, .inl given⟩
  | @numbered _ k _ _ _ _ second _ _ => exact ⟨by simp [numberedName], .inr ⟨k, second, rfl⟩⟩

/-! ### The search for a number -/

/-- A search passes over taken names alone and ends at a free one. -/
theorem Search.least {table : String} {taken : List String} {number tries k : Nat}
    (search : Search table taken number tries k) :
    number ≤ k ∧ numberedName table k ∉ taken ∧
      ∀ j, number ≤ j → j < k → numberedName table j ∈ taken := by
  induction search with
  | found free => exact ⟨Nat.le_refl _, free, fun j low high => by omega⟩
  | @next number tries k occupied _ ih =>
      obtain ⟨low, free, passed⟩ := ih
      refine ⟨by omega, free, fun j from_ upTo => ?_⟩
      rcases Nat.eq_or_lt_of_le from_ with rfl | later
      · exact occupied
      · exact passed j later upTo

/-- Where its result is free, the bounded search is the search that goes on, and it has ended in time. -/
theorem search_of_firstFree {table : String} {taken : List String} :
    ∀ {fuel number : Nat}, firstFree table taken fuel number ∉ taken →
      ∃ tries k, Search table taken number tries k ∧ tries ≤ fuel + 1 ∧
        firstFree table taken fuel number = numberedName table k
  | 0, number, free => ⟨1, number, .found free, by omega, rfl⟩
  | fuel + 1, number, free => by
      unfold firstFree at free ⊢
      split at free
      · rename_i occupied
        obtain ⟨tries, k, search, few, found⟩ := search_of_firstFree free
        exact ⟨tries + 1, k, .next occupied search, by omega, by rw [if_pos occupied, found]⟩
      · rename_i vacant
        exact ⟨1, number, .found vacant, by omega, by rw [if_neg vacant]⟩

namespace Names

/-! ### One reservation -/

/-- Where neither the bare name nor the hint will do, the least free number is found in time. -/
theorem chosen_numbered (names : Names) {request : NameRequest} (occupied : request.table ∈ names.exposed)
    (unhinted : ∀ hint, request.hint = some hint → hint = "" ∨ hint ∈ names.exposed) :
    Chosen names.exposed request
      (firstFree request.table names.exposed names.exposed.length 2) := by
  obtain ⟨tries, k, search, few, found⟩ :=
    search_of_firstFree (firstFree_not_mem request.table names.exposed 2)
  obtain ⟨second, free, least⟩ := search.least
  rw [found]
  exact .numbered occupied unhinted search few second free least

/-- A reservation hands out the name that the rule gives. -/
theorem chosen_reserve (names : Names) (request : NameRequest) :
    Chosen names.exposed request (names.reserve request.table request.hint).1 := by
  change Chosen names.exposed request (names.next request.table request.hint)
  by_cases occupied : request.table ∈ names.exposed
  · have taken : names.isExposed request.table = true := by simpa [isExposed] using occupied
    cases given : request.hint with
    | none =>
        have unhinted : ∀ hint, request.hint = some hint → hint = "" ∨ hint ∈ names.exposed := by
          simp [given]
        simpa [next, taken] using names.chosen_numbered occupied unhinted
    | some hint =>
        by_cases usable : hint ≠ "" ∧ hint ∉ names.exposed
        · have passes : (!hint.isEmpty && !names.isExposed hint) = true := by
            simpa [isExposed] using usable
          simpa [next, taken, passes] using Chosen.hinted occupied given usable.1 usable.2
        · have fails : ¬(!hint.isEmpty && !names.isExposed hint) = true := by
            simpa [isExposed] using usable
          have unhinted : ∀ other, request.hint = some other → other = "" ∨ other ∈ names.exposed := by
            rintro other same
            obtain rfl : hint = other := Option.some.inj (given ▸ same)
            by_cases blank : hint = ""
            · exact .inl blank
            · exact .inr (by simpa [blank] using usable)
          simpa only [next, taken, Bool.not_true, Bool.false_eq_true, if_false, if_neg fails] using
            names.chosen_numbered occupied unhinted
  · have free : names.isExposed request.table = false := by simpa [isExposed] using occupied
    simpa [next, free] using Chosen.bare occupied

/-! ### Sequences of reservations -/

/-- Every request is answered. -/
theorem length_reserveAll (names : Names) (requests : List NameRequest) :
    (names.reserveAll requests).1.length = requests.length := by
  induction requests generalizing names with
  | nil => rfl
  | cons request requests ih => simp [reserveAll, ih]

/-- The log goes on with the tables and the names that they got, in the order of the requests. -/
theorem reservations_reserveAll (names : Names) (requests : List NameRequest) :
    (names.reserveAll requests).2.reservations =
      names.reservations ++ (requests.map NameRequest.table).zip (names.reserveAll requests).1 := by
  induction requests generalizing names with
  | nil => simp [reserveAll]
  | cons request requests ih => simp [reserveAll, ih, reserve]

theorem exposed_reserveAll (names : Names) (requests : List NameRequest) :
    (names.reserveAll requests).2.exposed = names.exposed ++ (names.reserveAll requests).1 := by
  have answered := names.length_reserveAll requests
  rw [exposed, exposed, reservations_reserveAll, List.map_append, List.map_snd_zip]
  simp [answered]

theorem reserveAll_append (names : Names) (first second : List NameRequest) :
    (names.reserveAll (first ++ second)).2 = ((names.reserveAll first).2.reserveAll second).2 := by
  induction first generalizing names with
  | nil => rfl
  | cons request requests ih => exact ih _

/-- Each request gets the name that the rule gives in view of the names before it. -/
theorem chosen_reserveAll (names : Names) (requests : List NameRequest) (i : Nat) {request : NameRequest}
    (asked : requests[i]? = some request) :
    ∃ name, (names.reserveAll requests).1[i]? = some name ∧
      Chosen (names.exposed ++ (names.reserveAll requests).1.take i) request name := by
  induction requests generalizing names i with
  | nil => simp at asked
  | cons first requests ih =>
      cases i with
      | zero =>
          obtain rfl : first = request := by simpa using asked
          have chosen := names.chosen_reserve first
          exact ⟨_, rfl, by rwa [List.take_zero, List.append_nil]⟩
      | succ i =>
          obtain ⟨name, answered, chosen⟩ := ih (names.reserve first.table first.hint).2 i (by simpa using asked)
          refine ⟨name, by simpa [reserveAll] using answered, ?_⟩
          simpa [reserveAll] using chosen

/-- An entry of the log goes back to a request that got the name in view of the entries before it. -/
theorem exists_chosen_of_entry {requests : List NameRequest} {before after : List (String × String)}
    {table name : String}
    (logged : (empty.reserveAll requests).2.reservations = before ++ (table, name) :: after) :
    ∃ request ∈ requests, request.table = table ∧ Chosen (before.map Prod.snd) request name := by
  rw [reservations_reserveAll, empty, List.nil_append] at logged
  have named : (empty.reserveAll requests).1 = before.map Prod.snd ++ name :: after.map Prod.snd := by
    have names := congrArg (List.map Prod.snd) logged
    rwa [List.map_snd_zip (by simp [length_reserveAll]), List.map_append, List.map_cons] at names
  have asked : requests.map NameRequest.table = before.map Prod.fst ++ table :: after.map Prod.fst := by
    have tables := congrArg (List.map Prod.fst) logged
    rwa [List.map_fst_zip (by simp [length_reserveAll]), List.map_append, List.map_cons] at tables
  obtain ⟨request, at_, rfl⟩ : ∃ request, requests[before.length]? = some request ∧ request.table = table := by
    have entry := congrArg (·[before.length]?) asked
    simpa using entry
  obtain ⟨other, answered, chosen⟩ := empty.chosen_reserveAll requests before.length at_
  rw [named] at answered chosen
  obtain rfl : name = other := by simpa using answered
  refine ⟨request, List.mem_of_getElem? at_, rfl, ?_⟩
  simpa [exposed, empty] using chosen

/-- Names that are handed out differ from the ones before them. -/
theorem nodup_reserveAll (names : Names) (distinct : names.exposed.Nodup) (requests : List NameRequest) :
    (names.reserveAll requests).2.exposed.Nodup := by
  induction requests generalizing names with
  | nil => exact distinct
  | cons request requests ih =>
      refine ih (names.reserve request.table request.hint).2 ?_
      rw [exposed_reserve, List.nodup_append]
      refine ⟨distinct, List.nodup_singleton _, ?_⟩
      rintro name member other single rfl
      obtain rfl := List.mem_singleton.1 single
      exact names.reserve_fresh request.table request.hint member

/-- Beginning with no names, each request of a sequence gets the name that the rule gives in view of the
    names handed out before it, and none of these. Afterwards, exactly the names that were handed out are
    exposed; they are distinct; the log lists each beside its table, in the order of the requests; and the
    names of a table are those that its requests got. -/
theorem reserved_in_sequence (requests : List NameRequest) :
    let returned := (empty.reserveAll requests).1
    let names := (empty.reserveAll requests).2
    (∀ (i : Nat) (request : NameRequest), requests[i]? = some request →
      ∃ name, returned[i]? = some name ∧ name ∉ returned.take i ∧
        Chosen (returned.take i) request name) ∧
    (∀ name, names.isExposed name = true ↔ name ∈ returned) ∧
    returned.length = requests.length ∧ returned.Nodup ∧
    names.reservations = (requests.map NameRequest.table).zip returned ∧
    ∀ table, names.namesFor table =
      ((requests.zip returned).filter fun answer => answer.1.table == table).map Prod.snd := by
  intro returned names
  have exposed : names.exposed = returned := empty.exposed_reserveAll requests
  have logged : names.reservations = (requests.map NameRequest.table).zip returned :=
    empty.reservations_reserveAll requests
  refine ⟨?_, ?_, empty.length_reserveAll requests, ?_, logged, ?_⟩
  · intro i request asked
    obtain ⟨name, answered, chosen⟩ := empty.chosen_reserveAll requests i asked
    exact ⟨name, answered, chosen.fresh, chosen⟩
  · intro name
    rw [isExposed, exposed, decide_eq_true_iff]
  · rw [← exposed]
    exact empty.nodup_reserveAll List.nodup_nil requests
  · intro table
    rw [namesFor, logged, List.zip_map_left, List.filter_map, List.map_map]
    rfl

/-- A numbered name may be taken by a table of that name, and a hint by any other name. -/
example : (empty.reserveAll [⟨"people", none⟩, ⟨"people_2", none⟩, ⟨"people", some "people_2"⟩,
    ⟨"people", some "boss"⟩]).1 = ["people", "people_2", "people_3", "boss"] := by
  decide

end Names

end RelQuery
