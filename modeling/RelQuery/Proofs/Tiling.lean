/-
Module: RelQuery.Proofs.Tiling
Purpose: The pages of a result tile it: in exact arithmetic, the windows of its pages stand one behind the
  other, share no place and leave none out. An offset that has stayed at the greatest count lies past every
  root, so that it changes no window.
Main exports: nearest?, PageRequest.window, PageRequest.window_eq, PageRequest.pages_tile
-/
import Mathlib.Data.UInt
import RelQuery.Page

namespace RelQuery

/-- The nearest number that is at least `low` and at most `high`. There is none if these are in the wrong
    order. -/
def nearest? (low high n : UInt64) : Option UInt64 :=
  if low ≤ high then some (if n < low then low else if high < n then high else n) else none

theorem toNat_le_maxCount (n : UInt64) : n.toNat ≤ maxCount := by
  have := n.toNat_lt
  unfold maxCount
  omega

theorem toNat_toUInt64 {n : Nat} (bound : n ≤ maxCount) : n.toUInt64.toNat = n := by
  rw [Nat.toUInt64_eq, UInt64.toNat_ofNat']
  unfold maxCount at bound
  exact Nat.mod_eq_of_lt (by omega)

namespace PageRequest

/-! ### Requests within bounds -/

section

variable (page : UInt64) (size : Option UInt64) (bounds : PageBounds)

theorem toNat_page_clamp : (clamp page size bounds).page.toNat = max page.toNat 1 := by
  rw [clamp, UInt64.toNat_max]
  rfl

theorem toNat_size_clamp : (clamp page size bounds).size.toNat =
    min (max (size.getD bounds.defaultSize).toNat 1) (max bounds.maxSize.toNat 1) := by
  rw [clamp, UInt64.toNat_min, UInt64.toNat_max, UInt64.toNat_max]
  rfl

/-- The bounds of a size are in order, and the granted size is the nearest one between them. -/
theorem nearest?_size : nearest? 1 (max bounds.maxSize 1) (size.getD bounds.defaultSize) =
    some (clamp page size bounds).size := by
  have one : (1 : UInt64).toNat = 1 := rfl
  have greatest := UInt64.toNat_max bounds.maxSize 1
  have ordered : (1 : UInt64) ≤ max bounds.maxSize 1 := by
    rw [UInt64.le_iff_toNat_le]
    omega
  rw [nearest?, if_pos ordered]
  refine congrArg some (UInt64.toNat.inj ?_)
  rw [toNat_size_clamp]
  split
  · rename_i small
    rw [UInt64.lt_iff_toNat_lt] at small
    omega
  · rename_i enough
    rw [UInt64.lt_iff_toNat_lt] at enough
    split
    · rename_i large
      rw [UInt64.lt_iff_toNat_lt] at large
      omega
    · rename_i fits
      rw [UInt64.lt_iff_toNat_lt] at fits
      omega

end

/-! ### Windows -/

/-- The places of the roots on the page, counted from zero: from the offset on as many as the page is long,
    cut at the total. -/
def window (request : PageRequest) (total : UInt64) : List Nat :=
  let start := min request.offset.toNat total.toNat
  let stop := min (request.offset.toNat + request.size.toNat) total.toNat
  List.range' start (stop - start)

theorem mem_window {request : PageRequest} {total : UInt64} {i : Nat} :
    i ∈ request.window total ↔
      request.offset.toNat ≤ i ∧ i < request.offset.toNat + request.size.toNat ∧ i < total.toNat := by
  rw [window, List.mem_range'_1]
  omega

theorem toNat_offset (request : PageRequest) :
    request.offset.toNat = min ((request.page.toNat - 1) * request.size.toNat) maxCount :=
  toNat_toUInt64 (Nat.min_le_right _ _)

/-- Where the offset stays at the greatest count, the window begins and ends at the total, as it does in
    exact arithmetic. -/
theorem window_eq {request : PageRequest} {k : Nat} (number : request.page.toNat = k + 1) (total : UInt64) :
    request.window total =
      List.range' (min (k * request.size.toNat) total.toNat)
        (min ((k + 1) * request.size.toNat) total.toNat - min (k * request.size.toNat) total.toNat) := by
  have bound := toNat_le_maxCount total
  have start : min request.offset.toNat total.toNat = min (k * request.size.toNat) total.toNat := by
    rw [toNat_offset, number, Nat.add_sub_cancel]
    omega
  have stop : min (request.offset.toNat + request.size.toNat) total.toNat =
      min ((k + 1) * request.size.toNat) total.toNat := by
    rw [toNat_offset, number, Nat.add_sub_cancel, Nat.succ_mul]
    omega
  rw [window, start, stop]

/-- The first windows, one behind the other, hold the first places. -/
theorem windows_of_first {requests : Nat → PageRequest} {size : Nat} (total : UInt64) :
    ∀ k, (∀ p, 1 ≤ p → p ≤ k → (requests p).page.toNat = p ∧ (requests p).size.toNat = size) →
      ((List.range' 1 k).flatMap fun p => (requests p).window total) =
        List.range (min (k * size) total.toNat)
  | 0, _ => by simp
  | k + 1, numbered => by
      obtain ⟨number, length⟩ := numbered (k + 1) (by omega) (by omega)
      have first := windows_of_first total k fun p low high => numbered p low (by omega)
      rw [List.range'_1_concat, List.flatMap_append, first, List.flatMap_singleton, Nat.add_comm 1 k,
        window_eq number, length, List.range_eq_range', List.range_eq_range']
      have grows : min (k * size) total.toNat ≤ min ((k + 1) * size) total.toNat := by
        rw [Nat.succ_mul]
        omega
      have joined := List.range'_append_1 (s := 0) (m := min (k * size) total.toNat)
        (n := min ((k + 1) * size) total.toNat - min (k * size) total.toNat)
      rwa [Nat.zero_add, Nat.add_sub_cancel' grows] at joined

/-! ### The number of pages -/

/-- A page is one of the pages that are filled if there is a root behind the pages before it. -/
theorem le_totalPages {total size : UInt64} (positive : 1 ≤ size.toNat) (k : Nat) :
    k + 1 ≤ (totalPages total size).toNat ↔ k * size.toNat < total.toNat := by
  have bound := toNat_le_maxCount total
  have length : max size.toNat 1 = size.toNat := Nat.max_eq_left positive
  have count : (total.toNat + size.toNat - 1) / size.toNat ≤ total.toNat := by
    rw [Nat.div_le_iff_le_mul_add_pred positive]
    have := Nat.le_mul_of_pos_left total.toNat positive
    omega
  rw [totalPages, length, toNat_toUInt64 (Nat.le_trans count bound), Nat.le_div_iff_mul_le positive,
    Nat.succ_mul]
  omega

theorem window_ne_nil_iff {request : PageRequest} (first : 1 ≤ request.page.toNat)
    (positive : 1 ≤ request.size.toNat) (total : UInt64) :
    request.window total ≠ [] ↔ request.page ≤ totalPages total request.size := by
  obtain ⟨k, number⟩ : ∃ k, request.page.toNat = k + 1 := ⟨request.page.toNat - 1, by omega⟩
  rw [window_eq number, ne_eq, List.range'_eq_nil_iff, UInt64.le_iff_toNat_le, number,
    le_totalPages positive, Nat.succ_mul]
  omega

/-- Later pages share no place with earlier ones. -/
theorem disjoint_window {first second : PageRequest} (same : first.size = second.size)
    (counted : 1 ≤ first.page.toNat) (later : first.page.toNat < second.page.toNat) (total : UInt64) :
    List.Disjoint (first.window total) (second.window total) := by
  intro i early late
  obtain ⟨k, number⟩ : ∃ k, first.page.toNat = k + 1 := ⟨first.page.toNat - 1, by omega⟩
  obtain ⟨m, numberLate⟩ : ∃ m, second.page.toNat = m + 1 := ⟨second.page.toNat - 1, by omega⟩
  rw [window_eq number, List.mem_range'_1] at early
  rw [window_eq numberLate, List.mem_range'_1, ← same] at late
  -- The earlier window ends where the later one begins, or before.
  have apart : (k + 1) * first.size.toNat ≤ m * first.size.toNat :=
    Nat.mul_le_mul_right _ (by omega)
  omega

/-! ### Pages of one size -/

section

variable (page : UInt64) (size : Option UInt64) (bounds : PageBounds) (total : UInt64)

theorem one_le_page_clamp : 1 ≤ (clamp page size bounds).page.toNat := by
  rw [toNat_page_clamp]
  omega

theorem one_le_size_clamp : 1 ≤ (clamp page size bounds).size.toNat := by
  rw [toNat_size_clamp]
  omega

theorem size_clamp_le : (clamp page size bounds).size ≤ max bounds.maxSize 1 := by
  have one : (1 : UInt64).toNat = 1 := rfl
  rw [UInt64.le_iff_toNat_le, toNat_size_clamp, UInt64.toNat_max]
  omega

/-- The windows of the pages that are counted hold all places. -/
theorem windows_cover :
    ((List.range' 1 (totalPages total (clamp page size bounds).size).toNat).flatMap fun number =>
      (clamp number.toUInt64 size bounds).window total) = List.range total.toNat := by
  obtain ⟨pages, counted⟩ : ∃ pages, pages = totalPages total (clamp page size bounds).size := ⟨_, rfl⟩
  have numbered : ∀ number, 1 ≤ number → number ≤ pages.toNat →
      (clamp number.toUInt64 size bounds).page.toNat = number ∧
        (clamp number.toUInt64 size bounds).size.toNat = (clamp page size bounds).size.toNat := by
    intro number low high
    refine ⟨?_, rfl⟩
    rw [toNat_page_clamp, toNat_toUInt64 (Nat.le_trans high (toNat_le_maxCount pages))]
    exact Nat.max_eq_left low
  have all : total.toNat ≤ pages.toNat * (clamp page size bounds).size.toNat := by
    -- Otherwise one page more would be counted.
    by_contra missing
    have more := (le_totalPages (one_le_size_clamp page size bounds) pages.toNat).2 (Nat.lt_of_not_le missing)
    rw [← counted] at more
    omega
  have tiled := windows_of_first total pages.toNat numbered
  rwa [Nat.min_eq_right all, counted] at tiled

theorem disjoint_window_clamp {number later : UInt64} (low : 1 ≤ number) (high : number < later) :
    List.Disjoint ((clamp number size bounds).window total) ((clamp later size bounds).window total) := by
  have one : (1 : UInt64).toNat = 1 := rfl
  rw [UInt64.le_iff_toNat_le, one] at low
  rw [UInt64.lt_iff_toNat_lt] at high
  have numberIs : (clamp number size bounds).page.toNat = number.toNat := by
    rw [toNat_page_clamp, Nat.max_eq_left low]
  have laterIs : (clamp later size bounds).page.toNat = later.toNat := by
    rw [toNat_page_clamp, Nat.max_eq_left (by omega)]
  have same : (clamp number size bounds).size = (clamp later size bounds).size := rfl
  exact disjoint_window same (numberIs ▸ low) (by rwa [numberIs, laterIs]) total

end

/-- Whatever page, size and bounds are given, the size is cut to bounds that are in order, the page counts
    from one, and its size lies between one and the greatest size that is granted. Whatever the total is, the
    window of the page reaches from its offset over its size, as far as there are roots; it has places exactly
    if the page is one of those that are counted; the windows of these, one behind the other, are all places
    from zero up to the total; and no two pages share a place. -/
theorem pages_tile (page : UInt64) (size : Option UInt64) (bounds : PageBounds) (total : UInt64) :
    let request := clamp page size bounds
    let pages := totalPages total request.size
    let windowOf := fun number : UInt64 => (clamp number size bounds).window total
    (nearest? 1 (max bounds.maxSize 1) (size.getD bounds.defaultSize) = some request.size ∧
      1 ≤ request.page ∧ 1 ≤ request.size ∧ request.size ≤ max bounds.maxSize 1) ∧
    (∀ i, i ∈ request.window total ↔ request.offset.toNat ≤ i ∧
      i < request.offset.toNat + request.size.toNat ∧ i < total.toNat) ∧
    (request.window total ≠ [] ↔ request.page ≤ pages) ∧
    ((List.range' 1 pages.toNat).flatMap fun number => windowOf number.toUInt64) =
      List.range total.toNat ∧
    ∀ number later : UInt64, 1 ≤ number → number < later →
      List.Disjoint (windowOf number) (windowOf later) := by
  intro request pages windowOf
  have first := one_le_page_clamp page size bounds
  have positive := one_le_size_clamp page size bounds
  exact ⟨⟨nearest?_size page size bounds, UInt64.le_iff_toNat_le.2 first, UInt64.le_iff_toNat_le.2 positive,
    size_clamp_le page size bounds⟩, fun _ => mem_window, window_ne_nil_iff first positive total,
    windows_cover page size bounds total, fun _ _ low high => disjoint_window_clamp size bounds total low high⟩

end PageRequest

end RelQuery
