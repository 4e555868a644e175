import RowFormula.Log.ExecutionLog

/-! The pages of a formula's entries. Offsets are computed in 64 bits and stop at the largest one,
which never shows, because a log has no more entries than that.
-/

namespace RowFormula

namespace ExecutionLog

/-- The entries of a formula, newest first. -/
def newestFirst (log : ExecutionLog) (formulaId : String) : List LogEntry :=
  (log.entries.filter (·.entry.formulaId == formulaId)).reverse

/-- The pages from the first one on, as many as given, one after another. -/
def firstPages (log : ExecutionLog) (formulaId : String) (size : UInt64) (count : Nat)
    : List LogEntry :=
  (List.range count).flatMap fun before => log.page formulaId (.ofNat (before + 1)) size

/-- The number of pages that are not empty. -/
def pageCount (log : ExecutionLog) (formulaId : String) (size : UInt64) : Nat :=
  ((log.newestFirst formulaId).length + (size.toNat - 1)) / size.toNat

/-- Pages of one size cut the entries of a formula into pieces. -/
structure CutIntoPages (log : ExecutionLog) (formulaId : String) (size : UInt64) (count : Nat)
    : Prop where
  /-- There are fewer pages than page numbers. -/
  numbered : count < UInt64.size
  together
    : ∀ pages, count ≤ pages → pages < UInt64.size →
        log.firstPages formulaId size pages = log.newestFirst formulaId
  full
    : ∀ page : UInt64, 1 ≤ page.toNat → page.toNat < count →
        (log.page formulaId page size).length = size.toNat
  nonempty
    : ∀ page : UInt64, 1 ≤ page.toNat → page.toNat ≤ count → log.page formulaId page size ≠ []
  empty : ∀ page : UInt64, count < page.toNat → log.page formulaId page size = []

variable {log : ExecutionLog} {formulaId : String} {size : UInt64}

-----------------------------------------------------------------------------------------
-- One page
-----------------------------------------------------------------------------------------

theorem length_newestFirst_le (log : ExecutionLog) (formulaId : String)
    : (log.newestFirst formulaId).length ≤ log.entries.length := by
  rw [newestFirst, List.length_reverse]
  exact List.length_filter_le _ _

/-- An offset that stopped at the largest one is beyond the end, as it would be otherwise. -/
theorem drop_pageOffset {α : Type} {items : List α} (fits : items.length ≤ maxOffset)
    (page size : UInt64)
    : items.drop (pageOffset page size) = items.drop ((page.toNat - 1) * size.toNat) := by
  rw [pageOffset]
  rcases Nat.le_total ((page.toNat - 1) * size.toNat) maxOffset with small | large
  · rw [Nat.min_eq_left small]
  · rw [Nat.min_eq_right large, List.drop_of_length_le fits,
      List.drop_of_length_le (Nat.le_trans fits large)]

/-- A page is a slice of the entries of its formula. -/
theorem page_eq (fits : log.entries.length ≤ maxOffset) (page : UInt64)
    : log.page formulaId page size
      = ((log.newestFirst formulaId).drop ((page.toNat - 1) * size.toNat)).take size.toNat := by
  have within := Nat.le_trans (log.length_newestFirst_le formulaId) fits
  rw [ExecutionLog.page, List.filter_reverse, ← newestFirst, drop_pageOffset within]

theorem length_page (fits : log.entries.length ≤ maxOffset) (page : UInt64)
    : (log.page formulaId page size).length
      = min size.toNat
          ((log.newestFirst formulaId).length - (page.toNat - 1) * size.toNat) := by
  rw [page_eq fits, List.length_take, List.length_drop]

/-- The entry at a place of a page stands as many places after the start of the page. -/
theorem getElem?_page (fits : log.entries.length ≤ maxOffset) (page : UInt64) {place : Nat}
    (inside : place < size.toNat)
    : (log.page formulaId page size)[place]?
      = (log.newestFirst formulaId)[(page.toNat - 1) * size.toNat + place]? := by
  rw [page_eq fits, List.getElem?_take_of_lt inside, List.getElem?_drop]

-----------------------------------------------------------------------------------------
-- All pages
-----------------------------------------------------------------------------------------

theorem firstPages_succ (log : ExecutionLog) (formulaId : String) (size : UInt64) (count : Nat)
    : log.firstPages formulaId size (count + 1)
      = log.firstPages formulaId size count
        ++ log.page formulaId (.ofNat (count + 1)) size := by
  rw [firstPages, List.range_succ, List.flatMap_append, List.flatMap_singleton]
  rfl

/-- The first pages hold the newest entries, by induction on their number. -/
theorem firstPages_eq_take (fits : log.entries.length ≤ maxOffset) {count : Nat}
    (numbered : count < UInt64.size)
    : log.firstPages formulaId size count
      = (log.newestFirst formulaId).take (count * size.toNat) := by
  induction count with
  | zero => rw [Nat.zero_mul, List.take_zero]; rfl
  | succ count ih =>
      have number : (UInt64.ofNat (count + 1)).toNat = count + 1 :=
        UInt64.toNat_ofNat_of_lt' numbered
      rw [firstPages_succ, ih (by omega), page_eq fits, number, Nat.add_sub_cancel,
        Nat.succ_mul, List.take_add]

/-- A page number is followed by one that is not empty as long as entries are left. -/
theorem lt_pageCount_iff (sized : 1 ≤ size.toNat) {pages : Nat}
    : pages < log.pageCount formulaId size
      ↔ pages * size.toNat < (log.newestFirst formulaId).length := by
  rw [pageCount, Nat.lt_iff_add_one_le, Nat.le_div_iff_mul_le sized, Nat.succ_mul]
  omega

theorem pageCount_lt (fits : log.entries.length ≤ maxOffset) (sized : 1 ≤ size.toNat)
    : log.pageCount formulaId size < UInt64.size := by
  have within := Nat.le_trans (log.length_newestFirst_le formulaId) fits
  have last : ¬ maxOffset < log.pageCount formulaId size := by
    rw [lt_pageCount_iff sized, Nat.not_lt]
    exact Nat.le_trans within (Nat.le_mul_of_pos_right maxOffset sized)
  calc log.pageCount formulaId size
    _ ≤ maxOffset := Nat.not_lt.mp last
    _ < UInt64.size := by decide

theorem cutIntoPages (fits : log.entries.length ≤ maxOffset) (sized : 1 ≤ size.toNat)
    : log.CutIntoPages formulaId size (log.pageCount formulaId size) where
  numbered := pageCount_lt fits sized
  together pages all numbered := by
    have reached : ¬ pages < log.pageCount formulaId size := Nat.not_lt.mpr all
    rw [lt_pageCount_iff sized] at reached
    rw [firstPages_eq_take fits numbered, List.take_of_length_le (Nat.not_lt.mp reached)]
  full page first inner := by
    -- The page after this one has an entry, so this one has no place left.
    have next := (lt_pageCount_iff sized).mp inner
    have start : page.toNat * size.toNat = (page.toNat - 1) * size.toNat + size.toNat := by
      rw [← Nat.succ_mul, Nat.succ_eq_add_one, Nat.sub_add_cancel first]
    rw [length_page fits]
    omega
  nonempty page first counted := by
    have before : page.toNat - 1 < log.pageCount formulaId size := by omega
    have start := (lt_pageCount_iff sized).mp before
    rw [← List.length_pos_iff, length_page fits]
    omega
  empty page later := by
    have before : ¬ page.toNat - 1 < log.pageCount formulaId size := by omega
    rw [lt_pageCount_iff sized] at before
    rw [← List.length_eq_zero_iff, length_page fits]
    omega

end ExecutionLog

/-- The pages of a log, whose length fits in 64 bits, partition the entries of a formula. Each page
is the slice of them, newest first, that starts after the pages before it, as if offsets were
unbounded; page 0 is the first page. Pages that are not of size zero hold all entries of the formula
and no others, each once, and only the last page that is not empty may have fewer entries than its
size.
-/
theorem pages_partition_entries (log : ExecutionLog) (formulaId : String)
    (fits : log.entries.length ≤ ExecutionLog.maxOffset)
    : (∀ page size : UInt64,
        (log.page formulaId page size).length ≤ size.toNat
        ∧ ∀ place < size.toNat,
            (log.page formulaId page size)[place]?
            = (log.newestFirst formulaId)[(max page.toNat 1 - 1) * size.toNat + place]?)
      ∧ ∀ size : UInt64, 1 ≤ size.toNat →
          log.CutIntoPages formulaId size (log.pageCount formulaId size) := by
  refine ⟨fun page size => ⟨?_, fun place inside => ?_⟩, fun size sized => ?_⟩
  · rw [ExecutionLog.length_page fits]
    exact Nat.min_le_left _ _
  · have first : max page.toNat 1 - 1 = page.toNat - 1 := by omega
    rw [ExecutionLog.getElem?_page fits page inside, first]
  · exact ExecutionLog.cutIntoPages fits sized

/-- Three entries of a formula on pages of two: the largest page of the largest size is empty. -/
theorem pages_partition_entries_odd
    : let entry (id : Nat) (formulaId : String) : LogEntry :=
        { id
          entry := { formulaId, context := {}, expression := "", components := [], rowIds := [] } }
      let log : ExecutionLog :=
        { entries := [entry 1 "f", entry 2 "g", entry 3 "f", entry 4 "f"] }
      let largest : UInt64 := .ofNat ExecutionLog.maxOffset
      log.entries.length ≤ ExecutionLog.maxOffset
      ∧ 1 ≤ (2 : UInt64).toNat
      ∧ log.CutIntoPages "f" 2 2
      ∧ log.page "f" 0 2 = [entry 4 "f", entry 3 "f"]
      ∧ log.page "f" 2 2 = [entry 1 "f"]
      ∧ log.page "f" largest largest = [] := by
  intro entry log largest
  have fits : log.entries.length ≤ ExecutionLog.maxOffset := by decide
  have two : log.pageCount "f" 2 = 2 := by decide +kernel
  have one : log.pageCount "f" largest = 1 := by decide +kernel
  obtain ⟨slice, cut⟩ := pages_partition_entries log "f" fits
  have pairs : log.CutIntoPages "f" 2 2 := two ▸ cut 2 (by decide)
  have whole : log.CutIntoPages "f" largest 1 := one ▸ cut largest (by decide)
  exact ⟨fits, by decide, pairs, rfl, rfl, whole.empty largest (by decide)⟩

end RowFormula
