import Mathlib.Data.List.GetD
import Mathlib.Data.List.Nodup

namespace Data.Paged

variable {V : Type} (block_size : Nat) (table : List Nat)

/-- Where the table is over it names block 0. -/
def read (store : Nat → Nat → V) (place : Nat) : V :=
  store (table.getD (place / block_size) 0) (place % block_size)

def write (store : Nat → Nat → V) (place : Nat) (value : V) : Nat → Nat → V :=
  fun block offset =>
    if block = table.getD (place / block_size) 0 ∧ offset = place % block_size then value
    else store block offset

/-- Values at the places from one on. -/
def write_all (store : Nat → Nat → V) : Nat → List V → Nat → Nat → V
  | _, [] => store
  | start, value :: values =>
      write_all (write block_size table store start value) (start + 1) values

def contents (store : Nat → Nat → V) (n : Nat) : List V :=
  (List.range n).map (read block_size table store)

/-- The first places hold these values: the place of a value is its page in the table and the offset
in the page, and there are pages enough. -/
structure Keeps (store : Nat → Nat → V) (values : List V) : Prop where
  fits : values.length ≤ table.length * block_size
  contents_eq : contents block_size table store values.length = values

variable {block_size table} {store : Nat → Nat → V}

theorem div_lt_of_lt {place : Nat} (h : place < table.length * block_size) :
    place / block_size < table.length :=
  Nat.div_lt_of_lt_mul (Nat.mul_comm _ _ ▸ h)

/-- Two places of blocks that differ are not the same. -/
theorem read_write (hTable : table.Nodup) {place other : Nat} {value : V}
    (hPlace : place < table.length * block_size) (hOther : other < table.length * block_size) :
    read block_size table (write block_size table store place value) other =
      if other = place then value else read block_size table store other := by
  unfold read write
  by_cases hSame : other = place
  · rw [if_pos hSame, hSame, if_pos ⟨rfl, rfl⟩]
  · rw [if_neg hSame, if_neg]
    rintro ⟨hBlock, hOffset⟩
    have hPlace' := div_lt_of_lt hPlace
    have hOther' := div_lt_of_lt hOther
    rw [List.getD_eq_getElem _ _ hPlace', List.getD_eq_getElem _ _ hOther',
      hTable.getElem_inj_iff] at hBlock
    refine hSame ?_
    rw [← Nat.div_add_mod other block_size, ← Nat.div_add_mod place block_size, hBlock, hOffset]

theorem read_write_all (hTable : table.Nodup) {start other : Nat} {values : List V}
    (hFits : start + values.length ≤ table.length * block_size)
    (hOther : other < table.length * block_size) :
    read block_size table (write_all block_size table store start values) other =
      if start ≤ other then values.getD (other - start) (read block_size table store other)
      else read block_size table store other := by
  induction values generalizing store start with
  | nil => simp [write_all]
  | cons value values ih =>
      rw [List.length_cons] at hFits
      rw [write_all, ih (by omega), read_write hTable (by omega) hOther]
      by_cases hSame : other = start
      · rw [if_neg (by omega), if_pos hSame, if_pos (by omega), hSame, Nat.sub_self]
        rfl
      · rw [if_neg hSame]
        by_cases hLe : start ≤ other
        · obtain ⟨k, rfl⟩ : ∃ k, other = start + 1 + k := ⟨other - (start + 1), by omega⟩
          rw [if_pos (by omega), if_pos hLe, Nat.add_sub_cancel_left,
            show start + 1 + k - start = k + 1 by omega, List.getD_cons_succ]
        · rw [if_neg (by omega), if_neg hLe]

/-- What is written behind the contents is put behind them. -/
theorem contents_write_all (hTable : table.Nodup) {start : Nat} {values : List V}
    (hFits : start + values.length ≤ table.length * block_size) :
    contents block_size table (write_all block_size table store start values)
      (start + values.length) = contents block_size table store start ++ values := by
  unfold contents
  rw [List.range_add, List.map_append]
  congr 1
  · refine List.map_congr_left fun i hi => ?_
    have hLt := List.mem_range.mp hi
    rw [read_write_all hTable hFits (by omega), if_neg (by omega)]
  · refine List.ext_getElem (by simp) fun i hi hi' => ?_
    rw [List.getElem_map, List.getElem_map, List.getElem_range,
      read_write_all hTable hFits (by omega), if_pos (by omega), Nat.add_sub_cancel_left,
      List.getD_eq_getElem _ _ hi']

theorem getD_append_of_lt {more : List Nat} {place : Nat}
    (hPlace : place < table.length * block_size) :
    (table ++ more).getD (place / block_size) 0 = table.getD (place / block_size) 0 :=
  List.getD_append _ _ _ _ (div_lt_of_lt hPlace)

/-- The table may grow behind the places that are in use. -/
theorem contents_append {more : List Nat} {n : Nat} (hFits : n ≤ table.length * block_size) :
    contents block_size (table ++ more) store n = contents block_size table store n := by
  refine List.map_congr_left fun i hi => ?_
  unfold read
  rw [getD_append_of_lt (Nat.lt_of_lt_of_le (List.mem_range.mp hi) hFits)]

theorem write_all_append {more : List Nat} {start : Nat} {values : List V}
    (hFits : start + values.length ≤ table.length * block_size) :
    write_all block_size (table ++ more) store start values =
      write_all block_size table store start values := by
  induction values generalizing store start with
  | nil => rfl
  | cons value values ih =>
      rw [List.length_cons] at hFits
      have hWrite : write block_size (table ++ more) store start value =
          write block_size table store start value := by
        unfold write
        rw [getD_append_of_lt (by omega)]
      rw [write_all, write_all, hWrite]
      exact ih (by omega)

/-- Only the blocks of the table are written. -/
theorem write_all_of_notMem {start block : Nat} {values : List V} (hBlock : block ∉ table)
    (hFits : start + values.length ≤ table.length * block_size) :
    write_all block_size table store start values block = store block := by
  induction values generalizing store start with
  | nil => rfl
  | cons value values ih =>
      rw [List.length_cons] at hFits
      have hPlace : start / block_size < table.length := div_lt_of_lt (by omega)
      have hOther : block ≠ table.getD (start / block_size) 0 := by
        rw [List.getD_eq_getElem _ _ hPlace]
        exact fun hSame => hBlock (hSame ▸ List.getElem_mem hPlace)
      rw [write_all, ih (by omega)]
      funext offset
      exact if_neg fun h => hOther h.1

/-- The contents depend on the blocks of the table only. -/
theorem contents_congr {store' : Nat → Nat → V} {n : Nat}
    (hSame : ∀ block ∈ table, store block = store' block)
    (hFits : n ≤ table.length * block_size) :
    contents block_size table store n = contents block_size table store' n := by
  refine List.map_congr_left fun i hi => ?_
  have hPlace := div_lt_of_lt (Nat.lt_of_lt_of_le (List.mem_range.mp hi) hFits)
  unfold read
  rw [List.getD_eq_getElem _ _ hPlace, hSame _ (List.getElem_mem hPlace)]

namespace Keeps

variable {values : List V}

theorem nil : Keeps block_size table store ([] : List V) := ⟨Nat.zero_le _, rfl⟩

theorem grow (h : Keeps block_size table store values) (more : List Nat) :
    Keeps block_size (table ++ more) store values where
  fits := by
    rw [List.length_append, Nat.add_mul]
    exact Nat.le_add_right_of_le h.fits
  contents_eq := (contents_append h.fits).trans h.contents_eq

theorem congr (h : Keeps block_size table store values) {store' : Nat → Nat → V}
    (hSame : ∀ block ∈ table, store' block = store block) :
    Keeps block_size table store' values :=
  ⟨h.fits, (contents_congr hSame h.fits).trans h.contents_eq⟩

/-- Writes through a table with more blocks, which are out of reach. -/
theorem write_all (h : Keeps block_size table store values) (hTable : table.Nodup)
    {more : List Nat} {start : Nat} {later : List V} (hStart : values.length = start)
    (hFits : start + later.length ≤ table.length * block_size) :
    Keeps block_size table (write_all block_size (table ++ more) store start later)
      (values ++ later) := by
  subst hStart
  rw [write_all_append hFits]
  refine ⟨?_, ?_⟩
  · rw [List.length_append]
    exact hFits
  · rw [List.length_append, contents_write_all hTable hFits, h.contents_eq]

end Keeps

end Data.Paged
