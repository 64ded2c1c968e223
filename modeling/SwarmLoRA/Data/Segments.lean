import Mathlib.Algebra.GroupWithZero.Nat
import Mathlib.Data.List.GetD
import Mathlib.Data.List.Nodup
import Mathlib.Logic.Function.Basic

namespace Data.Segments

variable {α : Type}

/-- `l[start : start + length]`. -/
def slice (l : List α) (start length : Nat) : List α := (l.drop start).take length

/-- Where segments of these lengths start if the first one starts there. -/
def starts : Nat → List Nat → List Nat
  | _, [] => []
  | first, length :: lengths => first :: starts (first + length) lengths

@[simp] theorem length_starts (first : Nat) (lengths : List Nat) :
    (starts first lengths).length = lengths.length := by
  induction lengths generalizing first with
  | nil => rfl
  | cons length lengths ih => simp [starts, ih]

theorem starts_append (first : Nat) (lengths lengths' : List Nat) :
    starts first (lengths ++ lengths') =
      starts first lengths ++ starts (first + lengths.sum) lengths' := by
  induction lengths generalizing first with
  | nil => simp [starts]
  | cons length lengths ih => simp [starts, ih, Nat.add_assoc]

theorem getElem_starts {first i : Nat} {lengths : List Nat}
    (hi : i < (starts first lengths).length) :
    (starts first lengths)[i] = first + (lengths.take i).sum := by
  induction lengths generalizing first i with
  | nil => simp at hi
  | cons length lengths ih =>
      cases i with
      | zero => simp [starts]
      | succ i =>
          simp only [starts, List.getElem_cons_succ, List.take_succ_cons, List.sum_cons]
          rw [ih, Nat.add_assoc]

theorem map_add_starts (first shift : Nat) (lengths : List Nat) :
    (starts first lengths).map (· + shift) = starts (first + shift) lengths := by
  induction lengths generalizing first with
  | nil => rfl
  | cons length lengths ih =>
      rw [starts, starts, List.map_cons, ih, Nat.add_right_comm]

theorem sum_map_succ (lengths : List Nat) :
    (lengths.map (· + 1)).sum = lengths.sum + lengths.length := by
  induction lengths with
  | nil => rfl
  | cons length lengths ih =>
      simp only [List.map_cons, List.sum_cons, List.length_cons, ih]
      omega

/-- Where the segments start once each of them has grown by one. -/
theorem mapIdx_starts (first : Nat) (lengths : List Nat) :
    (starts first lengths).mapIdx (fun i start => start + i) =
      starts first (lengths.map (· + 1)) := by
  refine List.ext_getElem (by simp) fun i hi hi' => ?_
  have hLt : i < lengths.length := by simpa using hi
  rw [List.getElem_mapIdx, getElem_starts, getElem_starts, ← List.map_take, sum_map_succ,
    List.length_take]
  omega

/-- A segment is read back from the flat list. -/
theorem slice_flatten {segments : List (List α)} {i : Nat} (hi : i < segments.length) :
    slice segments.flatten ((segments.map List.length).take i).sum segments[i].length =
      segments[i] := by
  induction segments generalizing i with
  | nil => simp at hi
  | cons segment segments ih =>
      cases i with
      | zero => simp [slice]
      | succ i =>
          have := ih (i := i) (by simpa using hi)
          simpa [slice, List.drop_length_add_append] using this

theorem slice_append_left {l l' : List α} {start length : Nat} (h : start + length ≤ l.length) :
    slice (l ++ l') start length = slice l start length := by
  unfold slice
  rw [List.drop_append_of_le_length (by omega), List.take_append_of_le_length]
  rw [List.length_drop]
  omega

theorem slice_append_right (l l' : List α) : slice (l ++ l') l.length l'.length = l' := by
  simp [slice]

section Entries

variable {ε : Type} {entries : List ε} {start length : ε → Nat} {first : Nat} {l : List α}

/-- Segments that lie one after the other end before the end of the last. -/
theorem end_le (hStarts : entries.map start = starts first (entries.map length)) :
    ∀ e ∈ entries, start e + length e ≤ first + (entries.map length).sum := by
  induction entries generalizing first with
  | nil => simp
  | cons e entries ih =>
      obtain ⟨hFirst, hRest⟩ := List.cons.inj hStarts
      intro e' he'
      rcases List.mem_cons.mp he' with rfl | he'
      · simp only [List.map_cons, List.sum_cons]
        omega
      · have := ih hRest e' he'
        simp only [List.map_cons, List.sum_cons]
        omega

/-- Segments that lie one after the other make up the list from the first one on. -/
theorem flatten_slices (hStarts : entries.map start = starts first (entries.map length))
    (hLength : first + (entries.map length).sum = l.length) :
    (entries.map fun e => slice l (start e) (length e)).flatten = l.drop first := by
  induction entries generalizing first with
  | nil =>
      rw [List.map_nil, List.sum_nil, Nat.add_zero] at hLength
      rw [hLength, List.drop_length]
      rfl
  | cons e entries ih =>
      obtain ⟨hFirst, hRest⟩ := List.cons.inj hStarts
      rw [List.map_cons, List.sum_cons] at hLength
      rw [List.map_cons, List.flatten_cons, ih hRest (by omega), hFirst, slice,
        ← List.drop_drop, List.take_append_drop]

/-- The segments of a flat list are read back from where they start. -/
theorem map_slice_flatten {segments : List (List α)}
    (hStarts : entries.map start = starts 0 (entries.map length))
    (hLengths : entries.map length = segments.map List.length) :
    (entries.map fun e => slice segments.flatten (start e) (length e)) = segments := by
  have hSame : entries.length = segments.length := by simpa using congrArg List.length hLengths
  refine List.ext_getElem (by simpa using hSame) fun i hi hi' => ?_
  have hLt : i < entries.length := by simpa using hi
  have hStart : start entries[i] = ((segments.map List.length).take i).sum := by
    have := List.getElem_of_eq hStarts (i := i) (by simpa using hi)
    rwa [List.getElem_map, getElem_starts, hLengths, Nat.zero_add] at this
  have hLength : length entries[i] = segments[i].length := by
    have := List.getElem_of_eq hLengths (i := i) (by simpa using hi)
    rwa [List.getElem_map, List.getElem_map] at this
  rw [List.getElem_map, hStart, hLength]
  exact slice_flatten hi'

/-- The places of segments that lie one after the other. -/
theorem flatMap_range' (entries : List ε) (length : ε → Nat) (first : Nat) :
    ((entries.zip (starts first (entries.map length))).flatMap fun p =>
      List.range' p.2 (length p.1)) = List.range' first (entries.map length).sum := by
  induction entries generalizing first with
  | nil => rfl
  | cons e entries ih =>
      rw [List.map_cons, starts, List.zip_cons_cons, List.flatMap_cons, ih, List.sum_cons,
        List.range'_append_1]

/-- A slice, place by place. -/
theorem slice_eq_map (l : List α) (start length : Nat) (default : α)
    (h : start + length ≤ l.length) :
    slice l start length = (List.range length).map fun i => l.getD (start + i) default := by
  refine List.ext_getElem ?_ fun i hi hi' => ?_
  · rw [slice, List.length_take, List.length_drop, List.length_map, List.length_range]
    omega
  · rw [List.length_map, List.length_range] at hi'
    rw [List.getElem_map, List.getElem_range, List.getD_eq_getElem _ _ (by omega)]
    simp [slice]

end Entries

variable {κ : Type} [DecidableEq κ]

/-- Write values to places, one after the other. -/
def write (memory : κ → α) : List κ → List α → κ → α
  | place :: places, value :: values => write (Function.update memory place value) places values
  | _, _ => memory

theorem write_of_notMem {memory : κ → α} {places : List κ} {values : List α} {place : κ}
    (hNot : place ∉ places) : write memory places values place = memory place := by
  induction places generalizing memory values with
  | nil => cases values <;> rfl
  | cons first places ih =>
      cases values with
      | nil => rfl
      | cons value values =>
          rw [List.mem_cons, not_or] at hNot
          obtain ⟨hFirst, hRest⟩ := hNot
          rw [write, ih hRest, Function.update_of_ne hFirst]

/-- Places that are not written keep what they hold. -/
theorem map_write_of_disjoint {memory : κ → α} {places others : List κ} {values : List α}
    (hDisjoint : others.Disjoint places) :
    others.map (write memory places values) = others.map memory :=
  List.map_congr_left fun _ hPlace => write_of_notMem (hDisjoint hPlace)

/-- Places that are written hold what was written. -/
theorem map_write {memory : κ → α} {places : List κ} {values : List α} (hNodup : places.Nodup)
    (hLength : places.length = values.length) :
    places.map (write memory places values) = values := by
  induction places generalizing memory values with
  | nil => exact (List.length_eq_zero_iff.mp hLength.symm).symm
  | cons place places ih =>
      cases values with
      | nil => simp at hLength
      | cons value values =>
          obtain ⟨hFirst, hRest⟩ := List.nodup_cons.mp hNodup
          rw [write, List.map_cons, write_of_notMem hFirst, Function.update_self,
            ih hRest (by simpa using hLength)]

/-- Writing to places and then to others is one write. -/
theorem write_append {memory : κ → α} {places places' : List κ} {values values' : List α}
    (hLength : places.length = values.length) :
    write memory (places ++ places') (values ++ values') =
      write (write memory places values) places' values' := by
  induction places generalizing memory values with
  | nil =>
      obtain rfl := List.length_eq_zero_iff.mp hLength.symm
      rfl
  | cons place places ih =>
      cases values with
      | nil => simp at hLength
      | cons value values => exact ih (by simpa using hLength)

/-- What is written segment by segment is read back segment by segment. -/
theorem map_write_flatMap {ε : Type} {memory : κ → α} {entries : List ε} (places : ε → List κ)
    {values : ε → List α} (hNodup : (entries.flatMap places).Nodup)
    (hLength : ∀ e ∈ entries, (places e).length = (values e).length) :
    ∀ e ∈ entries, (places e).map (write memory (entries.flatMap places)
      (entries.flatMap values)) = values e := by
  induction entries generalizing memory with
  | nil => simp
  | cons first entries ih =>
      rw [List.flatMap_cons] at hNodup
      obtain ⟨hFirst, hRest, hApart⟩ := List.nodup_append'.mp hNodup
      intro e he
      rw [List.flatMap_cons, List.flatMap_cons, write_append (hLength first List.mem_cons_self)]
      rcases List.mem_cons.mp he with rfl | he
      · rw [map_write_of_disjoint hApart]
        exact map_write hFirst (hLength e List.mem_cons_self)
      · exact ih hRest (fun e he => hLength e (List.mem_cons_of_mem _ he)) e he

theorem write_map {ε : Type} {memory : κ → α} {entries : List ε} (place : ε → κ) {value : ε → α}
    (hNodup : (entries.map place).Nodup) :
    ∀ e ∈ entries, write memory (entries.map place) (entries.map value) (place e) = value e := by
  rw [List.map_eq_flatMap, List.map_eq_flatMap] at *
  intro e he
  have hLength : ∀ e ∈ entries, [place e].length = [value e].length := fun _ _ => rfl
  simpa using map_write_flatMap (fun e => [place e]) hNodup hLength e he

end Data.Segments
