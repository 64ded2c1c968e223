import Mathlib.Data.List.Basic

/-! Bytes that come in pieces. A call for at most so many bytes returns at least one, unless the
stream is at its end, and nothing else is promised of how much it returns. -/
namespace Data.Stream

abbrev Bytes := List UInt8

/-- What the peer still sends before it closes, and how much each call would return. No call returns
nothing unless all has been read. -/
structure Socket where
  rest : Bytes
  cuts : Nat → Nat
  calls : Nat := 0

namespace Socket

def recv (s : Socket) (n : Nat) : Bytes × Socket :=
  let count := min n (max 1 (s.cuts s.calls))
  (s.rest.take count, { s with rest := s.rest.drop count, calls := s.calls + 1 })

variable {s : Socket} {n : Nat}

theorem recv_append (s : Socket) (n : Nat) : (s.recv n).1 ++ (s.recv n).2.rest = s.rest :=
  List.take_append_drop _ _

theorem length_recv_le (s : Socket) (n : Nat) : (s.recv n).1.length ≤ n := by
  unfold recv
  rw [List.length_take]
  omega

/-- Nothing is returned only at the end of the stream. -/
theorem recv_eq_nil_iff (hAsked : 0 < n) : (s.recv n).1 = [] ↔ s.rest = [] := by
  unfold recv
  rw [List.take_eq_nil_iff]
  constructor
  · rintro (hZero | hEnd)
    · omega
    · exact hEnd
  · exact Or.inr

end Socket

/-- Read until there are so many bytes, asking for at most `limit` of them at a time. -/
def fill (limit want : Nat) (got : Bytes) (s : Socket) : Option Bytes × Socket :=
  if got.length < want then
    let chunk := s.recv (min (want - got.length) limit)
    if _hNone : chunk.1 = [] then (none, chunk.2) else fill limit want (got ++ chunk.1) chunk.2
  else (some got, s)
termination_by want - got.length
decreasing_by
  -- a piece that is not empty brings the loop nearer to its end
  have hPos : 0 < (s.recv (min (want - got.length) limit)).1.length :=
    List.length_pos_iff.mpr _hNone
  rw [List.length_append]
  omega

section Fill

variable {limit want : Nat} {got : Bytes} {s : Socket}

/-- The loop takes the bytes that are missing, and none of those behind them. -/
theorem fill_of_enough (hLimit : 0 < limit) (hGot : got.length ≤ want)
    (hEnough : want - got.length ≤ s.rest.length) :
    (fill limit want got s).1 = some (got ++ s.rest.take (want - got.length)) ∧
      (fill limit want got s).2.rest = s.rest.drop (want - got.length) := by
  induction got, s using fill.induct limit want with
  | case1 got s hMissing chunk hNone =>
      have hEnd : s.rest = [] := (Socket.recv_eq_nil_iff (by omega)).mp hNone
      rw [hEnd, List.length_nil] at hEnough
      omega
  | case2 got s hMissing chunk hSome ih =>
      have hAppend : chunk.1 ++ chunk.2.rest = s.rest := s.recv_append _
      have hShort : chunk.1.length ≤ min (want - got.length) limit := s.length_recv_le _
      have hLeft : want - (got ++ chunk.1).length = want - got.length - chunk.1.length := by
        rw [List.length_append]
        omega
      have hFits : chunk.1.length ≤ want - got.length := by omega
      have hTake : s.rest.take (want - got.length) =
          chunk.1 ++ chunk.2.rest.take (want - got.length - chunk.1.length) := by
        rw [← hAppend, List.take_append, List.take_of_length_le hFits]
      have hDrop : s.rest.drop (want - got.length) =
          chunk.2.rest.drop (want - got.length - chunk.1.length) := by
        rw [← hAppend, List.drop_append, List.drop_of_length_le hFits, List.nil_append]
      rw [← hAppend, List.length_append] at hEnough
      obtain ⟨hResult, hRest⟩ := ih (by rw [List.length_append]; omega) (by omega)
      rw [fill, if_pos hMissing, dif_neg hSome, hResult, hRest, hLeft, hTake, hDrop,
        List.append_assoc]
      exact ⟨rfl, rfl⟩
  | case3 got s hDone =>
      have hZero : want - got.length = 0 := by omega
      rw [fill, if_neg hDone, hZero, List.take_zero, List.append_nil]
      exact ⟨rfl, rfl⟩

theorem fill_of_append {front back : Bytes} (hLimit : 0 < limit) (hRest : s.rest = front ++ back) :
    (fill limit front.length [] s).1 = some front ∧
      (fill limit front.length [] s).2.rest = back := by
  have hEnough : front.length - ([] : Bytes).length ≤ s.rest.length := by
    rw [hRest, List.length_append, List.length_nil]
    omega
  obtain ⟨hResult, hLeft⟩ := fill_of_enough hLimit (Nat.zero_le _) hEnough
  rw [hResult, hLeft, hRest, List.nil_append, List.length_nil, Nat.sub_zero]
  exact ⟨congrArg some List.take_left, List.drop_left⟩

/-- The loop gives up at the end of the stream. -/
theorem fill_of_short (hShort : s.rest.length < want - got.length) :
    (fill limit want got s).1 = none := by
  induction got, s using fill.induct limit want with
  | case1 got s hMissing chunk hNone => rw [fill, if_pos hMissing, dif_pos hNone]
  | case2 got s hMissing chunk hSome ih =>
      have hAppend : chunk.1 ++ chunk.2.rest = s.rest := s.recv_append _
      rw [fill, if_pos hMissing, dif_neg hSome]
      apply ih
      rw [← hAppend, List.length_append] at hShort
      rw [List.length_append]
      omega
  | case3 got s hDone => omega

/-- Every call but the last one takes a byte from the stream. -/
theorem calls_fill_le (limit want : Nat) (got : Bytes) (s : Socket) :
    (fill limit want got s).2.calls + (fill limit want got s).2.rest.length ≤
      s.calls + s.rest.length +
        if (fill limit want got s).1.isSome then 0 else 1 := by
  induction got, s using fill.induct limit want with
  | case1 got s hMissing chunk hNone =>
      have hLength : chunk.2.rest.length ≤ s.rest.length := by
        rw [show chunk.2.rest = s.rest.drop _ from rfl, List.length_drop]
        omega
      have hCalls : chunk.2.calls = s.calls + 1 := rfl
      rw [fill, if_pos hMissing, dif_pos hNone]
      show chunk.2.calls + chunk.2.rest.length ≤ s.calls + s.rest.length + 1
      omega
  | case2 got s hMissing chunk hSome ih =>
      have hPos : 0 < chunk.1.length := List.length_pos_iff.mpr hSome
      have hAppend : chunk.1 ++ chunk.2.rest = s.rest := s.recv_append _
      have hCalls : chunk.2.calls = s.calls + 1 := rfl
      have hStep : fill limit want got s = fill limit want (got ++ chunk.1) chunk.2 := by
        rw [fill, if_pos hMissing, dif_neg hSome]
      rw [hStep, ← hAppend, List.length_append]
      omega
  | case3 got s hDone =>
      rw [fill, if_neg hDone]
      exact Nat.le_refl _

end Fill

end Data.Stream
