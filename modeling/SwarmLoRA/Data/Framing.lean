import Mathlib.Algebra.Group.Nat.Defs
import Mathlib.Data.List.Basic

/-! Messages on a stream of bytes. A frame is the length of its payload in four bytes, the most
significant byte first, and the payload. A reader takes the bytes of a frame in pieces of any
size and never asks for more than the frame has left. -/
namespace Data.Framing

abbrev Bytes := List UInt8

/-- The number in four bytes. Numbers from `2 ^ 32` on do not fit. -/
def pack (n : Nat) : Bytes := [n / 2 ^ 24, n / 2 ^ 16, n / 2 ^ 8, n].map UInt8.ofNat

def unpack (bytes : Bytes) : Nat := bytes.foldl (fun n byte => n * 2 ^ 8 + byte.toNat) 0

def frame (payload : Bytes) : Bytes := pack payload.length ++ payload

/-- The length that the bytes of a frame announce, once there are four of them. -/
def size (got : Bytes) : Nat := unpack (got.take 4)

/-- What a reader asks for next: the rest of the length, then the rest of the payload. -/
def missing (got : Bytes) : Nat :=
  if got.length < 4 then 4 - got.length else 4 + size got - got.length

/-- The reader has got a whole frame. -/
def complete (got : Bytes) : Bool := 4 ≤ got.length && missing got = 0

@[simp] theorem length_pack (n : Nat) : (pack n).length = 4 := rfl

@[simp] theorem length_frame (payload : Bytes) : (frame payload).length = 4 + payload.length := by
  unfold frame
  rw [List.length_append, length_pack]

theorem unpack_pack {n : Nat} (h : n < 2 ^ 32) : unpack (pack n) = n := by
  simp only [unpack, pack, List.map_cons, List.map_nil, List.foldl_cons, List.foldl_nil,
    UInt8.toNat_ofNat']
  omega

@[simp] theorem drop_frame (payload : Bytes) : (frame payload).drop 4 = payload :=
  List.drop_left' (length_pack _)

variable {got payload : Bytes}

theorem take_of_part (h : got <+: frame payload) (hHeader : 4 ≤ got.length) :
    got.take 4 = pack payload.length := by
  obtain ⟨rest, hRest⟩ := h
  calc got.take 4 = (got ++ rest).take 4 := (List.take_append_of_le_length hHeader).symm
    _ = (pack payload.length ++ payload).take 4 := by rw [hRest, frame]
    _ = pack payload.length := List.take_left' (length_pack _)

/-- A reader that has seen the length knows how long the payload is. -/
theorem size_of_part (hFits : payload.length < 2 ^ 32) (h : got <+: frame payload)
    (hHeader : 4 ≤ got.length) : size got = payload.length := by
  unfold size
  rw [take_of_part h hHeader, unpack_pack hFits]

/-- The reader stops at the end of the frame and not before. -/
theorem complete_iff (hFits : payload.length < 2 ^ 32) (h : got <+: frame payload) :
    complete got = true ↔ got = frame payload := by
  unfold complete
  rw [Bool.and_eq_true, decide_eq_true_eq, decide_eq_true_eq]
  constructor
  · rintro ⟨hHeader, hDone⟩
    apply h.eq_of_length
    have hShort := h.length_le
    unfold missing at hDone
    rw [if_neg (by omega), size_of_part hFits h hHeader] at hDone
    rw [length_frame] at hShort ⊢
    omega
  · rintro rfl
    have hHeader : 4 ≤ (frame payload).length := by
      rw [length_frame]
      omega
    refine ⟨hHeader, ?_⟩
    unfold missing
    rw [if_neg (by omega), size_of_part hFits h hHeader, length_frame]
    omega

end Data.Framing
