import Mathlib.Data.List.Basic

namespace Data.Base64

abbrev Bytes := List UInt8

def digit (n : Nat) : Char :=
  if n < 26 then Char.ofNat (65 + n)
  else if n < 52 then Char.ofNat (97 + (n - 26))
  else if n < 62 then Char.ofNat (48 + (n - 52))
  else if n = 62 then '+'
  else '/'

def value (c : Char) : Option Nat :=
  if 65 ≤ c.toNat ∧ c.toNat ≤ 90 then some (c.toNat - 65)
  else if 97 ≤ c.toNat ∧ c.toNat ≤ 122 then some (c.toNat - 97 + 26)
  else if 48 ≤ c.toNat ∧ c.toNat ≤ 57 then some (c.toNat - 48 + 52)
  else if c = '+' then some 62
  else if c = '/' then some 63
  else none

def encode : Bytes → List Char
  | [] => []
  | [a] => [digit (a.toNat / 4), digit (a.toNat % 4 * 16), '=', '=']
  | [a, b] =>
      [digit (a.toNat / 4), digit (a.toNat % 4 * 16 + b.toNat / 16), digit (b.toNat % 16 * 4), '=']
  | a :: b :: c :: rest =>
      digit (a.toNat / 4) :: digit (a.toNat % 4 * 16 + b.toNat / 16) ::
        digit (b.toNat % 16 * 4 + c.toNat / 64) :: digit (c.toNat % 64) :: encode rest

/-- Where the reader is in a group of four digits, what the last digit has left over, and the
padding since then. -/
structure Reader where
  quad_pos : Nat := 0
  leftchar : Nat := 0
  pads : Nat := 0
  out : Bytes := []

namespace Reader

def put (r : Reader) (n : Nat) : Reader :=
  match r.quad_pos with
  | 0 => { quad_pos := 1, leftchar := n, out := r.out }
  | 1 =>
      { quad_pos := 2
        leftchar := n % 16
        out := r.out ++ [UInt8.ofNat (r.leftchar * 4 + n / 16)] }
  | 2 =>
      { quad_pos := 3
        leftchar := n % 4
        out := r.out ++ [UInt8.ofNat (r.leftchar * 16 + n / 4)] }
  | _ => { out := r.out ++ [UInt8.ofNat (r.leftchar * 64 + n)] }

def finish (r : Reader) : Except String Bytes :=
  if r.quad_pos = 0 then .ok r.out
  else if r.quad_pos = 1 then
    let count := r.out.length / 3 * 4 + 1
    .error (s!"Invalid base64-encoded string: number of data characters ({count}) cannot be " ++
      "1 more than a multiple of 4")
  else .error "Incorrect padding"

def read (r : Reader) : List Char → Except String Bytes
  | [] => r.finish
  | c :: rest =>
      if c = '=' then
        if r.quad_pos < 2 then r.read rest
        else if 4 ≤ r.quad_pos + (r.pads + 1) then .ok r.out
        else { r with pads := r.pads + 1 }.read rest
      else
        match value c with
        | some n => (r.put n).read rest
        | none => r.read rest

end Reader

def decode (text : List Char) : Except String Bytes := ({} : Reader).read text

theorem value_digit {n : Nat} (h : n < 64) : value (digit n) = some n := by
  have hAll : ∀ k : Fin 64, value (digit k) = some k.val := by decide
  exact hAll ⟨n, h⟩

theorem digit_ne_pad {n : Nat} (h : n < 64) : digit n ≠ '=' := by
  intro hPad
  have hValue := value_digit h
  rw [hPad] at hValue
  cases hValue

theorem digit_ascii {n : Nat} (h : n < 64) : (digit n).toNat < 128 := by
  have hAll : ∀ k : Fin 64, (digit k).toNat < 128 := by decide
  exact hAll ⟨n, h⟩

@[simp] theorem read_digit (r : Reader) {n : Nat} (h : n < 64) (rest : List Char) :
    r.read (digit n :: rest) = (r.put n).read rest := by
  rw [Reader.read, if_neg (digit_ne_pad h), value_digit h]

theorem ofNat_eq {n : Nat} (byte : UInt8) (h : n = byte.toNat) : UInt8.ofNat n = byte := by
  rw [h, UInt8.ofNat_toNat]

/-- Four digits and three bytes later the reader is at the start of a group again. -/
theorem read_group (a b c : UInt8) (out : Bytes) (rest : List Char) :
    ({ out := out } : Reader).read
        (digit (a.toNat / 4) :: digit (a.toNat % 4 * 16 + b.toNat / 16) ::
          digit (b.toNat % 16 * 4 + c.toNat / 64) :: digit (c.toNat % 64) :: rest) =
      ({ out := out ++ [a, b, c] } : Reader).read rest := by
  have ha := a.toNat_lt
  have hb := b.toNat_lt
  have hc := c.toNat_lt
  rw [read_digit _ (by omega), read_digit _ (by omega), read_digit _ (by omega),
    read_digit _ (by omega)]
  congr 1
  simp only [Reader.put]
  rw [ofNat_eq a (by omega), ofNat_eq b (by omega),
    ofNat_eq c (by omega), List.append_assoc, List.append_assoc]
  rfl

theorem read_encode (bytes out : Bytes) :
    ({ out := out } : Reader).read (encode bytes) = .ok (out ++ bytes) := by
  induction bytes using encode.induct generalizing out with
  | case1 => rw [encode, Reader.read, List.append_nil]; rfl
  | case2 a =>
      have ha := a.toNat_lt
      rw [encode, read_digit _ (by omega), read_digit _ (by omega)]
      simp only [Reader.put]
      rw [ofNat_eq a (by omega)]
      rfl
  | case3 a b =>
      have ha := a.toNat_lt
      have hb := b.toNat_lt
      rw [encode, read_digit _ (by omega), read_digit _ (by omega), read_digit _ (by omega)]
      simp only [Reader.put]
      rw [ofNat_eq a (by omega), ofNat_eq b (by omega), List.append_assoc]
      rfl
  | case4 a b c rest ih =>
      rw [encode, read_group, ih, List.append_assoc]
      rfl

theorem decode_encode (bytes : Bytes) : decode (encode bytes) = .ok bytes :=
  read_encode bytes []

theorem encode_ascii (bytes : Bytes) : ∀ c ∈ encode bytes, c.toNat < 128 := by
  have hPad : '='.toNat < 128 := by decide
  induction bytes using encode.induct with
  | case1 =>
      intro c h
      cases h
  | case2 a =>
      have ha := a.toNat_lt
      simp only [encode, List.forall_mem_cons]
      exact ⟨digit_ascii (by omega), digit_ascii (by omega), hPad, hPad,
        List.forall_mem_nil _⟩
  | case3 a b =>
      have ha := a.toNat_lt
      have hb := b.toNat_lt
      simp only [encode, List.forall_mem_cons]
      exact ⟨digit_ascii (by omega), digit_ascii (by omega), digit_ascii (by omega), hPad,
        List.forall_mem_nil _⟩
  | case4 a b c rest ih =>
      have ha := a.toNat_lt
      have hb := b.toNat_lt
      have hc := c.toNat_lt
      simp only [encode, List.forall_mem_cons]
      exact ⟨digit_ascii (by omega), digit_ascii (by omega), digit_ascii (by omega),
        digit_ascii (by omega), ih⟩

end Data.Base64
