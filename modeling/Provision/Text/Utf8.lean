namespace Provision.Text

abbrev Bytes := List UInt8

def encode (s : String) : Bytes := s.toUTF8.toList

/-- How many more bytes a first byte asks for, the range of the next one, and its own bits. -/
structure Lead where
  more : Nat
  low : Nat
  high : Nat
  bits : Nat

def lead? (n : Nat) : Option Lead :=
  if 0xc2 ≤ n ∧ n ≤ 0xdf then some ⟨1, 0x80, 0xbf, n - 0xc0⟩
  else if n = 0xe0 then some ⟨2, 0xa0, 0xbf, 0⟩
  else if n = 0xed then some ⟨2, 0x80, 0x9f, 0xd⟩
  else if 0xe1 ≤ n ∧ n ≤ 0xef then some ⟨2, 0x80, 0xbf, n - 0xe0⟩
  else if n = 0xf0 then some ⟨3, 0x90, 0xbf, 0⟩
  else if 0xf1 ≤ n ∧ n ≤ 0xf3 then some ⟨3, 0x80, 0xbf, n - 0xf0⟩
  else if n = 0xf4 then some ⟨3, 0x80, 0x8f, 4⟩
  else none

abbrev Pending := Option Lead

/-- The characters of the bytes; none for bytes that start no character or break one off. -/
def decodeFrom : Pending → Bytes → List (Option Char)
  | none, [] => []
  | some _, [] => [none]
  | none, b :: rest =>
    let n := b.toNat
    if n < 0x80 then some (Char.ofNat n) :: decodeFrom none rest
    else match lead? n with
      | some l => decodeFrom (some l) rest
      | none => none :: decodeFrom none rest
  | some l, b :: rest =>
    let n := b.toNat
    if l.low ≤ n ∧ n ≤ l.high then
      let bits := l.bits * 64 + (n - 0x80)
      if l.more ≤ 1 then some (Char.ofNat bits) :: decodeFrom none rest
      else decodeFrom (some ⟨l.more - 1, 0x80, 0xbf, bits⟩) rest
    else if n < 0x80 then none :: some (Char.ofNat n) :: decodeFrom none rest
    else match lead? n with
      | some l => none :: decodeFrom (some l) rest
      | none => none :: none :: decodeFrom none rest

def decode? (bytes : Bytes) : Option String :=
  ((decodeFrom none bytes).mapM id).map String.ofList

def decodeLenient (bytes : Bytes) : String :=
  String.ofList ((decodeFrom none bytes).map (·.getD (Char.ofNat 0xfffd)))

end Provision.Text
