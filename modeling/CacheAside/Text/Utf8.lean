/-! # Octets read as UTF-8

Octets are read one after the other. Those that no character begins with, and those of a character that
breaks off, become one replacement character; reading goes on with the octet that broke it off. -/

namespace CacheAside.Text
set_option autoImplicit false

/-- A character that has begun: its number so far, how many octets are missing, and the range of the
next one. -/
structure Begun where
  number : Nat
  missing : Nat
  first : Nat
  last : Nat

/-- What an octet at the start of a character gives. -/
def beginChar (b : Nat) : List Char × Option Begun :=
  if b < 0x80 then ([Char.ofNat b], none)
  else if 0xC2 ≤ b ∧ b ≤ 0xDF then ([], some ⟨b - 0xC0, 1, 0x80, 0xBF⟩)
  else if b = 0xE0 then ([], some ⟨0, 2, 0xA0, 0xBF⟩)
  else if b = 0xED then ([], some ⟨0xD, 2, 0x80, 0x9F⟩)
  else if 0xE1 ≤ b ∧ b ≤ 0xEF then ([], some ⟨b - 0xE0, 2, 0x80, 0xBF⟩)
  else if b = 0xF0 then ([], some ⟨0, 3, 0x90, 0xBF⟩)
  else if 0xF1 ≤ b ∧ b ≤ 0xF3 then ([], some ⟨b - 0xF0, 3, 0x80, 0xBF⟩)
  else if b = 0xF4 then ([], some ⟨4, 3, 0x80, 0x8F⟩)
  else (['\uFFFD'], none)

/-- What the next octet gives. -/
def nextOctet (state : Option Begun) (b : Nat) : List Char × Option Begun :=
  match state with
  | none => beginChar b
  | some s =>
    if s.first ≤ b ∧ b ≤ s.last then
      let number := s.number * 64 + (b - 0x80)
      if s.missing ≤ 1 then ([Char.ofNat number], none)
      else ([], some ⟨number, s.missing - 1, 0x80, 0xBF⟩)
    else
      let (cs, state) := beginChar b
      ('\uFFFD' :: cs, state)

def decodeFrom (state : Option Begun) : List Nat → List Char
  | [] => if state.isSome then ['\uFFFD'] else []
  | b :: bs =>
    let (cs, state) := nextOctet state b
    cs ++ decodeFrom state bs

def decodeUtf8 (octets : List Nat) : List Char := decodeFrom none octets

/-- The octets of a character. -/
def octets (c : Char) : List Nat := (String.utf8EncodeChar c).map UInt8.toNat

end CacheAside.Text
