/-!
# Decoding UTF-8

Each character takes one to four bytes. The first byte says how many and, for the shortest and the
longest forms, narrows the range of the second, so that every character has exactly one spelling.
`decode` returns the characters, or the number of leading bytes that do spell characters when the
rest does not.
-/

namespace PlantEconomics

namespace Utf8

/-! ## §1. Byte ranges -/

/-- A byte that continues a character. -/
def continues (b : UInt8) : Bool := 0x80 ≤ b && b ≤ 0xBF

/-- The payload of a continuing byte. -/
def payload (b : UInt8) : Nat := b.toNat % 64

/-- The bytes that may follow the first byte of a three-byte character. -/
def secondOfThree (b c : UInt8) : Bool :=
  if b == 0xE0 then 0xA0 ≤ c && c ≤ 0xBF
  else if b == 0xED then 0x80 ≤ c && c ≤ 0x9F
  else continues c

/-- The bytes that may follow the first byte of a four-byte character. -/
def secondOfFour (b c : UInt8) : Bool :=
  if b == 0xF0 then 0x90 ≤ c && c ≤ 0xBF
  else if b == 0xF4 then 0x80 ≤ c && c ≤ 0x8F
  else continues c

/-! ## §2. Characters -/

/-- One character in front of decoded ones; a failure further on keeps its place. -/
def consChar (code : Nat) (rest : Except Nat (List Char)) : Except Nat (List Char) :=
  rest.map (Char.ofNat code :: ·)

/-- The characters spelled by bytes that start at position `at_`, or the position of the first
byte that does not start a character. -/
def decodeFrom (at_ : Nat) : List UInt8 → Except Nat (List Char)
  | [] => .ok []
  | b :: r1 =>
    if b < 0x80 then consChar b.toNat (decodeFrom (at_ + 1) r1)
    else match r1 with
    | [] => .error at_
    | c :: r2 =>
      if 0xC2 ≤ b && b ≤ 0xDF then
        if continues c then consChar (b.toNat % 32 * 64 + payload c) (decodeFrom (at_ + 2) r2)
        else .error at_
      else match r2 with
      | [] => .error at_
      | d :: r3 =>
        if 0xE0 ≤ b && b ≤ 0xEF then
          if secondOfThree b c && continues d then
            consChar (b.toNat % 16 * 4096 + payload c * 64 + payload d) (decodeFrom (at_ + 3) r3)
          else .error at_
        else match r3 with
        | [] => .error at_
        | e :: r4 =>
          if 0xF0 ≤ b && b ≤ 0xF4 && secondOfFour b c && continues d && continues e then
            consChar (b.toNat % 8 * 262144 + payload c * 4096 + payload d * 64 + payload e)
              (decodeFrom (at_ + 4) r4)
          else .error at_

/-- The text that bytes spell, or the length of the longest leading part that spells one. -/
def decode (bytes : List UInt8) : Except Nat String :=
  (decodeFrom 0 bytes).map String.ofList

end Utf8

end PlantEconomics
