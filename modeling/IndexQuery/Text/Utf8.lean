set_option autoImplicit false

/-! # Reading UTF-8

`decodeUtf8?` reads a list of octets as UTF-8, in the syntax of RFC 3629: no overlong forms, no
surrogates, nothing above U+10FFFF. -/

namespace IndexQuery.Text

/-- A continuation octet. -/
def isTail (b : UInt8) : Bool := 0x80 ≤ b && b ≤ 0xBF

/-- The six low bits of a continuation octet. -/
def tailBits (b : UInt8) : Nat := b.toNat % 64

/-- The text written by the octets, or `none` when they are not UTF-8. -/
def decodeUtf8? : List UInt8 → Option (List Char)
  | [] => some []
  | a :: rest =>
    if a < 0x80 then (decodeUtf8? rest).map (Char.ofNat a.toNat :: ·)
    else match rest with
      | [] => none
      | b :: rest =>
        if 0xC2 ≤ a && a ≤ 0xDF && isTail b then
          (decodeUtf8? rest).map (Char.ofNat (a.toNat % 32 * 64 + tailBits b) :: ·)
        else match rest with
          | [] => none
          | c :: rest =>
            let code := a.toNat % 16 * 4096 + tailBits b * 64 + tailBits c
            if 0xE0 ≤ a && a ≤ 0xEF && isTail b && isTail c && 0x800 ≤ code &&
                !(0xD800 ≤ code && code ≤ 0xDFFF) then
              (decodeUtf8? rest).map (Char.ofNat code :: ·)
            else match rest with
              | [] => none
              | d :: rest =>
                let code := a.toNat % 8 * 262144 + tailBits b * 4096 + tailBits c * 64 + tailBits d
                if 0xF0 ≤ a && a ≤ 0xF4 && isTail b && isTail c && isTail d && 0x10000 ≤ code &&
                    code ≤ 0x10FFFF then
                  (decodeUtf8? rest).map (Char.ofNat code :: ·)
                else none

end IndexQuery.Text
