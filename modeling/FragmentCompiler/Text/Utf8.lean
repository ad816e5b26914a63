import FragmentCompiler.Text.Basic

/-!
# Code points of a text

A text is read as UTF-8 one code point at a time.  A byte that begins no
well-formed sequence stands for the replacement code point and has length one,
so reading never fails and always advances.
-/

namespace FragmentCompiler

structure Rune where
  code : Nat
  bytes : Text
  deriving DecidableEq, Repr, Inhabited

def Rune.isIllFormed (value : Rune) : Bool :=
  value.code == 0xFFFD && value.bytes.length == 1

namespace Utf8

def replacement : Nat := 0xFFFD

def isContinuation (byte : UInt8) : Bool := 0x80 ≤ byte && byte ≤ 0xBF

def continuationBits (byte : UInt8) : Nat := byte.toNat % 64

/-- The first code point of a text and the number of bytes it takes.  The empty
text gives the replacement with length zero. -/
def decode : Text → Nat × Nat
  | [] => (replacement, 0)
  | b0 :: rest =>
    if b0 < 0x80 then (b0.toNat, 1)
    else if 0xC2 ≤ b0 && b0 ≤ 0xDF then
      match rest with
      | b1 :: _ =>
        if isContinuation b1 then (b0.toNat % 32 * 64 + continuationBits b1, 2) else (replacement, 1)
      | [] => (replacement, 1)
    else if 0xE0 ≤ b0 && b0 ≤ 0xEF then
      match rest with
      | b1 :: b2 :: _ =>
        let least : UInt8 := if b0 = 0xE0 then 0xA0 else 0x80
        let most : UInt8 := if b0 = 0xED then 0x9F else 0xBF
        if least ≤ b1 && b1 ≤ most && isContinuation b2 then
          (b0.toNat % 16 * 4096 + continuationBits b1 * 64 + continuationBits b2, 3)
        else (replacement, 1)
      | _ => (replacement, 1)
    else if 0xF0 ≤ b0 && b0 ≤ 0xF4 then
      match rest with
      | b1 :: b2 :: b3 :: _ =>
        let least : UInt8 := if b0 = 0xF0 then 0x90 else 0x80
        let most : UInt8 := if b0 = 0xF4 then 0x8F else 0xBF
        if least ≤ b1 && b1 ≤ most && isContinuation b2 && isContinuation b3 then
          (b0.toNat % 8 * 262144 + continuationBits b1 * 4096 + continuationBits b2 * 64 + continuationBits b3, 4)
        else (replacement, 1)
      | _ => (replacement, 1)
    else (replacement, 1)

def encode (code : Nat) : Text :=
  if code < 0x80 then [code.toUInt8]
  else if code < 0x800 then
    [(0xC0 + code / 64).toUInt8, (0x80 + code % 64).toUInt8]
  else if code < 0x10000 then
    [(0xE0 + code / 4096).toUInt8, (0x80 + code / 64 % 64).toUInt8,
      (0x80 + code % 64).toUInt8]
  else
    [(0xF0 + code / 262144).toUInt8, (0x80 + code / 4096 % 64).toUInt8,
      (0x80 + code / 64 % 64).toUInt8, (0x80 + code % 64).toUInt8]

/-- The code points of the first `fuel` steps; every step takes at least one byte. -/
def runesWithin : Nat → Text → List Rune
  | 0, _ => []
  | _ + 1, [] => []
  | fuel + 1, byte :: rest =>
    let (code, size) := decode (byte :: rest)
    ⟨code, (byte :: rest).take size⟩ :: runesWithin fuel ((byte :: rest).drop size)

def runes (value : Text) : List Rune := runesWithin value.length value

def flatten (values : List Rune) : Text := values.flatMap Rune.bytes

def isValid (value : Text) : Bool := (runes value).all fun rune => !rune.isIllFormed

def count (value : Text) : Nat := (runes value).length

/-- The text filled up with spaces to at least `width` code points. -/
def fill (width : Nat) (value : Text) : Text := value ++ Text.spaces (width - count value)

end Utf8

end FragmentCompiler
