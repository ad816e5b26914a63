import FragmentCompiler.Text.Basic

/-!
# SHA-256

The hash that names the content of a buffer and seals the entries of a snapshot.
-/

namespace FragmentCompiler.Sha256

def roundConstants : Array UInt32 := #[
  0x428a2f98, 0x71374491, 0xb5c0fbcf, 0xe9b5dba5, 0x3956c25b, 0x59f111f1, 0x923f82a4, 0xab1c5ed5,
  0xd807aa98, 0x12835b01, 0x243185be, 0x550c7dc3, 0x72be5d74, 0x80deb1fe, 0x9bdc06a7, 0xc19bf174,
  0xe49b69c1, 0xefbe4786, 0x0fc19dc6, 0x240ca1cc, 0x2de92c6f, 0x4a7484aa, 0x5cb0a9dc, 0x76f988da,
  0x983e5152, 0xa831c66d, 0xb00327c8, 0xbf597fc7, 0xc6e00bf3, 0xd5a79147, 0x06ca6351, 0x14292967,
  0x27b70a85, 0x2e1b2138, 0x4d2c6dfc, 0x53380d13, 0x650a7354, 0x766a0abb, 0x81c2c92e, 0x92722c85,
  0xa2bfe8a1, 0xa81a664b, 0xc24b8b70, 0xc76c51a3, 0xd192e819, 0xd6990624, 0xf40e3585, 0x106aa070,
  0x19a4c116, 0x1e376c08, 0x2748774c, 0x34b0bcb5, 0x391c0cb3, 0x4ed8aa4a, 0x5b9cca4f, 0x682e6ff3,
  0x748f82ee, 0x78a5636f, 0x84c87814, 0x8cc70208, 0x90befffa, 0xa4506ceb, 0xbef9a3f7, 0xc67178f2]

structure Words where
  a : UInt32
  b : UInt32
  c : UInt32
  d : UInt32
  e : UInt32
  f : UInt32
  g : UInt32
  h : UInt32

def start : Words :=
  ⟨0x6a09e667, 0xbb67ae85, 0x3c6ef372, 0xa54ff53a, 0x510e527f, 0x9b05688c, 0x1f83d9ab, 0x5be0cd19⟩

def rotate (word : UInt32) (count : UInt32) : UInt32 :=
  (word >>> count) ||| (word <<< (32 - count))

def pad (message : Text) : Text :=
  let bits := message.length * 8
  let zeros := (119 - message.length % 64) % 64
  let length : Text := (List.range 8).map fun index => (bits / Nat.pow 256 (7 - index)).toUInt8
  message ++ 0x80 :: List.replicate zeros 0 ++ length

def wordsOf : Text → List UInt32
  | a :: b :: c :: d :: rest =>
    ((a.toUInt32 <<< 24) ||| (b.toUInt32 <<< 16) ||| (c.toUInt32 <<< 8) ||| d.toUInt32) ::
      wordsOf rest
  | _ => []

/-- One step of the message schedule: the next word from the sixteen before it. -/
def nextWord (schedule : Array UInt32) : UInt32 :=
  let past (back : Nat) : UInt32 := schedule.getD (schedule.size - back) 0
  let small0 := rotate (past 15) 7 ^^^ rotate (past 15) 18 ^^^ (past 15 >>> 3)
  let small1 := rotate (past 2) 17 ^^^ rotate (past 2) 19 ^^^ (past 2 >>> 10)
  past 16 + small0 + past 7 + small1

def schedule (block : List UInt32) : Array UInt32 :=
  (List.range 48).foldl (fun words _ => words.push (nextWord words)) block.toArray

def round (state : Words) (constant word : UInt32) : Words :=
  let big1 := rotate state.e 6 ^^^ rotate state.e 11 ^^^ rotate state.e 25
  let choice := (state.e &&& state.f) ^^^ (~~~ state.e &&& state.g)
  let first := state.h + big1 + choice + constant + word
  let big0 := rotate state.a 2 ^^^ rotate state.a 13 ^^^ rotate state.a 22
  let majority := (state.a &&& state.b) ^^^ (state.a &&& state.c) ^^^ (state.b &&& state.c)
  ⟨first + (big0 + majority), state.a, state.b, state.c, state.d + first, state.e, state.f, state.g⟩

def compress (state : Words) (block : List UInt32) : Words :=
  let words := schedule block
  let mixed := (List.range 64).foldl
    (fun current index => round current (roundConstants.getD index 0) (words.getD index 0)) state
  ⟨state.a + mixed.a, state.b + mixed.b, state.c + mixed.c, state.d + mixed.d,
    state.e + mixed.e, state.f + mixed.f, state.g + mixed.g, state.h + mixed.h⟩

/-- Folds the first `count` blocks of sixteen words. -/
def compressAll : Nat → Words → List UInt32 → Words
  | 0, state, _ => state
  | count + 1, state, words =>
    compressAll count (compress state (words.take 16)) (words.drop 16)

def bytesOf (word : UInt32) : Text :=
  [(word >>> 24).toUInt8, (word >>> 16).toUInt8, (word >>> 8).toUInt8, word.toUInt8]

def hash (message : Text) : Text :=
  let words := wordsOf (pad message)
  let final := compressAll (words.length / 16) start words
  [final.a, final.b, final.c, final.d, final.e, final.f, final.g, final.h].flatMap bytesOf

end FragmentCompiler.Sha256
