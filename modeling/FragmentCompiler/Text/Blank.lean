import FragmentCompiler.Text.Utf8

/-!
# White space

Trimming a text and splitting it into words, where the white space between words
is that of Unicode.
-/

namespace FragmentCompiler

def isBlank (code : Nat) : Bool :=
  (9 ≤ code && code ≤ 13) || code == 0x20 || code == 0x85 || code == 0xA0 ||
    code == 0x1680 || (0x2000 ≤ code && code ≤ 0x200A) || code == 0x2028 ||
    code == 0x2029 || code == 0x202F || code == 0x205F || code == 0x3000

namespace Text

def trim (value : Text) : Text :=
  let blank (rune : Rune) : Bool := isBlank rune.code
  let front := (Utf8.runes value).dropWhile blank
  Utf8.flatten (front.reverse.dropWhile blank).reverse

def trimLeft (value : Text) : Text := value.dropWhile fun byte => byte == 32 || byte == 9

def closeWord (word : Text) (words : List Text) : List Text :=
  if word.isEmpty then words else word :: words

/-- The words of a list of code points; `word` is the one being read. -/
def wordsFrom (word : Text) : List Rune → List Text
  | [] => closeWord word []
  | rune :: rest =>
    if isBlank rune.code then closeWord word (wordsFrom [] rest)
    else wordsFrom (word ++ rune.bytes) rest

def words (value : Text) : List Text := wordsFrom [] (Utf8.runes value)

/-- The lower-case form of one code point, for the letters option words use and
the code points beyond ASCII that share their lower-case forms. -/
def lowerRune (rune : Rune) : Text :=
  if 0x41 ≤ rune.code && rune.code ≤ 0x5A then [(rune.code + 32).toUInt8]
  else if rune.code = 0x130 then [0x69]
  else if rune.code = 0x212A then [0x6B]
  else rune.bytes

def lower (value : Text) : Text := (Utf8.runes value).flatMap lowerRune

end Text

end FragmentCompiler
