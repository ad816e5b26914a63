import FragmentCompiler.Text.Basic

/-!
# Coloured text

A style is a list of display attributes that a terminal turns on before a text and
off after it.
-/

namespace FragmentCompiler

structure Attribute where
  number : Nat
  deriving DecidableEq, Repr, Inhabited

namespace Attribute

def bold : Attribute := ⟨1⟩
def faint : Attribute := ⟨2⟩
def red : Attribute := ⟨31⟩
def green : Attribute := ⟨32⟩
def yellow : Attribute := ⟨33⟩
def blue : Attribute := ⟨34⟩
def cyan : Attribute := ⟨36⟩
def grey : Attribute := ⟨90⟩
def brightCyan : Attribute := ⟨96⟩

/-- The number that turns an attribute off: weights have one of their own, and a
colour is undone together with everything else. -/
def off (shown : Attribute) : Nat :=
  if shown.number = 1 || shown.number = 2 then 22 else 0

end Attribute

structure Style where
  attributes : List Attribute
  deriving DecidableEq, Repr, Inhabited

namespace Style

def sequence (numbers : List Nat) : Text :=
  "\x1b[" ++ Text.join ";" (numbers.map Text.decimal) ++ "m"

def paint (style : Style) (coloured : Bool) (text : Text) : Text :=
  if coloured then
    sequence (style.attributes.map Attribute.number) ++ text ++
      sequence (style.attributes.map Attribute.off)
  else text

end Style

end FragmentCompiler
