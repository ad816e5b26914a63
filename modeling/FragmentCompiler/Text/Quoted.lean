import FragmentCompiler.Text.CodeRanges

/-!
# Quoted texts

A quoted text is written between double quotes with escapes for everything that
would not print as itself: the usual one-letter escapes, `\xNN` for control
bytes and for bytes that are no UTF-8, `\uNNNN` and `\UNNNNNNNN` for other
code points without a printable form.
-/

namespace FragmentCompiler

namespace CodeRanges

/-- Letters, marks, numbers, punctuation and symbols. -/
def graphic : Array (Nat × Nat) := ofSteps [
  "XcLZB2tT3556202J2l02b13bD322bI9Q55IL2fB2bB3bM3cSFbM3bC3E2R302A6UAc12eG27313L2620433831339051243",
  "O3225513L26212121302451324083208GB228222L26212439222230G33B862227313L2621243831328251243HB12542",
  "2341202141424B5442233070FK6C222M2F38222381223033398L222M29243822238171233922DC222bE22255F3P222H",
  "4N282036405520277932DbL5Sb2120242N202M3420262933XbZ2Z5b22Z2E2Cb2fH20603kG233620233b4233W2336202",
  "33E2bK233bU3V4P7cD353rR2R4cG8LANAJDC2221DcL39797D2A7cG8b66bXBU2B5B504b534Cb75P7A4bP3bS2S3A797D3",
  "UbEc44bA2d79bN4E4bN8b63A9b66oT353b135372020202U3bG2E2D352I3228IN9bAI13Q2C4WGWGdV5sEQAMbyB3V2jO6",
  "b820603bJ81FNA6262626262626262dHZP2cGDfXRB6bQ2cD3cU6b62cL2cBDbA2bfhO4bIAjNLf39fM612024PbM497bJ9",
  "bX9B7d7CT4c52A5W2bIAD393cUPRB53535A6262bN5dH397lyBDM5bCjaTk53cXb36D46P242021212dGHmC3bH80Xb57bE",
  "2I23542dQ5f9453535324626E13B2P2I212E3DZdE625b84cF2C40bCb9dNS4bCGR5ZAT6b66T2b05Db7eD397Z5Z5b39bF",
  "CB2E26212A2E2621bWiMALB7P52b528bY5302b721403M2bZ98bDI216W4Q60bTbJ5J3bD2167222S3259888bRXb25BAbH",
  "4S3Q6P83D6c9c0bKbEEbE8b999i7U2b52231c4b69b5NPb3RLMAc55ZAbP24EO897bG2H9b2AcN2JCH2bAbR620232E2A7",
  "bM697327313L2621242931323070663644dWcJ24VbZ99eNbH3b1ZbWC97CKbL79bJQ3E5Mf6bNcTcAD73037212T213BA9",
  "bZ73b93ASbZ9cAEc089gV82b82DBS4V3L2Dc26212b74021289975212b0212589iNO8G2b44RcF0GbDEzMcVd224CfFcv9",
  "cQEbdRHLehFq6jfUpS8U295c8297T35BbXB9262K6It5cIcUc25bK8GbT4C1FgoF9biDb78jo8326212i2G0U230F39kZ",
  "cm5cY6C488933faPb93MAd7bPgTBb23c19d3MbXdFJDJDcEAOdScC2bY213031332B20262bS2337262R232420462jF3i3",
  "3tHG42EbePU75fY62G3621246bPY0d5b84D3951iXUIbL60mXb5uN623212E2fG3Fb6c35951vUbVc5bOfF32Q212030292",
  "3202070502020222120302020202021203326232320292G62242GbH1hJb75cRDE3E2E2b0BeTbLSEb75881F5eBbbB5G4",
  "C4dA5cM7B50GB5bJ997b39T31c7jFDD3C488b9269D58888e22bIb29bcNbtqNXelD7g53ge1FhzKdi8p1bpVfh66emF",
  "bdgs9gN"]

end CodeRanges

/-- Whether a code point prints as itself: graphic ones and the plain space. -/
def isPrintable (code : Nat) : Bool :=
  if code < 0x80 then 0x20 ≤ code && code ≤ 0x7E
  else CodeRanges.contains CodeRanges.graphic code

namespace Text

def quoteRune (rune : Rune) : Text :=
  if rune.isIllFormed then "\\x" ++ hex rune.bytes
  else if rune.code = 0x22 then "\\\""
  else if rune.code = 0x5C then "\\\\"
  else if isPrintable rune.code then rune.bytes
  else if rune.code = 0x07 then "\\a"
  else if rune.code = 0x08 then "\\b"
  else if rune.code = 0x0C then "\\f"
  else if rune.code = 0x0A then "\\n"
  else if rune.code = 0x0D then "\\r"
  else if rune.code = 0x09 then "\\t"
  else if rune.code = 0x0B then "\\v"
  else if rune.code < 0x20 || rune.code = 0x7F then "\\x" ++ hexNumber 2 rune.code
  else if rune.code < 0x10000 then "\\u" ++ hexNumber 4 rune.code
  else "\\U" ++ hexNumber 8 rune.code

def quote (value : Text) : Text :=
  "\"" ++ (Utf8.runes value).flatMap quoteRune ++ "\""

end Text

end FragmentCompiler
