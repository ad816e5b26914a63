import FragmentCompiler.Text.CodeRanges

/-!
# Letters, digits and marks

The general categories an identifier is made of: letters (L), decimal digits
(Nd) and nonspacing marks (Mn), as of Unicode 15.0.
-/

namespace FragmentCompiler

namespace CodeRanges

/-- Code points of general category L. -/
def letters : Array (Nat × Nat) := ofSteps [
  "bTP7PbC0B0506M2U2mP5BF48020dM42133207022202J2cA2dU9eL2b1307b4c0Q53bAb6b012cQ20G181B230H02TUcGC0",
  "PWA1506L50A040OO8A6N25Ib5bNbH40J089GF57313L26204340H0E122F1B095513L26212121W320K2H8222L26212440",
  "J0G1O0C7313L26212440V122G0I025422341202141424BN0bH7222M2F40R23031V057222M292440W121G1I8222b430H",
  "06292P56H4N282036bNbB21D6bN120242N202921A03420M3X0bS72ZS4d8b6L0H5534041825CD0Ib120603b62j823362",
  "0233b4233W233620233E2bK233bUb2FHcD354r73G2P6c2778HEIFHFC22GbFb0050bWcG843X206bXBUbET34Cb75PbJMA",
  "bGcB0cMbAI7bJTE1Bb7RZb62BZ388b632b632521406fBbThP353b135372020202U3bG2620422643355C6226d90E0HC",
  "cU050392044702020232A336450bH1cwKgC7341Db120603bJ80HMA626262626262626c90n21b74615cD722cH236b62",
  "cLIVbDFo9hb3bTxrGbWb93hG4FB1LbAHU3bXbE83cU3bR612024PF22232MUbFFbDbR54021CRBMQS8bAT0H429B42b4O22",
  "7LM404bD2041343020P23A82D53535A6262b62D7d6UlyBDM5bCjaTk53cXb36D460292C242021212cZYk2JbR3bHb5Bd9",
  "42dQb1P7PCcG45353532b0B2P2I212E3DZdEkUS4bCbCVEJ277b1BT3Z57bDeDJZ5Z5b39bFDA2E26212A2E2621bWiMALB",
  "7P52b528bY5302b721403MBMAUbUI21BLBPbZbJ71bT0G3222Sb7S4Sb072RSbHBLBIEHd3c0bKbEEbEEZjPb571c7SB09L",
  "b7HbBKSMDbGbM130Eb8XORZU0309Y40DbBF3M020b0H2OK1bS620232E298bAb37313L26212440J0D4eFbGJ3L2VbBL120",
  "f5bAb63b1bBL0bOb6E0c0Qb26f6b7d9bRW73037212NG020cN73b2H020T0Bb380M0Cb9K0Jc0hC82b0I0bETd56212b1M0",
  "Q5212VF0j4IG02C2XdH0c8zLgFfFcv9cOGbdRI5ehUq6jfUpS8UIc6ITJbBH3WK6It5bRdLc260bVCbT120TgoF9biDb78",
  "jo8326212i2G0U230F39kZcm5cY6C4889gkFcC2bY213031332B20262bS2337262R232420462jF3O2O2U2O2U2O2U2O2U",
  "2O27bz9U75hAbPe3b8B6H0iYTJb7nHRv1623212E2fGbObV80bhH32Q2120302923202070502020222120302020202021",
  "203326232320292G62242GesTbtqNXelD7g53ge1FhzKdi8p1bpVfh66emF"]

/-- Code points of general category Nd. -/
def decimalDigits : Array (Nat × Nat) := ofSteps [
  "bC9brR9dR9fJ9lH9dB9dB9dB9dB9dB9dB9dB9dB9dB9cP9dB9bZ9hR9bZ9bzR9b39iD9dL9eN979f39cF9dR979blrR9sV9",
  "b39fJ9N9cF9lB9wsV9bnB9ciN9wL9dL9bP9e19hR9jJ9dB9kF9cV9cV9lR9cV9v39gV9bZ9lR9unJ9cF9dR9bdr9bDcnT9",
  "lR9nZ9beV9fc79"]

/-- Code points of general category Mn. -/
def nonspacingMarks : Array (Nat × Nat) := ofSteps [
  "vCd3hO4hEb820212120c1AbDKH0cU6353123b00VQcKAbN8A0P3282224b82bP7b7N2VbK020575046B1U0bN05390L1R03",
  "1bM051513240V140C1bM0542150L1N520bN030239081C1V0bQ0D0bF040bK022622381C1U0bN0307061L1T1bM15390L1",
  "U0c108220cJ036D7cR038C6c21S02020bKD24216A2ZA0cV3252131Q152H3E03170G0tK2baB2U1V1V1bT126903AA0bA2",
  "20dA1Z0dB251A072g4130bN0262020377930bDD2FbE3bD0242060b58D1X33122bL0214022bN731e922C26507041fJbR",
  "u1C504BdhB2dY0cPVpF3d01bgfX059X1c91hL04050Q160e81RHE0b37QAbB2bD03331b40bW53131D090bC0bG02231612",
  "0b7190gN03050vr50uIFHFbb20gB0e64buF22163b5250eM1pY3kS1c92bZAbE3dG0bJEb6031B2bE33180bQ2b1427bR0D",
  "1bH8B330cO230217030eE047M1bM140b2644fG73220O0cD5205121gN37121S1cE73021cZ0203520cU23324h8821h512",
  "050e133150X9b553390A532bBC21lB62520cBL362121dF540212620c114020jO1C1bH46020ftA07EoyB4bO6bd50bS3",
  "cA0uzL1faQb93Mp52I736V3e52cd0bI5bD90F0N42EblT62G362124cT0eH6kG0bQ3o53bbL6d26bgorYgN"]

end CodeRanges

def isLetter (code : Nat) : Bool :=
  if code < 0x80 then
    (0x41 ≤ code && code ≤ 0x5A) || (0x61 ≤ code && code ≤ 0x7A)
  else CodeRanges.contains CodeRanges.letters code

def isDecimalDigit (code : Nat) : Bool :=
  if code < 0x80 then 0x30 ≤ code && code ≤ 0x39
  else CodeRanges.contains CodeRanges.decimalDigits code

def isNonspacingMark (code : Nat) : Bool :=
  if code < 0x80 then false
  else CodeRanges.contains CodeRanges.nonspacingMarks code

end FragmentCompiler
