import FragmentCompiler.Text.CodeRanges

/-!
# Data of display widths and grapheme clusters

Sets of code points by display width and by their role at grapheme cluster
boundaries.
-/

namespace FragmentCompiler.CodeRanges

/-- Controls and format characters that take no column. -/
def invisible : Array (Nat × Nat) := ofSteps [
  "0VcOWE0btE0eqS3ceT4P6bO5byfDceVimG0gY231"]

/-- Combining marks that take no column. -/
def combining : Array (Nat × Nat) := ofSteps [
  "vCd3hO4y48bcT040gN0D1bt82byO0bDUeD8qDbRu1WdhB2gNVsI1bgfX329X1c91nRHxhRFbb20kH4dbL1eAAbE3yR1bM1",
  "b6644xy44bbjGb93Mp34459736V3e52dtO62G362124cT0cgP6"]

/-- Wide and fullwidth characters, which take two columns. -/
def wide : Array (Nat × Nat) := ofSteps [
  "eqWcNew31E1fB34030oI1M1bFBb80K0E091I1619060M0812050308051T0b00205220bQ2P0F0xW1bG050wJP2cGDfXRB5",
  "bQ3cD3cU6b62cL2cBDbA2b39hn3bTxrG4bIbgQSrWlyBjd9o7vT9NY2I23e6cNdK6beqA4C1FgoF9biDb78jo8326212i2G",
  "0U230F39kZqs10fN0fB039cU2Eb75881F5eBWD82bX2LDb654DG404bY202f63bQE32NJ0R1E0cFcCbDbX70423253C188",
  "gCB50hWbA292f4d5C488b9269D5888bjScsaD3csaD"]

def clusterExtend : Array (Nat × Nat) := ofSteps [
  "vCd3hO6hCb820212120c1AbDKH0cU6353123b00VQcKAbN8A0P3282224b82bP7b7N2VbK020575046B1U0bN0203390A0B",
  "1R031bM051513240V140C1bM0542150L1N520bN021239082B1V0bO020D0A0b5040bK022622381C1U0bN03030406181C",
  "1T1bM1203390A0B1U0c1050322090cA036D7cR038C6c21S02020bKD24216A2ZA0cV3252131Q152H3E03170G0tK2baB2",
  "U1V1V1bT126903AA0bA220dA1Z0dB251A072g4130bN0262020377930bDUbE3bD62060b58D1X33122bL0214022bN731",
  "e922C26507041fJbRoL0fGWdhB2dY0cPVpF5cY1bgfX329X1c91hL04050Q160e81RHE0b37QAbB2bD03331b40bW53131D",
  "090bC0bG022316120b7190gN03050vr50uIFHFk71qU0gB0e64buF22163b5250eM1pY3kS1c92bZAbE3dG0bJEb6031B2",
  "bE33180bQ2b1427bR0D1bH8B330cO230217030eE047M1bM12020N0F644fG73220O0cA03520302121gK0337121S1cE73",
  "021cZ0203520cU23324h8821gU0B12050e133150X9b553390A532bBC21lB62520cBL362121dF540212620c114020jO1",
  "C1bH46020ftA07EoyB4bO6bd50bS3cA0uzL1faQb93Mp3022549736V3e52cd0bI5bD90F0N42EblT62G362124cT0eH6kG",
  "0bQ3o53bbL6d26cy14bglnLcNdLgN"]

def clusterSpacing : Array (Nat × Nat) := ofSteps [
  "cm30bK0329321bF1bO17131bJ0bN2bV0bN29021bI1bP07131d70214222bH2bQ3bQ1bN021213121b40F1bO16222bI1c5",
  "176K1bS0dK0dV1bS0eY0A1Q1b90buP0V0dM08721jN3325125g91bN020M5e20bJ02421bQ0V05130bP0322041bD791eS0",
  "M0bmbO130cH1bFFdZ1bC0bD15132d3131P0eE03160gM1212120bbjO020dK0bA251d80P1bO0bD2A1E0cM24120eR2W1bO",
  "0233132L1fU29140d0170212030gN17330d629120d202170d40hA2A0gX421503020dZ29350cD0U1bR0lC0F0cZ08030",
  "fY45120jR1D0bD19120vxCbIcX1bar1070"]

/-- Code points that join the cluster after them. -/
def clusterPrepend : Array (Nat × Nat) := ofSteps [
  "bqO5g00bE0kP1c90bfG0csyV0G0gT1cb8020gX0c25tH0mC0"]

def clusterControl : Array (Nat × Nat) := ofSteps [
  "09212HcOWE0bmN0exM0ceT031P6bEFciwO0gPBoh9FblhT3fs07bguy6VcPdJgPdvZ"]

/-- Code points that may begin a joined emoji sequence. -/
def pictographic : Array (Nat × Nat) := ofSteps [
  "eP050iqE0D0g10N0cJ5G1k81D0cO0bZ0QA52fK0gG1B0A0bN3252B2d5Bd93A2020704070B1G03050205220C4bA2A0F0F",
  "0kD1mW2K1bG050biJ0D0qQ020ervBh3E2W0bP5D1F039JbKSEB0L03823Am16iT9hDbDdJd9BcEb6D3bL7B5b57Vc9DbA29",
  "2m8h5bcD"]

end FragmentCompiler.CodeRanges
