import FragmentCompiler.Text.CodeRanges

/-!
# Data of canonical composition

Canonical decompositions, canonical combining classes and the exclusions from
composition of Unicode 15.0, each sorted.  Code points that are keys are written down as
distances from the key before.
-/

namespace FragmentCompiler.NormalForm

open CodeRanges (numbers)

/-- An even step leads up from a code point, an odd one down. -/
def moved (code step : Nat) : Nat :=
  if step % 2 = 0 then code + step / 2 else code - (step + 1) / 2

/-- Runs of adjacent code points, of which `left` are left after `before`: the distance to
a run, how many it has, and for each the step to what it decomposes into from `part`, what
the one before decomposes into. -/
def renamingsAfter : (before left part : Nat) → List Nat → List (Nat × Nat)
  | before, 0, part, distance :: count :: rest =>
    renamingsAfter (before + distance - 1) count part rest
  | before, left + 1, part, step :: rest =>
    (before + 1, moved part step) :: renamingsAfter (before + 1) left (moved part step) rest
  | _, _, _, _ => []

/-- Runs in the same form of code points that decompose into two others. -/
def splittingsAfter : (before left first second : Nat) → List Nat → List (Nat × Nat × Nat)
  | before, 0, first, second, distance :: count :: rest =>
    splittingsAfter (before + distance - 1) count first second rest
  | before, left + 1, first, second, step :: step' :: rest =>
    let first := moved first step
    let second := moved second step'
    (before + 1, first, second) :: splittingsAfter (before + 1) left first second rest
  | _, _, _, _, _ => []

/-- Ranges of code points after another, each with a number. -/
def classesAfter (before : Nat) : List Nat → List (Nat × Nat × Nat)
  | distance :: width :: value :: rest =>
    let first := before + distance
    (first, first + width, value) :: classesAfter (first + width) rest
  | _ => []

def renamings : Array (Nat × Nat) := List.toArray <| renamingsAfter 0 0 0 <| List.flatMap numbers [
  "x42bqO221b0bD1eZA1bjF91gWhqI1bq221221221221bM212212bQ1dZ31cUB1cP21281E81B81c481bV32HbsPA1bt4216",
  "21boL32rd82i51pn742bvVgSo62zw62cgmMhIbylYukVvuKbcJqk5rvXdd2bpkU0bmlPbexKbgzFcbEetGleUezKdrOv2rO",
  "edYvc9bs2cb8bqYiyUhfEerAbpgTcsEmx2dwUkzGncIbjlNkeMlz8bz2vd1qzQdlAwpTeo2dlYdb8qi4bjsFbf6qEjuKdi6",
  "dyYcqUezGdhMeSedQfbQciAbk6umBnIcgQdjMiiMghAktLbbiLdjEqbKcgKhsNdn4ky0fp6bhzHbyChmQcbQr6hsWoOneG",
  "bkxLzaAznXVwbCbzOdk6kdCfzTwgPdyEsb4bhg9hmKchAkqQbb6suHusWwoFisCjqFqvAea7myKwqDcnIqtQhgWdmQqxZ",
  "trGtfZffNrlQrcPjsQveLbmUfCml4le4daOepAdvEbijVsIcvUczUdtEfpEfaGppIcpEchEd2bprPlaUcoQtqUbatVbs8g8",
  "bl0ftUbeKbu8cwQch8bjAibAfpBgdEbsUbjr9hSbdWpiUnd0bb4ya1qOby4emMjbKeuXua1ekYcs4zYbhWksKk6gd6jKjv0",
  "cpOeKlKbnrTxbAndOctCbdlPkb1bh4gbKeIfd0ckQegWclCibGghKigAbfeXbabObla1llWgOcxGtAcz6sObrOco2oyC",
  "bmuXjeAbcpObmlThbWjf6seWbab9yIdt2ggOtdQblk9bb0eoKfhOrIt8ciAdxEbaGfgEfcSb0ewUcuCbkzXpaUooHqgEbnK",
  "jn8jcYdd4bgGbecNdk8la2dx5eQuKfjNbeLoqEbhdRbcs4bauNcTgxIchEofYsfTjqAdn7weEduLhr6gzFxjJhl1cm031",
  "bl021hsK3AlgRsfKbzKbiSbWEcCqhIoo7bqM21dm221crO32cwOkY4bWej0QcGcmOhaJdf6bmw9rEfOv4bIg2bgOfUfGba8",
  "fScb4Kch0lSc4fKbvUi6jQbbScsCj2oObgOkIbbYcl2jMM1GCEcO2jWdMrQbfCb6d4qYi6bb4hS0baKcp6hGu6d4wScYbm4",
  "h8dqUpSdCben7kdxUjlnF3cYbckRbyMe9bb3z6dAs6cUblIdZdSe2bj4eYi2Wp0l0ca4Ei0dSqMgKdVhGcJi4dOw8eWd0oG",
  "pWj28dAcgUdMvQwSVeUo0sOdkIczFgSgUs6iAcYmK4jIYbEeSJw0baYp2kEmGiIsCl2buYiQbyCzCdUWqId6cHd05Xe8eI",
  "v8bf4rGqEmAcf8fQgEhEc0OcOboEcmKiguSBgiIkpv3clQbUldyOftQspQkciFe6fjgNp2bsmH9IjdwYjdgZeCQdYgObQeC",
  "bBpkXjus0jfa1EWb2jehUjuaLprWc4jej8jeiNQboFboWImdeCmdaRSpyFqbKMcGAqbVqgC4bIb8M2YcSGIbEK400jfyY",
  "iqdBprFb6jgkWjgk7Cb6iGfNWbSd8eObGdQWbU0b6b0GUsWp3p6kZbYckXdu6pZc4bEh7jA1gUjizSjivVAUb4GdKjjoSdO",
  "jjkRcMOeDhWtkFStsOd00jkgSjjzDb6UOjkpEjkoPEbuYbtDuaXueESeKcTjluMjlkHjlkMjli75YfM2uq5urOcEb6cGuuT",
  "khoIkhn1uxC66b4mfs0mfp3jnjA0iufBtbX0uzHkqtMzuCkvkVIvbZveMcUKbWhKvmLbNvpCjomGjojLh6843cKb4c0RMcM",
  "b48bGMdOeObYgWjphKjpiLdLg0bIfEjpm2jpiLf5bJwrXxcMb6bQc3wzXxlYbMjqwKjqpXpEjPxq7xu8xv5bZmkK6lsMfJ",
  "ogQbhh3th88CdELjrwGkpyRylMgHlEcUjroWjroDg5nMywLyz6fEdYkKjrpYjrn3zp1zsYjslWjsj1zsRzuGcIbI2jteC",
  "qdNqjQjtc7jub8jtuXSfNjQc8d6cZc8UQjtpEjttVnYdIbay5bbdC7jtvOjuh3uQjtu8cOjtrZgEbH5bbqHbbt4cUBd0",
  "ingGimxZjul0jug5juyEjuqLQbIjvw0jvtBb6jwiWmEjwiJYbcxXbczEbcyP0bdhQb6b6b4dUbdjHbdoIjxrOjxq7jxvC",
  "jxsJjafQizwTjzb6bAhSlczBObeb4jzhA1c6bGjziH20cEbed5begSbeg1eGletIkah1dGdKbep5lfs6kavBkbbScEkbaZ",
  "f4bfaVbffMKAkccYqM0kckPbfdJlicQkcn56bfnNlimIkck3bfvNbfwW9bMkdyKkdt1bfyBbgdWdAdQbgi1lla0bQlkzN",
  "llhSkekLkeq8keoPfMMkffEe2kfeDkflSkfkVjdxQklbNbhhMeIbhj3bhmEvc1lbdWSbcnFIjdeT6hlGbpdHbhzWBb0bafF",
  "bagK4KcAkhd8khd9d4dWe4hNiKcCg8oFgM4WkhdGr6iBlptVbix04bYkkpSkklFkhxSlqyD8lrfKq2lrv1bjmYOM4dKbThG",
  "cFiEeHdQbIbjy5bkd8bSbkd3bkiE6kkg0kjzJEbkm1bknMbuc5mfg6k8lvu7IblcYeAiQlAklmUkli1b8f0f4kmgOcneT",
  "hyx5TcWhzh8hyuJfKkoy4bIkog9f6bSkor6koqLpUiU2f3v6bKkpqIkovPbpoBbpqSkpoGmfaPbqb6bffLbfkYkqwClU",
  "mhh3Gbqj0krz8mieVmimOkseL0bOkssYksiNbqmTbqqSh0bIdCbqtZmlmSkudFqSkIbrwDbQbsaKkvy6mny3mob6oQhA",
  "kweBbsnLbsr2AEKEc2kxu2"]

def splittings : Array (Nat × Nat × Nat) :=
  List.toArray <| splittingsAfter 0 0 0 0 <| List.flatMap numbers [
  "fC6dMbqO0202020A04294bM4c502020C8F02020C26A9250202020A35CF02020C8D36G10202020A04294bM4c502020C8",
  "F02020C26A9250202020A35CF02020C8D2H0Ed37bS0bR4bS0bRbWbS0bNc5bS0bR2bS0bRAbS0bRAbS0bP0bS03KbPFbS0",
  "bR4bS0bR2bS0bRbUbS0bRbJbS0bNJbS0bR8bS0bR2bS0bRbSbS0bPc1bS039bP2bS0bR2bS0bR4bS0bRbWbS0bRbT4429bS",
  "0bPc2bS026bPc3bS0bRc4bS0bRbHbS056bNLbS0bRc4bS0bRbHbS046bPFbS0bR4bS0bRAbS03IbLJbS0bRc4bS0bRbHbS0",
  "bPLbS0bR2bS0bRc2bS0bRbHbS0bPbIbS0bRbHbS03NbPHbS0bR2bS0bR4bS0bR8bS0bR2bS0bRbMbS0bNc3bS0bN0bS0bRC",
  "2DbS0bRCbS0bRAbS0Y2cDUbS0E2bF0bS0TGcVTbS0bB0bS0bF0bS0bF0bS0fQFbS0bR5bS0bRMbS0bRNbS026d38bS0rW02",
  "0tL0bS03BiTGbS0bJ0bS0bJbKbS0v2bZ20cVGm60beN042bXLbS03b0bD1bS0eU2bS0bP0bS0R0bS0k5SbS0bR4bS0bJ3bS",
  "0bR4bS0bJ3bS0bR4bS0bF3bS0bR4bS0bL3bS0bR4bS0bL3bS0bR4bS0bVb6bS0bP0bS032cFbFbS07Ec59bS0bJbSbS0gA",
  "bXbS0bT0bS0j76bS0yU520ba30bS0hL1bkE5bT2bhR0bpE02380404021C023C080bU0Q7cPEO0OD804040b00Q5ZEO0BDC",
  "08052I00Eb82dQF0G213D41PE53b4D31MCB1L0W1bS0N25B0G213D41bYE53bJD31MCO2cQI20c22f9HbS0E4c30bS0bR4",
  "bS032bH3bS036j2420kT0bS0bP0bS036bP7bS0bR8bS0bF0bS03CjG020kF0bS0cB7bS0bR8bS0bR6bS0bJ5bS032bJ0bS0",
  "i95baGbuU02bU0bT2bY1eA1hQ021b30H1Y0qM1bh8bpC81G03160b08bN02020A0A020I080d02iGh80bEG2c3bH2021Q0",
  "cC1hAh431C0Z3bV020A031U0gI1pSpO320bB0bEG2c3bH20bJ1g8iMbI3cWbD201bEdG1h4h2dC1gQh272E002220b38b2",
  "dJ3gWfU201bEdY1i6gE230A695b6jX1u2ba8A1K051A051A051A0D1bH3A1cQdP2204dMO212091dN0I1bUd2A1K051A051",
  "A051A0D1bH3d11iAgQczC1fyOgaU21402140214021404180b51cA021403240202160tHeAou1ne7bS0bPbNbS0bRbKbS0",
  "bRSbS0fMcNbS0j1CbS0bRbKbS0bRSbS0bRJbS0bRCbS0jOcH201220lFcGbS0bR6bS0z2cB20baT2bS0bP5bS0bP6bS0bR",
  "bKbS0bRbHbS0bRbQbS0bREbS0bP4bS0fOcLbS0j30bS0bRbWbS0bRSbS0bPRbS0qhObP20qjHcIbS0bR7bS0bPcFbS0bRC",
  "bS0bRbKbS0bPbJbS0bRbKbS0bRSbS0bR7bS0fQcFbS0bREbS0eUF201220o10bS0bRCbS0bN0bS0bRbKbS0qjCbP20ql5cI",
  "bS0bPcBbS0bRbKbS0mUbJ20A020pwI020qlH0bS0bRbKbS0bRSbS0bR7bS0bPHbS0bRObS0bR5bS0nIcF202E20pD9bS0bR",
  "bSbS0bPbXbS0bR2bS0bREbS0bR1bS0bRbKbS0bPbJbS0bR2bS0bP1bS0bP9bS0bRbUbS0bRSbS0Z0Oc9644021oK55cIrN",
  "bKbS0bRbFbS0fEFbS0bR1bS0bRIbS0bRBbS0qh0120qf912011201I201B20qf6620qpRbMbS0bRbFbS0bRBbS0fM3bS0bR",
  "1bS0bRIbS0bRBbS0qhW120qqVEbS0bRbGbS0bF0bS0bRbFbS0fMFbS0bR1bS0bRIbS0bRBbS0qiG120pyX12011201I201B",
  "201bS20sF0bS0bRbFbS0rGF2011201I201B201bS20t1bXbS0bRbYbS0bRbFbS0bRBbS07MbtSW02oyEb32012201dM20",
  "pa7cL02paMb32012201dM20oyNcL02oz2b320122036paVb002pbAb32012203b2ozFb002ozUb32012201dM20pbNcL02",
  "pc2b32012201dM20pa7cL02paMb32012201dM20pcFcL02pcUb32012201dM20paRcL02pb6b320122036pcZb002pdEb32",
  "0122038pbBb002pbQb32012201dM2021pdJcJ21pe0b321022I0dMpbZcL02pcEb32012201dM20pe7cL02peMb32012201",
  "dM20pe7dN21802140214021C021C021804bHox2dU202020202020202020202020202020Y02020202020202020202020",
  "20202020cQ0202020202020202020202020202020peJdH03peMdMpeL09025A5piI6pk9dH0307210dU54bpD5qw06peH0",
  "H023I5pj26pkXdT2140270dUpkGdT020dMpiJdB03Y745XdOY0cPdB030736pnU0020dMplDdB03C727Jb2028cKC0c3dB0",
  "307227b4bq9b353qwGdUpdX0A02395pkQ6pn1dT21K0210dUlI2qjAP40J140V3dC08030bH1cQ051A03160O1bC02140R1",
  "bA031E031402160N1sq5021srK0B5b30sqH040srO02032Q02032602072602032E020326020Z4bI0C02040bD4cL020b4",
  "02074bS0202020ceF1em00bmO1cz8yvE2140214021402140214021402140214021402140214031602140214072E0022",
  "26102226102226102226102N1cX1A1eU0E1S02140214021402140214021402140214021402140214031602140214072",
  "E002226102226102226102226102N1cX134e2020202041M0cdhB1xpJxm121bE6BDHK02fefS102feh5L0208202020202",
  "0202540202020202140224020224020294020202020b557CK0I0fvG1fpx6fqb22140F1K0dN2hSg220p02bdMbdQ0bEk7",
  "2uKtQ0J210Qh02o6nG20yT1bxKbxUbyjI7dwsSdwtU20EI02020202cF6f0P202I201220"]

def combiningClasses : Array (Nat × Nat × Nat) :=
  List.toArray <| classesAfter 0 <| List.flatMap numbers [
  "vCKgE10gG13g410gG10g014g411fM13g411fM1Ag414113g417gE10gO10gE12g412gE11g422gE13g410gE10gG11g410",
  "gE10gH11gI10gH11gI10gH1CgEhO4gEhE0g413gE10g412gE10g610g415gE15g411gE10g411gE10g610gC10gE10A10B1",
  "0C10D10E10F10G10H10I11J10K10L10M20N20O10P20gE10g420Ic17gE10U10V10WbD0R10S10T10U10V10W10X10Y11gE",
  "11g414gE10g411gE10g4H0ZcU6gE33gE10g410gE31gE20g411gE10g4b00b0V0gE10g411gE10g411gE12g410gE11g410",
  "gE10g412gE10g410gE10g410gE10g410gE10g411gEeH6gE10g410gEA0g4P3gE28gE22gE24gEb82g4bP0gE12g413gEb7",
  "4gE14g41DgE20g411gE10g411gE10g412gE12g410R10S10T12gE10g411gE11g414gEbP07H0940gE10g411gEcW07H09",
  "bD0gEbQ07H09d307H09d307H09dK09d307H0980cC10cJcU07H09d219H09dH09d21cV109E3cZd11dA109E3dEc51g4S0",
  "g420g420g0bK0dL10dM20dO63dM30dM21gE10921gEbR0g4d507219cB0g4u02gEbaD19V09eE09B0gEfO0gCe00g610gE1",
  "0g4g40gE10g4c009L7gE30g4bD4gE15g411gE10g421g411gE11g414gE10g413gEcU07G09b30gE10g416gEbJ19bN07C1",
  "9bW07e92gE20114g411gE13g410gE26150g470gE41gEfJ1gE10g416gE10g411gE10gI10fY10g410fM1b0gE10gG11gC1",
  "0g410g210gE10gH10g410gE10g4u11gE11113gE12111gE50gE41110gE10g410gE11113g410gEdhB2gEdY09cPVgEpF0",
  "g210gC10gG10g611g8cY18bgfX0gE59gEX1gEc91gEhP09b209e809SHgEbM2g4b209cO07D09gO0gE21gE10g431gE61gE",
  "20gEbH09gV09vr50QvE6gE16g411gEbb20g4gB0g4e64gEbuR0g420gEb50gE10110g4509eM0gE10g4pY3gEkS1gEc92g4",
  "bZ1g412gE10g410gE13g4bE0gE10g410gE10g4fD09b609F09bM09107bY2gEbD19bR07c509A07cZ09107eZ07109c917H",
  "09P6gE44gEfQ09407O0gEcS09107h009107dJ09dB09107d809hI09107h719507eD09cC09J09cA09lQ09h707219cA09",
  "lU19us641bO6gEbhM16uz901frR1g012140gA14g097g434gE11g4V3gEe52gEdtO6gE2GgE36gE21gE24gEcT0gEeH6gE",
  "kG0gEbQ3gEo51gG10g410gEbbL6g4d25gE107"]

/-- Code points that decompose into two others and are not composed of them again. -/
def exclusions : List Nat :=
  let distances := List.flatMap numbers [
  "x8br81111111dH12cC3Z113h21bbQA555DA2129IA555DhkZceyX2B1111111111112111122121211111111cgo8111111",
  "cF11111"]
  (distances.foldl (fun (before, found) distance => (before + distance, (before + distance) :: found))
    (0, [])).2

def composites : Array (Nat × Nat × Nat) :=
  let pairs := splittings.toList.filterMap fun (code, first, second) =>
    if exclusions.contains code then none else some (first, second, code)
  let notAfter := fun (left, right, _) (left', right', _) =>
    decide (left < left') || left == left' && decide (right ≤ right')
  (pairs.mergeSort notAfter).toArray

end FragmentCompiler.NormalForm
