/-!
# Similar names

When a command line names a subcommand or option that does not exist, the
names that exist and are *similar* to it are offered instead.  Similarity is
the Jaro similarity of the two names as character sequences:

* two characters *match* when they are equal and no further apart than half
  the longer length, less one; each character of the second name matches at
  most one of the first, taken left to right, the first free one in range;
* of the matching characters, taken in order in both names, half the number
  of pairs that differ are *transpositions*;
* with `m` matches, `t` transpositions and lengths `a` and `b`, the similarity
  is `(m / a + m / b + (m - t) / m) / 3`, and `0` when nothing matches.

Names whose similarity exceeds `0.7` are similar.  The similarity is the
value that double-precision arithmetic gives for the formula: each of the
three quotients, the two sums and the final third is rounded to the nearest
double (ties to even), and the threshold is the double nearest to `0.7`.
This matters at ties: three matches between names of five and six characters
give exactly `0.7`, whose computed value lies just above the rounded
threshold, so such names count as similar.  Doubles are kept as exact
fractions (`Fraction`), so the rounding and every comparison are decided
exactly.
-/

namespace ScopeSelectors

namespace Command

/-- A non-negative fraction `num / den` with `den` positive. -/
structure Fraction where
  /-- The numerator. -/
  num : Nat
  /-- The denominator. -/
  den : Nat

/-- Whether `x < y` for two fractions. -/
def Fraction.lt (x y : Fraction) : Bool := x.num * y.den < y.num * x.den

/-- The sum of two fractions. -/
def Fraction.add (x y : Fraction) : Fraction := ⟨x.num * y.den + y.num * x.den, x.den * y.den⟩

/-- A third of a fraction. -/
def Fraction.third (x : Fraction) : Fraction := ⟨x.num, 3 * x.den⟩

/-! ## Rounding to a double -/

/-- The number of binary digits of `n`, counted with at most `fuel` halvings. -/
def bitCount : Nat → Nat → Nat
  | 0, _ => 0
  | fuel + 1, n => if n = 0 then 0 else bitCount fuel (n / 2) + 1

/-- `n * 2 ^ k / d` as a numerator and a denominator. -/
def scaleByPow2 (n d : Nat) (k : Int) : Nat × Nat :=
  if 0 ≤ k then (n * Nat.pow 2 k.toNat, d) else (n, d * Nat.pow 2 (-k).toNat)

/-- The double nearest to the fraction `x`, ties to even.  With `b` the
difference of the digit counts of numerator and denominator, `x * 2 ^ (53 - b)`
lies in `[2^51, 2^53)`; one more doubling if it is below `2^52` leaves the
53-bit significand, which is rounded and scaled back.  Fractions far outside
the range of normal doubles do not occur here. -/
def Fraction.toDouble (x : Fraction) : Fraction :=
  if x.num = 0 then ⟨0, 1⟩
  else
    let b : Int := (bitCount x.num x.num : Int) - (bitCount x.den x.den : Int)
    let k0 : Int := 52 - b
    let (p0, q0) := scaleByPow2 x.num x.den k0
    let k := if p0 / q0 < 4503599627370496 then k0 + 1 else k0
    let (p, q) := scaleByPow2 x.num x.den k
    let m := p / q
    let r := p % q
    let m := if 2 * r > q || (2 * r = q && m % 2 = 1) then m + 1 else m
    if 0 ≤ k then ⟨m, Nat.pow 2 k.toNat⟩ else ⟨m * Nat.pow 2 (-k).toNat, 1⟩

/-- The threshold of similarity: the double nearest to `0.7`. -/
def similarityThreshold : Fraction := Fraction.toDouble ⟨7, 10⟩

/-- The positions of `b` matched by the characters of `a`, `none` for a
character without a match, given the positions already taken. -/
def matchPositions (b : List Char) (range : Nat) :
    List Char → Nat → List Nat → List (Option Nat)
  | [], _, _ => []
  | c :: rest, i, taken =>
    let lo := i - range
    let hi := min b.length (i + range + 1)
    let found := (List.range' lo (hi - lo)).find? fun j => b[j]? == some c && !taken.contains j
    match found with
    | some j => some j :: matchPositions b range rest (i + 1) (j :: taken)
    | none => none :: matchPositions b range rest (i + 1) taken

/-- The Jaro similarity of `a` and `b`, as double-precision arithmetic
computes it. -/
def jaro (a b : List Char) : Fraction :=
  if a.isEmpty && b.isEmpty then ⟨1, 1⟩
  else if a.isEmpty || b.isEmpty then ⟨0, 1⟩
  else
    let range := max a.length b.length / 2 - 1
    let found := matchPositions b range a 0 []
    let m := (found.filter Option.isSome).length
    if m = 0 then ⟨0, 1⟩
    else
      let fromA := (a.zip found).filterMap fun (c, j) => j.map fun _ => c
      let taken := found.filterMap id
      let fromB := (b.zipIdx.filter fun (_, j) => taken.contains j).map Prod.fst
      let t := ((fromA.zip fromB).filter fun (x, y) => x != y).length / 2
      let toA := Fraction.toDouble ⟨m, a.length⟩
      let toB := Fraction.toDouble ⟨m, b.length⟩
      let kept := Fraction.toDouble ⟨m - t, m⟩
      ((((toA.add toB).toDouble.add kept).toDouble).third).toDouble

/-- The names among `candidates` similar to `given`, least similar first; of
two equally similar names the earlier one comes first. -/
def similarNames (given : String) (candidates : List String) : List String :=
  let scored := candidates.filterMap fun c =>
    let s := jaro given.toList c.toList
    if similarityThreshold.lt s then some (s, c) else none
  (scored.mergeSort fun x y => !Fraction.lt y.1 x.1).map Prod.snd

example : similarNames "chek" ["check", "match", "resolve", "help"] = ["check"] := by
  decide +kernel

example : similarityThreshold.lt (jaro "ovachm".toList "match".toList) = true := by
  decide +kernel

end Command

end ScopeSelectors
