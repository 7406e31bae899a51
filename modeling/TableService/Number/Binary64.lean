import TableService.Text.Numeral

/-!
# Binary floating-point numbers and their shortest numerals

- `Binary64`: a number of 64 bits, kept as its bit pattern.
- `Binary64.ofNumeral?`: the number that a numeral with a power of ten stands for.
- `Magnitude.shortest`: the fewest decimal digits that read back to the same number, and among
  those the nearest.
- `Tie`: which of two numerals is chosen when both are equally near.
- `Layout`: how a number is written, positionally or with a power of ten.
-/

namespace TableService

/-- A floating-point number. It is its bit pattern, so zero and negative zero differ. -/
structure Binary64 where
  bits : UInt64
deriving DecidableEq

/-- A positive finite number `m * 2 ^ q`. Below a power of two the neighbour is half as far away. -/
structure Magnitude where
  m : Nat
  q : Int
  narrow : Bool

/-- What happens to a number halfway between two numerals. -/
inductive Tie where
  | toEven
  | away

/-- The chosen one of a number and its successor. -/
def Tie.choose : Tie → Nat → Nat
  | toEven, below => below + below % 2
  | away, below => below + 1

/-- The number `digits * 10 ^ exponent`. -/
structure Digits where
  digits : Nat
  exponent : Int

namespace Magnitude

/-- Quarter units of the last place in which the number is `4 * m`: the ends of the interval of
reals that round to it. -/
def low (x : Magnitude) : Nat :=
  if x.narrow then 4 * x.m - 1 else 4 * x.m - 2

/-- The upper end of that interval. -/
def high (x : Magnitude) : Nat :=
  4 * x.m + 2

/-- Compares `d * 10 ^ e` with `quarters` quarter units of the last place, exactly. -/
def cmpQuarters (x : Magnitude) (d : Nat) (e : Int) (quarters : Nat) : Ordering :=
  compare (d * Nat.pow 10 e.toNat * Nat.pow 2 (2 - x.q).toNat)
    (quarters * Nat.pow 2 (x.q - 2).toNat * Nat.pow 10 (-e).toNat)

/-- Whether `d * 10 ^ e` rounds to the number; the ends of the interval do when `m` is even. -/
def readsBack (x : Magnitude) (d : Nat) (e : Int) : Bool :=
  let ends := x.m % 2 == 0
  let atLow := x.cmpQuarters d e x.low
  let atHigh := x.cmpQuarters d e x.high
  (atLow == .gt || (ends && atLow == .eq)) && (atHigh == .lt || (ends && atHigh == .eq))

/-- The multiple of `10 ^ e` that reads back, if one does: one of the two neighbours of the number,
the nearer one if both do. -/
def onGrid? (x : Magnitude) (tie : Tie) (e : Int) : Option Digits :=
  let below := 4 * x.m * Nat.pow 2 (x.q - 2).toNat * Nat.pow 10 (-e).toNat
    / (Nat.pow 10 e.toNat * Nat.pow 2 (2 - x.q).toNat)
  match x.readsBack below e, x.readsBack (below + 1) e with
  | false, false => none
  | true, false => some ⟨below, e⟩
  | false, true => some ⟨below + 1, e⟩
  | true, true =>
    -- twice the number against the sum of the two neighbours
    match x.cmpQuarters (2 * below + 1) e (8 * x.m) with
    | .gt => some ⟨below, e⟩
    | .lt => some ⟨below + 1, e⟩
    | .eq => some ⟨tie.choose below, e⟩

/-- An exponent whose power of ten is above the number. -/
def topExponent (x : Magnitude) : Int :=
  (x.m.log2 + 1 + x.q) * 30103 / 100000 + 1

/-- Tries ever finer grids. Seventeen digits are always enough, so the exact value at the end is
never needed. -/
def shortest (x : Magnitude) (tie : Tie) : Digits :=
  ((List.range 24).findSome? fun (i : Nat) => x.onGrid? tie (x.topExponent - (i : Int))).getD
    (if 0 ≤ x.q then ⟨x.m * Nat.pow 2 x.q.toNat, 0⟩ else ⟨x.m * Nat.pow 5 x.q.natAbs, x.q⟩)

end Magnitude

/-- How a number is written: the exponents of the leading digit that are written positionally,
whether a whole number carries `.0`, and where a tie between two numerals goes. -/
structure Layout where
  positional : Int → Bool
  pointZero : Bool
  tie : Tie

namespace Layout

open Text

/-- Writes digits in a layout. -/
def lay (layout : Layout) (d : Digits) : List Char :=
  let ds := Numeral.ofNat d.digits
  let lead := d.exponent + ds.length - 1
  if layout.positional lead then
    if lead < 0 then
      ['0', '.'] ++ List.replicate (lead.natAbs - 1) '0' ++ ds
    else if ds.length ≤ lead.toNat + 1 then
      ds ++ List.replicate (lead.toNat + 1 - ds.length) '0'
        ++ (if layout.pointZero then ['.', '0'] else [])
    else
      ds.take (lead.toNat + 1) ++ '.' :: ds.drop (lead.toNat + 1)
  else
    ds.take 1 ++ (if ds.length = 1 then [] else '.' :: ds.drop 1)
      ++ ['e', if lead < 0 then '-' else '+'] ++ Numeral.ofNat lead.natAbs

/-- Always positional, a whole number without a point, a tie away from zero. -/
def plain : Layout := ⟨fun _ => true, false, .away⟩

end Layout

namespace Binary64

/-- The sign bit. -/
def negative (x : Binary64) : Bool :=
  x.bits >>> 63 == 1

/-- The eleven bits of the exponent. -/
def exponentField (x : Binary64) : Nat :=
  ((x.bits >>> 52) &&& 0x7FF).toNat

/-- The lower 52 bits. -/
def fractionField (x : Binary64) : Nat :=
  (x.bits &&& 0xFFFFFFFFFFFFF).toNat

/-- The size of a finite number other than zero. -/
def magnitude (x : Binary64) : Magnitude :=
  if x.exponentField = 0 then ⟨x.fractionField, -1074, false⟩
  else
    ⟨0x10000000000000 + x.fractionField, x.exponentField - 1075,
      x.fractionField == 0 && 1 < x.exponentField⟩

/-- Writes a number in a layout. Zero has a sign too. -/
def render (x : Binary64) (layout : Layout) : List Char :=
  (if x.negative then ['-'] else []) ++
    (if x.exponentField = 0x7FF then (if x.fractionField = 0 then "inf" else "NaN").toList
     else if x.exponentField = 0 ∧ x.fractionField = 0 then
       '0' :: (if layout.pointZero then ['.', '0'] else [])
     else layout.lay (x.magnitude.shortest layout.tie))

/-- The shortest numeral without a power of ten. -/
def plainText (x : Binary64) : String :=
  String.ofList (x.render .plain)

/-- The bit pattern of a machine number. -/
def ofFloat (x : Float) : Binary64 := ⟨x.toBits⟩

/-- The machine number of a bit pattern. -/
def toFloat (x : Binary64) : Float := Float.ofBits x.bits

/-- The number with the other sign. -/
def neg (x : Binary64) : Binary64 := ⟨x.bits ^^^ 0x8000000000000000⟩

/-- Divides by a power of ten, at most 308 places at a time. -/
def shiftDown (x : Float) (n : Nat) : Float :=
  if n ≤ 308 then x / Float.ofScientific 1 false n
  else if x == 0 then x
  else shiftDown (x / Float.ofScientific 1 false 308) (n - 308)
termination_by n

/-- The number `significand * 10 ^ exponent`: the significand is rounded first, then the product or
quotient. There is none if the result is too large. -/
def ofNumeral? (significand : UInt64) (exponent : Int) : Option Binary64 :=
  let x := significand.toFloat
  if exponent < 0 then some (ofFloat (shiftDown x exponent.natAbs))
  else if 308 < exponent then (if x == 0 then some (ofFloat x) else none)
  else
    let product := x * Float.ofScientific 1 false exponent.toNat
    if product.isInf then none else some (ofFloat product)

end Binary64

example : (Binary64.ofFloat 0.1).plainText = "0.1" := by decide +kernel

example : (Binary64.ofFloat 1216245141774540.25).plainText = "1216245141774540.3" := by
  decide +kernel

example : (Binary64.ofFloat 1e23).plainText = "100000000000000000000000" := by decide +kernel

end TableService
