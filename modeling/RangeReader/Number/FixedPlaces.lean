import RangeReader.Number.Binary64

/-!
# A double with a fixed number of decimal places

The exact value of the double is rounded, not its shortest text: `1.005` is
a little below that decimal and gives `1.00` with two places, and `0.125` is
exactly a tie and gives `0.12`.
-/

namespace RangeReader.Binary64

/-- The magnitude `m · 2^e` in units of `10^-places`, rounded half to
even. -/
def decimalUnits (places m : Nat) (e : Int) : Nat :=
  roundHalfEven (m * Nat.pow 2 e.toNat * Nat.pow 10 places) (Nat.pow 2 (-e).toNat)

/-- The text of a double with `places` decimals, rounded half to even on its
exact value. -/
def fixed (places : Nat) (x : Binary64) : String :=
  match x.reading with
  | .nan => "nan"
  | .infinite s => if s then "-inf" else "inf"
  | .finite s m e =>
    let units := decimalUnits places m e
    let fraction := toString (units % Nat.pow 10 places)
    (if s then "-" else "") ++ toString (units / Nat.pow 10 places)
      ++ (if places = 0 then "" else
        "." ++ "".pushn '0' (places - fraction.length) ++ fraction)

/-- Whether the text of a double with `places` decimals shows a magnitude of
at least `n`. -/
def showsAtLeast (places n : Nat) (x : Binary64) : Bool :=
  match x.reading with
  | .nan => false
  | .infinite _ => true
  | .finite _ m e => n * Nat.pow 10 places ≤ decimalUnits places m e

end RangeReader.Binary64
