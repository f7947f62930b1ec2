import BranchingStory.Decimal.Shortest

/-!
How the digits of a float are laid out: positionally where the leading digit's exponent is within bounds,
otherwise with an exponent after the mark `e`.
-/

namespace BranchingStory

structure Layout where
  positional : Option (Int × Int)
  pointZero : Bool
  plusSign : Bool
  tie : Tie

namespace Layout

def leading (value : Decimal) : Int := value.exponent + (Decimal.width value.digits : Int) - 1

def zeros (count : Nat) : List Char := List.replicate count '0'

def plain (layout : Layout) (value : Decimal) : List Char :=
  let digits := Nat.toDigits 10 value.digits
  if 0 ≤ value.exponent then
    digits ++ zeros value.exponent.toNat ++ (if layout.pointZero then ['.', '0'] else [])
  else
    let places := (-value.exponent).toNat
    if places < digits.length then
      digits.take (digits.length - places) ++ '.' :: digits.drop (digits.length - places)
    else '0' :: '.' :: zeros (places - digits.length) ++ digits

def scientific (layout : Layout) (value : Decimal) : List Char :=
  let exponent := leading value
  let mantissa := match Nat.toDigits 10 value.digits with
    | [] => []
    | [digit] => [digit]
    | digit :: more => digit :: '.' :: more
  let sign := if exponent < 0 then ['-'] else if layout.plusSign then ['+'] else []
  mantissa ++ 'e' :: sign ++ Nat.toDigits 10 exponent.natAbs

def finite (layout : Layout) (x : Binary) : String :=
  let value := Decimal.shortest layout.tie x
  let inside := match layout.positional with
    | none => true
    | some (least, greatest) =>
        value.digits = 0 || least ≤ leading value && leading value ≤ greatest
  let magnitude := if inside then layout.plain value else layout.scientific value
  String.ofList (if x.negative then '-' :: magnitude else magnitude)

def render (layout : Layout) (infinity notANumber : String) (x : Float) : String :=
  match Binary.ofFloat? x with
  | some value => layout.finite value
  | none => if x.isNaN then notANumber else if x < 0 then "-" ++ infinity else infinity

end Layout
end BranchingStory
