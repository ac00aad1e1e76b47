import OffchainNames.Bytes

/-!
# The curve secp256k1

The curve `y² = x³ + 7` over the integers modulo the prime `fieldSize`; its points form a group of
prime order `groupOrder`. Points are kept in Jacobian coordinates, so that a multiple of a point costs
one inversion: `(x, y, z)` stands for `(x / z², y / z³)`, and `z = 0` for the neutral element.
-/

namespace OffchainNames

namespace Secp256k1

/-- The prime whose residues are the coordinates. -/
def fieldSize : Nat := 0xfffffffffffffffffffffffffffffffffffffffffffffffffffffffefffffc2f

/-- The number of points. -/
def groupOrder : Nat := 0xfffffffffffffffffffffffffffffffebaaedce6af48a03bbfd25e8cd0364141

/-- The binary digits of a number below `2 ^ count`, the most significant first. -/
def bits : (count value : Nat) → List Bool
  | 0, _ => []
  | count + 1, value => (value / Nat.pow 2 count % 2 == 1) :: bits count value

/-- A power modulo a number, for exponents below `2 ^ 256`. -/
def power (modulus base exponent : Nat) : Nat :=
  (bits 256 exponent).foldl
    (fun acc bit =>
      let square := acc * acc % modulus
      if bit then square * base % modulus else square)
    1

/-- The inverse modulo a prime of a number that it does not divide. -/
def inverse (prime value : Nat) : Nat := power prime value (prime - 2)

/-- The difference of two residues of the field. -/
def sub (a b : Nat) : Nat := (a + (fieldSize - b)) % fieldSize

/-- The product of two residues of the field. -/
def mul (a b : Nat) : Nat := a * b % fieldSize

/-- A point in Jacobian coordinates. -/
structure Point where
  /-- The first coordinate times the square of `z`. -/
  x : Nat
  /-- The second coordinate times the cube of `z`. -/
  y : Nat
  /-- The denominator; zero for the neutral element. -/
  z : Nat
  deriving DecidableEq, Repr

namespace Point

/-- The neutral element. -/
def zero : Point := ⟨1, 1, 0⟩

/-- The point with the given affine coordinates. -/
def ofAffine (x y : Nat) : Point := ⟨x, y, 1⟩

/-- The generator of the group. -/
def generator : Point :=
  ofAffine 0x79be667ef9dcbbac55a06295ce870b07029bfcdb2dce28d959f2815b16f81798
    0x483ada7726a3c4655da4fbfc0e1108a8fd17b448a68554199c47d08ffb10d4b8

/-- The affine coordinates of a point other than the neutral element. -/
def affine? (p : Point) : Option (Nat × Nat) :=
  if p.z = 0 then none
  else
    let w := inverse fieldSize p.z
    let w2 := mul w w
    some (mul p.x w2, mul p.y (mul w2 w))

/-- The sum of a point with itself. -/
def double (p : Point) : Point :=
  let a := mul p.x p.x
  let b := mul p.y p.y
  let c := mul b b
  let t := (p.x + b) % fieldSize
  let d := mul 2 (sub (sub (mul t t) a) c)
  let e := mul 3 a
  let x := sub (mul e e) (mul 2 d)
  ⟨x, sub (mul e (sub d x)) (mul 8 c), mul 2 (mul p.y p.z)⟩

/-- The sum of two points. -/
def add (p q : Point) : Point :=
  if p.z = 0 then q
  else if q.z = 0 then p
  else
    let pz := mul p.z p.z
    let qz := mul q.z q.z
    let u := mul p.x qz
    let s := mul p.y (mul qz q.z)
    let h := sub (mul q.x pz) u
    let r := sub (mul q.y (mul pz p.z)) s
    if h = 0 then if r = 0 then double p else zero
    else
      let h2 := mul h h
      let h3 := mul h2 h
      let v := mul u h2
      let x := sub (sub (mul r r) h3) (mul 2 v)
      ⟨x, sub (mul r (sub v x)) (mul s h3), mul (mul p.z q.z) h⟩

/-- The multiple of a point by a number below `2 ^ 256`. -/
def multiple (k : Nat) (p : Point) : Point :=
  (bits 256 k).foldl (fun acc bit => if bit then (double acc).add p else double acc) zero

/-- The point with the given first coordinate whose second coordinate has the given parity. -/
def lift? (x : Nat) (odd : Bool) : Option Point :=
  if fieldSize ≤ x then none
  else
    let square := (mul (mul x x) x + 7) % fieldSize
    let root := power fieldSize square ((fieldSize + 1) / 4)
    if mul root root ≠ square then none
    else some (ofAffine x (if (root % 2 == 1) = odd then root else fieldSize - root))

end Point

end Secp256k1

end OffchainNames
