/-!
# Binary64 numbers

An IEEE 754 binary64 number is kept as its sign bit and the remaining 63-bit
word. Below `infinityWord` the words enumerate the finite magnitudes in
increasing order, so comparing numbers is comparing integers (`rank`), and every
finite magnitude is a whole number of `units` of size `2 ^ -1074`.

No machine arithmetic is involved: all 64-bit patterns, with both zeros, the
subnormal numbers and every NaN, are values of the type.
-/

namespace TableView

/-- A 64-bit floating-point pattern: the sign bit and the word of the other 63 bits. -/
structure Binary64 where
  negative : Bool
  word : Nat
  word_lt : word < 0x8000000000000000
deriving DecidableEq

namespace Binary64

/-- The word of infinity. Smaller words are finite, larger ones are NaN. -/
def infinityWord : Nat := 0x7ff0000000000000

/-- Zero with the given sign bit. -/
def zero (negative : Bool) : Binary64 := ⟨negative, 0, by decide⟩

/-- Infinity with the given sign bit. -/
def infinity (negative : Bool) : Binary64 := ⟨negative, infinityWord, by decide⟩

/-- The quiet NaN that arithmetic produces. -/
def nan : Binary64 := ⟨false, 0x7ff8000000000000, by decide⟩

instance : Inhabited Binary64 := ⟨zero false⟩

/-- The number with the given 64-bit pattern; bits above the 64th are dropped. -/
def ofBits (bits : Nat) : Binary64 :=
  ⟨bits.testBit 63, bits % 0x8000000000000000, Nat.mod_lt _ (by decide)⟩

/-- The 64-bit pattern, sign bit first. -/
def bits (x : Binary64) : Nat := (if x.negative then 0x8000000000000000 else 0) + x.word

/-- Whether the pattern stands for no number. -/
def isNaN (x : Binary64) : Bool := infinityWord < x.word

/-- Whether the pattern stands for a real number, which infinities and NaN do not. -/
def isFinite (x : Binary64) : Bool := x.word < infinityWord

/-- Position on the number line. Both zeros stand at the same place, and greater
numbers have greater ranks. -/
def rank (x : Binary64) : Int := if x.negative then -(x.word : Int) else x.word

/-- The order of two numbers. A NaN is comparable with nothing, itself included. -/
def compare? (x y : Binary64) : Option Ordering :=
  if x.isNaN || y.isNaN then none else some (compare x.rank y.rank)

/-- Numeric equality: the two zeros are equal and a NaN equals nothing. -/
def eq (x y : Binary64) : Bool := x.compare? y == some .eq

/-- Numeric order; false as soon as one side is NaN. -/
def lt (x y : Binary64) : Bool := x.compare? y == some .lt

/-- Numeric order or equality; false as soon as one side is NaN. -/
def le (x y : Binary64) : Bool := x.lt y || x.eq y

/-- Equality fit for a lookup key: numeric equality, except that all NaN are one key. -/
def sameKey (x y : Binary64) : Bool := (x.isNaN && y.isNaN) || x.eq y

/-- The 64-bit word that stands for the number in a lookup key: one word for all
NaN, one for both zeros, and the bit pattern otherwise. -/
def keyWord (x : Binary64) : Nat :=
  if x.isNaN then 0xffffffffffffffff else if x.word = 0 then 0 else x.bits

/-- How often the spacing of the least numbers has been doubled at this magnitude. -/
def step (x : Binary64) : Nat := x.word / 0x10000000000000 - 1

/-- The 53-bit significand, in units of the local spacing. -/
def significand (x : Binary64) : Nat := x.word - x.step * 0x10000000000000

/-- The magnitude of a finite number as a multiple of `2 ^ -1074`. -/
def units (x : Binary64) : Nat := x.significand <<< x.step

/-- A finite number as a multiple of `2 ^ -1074`. -/
def signedUnits (x : Binary64) : Int := if x.negative then -(x.units : Int) else x.units

@[simp] theorem isNaN_zero (negative : Bool) : (zero negative).isNaN = false := by
  simp [isNaN, zero]

@[simp] theorem isNaN_infinity (negative : Bool) : (infinity negative).isNaN = false := by
  simp [isNaN, infinity]

@[simp] theorem isNaN_nan : nan.isNaN = true := by
  simp [isNaN, nan, infinityWord]

@[simp] theorem units_zero (negative : Bool) : (zero negative).units = 0 := by
  simp [units, significand, zero]

/-- Every word splits into its spacing and its significand. -/
theorem step_mul_add_significand (x : Binary64) :
    x.step * 0x10000000000000 + x.significand = x.word := by
  unfold significand step
  omega

theorem bits_lt (x : Binary64) : x.bits < 0x10000000000000000 := by
  have := x.word_lt
  unfold bits
  split <;> omega

end Binary64

end TableView
