import Mathlib.Data.Rat.Defs
import Mathlib.Data.List.Infix

/-!
# Lua values

The two plugins are Lua 5.4 scripts. Their integers are sixty-four bits wide, a
table or string index counts from one, and an operation that meets `nil` or an
argument out of range raises an error, which ends the running callback.
-/

namespace MamePlugins

/-- A Lua integer. All bit operations of the plugins act on these. -/
abbrev LuaInt := BitVec 64

/-- The errors the modelled code could raise. -/
inductive LuaError
  /-- "attempt to perform bitwise operation on a nil value" -/
  | bitwiseOnNil
  /-- "bad argument to 'char'": an absent value, or one outside `0..255` -/
  | badArgument
  deriving DecidableEq, Repr

/-- Lua's `x > 0` on an integer, which is signed. -/
def LuaInt.isPositive (x : LuaInt) : Bool := (0#64).slt x

/-- Reading a Lua table used as an array: entry `i`, counted from one, or `nil`. -/
def luaIndex {α : Type*} (table : List α) (i : ℕ) : Option α :=
  if i = 0 then none else table[i - 1]?

/-- An operand of a bit operation must not be `nil`. -/
def bitwiseOperand (x : Option LuaInt) : Except LuaError LuaInt :=
  x.elim (.error .bitwiseOnNil) .ok

/-- `string.find(s, pattern)` used as a condition, for the plugins' patterns,
which contain no magic characters. -/
def stringFind (s pattern : List Char) : Bool := decide (pattern <:+: s)

/-- Lua normalises a float used as a table key to an integer when it has an
integral value; any other float is a key of its own. -/
def floatKey (x : ℚ) : Option ℤ := if x.den = 1 then some x.num else none

/-- A Lua string is a sequence of bytes. -/
abbrev LuaString := List (BitVec 8)

/-- `string.byte(s, i)`: the numerical code of byte `i`, or `nil` past the end. -/
def stringByte (s : LuaString) (i : ℕ) : Option LuaInt :=
  (luaIndex s i).map (BitVec.setWidth 64)

/-- One argument of `string.char`. -/
def charArgument : Option LuaInt → Except LuaError (BitVec 8)
  | some c => if c.toNat ≤ 255 then .ok (c.setWidth 8) else .error .badArgument
  | none => .error .badArgument

/-- `string.char(...)`. -/
def stringChar (codes : List (Option LuaInt)) : Except LuaError LuaString :=
  codes.mapM charArgument

/-- `x & (1 << k) > 0` tests bit `k` of `x`. Bit 63 is the sign. -/
theorem LuaInt.isPositive_and_shift (x : LuaInt) {k : ℕ} (hk : k < 63) :
    LuaInt.isPositive (x &&& (1#64 <<< k)) = x.getLsbD k := by
  have hand : x &&& (1#64 <<< k) = if x.getLsbD k then BitVec.twoPow 64 k else 0#64 :=
    BitVec.and_twoPow x k
  rw [LuaInt.isPositive, hand]
  cases x.getLsbD k with
  | false => simp
  | true =>
    have hpos : (0 : ℤ) < 2 ^ k := Int.pow_pos (by decide)
    rw [if_pos rfl, BitVec.slt_eq_decide, BitVec.toInt_twoPow, if_neg (by omega),
      if_neg (by omega), BitVec.toInt_zero]
    exact decide_eq_true hpos

end MamePlugins
