/-! # Powers of two and of ten

The bounds of words and the weights of digits.
-/

namespace Harvest

/-- Two to the `k`. -/
def twoTo (k : Nat) : Nat := Nat.pow 2 k

/-- Ten to the `k`. -/
def tenTo (k : Nat) : Nat := Nat.pow 10 k

theorem twoTo_pos (k : Nat) : 0 < twoTo k := Nat.pow_pos (by decide)

theorem tenTo_succ (k : Nat) : tenTo (k + 1) = tenTo k * 10 := rfl

theorem tenTo_pos (k : Nat) : 0 < tenTo k := Nat.pow_pos (by decide)

end Harvest
