-- A power with a numeral for its exponent is the core library's, also where the algebraic
-- hierarchy is in scope and offers the power of a monoid: `2 ^ 31` is the same term in the
-- definitions and in what is proved about them. Where the exponent varies, the definitions
-- name `Nat.pow` or `Int.pow`.
attribute [default_instance 20000] instPowNat
