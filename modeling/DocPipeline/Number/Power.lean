/-! Powers of whole numbers, such as the bound `2 ^ 64` of a 64-bit count, are always those of the
standard library, which evaluate. A library of algebra brings a power for every monoid and
prefers it for numbers too; the order of preference here is the other way round, so that a bound is
the same term wherever it is written.
-/

attribute [instance (high), default_instance (high + 1)] instPowNat
