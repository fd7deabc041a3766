/-!
# Powers of numbers

A power of a natural number or an integer is the one of the core library, whichever other powers are
in scope: it computes, and the bounds `2 ^ 64`, `2 ^ 63`, … mean the same term in every module.
-/

attribute [instance (high)] instPowNat
attribute [default_instance 20000] instPowNat
