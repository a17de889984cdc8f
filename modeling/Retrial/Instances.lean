/-!
# Instances of the core library

Powers, sums and the order of lists are the core library's throughout. Mathlib declares
further instances of these classes, equal to them but not the same terms; with the core's
own preferred, a definition reads the same above Mathlib as below it.
-/

-- Mathlib's default for a power with a literal exponent has the priority `high`, 10000.
attribute [instance (high), default_instance 20000] instPowNat

attribute [instance (high)] Zero.ofOfNat0 List.instLE List.decidableLE
