attribute [instance (high)] instPowNat Zero.ofOfNat0 ByteArray.instDecidableEq

attribute [default_instance high + 1] instPowNat
