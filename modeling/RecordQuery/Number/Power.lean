/-!
# Powers of whole numbers

A power of a natural number or of an integer is the one of the core library, also where another library
brings powers of its own.
-/

namespace RecordQuery

@[default_instance 20000]
instance (priority := 2000) natPower : Pow Nat Nat := instPowNat

@[default_instance 20000]
instance (priority := 2000) intPower : Pow Int Nat := instPowNat

end RecordQuery
