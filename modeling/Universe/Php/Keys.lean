import Universe.Php

/-!
# Keys of arrays

A text that is the decimal notation of a number of 64 bits is that number as a
key.  Other spellings of a number stay texts.
-/

namespace Universe.Php

/-- The key that a text becomes. -/
def Key.ofText (text : Bytes) : Key :=
  if decimal (atol text) = text then .int (atol text) else .text text

/-- The key that a value becomes; an array is none. -/
def Value.key : Value → Option Key
  | .null => some (.text [])
  | .bool value => some (.int (if value then 1 else 0))
  | .int number => some (.int number)
  | .string text => some (.ofText text)
  | .array _ => none

end Universe.Php
