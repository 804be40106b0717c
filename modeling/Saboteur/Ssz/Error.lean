/-!
# Decoding errors of the wire format

What can be wrong with an encoded value, and the text that a diagnostic shows for it.
-/

namespace Saboteur.Ssz

/-- More items than a list can hold. -/
structure Overflow where
  count : Nat
  max : Nat
  deriving DecidableEq

/-- The text of an overflow. -/
def Overflow.message (e : Overflow) : String :=
  "OutOfBounds \x7b i: " ++ toString e.count ++ ", len: " ++ toString e.max ++ " \x7d"

/-- Why a list of bytes is no list of bits. -/
inductive BitListError where
  /-- There is no byte at all. -/
  | excessBits
  /-- No bit is set, so the end of the list is not marked. -/
  | missingLength
  /-- The mark of the end is not in the last byte. -/
  | byteCount (given expected : Nat)
  /-- The list is longer than its type allows. -/
  | outOfBounds (max : Nat)
  deriving DecidableEq

/-- The text of a fault in a list of bits. -/
def BitListError.message : BitListError → String
  | .excessBits => "ExcessBits"
  | .missingLength => "MissingLengthInformation"
  | .byteCount given expected =>
    "InvalidByteCount \x7b given: " ++ toString given ++ ", expected: " ++ toString expected ++
      " \x7d"
  | .outOfBounds max => Overflow.message ⟨max, max⟩

/-- Why bytes of a fitting length are still no value. -/
inductive ContentError where
  | bitList (e : BitListError)
  /-- Too many items of a fixed size. -/
  | tooManyItems (count max : Nat)
  /-- Too many items of varying size. -/
  | tooManyOffsets (count max : Nat)
  deriving DecidableEq

/-- The text of a content error. -/
def ContentError.message : ContentError → String
  | .bitList e => "BitList failed to decode: " ++ e.message
  | .tooManyItems count max =>
    "VariableList of " ++ toString count ++ " items exceeds maximum of " ++ toString max
  | .tooManyOffsets count max =>
    "Variable length list of " ++ toString count ++ " items exceeds maximum of Some(" ++
      toString max ++ ")"

/-- Why bytes do not encode a value. -/
inductive DecodeError where
  | invalidByteLength (len expected : Nat)
  | invalidLengthPrefix (len expected : Nat)
  | offsetIntoFixedPortion (offset : Nat)
  | offsetSkipsVariableBytes (offset : Nat)
  | offsetsAreDecreasing (offset : Nat)
  | offsetOutOfBounds (offset : Nat)
  | invalidListFixedBytesLen (offset : Nat)
  | bytesInvalid (e : ContentError)
  deriving DecidableEq

/-- The name of the kind of a decoding error. -/
def DecodeError.kind : DecodeError → String
  | .invalidByteLength .. => "InvalidByteLength"
  | .invalidLengthPrefix .. => "InvalidLengthPrefix"
  | .offsetIntoFixedPortion _ => "OffsetIntoFixedPortion"
  | .offsetSkipsVariableBytes _ => "OffsetSkipsVariableBytes"
  | .offsetsAreDecreasing _ => "OffsetsAreDecreasing"
  | .offsetOutOfBounds _ => "OffsetOutOfBounds"
  | .invalidListFixedBytesLen _ => "InvalidListFixedBytesLen"
  | .bytesInvalid _ => "BytesInvalid"

/-- A kind with the two lengths that disagree. -/
def lengthsText (kind : String) (len expected : Nat) : String :=
  kind ++ " \x7b len: " ++ toString len ++ ", expected: " ++ toString expected ++ " \x7d"

/-- The text of a decoding error. -/
def DecodeError.message (e : DecodeError) : String :=
  match e with
  | .invalidByteLength len expected => lengthsText e.kind len expected
  | .invalidLengthPrefix len expected => lengthsText e.kind len expected
  | .offsetIntoFixedPortion o | .offsetSkipsVariableBytes o | .offsetsAreDecreasing o
  | .offsetOutOfBounds o | .invalidListFixedBytesLen o => e.kind ++ "(" ++ toString o ++ ")"
  | .bytesInvalid c => e.kind ++ "(\"" ++ c.message ++ "\")"

end Saboteur.Ssz
