import RustyBacnet.Encoding.Npdu

/-!
# Codec errors

The part of `bacnet-types`' `Error` that the codecs return. A label keeps its placeholders; the
numbers that fill them stand beside it.
-/

namespace RustyBacnet.Encoding

/-- Which fault a decoder found. -/
inductive DecodingKind where
  | invalidEncoding
  | outOfRange
  | overflow
  | invalidTag
  | missing
  | trailing
  | unsupported
  deriving DecidableEq

/-- A decoder's refusal; the context is empty when it names none. -/
structure DecodeError where
  kind : DecodingKind
  offset : ℕ
  label : String
  context : String
  values : List ℕ
  deriving DecidableEq

def DecodeError.new (kind : DecodingKind) (offset : ℕ) (label : String) : DecodeError where
  kind
  offset
  label
  context := ""
  values := [0, 0]

def DecodeError.within (refused : DecodeError) (context : String) : DecodeError :=
  { refused with context }

def DecodeError.withValue (refused : DecodeError) (value : ℕ) : DecodeError :=
  { refused with values := [value, 0] }

def DecodeError.withValues (refused : DecodeError) (first second : ℕ) : DecodeError :=
  { refused with values := [first, second] }

inductive Error where
  | decoding (refused : DecodeError)
  | bufferTooShort (need have_ : ℕ)
  | encode (label : String)
  | range (refused : RangeError)
  deriving DecidableEq

namespace Error

def decodingKind (kind : DecodingKind) (offset : ℕ) (label : String) : Error :=
  .decoding (.new kind offset label)

/-- `Error::decoding`. -/
def decodingAt (offset : ℕ) (label : String) : Error := decodingKind .invalidEncoding offset label

def invalidTag (offset : ℕ) (label : String) : Error := decodingKind .invalidTag offset label

def missing (offset : ℕ) (label : String) : Error := decodingKind .missing offset label

def outOfRange (offset : ℕ) (label : String) : Error := decodingKind .outOfRange offset label

end Error

end RustyBacnet.Encoding
