import RustyBacnet.Apdu.Header
import RustyBacnet.Encoding.Tagged

/-!
# Formal Error bodies

`apdu/formal_error.rs`: the error productions of seven services that replace the plain class and
code.
-/

namespace RustyBacnet.Encoding

/-- The class and code inside the constructed member `number` at `offset`, and the offset behind its
closing tag. -/
def errorType (data : List UInt8) (offset : ℕ) (number : UInt8) (what : String) :
    Except Error ((ErrorClass × ErrorCode) × ℕ) := do
  let (body, behind) ← decodeCtxConstructed data offset number what
  let (cls, next) ← decodeAppEnumerated .u16 body 0 what
  let (code, bodyEnd) ← decodeAppEnumerated .u16 body next what
  expectEnd body bodyEnd offset what
  return ((⟨UInt16.ofNat cls⟩, ⟨UInt16.ofNat code⟩), behind)

/-- Whether `data` starts with opening tag `number`. -/
def opensWith (data : List UInt8) (number : UInt8) : Bool :=
  match decodeTag data 0 with
  | .ok (tag, _) => tag.isOpeningTag number
  | .error _ => false

def subscribeCovPropertyMultiple (data : List UInt8) :
    Except Error (Option (ErrorClass × ErrorCode)) :=
  let what := "SubscribeCOVPropertyMultiple-Error"
  if opensWith data 0 then do
    let (pair, behind) ← errorType data 0 0 what
    expectEnd data behind behind what
    return some pair
  else if !opensWith data 1 then .ok none
  else do
    let (subscription, behind) ← decodeCtxConstructed data 0 1 what
    expectEnd data behind behind what
    let (_, offset) ← decodeCtxObjectId subscription 0 0 what
    let (reference, afterReference) ← decodeCtxConstructed subscription offset 1 what
    let (_, referenceEnd) ← decodePropertyReference reference 0
    expectEnd reference referenceEnd offset what
    let (pair, behind) ← errorType subscription afterReference 2 what
    expectEnd subscription behind 0 what
    return some pair

/-- WritePropertyMultiple's frame around the first failed write attempt. -/
def firstFailedWriteAttempt (data : List UInt8) (offset : ℕ) (what : String) : Except Error ℕ := do
  let (reference, behind) ← decodeCtxConstructed data offset 1 what
  let _ ← decodeObjectPropertyReference reference
  return behind

def firstFailedElementNumber (data : List UInt8) (offset : ℕ) (what : String) :
    Except Error ℕ := do
  let (_, behind) ← decodeCtxUnsigned .u32 data offset 1 what
  return behind

def privateTransferMembers (data : List UInt8) (offset : ℕ) (what : String) : Except Error ℕ := do
  let (_, offset) ← decodeCtxUnsigned .u32 data offset 1 what
  let (_, offset) ← decodeCtxUnsigned .u32 data offset 2 what
  if offset = data.length then return offset
  else
    let (_, behind) ← decodeCtxConstructed data offset 3 what
    return behind

/-- Read session identifiers to the end of their frame. Each takes an octet, so as many turns as
there are octets suffice. -/
def sessionIdentifiers (sessions : List UInt8) (what : String) : ℕ → ℕ → Except Error Unit
  | 0, _ => .ok ()
  | turns + 1, position =>
    if sessions.length ≤ position then .ok ()
    else do
      let (session, next) ← decodeAppUnsigned .u64 sessions position what
      if 255 < session then
        .error (.decoding (((DecodeError.new .outOfRange position
          "session identifier \x7b\x7d exceeds u8").within what).withValue session))
      else sessionIdentifiers sessions what turns next

def vtSessionIdentifiers (data : List UInt8) (offset : ℕ) (what : String) : Except Error ℕ :=
  if offset = data.length then .ok offset
  else do
    let (sessions, behind) ← decodeCtxConstructed data offset 1 what
    sessionIdentifiers sessions what (sessions.length + 1) 0
    return behind

/-- The productions that are the error and then members of their own. -/
def formalMembers (service : ConfirmedServiceChoice) :
    Option (String × (List UInt8 → ℕ → String → Except Error ℕ)) :=
  if service = .writePropertyMultiple then some ("formal WPM Error", firstFailedWriteAttempt)
  else if service = .addListElement ∨ service = .removeListElement then
    some ("ChangeList-Error", firstFailedElementNumber)
  else if service = .createObject then some ("CreateObject-Error", firstFailedElementNumber)
  else if service = .confirmedPrivateTransfer then
    some ("ConfirmedPrivateTransfer-Error", privateTransferMembers)
  else if service = .vtClose then some ("VTClose-Error", vtSessionIdentifiers)
  else none

/-- The class and code of a complete formal body; `none` when the service has none or `data` does
not open as one. -/
def decodeFormalBody (service : ConfirmedServiceChoice) (data : List UInt8) :
    Except Error (Option (ErrorClass × ErrorCode)) :=
  if service = .subscribeCovPropertyMultiple then subscribeCovPropertyMultiple data
  else
    match formalMembers service with
    | none => .ok none
    | some (what, members) =>
      if !opensWith data 0 then .ok none
      else do
        let (pair, offset) ← errorType data 0 0 what
        let behind ← members data offset what
        expectEnd data behind behind what
        return some pair

theorem decodeFormalBody_none (service : ConfirmedServiceChoice) {data : List UInt8}
    (h0 : opensWith data 0 = false) (h1 : opensWith data 1 = false) :
    decodeFormalBody service data = .ok none := by
  unfold decodeFormalBody
  by_cases hService : service = .subscribeCovPropertyMultiple
  · rw [if_pos hService]
    unfold subscribeCovPropertyMultiple
    rw [if_neg (by rw [h0]; decide), if_pos (by rw [h1]; rfl)]
  · rw [if_neg hService]
    cases formalMembers service with
    | none => rfl
    | some production =>
      dsimp only
      rw [if_pos (by rw [h0]; rfl)]

end RustyBacnet.Encoding
