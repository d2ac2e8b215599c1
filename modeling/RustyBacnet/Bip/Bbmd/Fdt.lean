import RustyBacnet.Bip.Bvll
import RustyBacnet.Time

/-!
# The foreign device table

`bbmd/fdt.rs` of `bacnet-bip-core`. The fixed array is the list of its registrations in use and `N`
its capacity.
-/

namespace RustyBacnet.Bip

/-- `GRACE_PERIOD` in whole seconds. -/
def graceSeconds : ℕ := 30

structure Registration where
  address : SocketAddr
  ttl : UInt16
  registeredAt : Instant
  deriving DecidableEq

namespace Registration

def lifetime (registration : Registration) : Duration :=
  fromSecs (registration.ttl.toNat + graceSeconds)

/-- At exactly the lifetime a registration is still live. -/
def isExpiredAt (registration : Registration) (now : Instant) : Bool :=
  registration.lifetime < now - registration.registeredAt

def secondsRemainingAt (registration : Registration) (now : Instant) : UInt16 :=
  let passed := (now - registration.registeredAt) / 1000000000
  UInt16.ofNat (min (registration.ttl.toNat + graceSeconds - passed) 65535)

def wireEntryAt (registration : Registration) (now : Instant) : FdtEntry :=
  ⟨registration.address, registration.ttl, registration.secondsRemainingAt now⟩

end Registration

structure RegistrationLimits where
  minTtl : UInt16
  maxTtl : UInt16
  maxEntriesPerSource : ℕ
  reservedCapacity : ℕ
  deriving DecidableEq

def RegistrationLimits.default : RegistrationLimits := ⟨1, 3600, 8, 0⟩

inductive Reservation where
  | ordinary
  | reserved
  deriving DecidableEq

inductive Registered where
  | new
  | renewed
  deriving DecidableEq

inductive RegistrationRefusal where
  | timeToLive
  | notAdmitted
  | sourceQuota
  | tableFull
  deriving DecidableEq

/-- Storage too small, counted in entries. -/
structure StorageFull where
  needed : ℕ
  available : ℕ
  deriving DecidableEq

/-- A foreign device table of up to `N` registrations, in the order they first registered. -/
structure Fdt (N : ℕ) where
  registrations : List Registration
  deriving DecidableEq

namespace Fdt

variable {N : ℕ}

def new : Fdt N := ⟨[]⟩

def liveAt (fdt : Fdt N) (now : Instant) : List Registration :=
  fdt.registrations.filter fun entry => !entry.isExpiredAt now

def get (fdt : Fdt N) (address : SocketAddr) : Option Registration :=
  fdt.registrations.find? fun entry => entry.address == address

def isRegisteredAt (fdt : Fdt N) (address : SocketAddr) (now : Instant) : Bool :=
  (fdt.get address).any fun entry => !entry.isExpiredAt now

/-- Remove an address's registration, lapsed or not; whether there was one. -/
def delete (fdt : Fdt N) (address : SocketAddr) : Bool × Fdt N :=
  let kept := fdt.registrations.filter fun entry => entry.address != address
  (kept.length < fdt.registrations.length, ⟨kept⟩)

def purge (fdt : Fdt N) (now : Instant) : ℕ × Fdt N :=
  let kept := fdt.liveAt now
  (fdt.registrations.length - kept.length, ⟨kept⟩)

/-- Put `registration` in place of the one for its address. -/
def replace (fdt : Fdt N) (registration : Registration) : Fdt N :=
  ⟨fdt.registrations.map fun entry =>
    if entry.address = registration.address then registration else entry⟩

def admitAndStore (fdt : Fdt N) (source : SocketAddr) (ttl : UInt16) (now : Instant)
    (limits : RegistrationLimits) (reservation : Reservation) (admit_ : Bool) :
    Except RegistrationRefusal Registered × Fdt N :=
  if ttl = 0 ∨ ttl < limits.minTtl ∨ limits.maxTtl < ttl then (.error .timeToLive, fdt)
  else if !admit_ then (.error .notAdmitted, fdt)
  else
    let registration : Registration := ⟨source, ttl, now⟩
    if (fdt.get source).isSome then (.ok .renewed, fdt.replace registration)
    else
      let fromSource := (fdt.registrations.filter fun entry => entry.address.ip == source.ip).length
      if limits.maxEntriesPerSource ≤ fromSource then (.error .sourceQuota, fdt)
      else
        let limit := match reservation with
          | .reserved => N
          | .ordinary => N - limits.reservedCapacity
        if limit ≤ fdt.registrations.length then (.error .tableFull, fdt)
        else (.ok .new, ⟨fdt.registrations ++ [registration]⟩)

/-- Handle a Register-Foreign-Device. The admission check `admit` is read only when the time-to-live
has passed the limits. -/
def register (fdt : Fdt N) (source : SocketAddr) (ttl : UInt16) (now : Instant)
    (limits : RegistrationLimits) (reservation : Reservation) (admit_ : Bool) :
    (Except RegistrationRefusal Registered × ℕ) × Fdt N :=
  let (purged, fdt) := fdt.purge now
  let (result, fdt) := fdt.admitAndStore source ttl now limits reservation admit_
  ((result, purged), fdt)

/-- Store `registration` as given. -/
def restore (fdt : Fdt N) (registration : Registration) : Except StorageFull Unit × Fdt N :=
  if (fdt.get registration.address).isSome then (.ok (), fdt.replace registration)
  else if fdt.registrations.length < N then
    (.ok (), ⟨fdt.registrations ++ [registration]⟩)
  else (.error ⟨fdt.registrations.length + 1, N⟩, fdt)

/-- The live registrations as rows in storage for `room`. -/
def wireEntries (fdt : Fdt N) (now : Instant) (room : ℕ) : Except StorageFull (List FdtEntry) :=
  let live := fdt.liveAt now
  if room < live.length then .error ⟨live.length, room⟩
  else .ok (live.map fun entry => entry.wireEntryAt now)

end Fdt

end RustyBacnet.Bip
