import RustyBacnet.Bip.Bvll

/-!
# The broadcast distribution table

`bbmd/bdt.rs` of `bacnet-bip-core`: the policy for one row, the canonical pass over a candidate table
and the table with its three modes. The fixed array is the list of its rows in use; the capacity is
the parameter `N`. A method returns its result and the table it leaves.
-/

namespace RustyBacnet.Bip

def twoHopMask : Ip := ⟨0xFFFFFFFF⟩

/-- Where a broadcast forwarded to a row's subnet is sent. -/
def distributionAddress (row : BdtEntry) : SocketAddr :=
  ⟨⟨row.address.ip.bits ||| ~~~row.mask.bits⟩, row.address.port⟩

/-- Why a row is refused. -/
inductive EntryError where
  | zeroPort
  | unspecifiedAddress
  | limitedBroadcastAddress
  | multicastAddress
  | nonContiguousMask
  | maskTooWide
  | networkAddress
  | directedBroadcastAddress
  | limitedBroadcastTarget
  deriving DecidableEq

/-- Why a table is refused. -/
inductive BdtError where
  | invalid (entry : BdtEntry) (reason : EntryError)
  | conflictingMasks (entry : BdtEntry)
  | oneHopBehindNat (entry : BdtEntry)
  | oneHopForGroup (entry : BdtEntry)
  | noOwnRow (own : SocketAddr)
  | capacity (needed available : ℕ)
  deriving DecidableEq

/-- `u32::count_ones`. -/
def countOnes (bits : UInt32) : ℕ := ((List.range 32).filter bits.toNat.testBit).length

def validateEntry (entry : BdtEntry) : Except EntryError Unit :=
  let ip := entry.address.ip.bits
  let mask := entry.mask.bits
  let host := ~~~mask
  let contiguous := host &&& (host + 1) = 0
  let prefixLen := countOnes mask
  let firstOctet := ip >>> 24
  if entry.address.port = 0 then .error .zeroPort
  else if ip = 0 then .error .unspecifiedAddress
  else if ip = 0xFFFFFFFF then .error .limitedBroadcastAddress
  else if 224 ≤ firstOctet ∧ firstOctet ≤ 239 then .error .multicastAddress
  else if ¬contiguous then .error .nonContiguousMask
  else if prefixLen < 8 then .error .maskTooWide
  else if prefixLen < 32 ∧ ip &&& host = 0 then .error .networkAddress
  else if prefixLen < 32 ∧ ip ||| mask = 0xFFFFFFFF then .error .directedBroadcastAddress
  else if ip ||| host = 0xFFFFFFFF then .error .limitedBroadcastTarget
  else .ok ()

/-! ## The canonical pass -/

/-- What a pass has found: the rows written, the distinct rows seen, and the index of the first
distinct row that found no room. -/
structure Canonical where
  stored : List BdtEntry
  distinct : ℕ
  overflowFrom : Option ℕ
  deriving DecidableEq

/-- The earlier row with the address of `entry`, which stands at `index`: once a row has found no
room, later rows are looked up in the candidate itself. -/
def Canonical.earlier (pass : Canonical) (table : List BdtEntry) (index : ℕ) (entry : BdtEntry) :
    Option BdtEntry :=
  match pass.overflowFrom with
  | none => pass.stored.find? fun row => row.address == entry.address
  | some start =>
    (pass.stored ++ (table.take index).drop start).find? fun row => row.address == entry.address

/-- Note a distinct row, in the storage when that has room. -/
def Canonical.admit_ (pass : Canonical) (room index : ℕ) (entry : BdtEntry) : Canonical :=
  if pass.stored.length < room ∧ pass.overflowFrom.isNone then
    { pass with stored := pass.stored ++ [entry], distinct := pass.distinct + 1 }
  else
    { pass with
      distinct := pass.distinct + 1
      overflowFrom := some (pass.overflowFrom.getD index) }

def Canonical.step (pass : Canonical) (table : List BdtEntry) (room index : ℕ) (entry : BdtEntry) :
    Except BdtError Canonical :=
  match validateEntry entry with
  | .error reason => .error (.invalid entry reason)
  | .ok () =>
    match pass.earlier table index entry with
    | some row => if row.mask ≠ entry.mask then .error (.conflictingMasks entry) else .ok pass
    | none => .ok (pass.admit_ room index entry)

/-- The rows of `table` from `index` on. -/
def canonicalFrom (table : List BdtEntry) (room : ℕ) :
    ℕ → List BdtEntry → Canonical → Except BdtError Canonical
  | _, [], pass => .ok pass
  | index, entry :: behind, pass =>
    match pass.step table room index entry with
    | .error refused => .error refused
    | .ok pass => canonicalFrom table room (index + 1) behind pass

/-- Validate `table` and collect its distinct rows in storage for `room`. -/
def canonicalRows (table : List BdtEntry) (room : ℕ) : Except BdtError Canonical :=
  canonicalFrom table room 0 table ⟨[], 0, none⟩

/-! ## The table -/

/-- A broadcast distribution table of up to `N` rows. -/
structure Bdt (N : ℕ) where
  rows : List BdtEntry
  own : SocketAddr
  ownRowAppended : Bool
  behindNat : Bool
  servesGroup : Bool
  deriving DecidableEq

namespace Bdt

variable {N : ℕ}

def new (own : SocketAddr) : Bdt N := ⟨[], own, false, false, false⟩

/-- An empty table at `own` under this table's group rule. -/
def withNat (bdt : Bdt N) (own : SocketAddr) (behindNat : Bool) : Bdt N :=
  { (new own : Bdt N) with behindNat, servesGroup := bdt.servesGroup }

/-- The group rule: no row for `own` has another mask. -/
def checkGroupRow (own : SocketAddr) (rows : List BdtEntry) : Except BdtError Unit :=
  match rows.find? fun row => row.address == own && row.mask != twoHopMask with
  | some entry => .error (.oneHopForGroup entry)
  | none => .ok ()

def setServesGroup (bdt : Bdt N) (serves : Bool) : Except BdtError Unit × Bdt N :=
  if serves then
    match checkGroupRow bdt.own bdt.rows with
    | .error refused => (.error refused, bdt)
    | .ok () => (.ok (), { bdt with servesGroup := serves })
  else (.ok (), { bdt with servesGroup := serves })

/-- The rows as last set, without an appended own row. -/
def configuredRows (bdt : Bdt N) : List BdtEntry :=
  bdt.rows.take (bdt.rows.length - bdt.ownRowAppended.toNat)

def row (bdt : Bdt N) (address : SocketAddr) : Option BdtEntry :=
  bdt.rows.find? fun row => row.address == address

def contains (bdt : Bdt N) (address : SocketAddr) : Bool := (bdt.row address).isSome

def ensureOwnRow (bdt : Bdt N) : Bdt N :=
  if bdt.contains bdt.own then bdt
  else { bdt with rows := bdt.rows ++ [⟨bdt.own, twoHopMask⟩], ownRowAppended := true }

/-- What the NAT rules say of a table: its first one-hop row, or the lack of an own row. -/
def checkNatRules (bdt : Bdt N) (table : List BdtEntry) (hasOwn : Bool) (distinct : ℕ) :
    Except BdtError Unit :=
  if bdt.behindNat then
    match table.find? fun row => row.mask != twoHopMask with
    | some entry => .error (.oneHopBehindNat entry)
    | none => if !hasOwn && 0 < distinct then .error (.noOwnRow bdt.own) else .ok ()
  else .ok ()

def checkGroupRule (bdt : Bdt N) (table : List BdtEntry) : Except BdtError Unit :=
  if bdt.servesGroup then checkGroupRow bdt.own table else .ok ()

def set (bdt : Bdt N) (table : List BdtEntry) : Except BdtError Unit × Bdt N :=
  match canonicalRows table N with
  | .error refused => (.error refused, bdt)
  | .ok found =>
    let hasOwn := table.any fun row => row.address == bdt.own
    match bdt.checkNatRules table hasOwn found.distinct with
    | .error refused => (.error refused, bdt)
    | .ok () =>
      match bdt.checkGroupRule table with
      | .error refused => (.error refused, bdt)
      | .ok () =>
        let needed := found.distinct + (!hasOwn && !bdt.behindNat).toNat
        if N < needed then (.error (.capacity needed N), bdt)
        else
          let next := { bdt.withNat bdt.own bdt.behindNat with rows := found.stored }
          (.ok (), if bdt.behindNat then next else next.ensureOwnRow)

/-- `set` with `table` less any row for `drop`. Rows are kept in storage for `N`: with more of them
the whole table is set. -/
def setWithout (bdt : Bdt N) (table : List BdtEntry) (drop : Option SocketAddr) :
    Except BdtError Unit × Bdt N :=
  match drop with
  | none => bdt.set table
  | some drop =>
    let kept := table.filter fun row => row.address != drop
    if N < kept.length then bdt.set table else bdt.set kept

/-- Move to the own address `own`, behind a NAT router or not, setting the configured rows again. -/
def reconfigure (bdt : Bdt N) (own : SocketAddr) (behindNat : Bool) (drop : Option SocketAddr) :
    Except BdtError Unit × Bdt N :=
  if bdt.rows = [] ∧ ¬bdt.behindNat then (.ok (), { bdt with own, behindNat })
  else
    match (bdt.withNat own behindNat).setWithout bdt.configuredRows drop with
    | (.error refused, _) => (.error refused, bdt)
    | (.ok (), next) => (.ok (), next)

def setOwnAddress (bdt : Bdt N) (own : SocketAddr) : Except BdtError Unit × Bdt N :=
  if own = bdt.own then (.ok (), bdt)
  else if bdt.behindNat then bdt.reconfigure own true none
  else
    let configured := bdt.configuredRows
    match (if bdt.servesGroup then checkGroupRow own configured else .ok ()) with
    | .error refused => (.error refused, bdt)
    | .ok () =>
      let needed := configured.length + (!configured.any fun row => row.address == own).toNat
      if N < needed then (.error (.capacity needed N), bdt)
      else (.ok (), ensureOwnRow { bdt with rows := configured, own, ownRowAppended := false })

end Bdt

end RustyBacnet.Bip
