import RustyBacnet.Bip.Bbmd.BdtLaws

/-!
# The two copies of the global address

Behind a NAT router a BBMD's global address stands in its NAT setting and, as the own address, in
its distribution table. Each operation on the tables keeps the two the same but one: `set_own_address`
on the public distribution table, which moves the one copy and not the other (`Bdt.Moves`).
-/

namespace RustyBacnet.Bip

namespace Bdt

variable {N : ℕ} {bdt : Bdt N}

/-- Behind NAT, the address is another one, and nothing keeps the table from moving there: it was
set empty, or it lists the address. -/
def Moves (bdt : Bdt N) (own : SocketAddr) : Prop :=
  bdt.behindNat = true ∧ own ≠ bdt.own ∧
    (bdt.configuredRows = [] ∨ ∃ row ∈ bdt.configuredRows, row.address = own)

instance (bdt : Bdt N) (own : SocketAddr) : Decidable (bdt.Moves own) := by
  unfold Moves
  infer_instance

theorem set_keeps (bdt : Bdt N) (table : List BdtEntry) :
    (bdt.set table).2.own = bdt.own ∧ (bdt.set table).2.behindNat = bdt.behindNat := by
  rcases bdt.set_cases table with ⟨-, hset⟩ | ⟨-, refused, hset⟩
  · rw [hset]
    exact ⟨tableOf_own bdt table, tableOf_behindNat bdt table⟩
  · rw [hset]
    exact ⟨rfl, rfl⟩

theorem setServesGroup_keeps (bdt : Bdt N) (serves : Bool) :
    (bdt.setServesGroup serves).2.own = bdt.own ∧
      (bdt.setServesGroup serves).2.behindNat = bdt.behindNat := by
  unfold setServesGroup
  split_ifs
  · cases checkGroupRow bdt.own bdt.rows <;> exact ⟨rfl, rfl⟩
  · exact ⟨rfl, rfl⟩

theorem reconfigure_cases (bdt : Bdt N) (own : SocketAddr) (behindNat : Bool)
    (drop : Option SocketAddr) :
    (∃ refused, bdt.reconfigure own behindNat drop = (.error refused, bdt)) ∨
      ∃ next, bdt.reconfigure own behindNat drop = (.ok (), next) ∧ next.own = own ∧
        next.behindNat = behindNat := by
  unfold reconfigure
  by_cases hnever : bdt.rows = [] ∧ ¬bdt.behindNat
  · rw [if_pos hnever]
    exact .inr ⟨_, rfl, rfl, rfl⟩
  rw [if_neg hnever]
  obtain ⟨kept, hkept⟩ := (bdt.withNat own behindNat).setWithout_eq bdt.configuredRows drop
  rw [hkept]
  rcases (bdt.withNat own behindNat).set_cases kept with ⟨-, hset⟩ | ⟨-, refused, hset⟩
  · rw [hset]
    exact .inr ⟨_, rfl, tableOf_own _ kept, tableOf_behindNat _ kept⟩
  · rw [hset]
    exact .inl ⟨refused, rfl⟩

/-- Behind NAT the configured rows are taken under another address exactly when they list it. -/
theorem accepts_configured (h : bdt.Rules) (hnat : bdt.behindNat = true) (own : SocketAddr) :
    (bdt.withNat own true).Accepts bdt.configuredRows ↔
      bdt.configuredRows = [] ∨ ∃ row ∈ bdt.configuredRows, row.address = own := by
  have htwoHop : ∀ row ∈ bdt.configuredRows, row.mask = twoHopMask :=
    fun row hrow => (h.nat hnat).1 row (List.mem_of_mem_take hrow)
  constructor
  · intro haccepts
    by_cases hrows : bdt.configuredRows = []
    · exact .inl hrows
    · exact .inr ((haccepts.nat rfl).2 hrows)
  · intro hlisted
    refine ⟨⟨h.valid, consistent_of_nodup h.configured_nodup⟩,
      fun _ => ⟨htwoHop, hlisted.resolve_left⟩, fun _ row hrow _ => htwoHop row hrow, ?_⟩
    rw [if_pos (show (bdt.withNat own true).KeepsRows _ from .inl rfl),
      eraseDups_of_nodup h.configured_nodup]
    exact (List.length_take_le _ _).trans ((Nat.sub_le _ _).trans h.fits)

/-- What `set_own_address` does behind NAT: it moves, or leaves the table. -/
theorem setOwnAddress_behindNat (h : bdt.Rules) (hnat : bdt.behindNat = true) (own : SocketAddr) :
    (bdt.setOwnAddress own).2.behindNat = true ∧
      (bdt.setOwnAddress own).2.own = if bdt.Moves own then own else bdt.own := by
  unfold setOwnAddress
  by_cases hsame : own = bdt.own
  · rw [if_pos hsame, if_neg (fun hmoves => hmoves.2.1 hsame)]
    exact ⟨hnat, rfl⟩
  rw [if_neg hsame, if_pos hnat]
  unfold reconfigure setWithout
  rw [if_neg (fun hnever => hnever.2 hnat)]
  rcases (bdt.withNat own true).set_cases bdt.configuredRows with
    ⟨haccepts, hset⟩ | ⟨hnot, refused, hset⟩
  · rw [hset, if_pos ⟨hnat, hsame, (accepts_configured h hnat own).mp haccepts⟩]
    exact ⟨tableOf_behindNat _ _, tableOf_own _ _⟩
  · rw [hset, if_neg fun hmoves => hnot ((accepts_configured h hnat own).mpr hmoves.2.2)]
    exact ⟨hnat, rfl⟩

theorem setOwnAddress_direct (hnat : bdt.behindNat = false) (own : SocketAddr) :
    (bdt.setOwnAddress own).2.behindNat = false := by
  unfold setOwnAddress
  by_cases hsame : own = bdt.own
  · rw [if_pos hsame]
    exact hnat
  rw [if_neg hsame, if_neg (Bool.eq_false_iff.mp hnat)]
  dsimp only
  cases (if bdt.servesGroup then checkGroupRow own bdt.configuredRows else .ok ()) with
  | error refused => exact hnat
  | ok checked =>
    dsimp only
    split_ifs
    · exact hnat
    · unfold ensureOwnRow
      split_ifs <;> exact hnat

end Bdt

namespace Tables

variable {B F : ℕ} {tables : Tables B F}

/-- The table is behind NAT when there is a NAT setting, and then its own address, the global one of
the setting and the origin of a broadcast are one. -/
structure NatAgrees (tables : Tables B F) : Prop where
  behindNat : tables.nat.isSome = tables.bdt.behindNat
  address : ∀ nat, tables.nat = some nat → nat.global = tables.bdt.own
  origin : tables.nat.isSome = true → ∀ cx source npdu room,
    (tables.originalBroadcast cx source npdu room).origin = tables.bdt.own

/-- The operation moves the own address and not the global one. -/
def Drifts (tables : Tables B F) : BdtOp → Prop
  | .setOwnAddress own => tables.bdt.Moves own
  | _ => False

theorem natAgrees_of (hbehindNat : tables.nat.isSome = tables.bdt.behindNat)
    (haddress : ∀ nat, tables.nat = some nat → nat.global = tables.bdt.own) : tables.NatAgrees := by
  refine ⟨hbehindNat, haddress, fun hsome cx source npdu room => ?_⟩
  obtain ⟨nat, hnat⟩ := Option.isSome_iff_exists.mp hsome
  show tables.originFor source (fun _ => true) = tables.bdt.own
  unfold originFor
  rw [hnat]
  exact haddress nat hnat

theorem ownAddressFor_ok {nat : Option NatSetting} {local_ own : SocketAddr}
    (h : ownAddressFor nat local_ = .ok own) : ∀ setting, nat = some setting → setting.global = own := by
  rintro setting rfl
  unfold ownAddressFor at h
  dsimp only at h
  split at h
  · cases h
  · exact Except.ok.inj h

/-- What leaves the NAT setting, the own address and the mode leaves the agreement. -/
theorem NatAgrees.congr (h : tables.NatAgrees) {next : Tables B F} (hnat : next.nat = tables.nat)
    (hbehindNat : next.bdt.behindNat = tables.bdt.behindNat)
    (hown : tables.nat.isSome = true → next.bdt.own = tables.bdt.own) : next.NatAgrees := by
  refine natAgrees_of ?_ fun nat hsome => ?_
  · rw [hnat, hbehindNat]
    exact h.behindNat
  · rw [hnat] at hsome
    rw [h.address nat hsome, hown (by rw [hsome]; rfl)]

/-- One operation keeps the agreement exactly when it does not drift. -/
theorem NatAgrees.apply (h : tables.NatAgrees) (hrules : tables.bdt.Rules) (op : BdtOp) :
    (tables.apply op).2.NatAgrees ↔ ¬tables.Drifts op := by
  cases op with
  | set table =>
    obtain ⟨hown, hbehindNat⟩ := tables.bdt.set_keeps table
    exact iff_of_true (h.congr rfl hbehindNat fun _ => hown) id
  | setServesGroup serves =>
    obtain ⟨hown, hbehindNat⟩ := tables.bdt.setServesGroup_keeps serves
    exact iff_of_true (h.congr rfl hbehindNat fun _ => hown) id
  | setNat nat local_ =>
    refine iff_of_true ?_ id
    unfold Tables.apply setNat
    dsimp only
    cases hown : ownAddressFor nat local_ with
    | error refused => exact h
    | ok own =>
      dsimp only
      rcases tables.bdt.reconfigure_cases own nat.isSome (tables.leavingNat nat) with
        ⟨refused, hset⟩ | ⟨next, hset, rfl, hbehindNat⟩
      · rw [hset]
        exact h
      · rw [hset]
        exact natAgrees_of hbehindNat.symm (ownAddressFor_ok hown)
  | setNatAndBdt nat local_ table =>
    refine iff_of_true ?_ id
    unfold Tables.apply setNatAndBdt
    dsimp only
    cases hown : ownAddressFor nat local_ with
    | error refused => exact h
    | ok own =>
      dsimp only
      obtain ⟨kept, hkept⟩ := (tables.bdt.withNat own nat.isSome).setWithout_eq table
        (tables.leavingNat nat)
      rw [hkept]
      obtain ⟨hkeptOwn, hbehindNat⟩ := (tables.bdt.withNat own nat.isSome).set_keeps kept
      cases hset : (tables.bdt.withNat own nat.isSome).set kept with
      | mk result next =>
        rw [hset] at hkeptOwn hbehindNat
        cases result with
        | error refused => exact h
        | ok done =>
          refine natAgrees_of hbehindNat.symm fun setting hsetting => ?_
          exact (ownAddressFor_ok hown setting hsetting).trans hkeptOwn.symm
  | setOwnAddress own =>
    cases hnat : tables.bdt.behindNat with
    | false =>
      have hnone : ¬tables.nat.isSome = true := by
        rw [h.behindNat, hnat]
        exact Bool.false_ne_true
      refine iff_of_true (h.congr rfl ?_ fun hsome => absurd hsome hnone) fun hmoves => ?_
      · exact (Bdt.setOwnAddress_direct hnat own).trans hnat.symm
      · exact Bool.false_ne_true (hnat.symm.trans hmoves.1)
    | true =>
      obtain ⟨hbehindNat, hown⟩ := Bdt.setOwnAddress_behindNat hrules hnat own
      by_cases hmoves : tables.bdt.Moves own
      · refine iff_of_false (fun hagrees => ?_) (not_not_intro hmoves)
        rw [if_pos hmoves] at hown
        obtain ⟨nat, hsome⟩ := Option.isSome_iff_exists.mp (h.behindNat.trans hnat)
        have hglobal := (hagrees.address nat hsome).symm.trans (h.address nat hsome)
        exact hmoves.2.1 (hown.symm.trans hglobal)
      · rw [if_neg hmoves] at hown
        exact iff_of_true (h.congr rfl (hbehindNat.trans hnat.symm) fun _ => hown) hmoves

theorem runOps_concat (own : SocketAddr) (ops : List BdtOp) (op : BdtOp) :
    (runOps own (ops ++ [op]) : Tables B F × Bool).1 =
      ((runOps own ops : Tables B F × Bool).1.apply op).2 := by
  unfold runOps
  rw [List.foldl_append]
  generalize ops.foldl _ ((new own : Tables B F), false) = run
  obtain ⟨tables, wasSet⟩ := run
  rw [List.foldl_cons, List.foldl_nil]
  dsimp only
  cases tables.apply op with
  | mk result next => cases result <;> rfl

theorem natAgrees_runOps (own : SocketAddr) (ops : List BdtOp)
    (hdrifts : ∀ before op behind, ops = before ++ op :: behind →
      ¬(runOps own before : Tables B F × Bool).1.Drifts op) :
    (runOps own ops : Tables B F × Bool).1.NatAgrees := by
  induction ops using List.reverseRecOn with
  | nil => exact natAgrees_of rfl fun nat h => (nomatch h)
  | append_singleton ops op ih =>
    rw [runOps_concat]
    have hbefore := ih fun before earlier behind hops => hdrifts before earlier (behind ++ [op])
      (by rw [hops, List.append_assoc, List.cons_append])
    exact (hbefore.apply (runOps_rules own ops).1 op).mpr (hdrifts ops op [] rfl)

end Tables

/-- The copies agree all along a run exactly when no operation of it drifts. -/
theorem nat_copies_agree_iff {B F : ℕ} (own : SocketAddr) (ops : List BdtOp) :
    (∀ before, before <+: ops → (Tables.runOps own before : Tables B F × Bool).1.NatAgrees) ↔
      ∀ before op behind, ops = before ++ op :: behind →
        ¬(Tables.runOps own before : Tables B F × Bool).1.Drifts op := by
  constructor
  · rintro hagrees before op behind rfl
    have hbefore := hagrees before (List.prefix_append before (op :: behind))
    have hbehind := hagrees (before ++ [op]) ⟨behind, by rw [List.append_assoc]; rfl⟩
    rw [Tables.runOps_concat] at hbehind
    exact (hbefore.apply (Tables.runOps_rules own before).1 op).mp hbehind
  · rintro hdrifts before ⟨rest, rfl⟩
    refine Tables.natAgrees_runOps own before fun earlier op behind hbefore => ?_
    exact hdrifts earlier op (behind ++ rest) (by rw [hbefore, List.append_assoc]; rfl)

/-- A BBMD at one global address, whose table also lists another BBMD's, moved there. -/
def driftingOps : List BdtOp :=
  let row (host : UInt32) : BdtEntry := ⟨⟨⟨0xC9010100 + host⟩, 47808⟩, twoHopMask⟩
  [.setNat (some ⟨(row 1).address, []⟩) ⟨⟨0x0A000001⟩, 47808⟩, .set [row 1, row 2],
    .setOwnAddress (row 2).address]

theorem nat_copies_drift :
    ¬∀ (own : SocketAddr) (ops : List BdtOp),
      (Tables.runOps own ops : Tables 2 1 × Bool).1.NatAgrees := by
  intro hagrees
  have haddress := (hagrees ⟨⟨0x0A000001⟩, 47808⟩ driftingOps).address
    ⟨⟨⟨0xC9010101⟩, 47808⟩, []⟩ (by decide)
  revert haddress
  decide

end RustyBacnet.Bip
