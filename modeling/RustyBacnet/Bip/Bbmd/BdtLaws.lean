import Mathlib.Data.List.Induction
import Mathlib.Data.List.Nodup
import RustyBacnet.Bip.Bbmd.Forward

/-!
# What a broadcast distribution table holds

1. A canonical pass that has read the rows `seen` has stored the first distinct ones and can still
   look every one of them up (`Covers`), so it succeeds on exactly the acceptable tables
   (`canonicalRows_cases`).
2. `set` succeeds on exactly the tables the mode accepts, and leaves the distinct rows with an own
   row where one is due (`set_cases`).
3. Every operation keeps the table's rules (`Bdt.Rules`), so they hold after every sequence of them
   (`bdt_rules`).
-/

namespace RustyBacnet.Bip

/-! ## The canonical pass -/

/-- No address has two masks. -/
def Consistent (rows : List BdtEntry) : Prop :=
  ∀ row ∈ rows, ∀ other ∈ rows, row.address = other.address → row.mask = other.mask

/-- Every row is valid and no address has two masks. -/
def Acceptable (rows : List BdtEntry) : Prop :=
  (∀ row ∈ rows, validateEntry row = .ok ()) ∧ Consistent rows

variable {rows : List BdtEntry}

theorem Consistent.eq (h : Consistent rows) {row other : BdtEntry} (hrow : row ∈ rows)
    (hother : other ∈ rows) (haddress : row.address = other.address) : row = other := by
  have hmask := h row hrow other hother haddress
  cases row
  cases other
  cases haddress
  cases hmask
  rfl

theorem Acceptable.mono {more : List BdtEntry} (h : Acceptable more) (hsub : rows ⊆ more) :
    Acceptable rows :=
  ⟨fun row hrow => h.1 row (hsub hrow),
    fun row hrow other hother => h.2 row (hsub hrow) other (hsub hother)⟩

/-- A pass over the rows `seen`. -/
structure Covers (room : ℕ) (seen : List BdtEntry) (pass : Canonical) : Prop where
  acceptable : Acceptable seen
  stored : pass.stored = seen.eraseDups.take room
  distinct : pass.distinct = seen.eraseDups.length
  fits : pass.overflowFrom = none → seen.eraseDups.length ≤ room
  overflow : ∀ start, pass.overflowFrom = some start →
    room ≤ pass.stored.length ∧ start ≤ seen.length ∧
      ∀ row ∈ seen, row ∈ pass.stored ∨ row ∈ seen.drop start

section Pass

variable {room : ℕ} {table seen : List BdtEntry} {pass : Canonical} {entry : BdtEntry}

theorem Covers.lookup (h : Covers room seen pass) (htable : table.take seen.length = seen)
    (entry : BdtEntry) :
    ∃ rows : List BdtEntry, (∀ row, row ∈ rows ↔ row ∈ seen) ∧
      pass.earlier table seen.length entry = rows.find? fun row => row.address == entry.address := by
  have hstored : ∀ row ∈ pass.stored, row ∈ seen := by
    intro row hrow
    rw [h.stored] at hrow
    exact List.mem_eraseDups.mp (List.mem_of_mem_take hrow)
  unfold Canonical.earlier
  cases hoverflow : pass.overflowFrom with
  | none =>
    refine ⟨pass.stored, fun row => ⟨hstored row, fun hrow => ?_⟩, rfl⟩
    rw [h.stored, List.take_of_length_le (h.fits hoverflow)]
    exact List.mem_eraseDups.mpr hrow
  | some start =>
    obtain ⟨-, -, hall⟩ := h.overflow start hoverflow
    refine ⟨_, fun row => ⟨fun hrow => ?_, fun hrow => ?_⟩, rfl⟩
    · rcases List.mem_append.mp hrow with hrow | hrow
      · exact hstored row hrow
      · rw [htable] at hrow
        exact List.mem_of_mem_drop hrow
    · rw [htable]
      exact List.mem_append.mpr (hall row hrow)

variable {α : Type*}

theorem eraseDups_append_of_mem [DecidableEq α] {seen : List α} {entry : α} (h : entry ∈ seen) :
    (seen ++ [entry]).eraseDups = seen.eraseDups := by
  rw [List.eraseDups_append]
  simp [List.removeAll, h]

theorem eraseDups_append_of_notMem [DecidableEq α] {seen : List α} {entry : α} (h : entry ∉ seen) :
    (seen ++ [entry]).eraseDups = seen.eraseDups ++ [entry] := by
  rw [List.eraseDups_append]
  simp [List.removeAll, h, List.eraseDups_cons]

theorem Covers.repeated (h : Covers room seen pass) (hentry : entry ∈ seen) :
    Covers room (seen ++ [entry]) pass := by
  have hsame : seen ++ [entry] ⊆ seen :=
    List.append_subset.mpr ⟨List.Subset.refl _, List.cons_subset.mpr ⟨hentry, List.nil_subset _⟩⟩
  refine ⟨h.acceptable.mono hsame, ?_, ?_, ?_, ?_⟩
  · rw [eraseDups_append_of_mem hentry]
    exact h.stored
  · rw [eraseDups_append_of_mem hentry]
    exact h.distinct
  · rw [eraseDups_append_of_mem hentry]
    exact h.fits
  · intro start hstart
    obtain ⟨hroom, hle, hall⟩ := h.overflow start hstart
    refine ⟨hroom, by rw [List.length_append]; omega, fun row hrow => ?_⟩
    rw [List.drop_append_of_le_length hle]
    exact (hall row (hsame hrow)).imp_right (List.mem_append_left _)

/-- A distinct row is stored, or the storage is full from here on. -/
theorem Covers.admitted (h : Covers room seen pass)
    (hacceptable : Acceptable (seen ++ [entry])) (hentry : entry ∉ seen) :
    Covers room (seen ++ [entry]) (pass.admit_ room seen.length entry) := by
  have hdups := eraseDups_append_of_notMem hentry
  have hlength : (seen ++ [entry]).eraseDups.length = seen.eraseDups.length + 1 := by
    rw [hdups, List.length_append]
    rfl
  unfold Canonical.admit_
  by_cases hspace : pass.stored.length < room ∧ pass.overflowFrom.isNone
  · rw [if_pos hspace]
    have hnone := Option.isNone_iff_eq_none.mp hspace.2
    have hall : pass.stored = seen.eraseDups := by
      rw [h.stored, List.take_of_length_le (h.fits hnone)]
    refine ⟨hacceptable, ?_, ?_, ?_, ?_⟩
    · rw [hdups, List.take_of_length_le, hall]
      rw [List.length_append, ← hall]
      exact hspace.1
    · rw [hlength, h.distinct]
    · intro _
      rw [hlength, ← hall]
      exact hspace.1
    · intro start hstart
      rw [hnone] at hstart
      cases hstart
  · rw [if_neg hspace]
    have hfull : room ≤ pass.stored.length := by
      by_contra hroom
      cases hoverflow : pass.overflowFrom with
      | none => exact hspace ⟨Nat.lt_of_not_le hroom, by rw [hoverflow]; rfl⟩
      | some start => exact hroom (h.overflow start hoverflow).1
    have hroom : room ≤ seen.eraseDups.length := by
      rw [h.stored, List.length_take] at hfull
      omega
    refine ⟨hacceptable, ?_, ?_, ?_, ?_⟩
    · rw [hdups, List.take_append_of_le_length hroom]
      exact h.stored
    · rw [hlength, h.distinct]
    · intro hnone
      cases hnone
    · intro start hstart
      have hstart : pass.overflowFrom.getD seen.length = start := Option.some.inj hstart
      refine ⟨hfull, ?_⟩
      cases hoverflow : pass.overflowFrom with
      | none =>
        rw [hoverflow, Option.getD_none] at hstart
        subst hstart
        have hall : pass.stored = seen.eraseDups := by
          rw [h.stored, List.take_of_length_le (h.fits hoverflow)]
        refine ⟨by rw [List.length_append]; omega, fun row hrow => ?_⟩
        rw [List.drop_left, hall, List.mem_eraseDups]
        exact List.mem_append.mp hrow
      | some earlier =>
        rw [hoverflow, Option.getD_some] at hstart
        subst hstart
        obtain ⟨-, hle, hall⟩ := h.overflow earlier hoverflow
        refine ⟨by rw [List.length_append]; omega, fun row hrow => ?_⟩
        rw [List.drop_append_of_le_length hle]
        rcases List.mem_append.mp hrow with hrow | hrow
        · exact (hall row hrow).imp_right (List.mem_append_left _)
        · exact .inr (List.mem_append_right _ hrow)

/-- One row of a pass: it is refused, or covered too. -/
theorem Covers.step (h : Covers room seen pass) (htable : table.take seen.length = seen)
    (entry : BdtEntry) :
    (∃ refused, pass.step table room seen.length entry = .error refused ∧
        ¬Acceptable (seen ++ [entry])) ∨
      ∃ next, pass.step table room seen.length entry = .ok next ∧
        Covers room (seen ++ [entry]) next := by
  have hlast : entry ∈ seen ++ [entry] := List.mem_append_right _ (List.mem_singleton.mpr rfl)
  obtain ⟨rows, hrows, hearlier⟩ := h.lookup htable entry
  unfold Canonical.step
  cases hvalid : validateEntry entry with
  | error reason =>
    refine .inl ⟨_, rfl, fun hacceptable => ?_⟩
    have hok := hacceptable.1 entry hlast
    rw [hvalid] at hok
    cases hok
  | ok _ =>
    rw [hearlier]
    cases hfind : rows.find? fun row => row.address == entry.address with
    | some row =>
      have hmem : row ∈ seen := (hrows row).mp (List.mem_of_find?_eq_some hfind)
      have hsome := List.find?_some hfind
      have haddress : row.address = entry.address := eq_of_beq hsome
      dsimp only
      by_cases hmask : row.mask = entry.mask
      · rw [if_neg (not_not.mpr hmask)]
        have hsame : row = entry := by
          cases row
          cases entry
          cases haddress
          cases hmask
          rfl
        exact .inr ⟨_, rfl, h.repeated (hsame ▸ hmem)⟩
      · rw [if_pos hmask]
        exact .inl ⟨_, rfl, fun hacceptable =>
          hmask (hacceptable.2 row (List.mem_append_left _ hmem) entry hlast haddress)⟩
    | none =>
      have hfresh : ∀ row ∈ seen, row.address ≠ entry.address := by
        intro row hrow heq
        exact List.find?_eq_none.mp hfind row ((hrows row).mpr hrow) (beq_iff_eq.mpr heq)
      refine .inr ⟨_, rfl, h.admitted ⟨?_, ?_⟩ fun hmem => hfresh entry hmem rfl⟩
      · intro row hrow
        rcases List.mem_append.mp hrow with hrow | hrow
        · exact h.acceptable.1 row hrow
        · rw [List.mem_singleton.mp hrow]
          exact hvalid
      · intro row hrow other hother haddress
        rcases List.mem_append.mp hrow with hrow | hrow <;>
          rcases List.mem_append.mp hother with hother | hother
        · exact h.acceptable.2 row hrow other hother haddress
        · rw [List.mem_singleton.mp hother] at haddress
          exact absurd haddress (hfresh row hrow)
        · rw [List.mem_singleton.mp hrow] at haddress
          exact absurd haddress.symm (hfresh other hother)
        · rw [List.mem_singleton.mp hrow, List.mem_singleton.mp hother]

end Pass

theorem canonicalFrom_cases {room : ℕ} {table : List BdtEntry} (behind : List BdtEntry) :
    ∀ {seen : List BdtEntry} {pass : Canonical}, table = seen ++ behind → Covers room seen pass →
      (∃ refused, canonicalFrom table room seen.length behind pass = .error refused ∧
          ¬Acceptable table) ∨
        ∃ found, canonicalFrom table room seen.length behind pass = .ok found ∧
          Covers room table found := by
  induction behind with
  | nil =>
    intro seen pass htable h
    rw [List.append_nil] at htable
    exact .inr ⟨pass, rfl, htable ▸ h⟩
  | cons entry behind ih =>
    intro seen pass htable h
    have htake : table.take seen.length = seen := by
      rw [htable, List.take_left]
    have hsplit : table = (seen ++ [entry]) ++ behind := by
      rw [htable, List.append_assoc]
      rfl
    unfold canonicalFrom
    rcases h.step htake entry with ⟨refused, hstep, hbad⟩ | ⟨next, hstep, hnext⟩
    · rw [hstep]
      refine .inl ⟨refused, rfl, fun hacceptable => hbad (hacceptable.mono ?_)⟩
      rw [hsplit]
      exact List.subset_append_left _ _
    · rw [hstep]
      have hrest := ih hsplit hnext
      rw [List.length_append] at hrest
      exact hrest

theorem canonicalRows_cases (table : List BdtEntry) (room : ℕ) :
    (∃ refused, canonicalRows table room = .error refused ∧ ¬Acceptable table) ∨
      ∃ found, canonicalRows table room = .ok found ∧ Covers room table found := by
  refine canonicalFrom_cases table (List.nil_append table).symm ⟨⟨?_, ?_⟩, ?_, rfl, ?_, ?_⟩
  · exact fun row hrow => absurd hrow List.not_mem_nil
  · exact fun row hrow => absurd hrow List.not_mem_nil
  · rw [List.eraseDups_nil, List.take_nil]
  · exact fun _ => Nat.zero_le room
  · exact fun start hstart => (nomatch hstart)

/-! ## Setting a table -/

theorem Consistent.nodup (h : Consistent rows) : (rows.eraseDups.map (·.address)).Nodup := by
  induction rows using List.reverseRecOn with
  | nil => exact List.nodup_nil
  | append_singleton rows entry ih =>
    have hrows : Consistent rows := fun row hrow other hother =>
      h row (List.mem_append_left _ hrow) other (List.mem_append_left _ hother)
    by_cases hentry : entry ∈ rows
    · rw [eraseDups_append_of_mem hentry]
      exact ih hrows
    · rw [eraseDups_append_of_notMem hentry, List.map_append]
      refine List.nodup_append.mpr ⟨ih hrows, by simp, ?_⟩
      rintro address haddress other hother rfl
      obtain ⟨row, hrow, haddress⟩ := List.mem_map.mp haddress
      have hmem := List.mem_eraseDups.mp hrow
      have hsame : row = entry := h.eq (List.mem_append_left _ hmem)
        (List.mem_append_right _ (List.mem_singleton.mpr rfl))
        (haddress.trans (List.mem_singleton.mp hother))
      exact hentry (hsame ▸ hmem)

namespace Bdt

variable {N : ℕ}

/-- Whether a table set now keeps as it is: behind NAT, or with a row for the own address. -/
def KeepsRows (bdt : Bdt N) (table : List BdtEntry) : Prop :=
  bdt.behindNat = true ∨ ∃ row ∈ table, row.address = bdt.own

instance (bdt : Bdt N) (table : List BdtEntry) : Decidable (bdt.KeepsRows table) := by
  unfold KeepsRows
  infer_instance

/-- What `set` asks of a table: valid rows, one mask an address, the rules of the mode, and room for
the distinct rows and any own row. -/
structure Accepts (bdt : Bdt N) (table : List BdtEntry) : Prop where
  acceptable : Acceptable table
  nat : bdt.behindNat = true → (∀ row ∈ table, row.mask = twoHopMask) ∧
    (table ≠ [] → ∃ row ∈ table, row.address = bdt.own)
  group : bdt.servesGroup = true → ∀ row ∈ table, row.address = bdt.own → row.mask = twoHopMask
  fits : table.eraseDups.length + (if bdt.KeepsRows table then 0 else 1) ≤ N

/-- The table that `set` leaves. -/
def tableOf (bdt : Bdt N) (table : List BdtEntry) : Bdt N :=
  if bdt.KeepsRows table then { bdt with rows := table.eraseDups, ownRowAppended := false }
  else
    { bdt with
      rows := table.eraseDups ++ [⟨bdt.own, twoHopMask⟩]
      ownRowAppended := true }

theorem checkGroupRow_cases (own : SocketAddr) (rows : List BdtEntry) :
    (checkGroupRow own rows = .ok () ∧ ∀ row ∈ rows, row.address = own → row.mask = twoHopMask) ∨
      ∃ refused, checkGroupRow own rows = .error refused ∧
        ¬∀ row ∈ rows, row.address = own → row.mask = twoHopMask := by
  unfold checkGroupRow
  cases hfind : rows.find? fun row => row.address == own && row.mask != twoHopMask with
  | none =>
    refine .inl ⟨rfl, fun row hrow haddress => ?_⟩
    have hnot := List.find?_eq_none.mp hfind row hrow
    by_contra hmask
    exact hnot (by rw [haddress, beq_self_eq_true, Bool.true_and]; exact bne_iff_ne.mpr hmask)
  | some entry =>
    refine .inr ⟨_, rfl, fun hall => ?_⟩
    have hsome := List.find?_some hfind
    obtain ⟨haddress, hmask⟩ := Bool.and_eq_true_iff.mp hsome
    exact bne_iff_ne.mp hmask
      (hall entry (List.mem_of_find?_eq_some hfind) (eq_of_beq haddress))

theorem any_own {own : SocketAddr} {table : List BdtEntry} :
    (table.any fun row => row.address == own) = true ↔ ∃ row ∈ table, row.address = own := by
  rw [List.any_eq_true]
  simp only [beq_iff_eq]

theorem checkNatRules_cases (bdt : Bdt N) (table : List BdtEntry) {distinct : ℕ}
    (hdistinct : 0 < distinct ↔ table ≠ []) :
    (bdt.checkNatRules table (table.any fun row => row.address == bdt.own) distinct = .ok () ∧
        (bdt.behindNat = true → (∀ row ∈ table, row.mask = twoHopMask) ∧
          (table ≠ [] → ∃ row ∈ table, row.address = bdt.own))) ∨
      ∃ refused, bdt.checkNatRules table (table.any fun row => row.address == bdt.own) distinct
          = .error refused ∧
        ¬(bdt.behindNat = true → (∀ row ∈ table, row.mask = twoHopMask) ∧
          (table ≠ [] → ∃ row ∈ table, row.address = bdt.own)) := by
  unfold checkNatRules
  by_cases hnat : bdt.behindNat = true
  · rw [if_pos hnat]
    cases hfind : table.find? fun row => row.mask != twoHopMask with
    | some entry =>
      refine .inr ⟨_, rfl, fun hall => ?_⟩
      have hmask := List.find?_some hfind
      exact bne_iff_ne.mp hmask ((hall hnat).1 entry (List.mem_of_find?_eq_some hfind))
    | none =>
      have hmasks : ∀ row ∈ table, row.mask = twoHopMask := by
        intro row hrow
        have hnot := List.find?_eq_none.mp hfind row hrow
        by_contra hmask
        exact hnot (bne_iff_ne.mpr hmask)
      by_cases hown : ∃ row ∈ table, row.address = bdt.own
      · rw [any_own.mpr hown]
        exact .inl ⟨rfl, fun _ => ⟨hmasks, fun _ => hown⟩⟩
      · have hany : (table.any fun row => row.address == bdt.own) = false := by
          rw [Bool.eq_false_iff]
          exact fun h => hown (any_own.mp h)
        rw [hany]
        by_cases hempty : table = []
        · have hzero : ¬0 < distinct := fun h => hdistinct.mp h hempty
          refine .inl ⟨?_, fun _ => ⟨hmasks, fun hne => absurd hempty hne⟩⟩
          rw [if_neg]
          simpa using hzero
        · refine .inr ⟨.noOwnRow bdt.own, ?_, fun hall => hown ((hall hnat).2 hempty)⟩
          rw [if_pos]
          simpa using hdistinct.mpr hempty
  · rw [if_neg hnat]
    exact .inl ⟨rfl, fun h => absurd h hnat⟩

theorem checkGroupRule_cases (bdt : Bdt N) (table : List BdtEntry) :
    (bdt.checkGroupRule table = .ok () ∧
        (bdt.servesGroup = true → ∀ row ∈ table, row.address = bdt.own → row.mask = twoHopMask)) ∨
      ∃ refused, bdt.checkGroupRule table = .error refused ∧
        ¬(bdt.servesGroup = true →
          ∀ row ∈ table, row.address = bdt.own → row.mask = twoHopMask) := by
  unfold checkGroupRule
  by_cases hgroup : bdt.servesGroup = true
  · rw [if_pos hgroup]
    rcases checkGroupRow_cases bdt.own table with ⟨hok, hall⟩ | ⟨refused, herror, hnot⟩
    · exact .inl ⟨hok, fun _ => hall⟩
    · exact .inr ⟨refused, herror, fun hall => hnot (hall hgroup)⟩
  · rw [if_neg hgroup]
    exact .inl ⟨rfl, fun h => absurd h hgroup⟩

variable {bdt : Bdt N}

/-- The own row that `set` appends, when the table lacks one. -/
theorem contains_iff {address : SocketAddr} :
    bdt.contains address = true ↔ ∃ row ∈ bdt.rows, row.address = address := by
  unfold contains row
  rw [List.find?_isSome]
  simp only [beq_iff_eq]

/-- `set` takes exactly the tables the mode accepts. -/
theorem set_cases (bdt : Bdt N) (table : List BdtEntry) :
    (bdt.Accepts table ∧ bdt.set table = (.ok (), bdt.tableOf table)) ∨
      (¬bdt.Accepts table ∧ ∃ refused, bdt.set table = (.error refused, bdt)) := by
  unfold set
  rcases canonicalRows_cases table N with ⟨refused, herror, hbad⟩ | ⟨found, hok, hcovers⟩
  · rw [herror]
    exact .inr ⟨fun h => hbad h.acceptable, refused, rfl⟩
  rw [hok]
  dsimp only
  have hdistinct : 0 < found.distinct ↔ table ≠ [] := by
    rw [hcovers.distinct, List.length_pos_iff, not_iff_not]
    constructor
    · intro hnil
      refine List.eq_nil_iff_forall_not_mem.mpr fun row hrow => ?_
      have hmem := List.mem_eraseDups.mpr hrow
      rw [hnil] at hmem
      exact List.not_mem_nil hmem
    · rintro rfl
      rfl
  rcases checkNatRules_cases bdt table hdistinct with ⟨hnatOk, hnat⟩ | ⟨refused, herror, hbad⟩
  · rw [hnatOk]
    rcases checkGroupRule_cases bdt table with ⟨hgroupOk, hgroup⟩ | ⟨refused, herror, hbad⟩
    · rw [hgroupOk]
      dsimp only
      have hneeded : (!(table.any fun row => row.address == bdt.own) && !bdt.behindNat).toNat
          = if bdt.KeepsRows table then 0 else 1 := by
        by_cases hkeeps : bdt.KeepsRows table
        · rw [if_pos hkeeps]
          rcases hkeeps with hnat | hown
          · rw [hnat, Bool.not_true, Bool.and_false]
            rfl
          · rw [any_own.mpr hown]
            rfl
        · rw [if_neg hkeeps]
          have hnot := not_or.mp hkeeps
          rw [Bool.eq_false_iff.mpr hnot.1, Bool.eq_false_iff.mpr fun h => hnot.2 (any_own.mp h)]
          rfl
      rw [hneeded, hcovers.distinct]
      by_cases hfits : table.eraseDups.length + (if bdt.KeepsRows table then 0 else 1) ≤ N
      · rw [if_neg (Nat.not_lt.mpr hfits)]
        refine .inl ⟨⟨hcovers.acceptable, hnat, hgroup, hfits⟩, congrArg (Prod.mk _) ?_⟩
        have hstored : found.stored = table.eraseDups := by
          rw [hcovers.stored, List.take_of_length_le (Nat.le_of_add_right_le hfits)]
        rw [hstored]
        unfold tableOf
        by_cases hbehind : bdt.behindNat = true
        · rw [if_pos hbehind, if_pos (.inl hbehind)]
          rfl
        · rw [if_neg hbehind]
          unfold ensureOwnRow
          by_cases hown : ∃ row ∈ table, row.address = bdt.own
          · have hkeeps : bdt.KeepsRows table := .inr hown
            rw [if_pos hkeeps, if_pos]
            · rfl
            · rw [contains_iff]
              obtain ⟨row, hrow, haddress⟩ := hown
              exact ⟨row, List.mem_eraseDups.mpr hrow, haddress⟩
          · have hkeeps : ¬bdt.KeepsRows table := not_or.mpr ⟨hbehind, hown⟩
            rw [if_neg hkeeps, if_neg]
            · rfl
            · rw [contains_iff]
              rintro ⟨row, hrow, haddress⟩
              exact hown ⟨row, List.mem_eraseDups.mp hrow, haddress⟩
      · rw [if_pos (Nat.lt_of_not_le hfits)]
        exact .inr ⟨fun h => hfits h.fits, _, rfl⟩
    · rw [herror]
      exact .inr ⟨fun h => hbad h.group, refused, rfl⟩
  · rw [herror]
    exact .inr ⟨fun h => hbad h.nat, refused, rfl⟩

/-! ## The rules of a table -/

/-- What holds of a table at all times. -/
structure Rules (bdt : Bdt N) : Prop where
  distinct : (bdt.rows.map (·.address)).Nodup
  valid : ∀ row ∈ bdt.configuredRows, validateEntry row = .ok ()
  fits : bdt.rows.length ≤ N
  appended : bdt.ownRowAppended = true →
    bdt.rows = bdt.configuredRows ++ [⟨bdt.own, twoHopMask⟩]
  nat : bdt.behindNat = true → (∀ row ∈ bdt.rows, row.mask = twoHopMask) ∧
    (bdt.rows ≠ [] → ∃ row ∈ bdt.rows, row.address = bdt.own)
  group : bdt.servesGroup = true → ∀ row ∈ bdt.rows, row.address = bdt.own → row.mask = twoHopMask
  ownRow : bdt.rows ≠ [] → ∃ row ∈ bdt.rows, row.address = bdt.own

/-- A table that was set and that is not behind NAT has rows. -/
def Settled (bdt : Bdt N) : Prop := bdt.behindNat = true ∨ bdt.rows ≠ []

theorem rules_new (own : SocketAddr) : (new own : Bdt N).Rules where
  distinct := List.nodup_nil
  valid _ hrow := absurd hrow List.not_mem_nil
  fits := Nat.zero_le N
  appended h := (nomatch h)
  nat h := (nomatch h)
  group h := (nomatch h)
  ownRow h := absurd rfl h

@[simp] theorem tableOf_own (bdt : Bdt N) (table : List BdtEntry) :
    (bdt.tableOf table).own = bdt.own := by
  unfold tableOf
  split_ifs <;> rfl

@[simp] theorem tableOf_behindNat (bdt : Bdt N) (table : List BdtEntry) :
    (bdt.tableOf table).behindNat = bdt.behindNat := by
  unfold tableOf
  split_ifs <;> rfl

/-- `set` stores the distinct rows in first-seen order. -/
theorem tableOf_configuredRows (bdt : Bdt N) (table : List BdtEntry) :
    (bdt.tableOf table).configuredRows = table.eraseDups := by
  unfold tableOf configuredRows
  split_ifs with hkeeps
  · exact List.take_length
  · show (table.eraseDups ++ [_]).take ((table.eraseDups ++ [_]).length - 1) = _
    rw [List.length_append]
    exact List.take_left

theorem settled_tableOf (bdt : Bdt N) (table : List BdtEntry) : (bdt.tableOf table).Settled := by
  unfold Settled
  rw [tableOf_behindNat]
  unfold tableOf
  split_ifs with hkeeps
  · refine hkeeps.imp_right ?_
    rintro ⟨row, hrow, -⟩
    exact List.ne_nil_of_mem (List.mem_eraseDups.mpr hrow)
  · exact .inr (List.append_ne_nil_of_right_ne_nil _ (List.cons_ne_nil _ _))

/-- An accepted table keeps the rules. -/
theorem Accepts.rules {table : List BdtEntry} (h : bdt.Accepts table) :
    (bdt.tableOf table).Rules := by
  have hvalid : ∀ row ∈ (bdt.tableOf table).configuredRows, validateEntry row = .ok () := by
    intro row hrow
    rw [tableOf_configuredRows] at hrow
    exact h.acceptable.1 row (List.mem_eraseDups.mp hrow)
  have hconfigured := tableOf_configuredRows bdt table
  have hfits := h.fits
  by_cases hkeeps : bdt.KeepsRows table
  · have heq : bdt.tableOf table = { bdt with rows := table.eraseDups, ownRowAppended := false } :=
      if_pos hkeeps
    rw [if_pos hkeeps] at hfits
    refine ⟨?_, hvalid, ?_, ?_, ?_, ?_, ?_⟩
    · rw [heq]
      exact h.acceptable.2.nodup
    · rw [heq]
      exact hfits
    · rw [heq]
      exact fun h => (nomatch h)
    · rw [heq]
      intro hnat
      obtain ⟨hmasks, hown⟩ := h.nat hnat
      refine ⟨fun row hrow => hmasks row (List.mem_eraseDups.mp hrow), fun hne => ?_⟩
      obtain ⟨row, hrow⟩ := List.exists_mem_of_ne_nil _ hne
      obtain ⟨own, hmem, haddress⟩ := hown (List.ne_nil_of_mem (List.mem_eraseDups.mp hrow))
      exact ⟨own, List.mem_eraseDups.mpr hmem, haddress⟩
    · rw [heq]
      exact fun hgroup row hrow => h.group hgroup row (List.mem_eraseDups.mp hrow)
    · rw [heq]
      intro hne
      obtain ⟨row, hrow⟩ := List.exists_mem_of_ne_nil _ hne
      have hown : ∃ row ∈ table, row.address = bdt.own := by
        rcases hkeeps with hnat | hown
        · exact (h.nat hnat).2 (List.ne_nil_of_mem (List.mem_eraseDups.mp hrow))
        · exact hown
      obtain ⟨own, hmem, haddress⟩ := hown
      exact ⟨own, List.mem_eraseDups.mpr hmem, haddress⟩
  · have heq : bdt.tableOf table =
        { bdt with
          rows := table.eraseDups ++ [⟨bdt.own, twoHopMask⟩]
          ownRowAppended := true } := if_neg hkeeps
    obtain ⟨hnotNat, hnotOwn⟩ := not_or.mp hkeeps
    rw [if_neg hkeeps] at hfits
    have hmem : (⟨bdt.own, twoHopMask⟩ : BdtEntry) ∈ table.eraseDups ++ [⟨bdt.own, twoHopMask⟩] :=
      List.mem_append_right _ (List.mem_singleton.mpr rfl)
    refine ⟨?_, hvalid, ?_, ?_, ?_, ?_, ?_⟩
    · rw [heq, List.map_append]
      refine List.nodup_append.mpr ⟨h.acceptable.2.nodup, by simp, ?_⟩
      rintro address haddress other hother rfl
      obtain ⟨row, hrow, haddress⟩ := List.mem_map.mp haddress
      exact hnotOwn ⟨row, List.mem_eraseDups.mp hrow,
        haddress.trans (List.mem_singleton.mp hother)⟩
    · rw [heq, List.length_append]
      exact hfits
    · rw [hconfigured, heq]
      exact fun _ => rfl
    · rw [heq]
      exact fun hnat => absurd hnat hnotNat
    · rw [heq]
      intro _ row hrow haddress
      rcases List.mem_append.mp hrow with hrow | hrow
      · exact absurd ⟨row, List.mem_eraseDups.mp hrow, haddress⟩ hnotOwn
      · rw [List.mem_singleton.mp hrow]
    · rw [heq]
      exact fun _ => ⟨_, hmem, rfl⟩

/-- The table a call leaves: the same when it is refused, and one under the rules when not. -/
def Leaves (bdt : Bdt N) (result : Except BdtError Unit × Bdt N) : Prop :=
  (∃ refused, result = (.error refused, bdt)) ∨
    ∃ next, result = (.ok (), next) ∧ next.Rules ∧ (bdt.Settled → next.Settled)

theorem setServesGroup_leaves (h : bdt.Rules) (serves : Bool) :
    bdt.Leaves (bdt.setServesGroup serves) := by
  unfold setServesGroup
  cases serves with
  | false =>
    exact .inr ⟨_, rfl, ⟨h.distinct, h.valid, h.fits, h.appended, h.nat, fun hg => (nomatch hg),
      h.ownRow⟩, id⟩
  | true =>
    rw [if_pos rfl]
    rcases checkGroupRow_cases bdt.own bdt.rows with ⟨hok, hall⟩ | ⟨refused, herror, -⟩
    · rw [hok]
      exact .inr ⟨_, rfl, ⟨h.distinct, h.valid, h.fits, h.appended, h.nat, fun _ => hall,
        h.ownRow⟩, id⟩
    · rw [herror]
      exact .inl ⟨refused, rfl⟩

/-- `setWithout` sets some table. -/
theorem setWithout_eq (bdt : Bdt N) (table : List BdtEntry) (drop : Option SocketAddr) :
    ∃ kept, bdt.setWithout table drop = bdt.set kept := by
  unfold setWithout
  cases drop with
  | none => exact ⟨table, rfl⟩
  | some drop =>
    dsimp only
    split_ifs
    · exact ⟨table, rfl⟩
    · exact ⟨_, rfl⟩

theorem reconfigure_leaves (bdt : Bdt N) (own : SocketAddr) (behindNat : Bool)
    (drop : Option SocketAddr) (h : bdt.Rules) : bdt.Leaves (bdt.reconfigure own behindNat drop) := by
  unfold reconfigure
  by_cases hnever : bdt.rows = [] ∧ ¬bdt.behindNat
  · rw [if_pos hnever]
    have happended : bdt.ownRowAppended = false := by
      rw [Bool.eq_false_iff]
      intro happended
      have hrows := h.appended happended
      rw [hnever.1] at hrows
      exact List.append_ne_nil_of_right_ne_nil _ (List.cons_ne_nil _ _) hrows.symm
    refine .inr ⟨_, rfl, ⟨h.distinct, h.valid, h.fits, ?_, ?_, ?_, ?_⟩, ?_⟩
    · intro happended'
      exact absurd (happended.symm.trans happended') (by decide)
    · intro _
      rw [hnever.1]
      exact ⟨fun row hrow => absurd hrow List.not_mem_nil, fun hne => absurd rfl hne⟩
    · intro _ row hrow
      rw [hnever.1] at hrow
      exact absurd hrow List.not_mem_nil
    · exact fun hne => absurd hnever.1 hne
    · rintro (hnat | hrows)
      · exact absurd hnat hnever.2
      · exact absurd hnever.1 hrows
  · rw [if_neg hnever]
    obtain ⟨kept, hkept⟩ := (bdt.withNat own behindNat).setWithout_eq bdt.configuredRows drop
    rw [hkept]
    rcases (bdt.withNat own behindNat).set_cases kept with ⟨haccepts, hset⟩ | ⟨-, refused, hset⟩
    · rw [hset]
      exact .inr ⟨_, rfl, haccepts.rules, fun _ => settled_tableOf _ kept⟩
    · rw [hset]
      exact .inl ⟨refused, rfl⟩

theorem eraseDups_of_nodup (h : (rows.map (·.address)).Nodup) : rows.eraseDups = rows := by
  induction rows using List.reverseRecOn with
  | nil => rfl
  | append_singleton rows entry ih =>
    rw [List.map_append] at h
    obtain ⟨hrows, -, hapart⟩ := List.nodup_append.mp h
    have hentry : entry ∉ rows := fun hmem =>
      hapart _ (List.mem_map_of_mem hmem) entry.address (List.mem_singleton.mpr rfl) rfl
    rw [eraseDups_append_of_notMem hentry, ih hrows]

theorem Rules.configured_nodup (h : bdt.Rules) : (bdt.configuredRows.map (·.address)).Nodup :=
  h.distinct.sublist ((List.take_sublist _ _).map _)

theorem consistent_of_nodup (h : (rows.map (·.address)).Nodup) : Consistent rows := by
  intro row hrow other hother haddress
  rw [List.inj_on_of_nodup_map h hrow hother haddress]

/-- Away from a NAT router, moving to `own` sets the configured rows there. -/
theorem setOwnAddress_leaves (h : bdt.Rules) (own : SocketAddr) :
    bdt.Leaves (bdt.setOwnAddress own) := by
  unfold setOwnAddress
  by_cases hsame : own = bdt.own
  · rw [if_pos hsame]
    exact .inr ⟨bdt, rfl, h, id⟩
  rw [if_neg hsame]
  by_cases hnat : bdt.behindNat = true
  · rw [if_pos hnat]
    exact reconfigure_leaves bdt own true none h
  rw [if_neg hnat]
  dsimp only
  set moved : Bdt N := { bdt with own } with hmoved
  have hgroupRule : (if bdt.servesGroup then checkGroupRow own bdt.configuredRows else .ok ())
      = moved.checkGroupRule bdt.configuredRows := rfl
  rw [hgroupRule]
  rcases moved.checkGroupRule_cases bdt.configuredRows with ⟨hok, hgroup⟩ | ⟨refused, herror, -⟩
  · rw [hok]
    split_ifs with hfull
    · exact .inl ⟨_, rfl⟩
    · have hdups := eraseDups_of_nodup h.configured_nodup
      have hkeeps : moved.KeepsRows bdt.configuredRows ↔
          ∃ row ∈ bdt.configuredRows, row.address = own := or_iff_right hnat
      have haccepts : moved.Accepts bdt.configuredRows := by
        refine ⟨⟨h.valid, consistent_of_nodup h.configured_nodup⟩, fun hn => absurd hn hnat,
          hgroup, ?_⟩
        rw [hdups]
        by_cases hown : ∃ row ∈ bdt.configuredRows, row.address = own
        · rw [if_pos (hkeeps.mpr hown)]
          omega
        · rw [if_neg (fun hk => hown (hkeeps.mp hk))]
          rw [Bool.eq_false_iff.mpr fun hany => hown (any_own.mp hany)] at hfull
          exact Nat.not_lt.mp hfull
      have hnext : ensureOwnRow { bdt with rows := bdt.configuredRows, own, ownRowAppended := false }
          = moved.tableOf bdt.configuredRows := by
        unfold ensureOwnRow tableOf
        rw [hdups]
        by_cases hown : ∃ row ∈ bdt.configuredRows, row.address = own
        · rw [if_pos (hkeeps.mpr hown), if_pos (contains_iff.mpr hown)]
        · rw [if_neg (fun hk => hown (hkeeps.mp hk)), if_neg (fun hc => hown (contains_iff.mp hc))]
      rw [hnext]
      exact .inr ⟨_, rfl, haccepts.rules, fun _ => settled_tableOf moved bdt.configuredRows⟩
  · rw [herror]
    exact .inl ⟨refused, rfl⟩

end Bdt

/-! ## Sequences of operations -/

/-- The operations on a BBMD's distribution table. -/
inductive BdtOp where
  | set (table : List BdtEntry)
  | setOwnAddress (own : SocketAddr)
  | setServesGroup (serves : Bool)
  | setNat (nat : Option NatSetting) (local_ : SocketAddr)
  | setNatAndBdt (nat : Option NatSetting) (local_ : SocketAddr) (table : List BdtEntry)

def BdtOp.setsTable : BdtOp → Bool
  | .set _ | .setNatAndBdt _ _ _ => true
  | _ => false

namespace Tables

variable {B F : ℕ}

def apply (tables : Tables B F) : BdtOp → Except BdtError Unit × Tables B F
  | .set table =>
    let (result, bdt) := tables.bdt.set table
    (result, { tables with bdt })
  | .setOwnAddress own =>
    let (result, bdt) := tables.bdt.setOwnAddress own
    (result, { tables with bdt })
  | .setServesGroup serves =>
    let (result, bdt) := tables.bdt.setServesGroup serves
    (result, { tables with bdt })
  | .setNat nat local_ => tables.setNat nat local_
  | .setNatAndBdt nat local_ table => tables.setNatAndBdt nat local_ table

/-- Run operations from empty tables at `own`, with whether any table was set. -/
def runOps (own : SocketAddr) (ops : List BdtOp) : Tables B F × Bool :=
  ops.foldl (fun (tables, wasSet) op =>
    match tables.apply op with
    | (.ok (), next) => (next, wasSet || op.setsTable)
    | (.error _, next) => (next, wasSet)) (new own, false)

/-- What an operation leaves. -/
theorem apply_leaves {tables : Tables B F} (h : tables.bdt.Rules) (op : BdtOp) :
    (∃ refused, tables.apply op = (.error refused, tables)) ∨
      ∃ next, tables.apply op = (.ok (), next) ∧ next.bdt.Rules ∧
        (op.setsTable = true ∨ tables.bdt.Settled → next.bdt.Settled) := by
  cases op with
  | set table =>
    unfold apply
    dsimp only
    rcases tables.bdt.set_cases table with ⟨haccepts, hset⟩ | ⟨-, refused, hset⟩
    · rw [hset]
      exact .inr ⟨_, rfl, haccepts.rules, fun _ => tables.bdt.settled_tableOf table⟩
    · rw [hset]
      exact .inl ⟨refused, rfl⟩
  | setOwnAddress own =>
    unfold apply
    dsimp only
    rcases Bdt.setOwnAddress_leaves h own with ⟨refused, hset⟩ | ⟨next, hset, hrules, hsettled⟩
    · rw [hset]
      exact .inl ⟨refused, rfl⟩
    · rw [hset]
      exact .inr ⟨_, rfl, hrules, fun hs => hsettled (hs.resolve_left Bool.false_ne_true)⟩
  | setServesGroup serves =>
    unfold apply
    dsimp only
    rcases Bdt.setServesGroup_leaves h serves with ⟨refused, hset⟩ | ⟨next, hset, hrules, hsettled⟩
    · rw [hset]
      exact .inl ⟨refused, rfl⟩
    · rw [hset]
      exact .inr ⟨_, rfl, hrules, fun hs => hsettled (hs.resolve_left Bool.false_ne_true)⟩
  | setNat nat local_ =>
    unfold apply setNat
    dsimp only
    cases ownAddressFor nat local_ with
    | error refused => exact .inl ⟨refused, rfl⟩
    | ok own =>
      dsimp only
      rcases Bdt.reconfigure_leaves tables.bdt own nat.isSome (tables.leavingNat nat) h with
        ⟨refused, hset⟩ | ⟨next, hset, hrules, hsettled⟩
      · rw [hset]
        exact .inl ⟨refused, rfl⟩
      · rw [hset]
        exact .inr ⟨_, rfl, hrules, fun hs => hsettled (hs.resolve_left Bool.false_ne_true)⟩
  | setNatAndBdt nat local_ table =>
    unfold apply setNatAndBdt
    dsimp only
    cases ownAddressFor nat local_ with
    | error refused => exact .inl ⟨refused, rfl⟩
    | ok own =>
      dsimp only
      obtain ⟨kept, hkept⟩ := (tables.bdt.withNat own nat.isSome).setWithout_eq table
        (tables.leavingNat nat)
      rw [hkept]
      rcases (tables.bdt.withNat own nat.isSome).set_cases kept with
        ⟨haccepts, hset⟩ | ⟨-, refused, hset⟩
      · rw [hset]
        exact .inr ⟨_, rfl, haccepts.rules, fun _ => Bdt.settled_tableOf _ kept⟩
      · rw [hset]
        exact .inl ⟨refused, rfl⟩

theorem runOps_rules (own : SocketAddr) (ops : List BdtOp) :
    (runOps own ops : Tables B F × Bool).1.bdt.Rules ∧
      ((runOps own ops : Tables B F × Bool).2 = true →
        (runOps own ops : Tables B F × Bool).1.bdt.Settled) := by
  induction ops using List.reverseRecOn with
  | nil => exact ⟨Bdt.rules_new own, fun h => (nomatch h)⟩
  | append_singleton ops op ih =>
    unfold runOps at ih ⊢
    rw [List.foldl_append]
    generalize ops.foldl _ ((new own : Tables B F), false) = run at ih ⊢
    obtain ⟨tables, wasSet⟩ := run
    show (match tables.apply op with
      | (.ok (), next) => (next, wasSet || op.setsTable)
      | (.error _, next) => (next, wasSet)).1.bdt.Rules ∧ _
    rw [List.foldl_cons, List.foldl_nil]
    rcases apply_leaves ih.1 op with ⟨refused, hop⟩ | ⟨next, hop, hrules, hsettled⟩
    · dsimp only
      rw [hop]
      exact ih
    · dsimp only
      rw [hop]
      refine ⟨hrules, fun hset => hsettled ?_⟩
      rcases Bool.or_eq_true_iff.mp hset with hset | hset
      · exact .inr (ih.2 hset)
      · exact .inl hset

end Tables

/-- The rules of a broadcast distribution table, after any sequence of operations. -/
theorem bdt_rules {B F : ℕ} (own : SocketAddr) (ops : List BdtOp) :
    let run : Tables B F × Bool := Tables.runOps own ops
    let bdt := run.1.bdt
    (bdt.rows.map (·.address)).Nodup ∧
      (∀ row ∈ bdt.configuredRows, validateEntry row = .ok ()) ∧
      (run.2 = true → bdt.behindNat = false → ∃ row ∈ bdt.rows, row.address = bdt.own) ∧
      (bdt.ownRowAppended = true →
        bdt.rows = bdt.configuredRows ++ [⟨bdt.own, twoHopMask⟩] ∧
          ∀ row ∈ bdt.configuredRows, row.address ≠ bdt.own) ∧
      (bdt.behindNat = true → (∀ row ∈ bdt.rows, row.mask = twoHopMask) ∧
        (bdt.rows ≠ [] → ∃ row ∈ bdt.rows, row.address = bdt.own)) ∧
      (bdt.servesGroup = true →
        ∀ row ∈ bdt.rows, row.address = bdt.own → row.mask = twoHopMask) ∧
      (∀ table, ((bdt.set table).1 = .ok () ↔ bdt.Accepts table) ∧
        ((bdt.set table).1 = .ok () →
          (bdt.set table).2.configuredRows = table.eraseDups)) ∧
      ∀ op refused, (run.1.apply op).1 = .error refused → (run.1.apply op).2 = run.1 := by
  intro run bdt
  obtain ⟨hrules, hsettled⟩ := Tables.runOps_rules (B := B) (F := F) own ops
  refine ⟨hrules.distinct, hrules.valid, ?_, ?_, hrules.nat, hrules.group, ?_, ?_⟩
  · intro hset hnat
    refine hrules.ownRow ((hsettled hset).resolve_left ?_)
    exact Bool.eq_false_iff.mp hnat
  · intro happended
    have hrows := hrules.appended happended
    refine ⟨hrows, fun row hrow haddress => ?_⟩
    have hdistinct := hrules.distinct
    rw [hrows, List.map_append] at hdistinct
    exact (List.nodup_append.mp hdistinct).2.2 _ (List.mem_map_of_mem hrow) bdt.own
      (List.mem_singleton.mpr rfl) haddress
  · intro table
    rcases bdt.set_cases table with ⟨haccepts, hset⟩ | ⟨hnot, refused, hset⟩
    · rw [hset]
      exact ⟨⟨fun _ => haccepts, fun _ => rfl⟩, fun _ => bdt.tableOf_configuredRows table⟩
    · rw [hset]
      exact ⟨⟨fun h => (nomatch h), fun h => absurd h hnot⟩, fun h => (nomatch h)⟩
  · intro op refused herror
    rcases Tables.apply_leaves hrules op with ⟨refused', hop⟩ | ⟨next, hop, -, -⟩
    · exact congrArg Prod.snd hop
    · rw [hop] at herror
      cases herror

end RustyBacnet.Bip
