import RustyBacnet.Log.Buffer

/-!
# Runs of a record buffer

What a run leaves: the newest of the records inserted since the buffer was last cleared or restored,
numbered consecutively up to the count, with both tallies telling the truth. The tallies follow the
two ends of the record list, where they are kept.
-/

namespace RustyBacnet.Log

variable {R : Type} [ResidentLogRecord R]

/-- A call of the buffer's owner. -/
inductive Op (R : Type) where
  | admitOrdinary (record : R) (enabled stopWhenFull : Bool)
  | insertForced (record : R)
  | clear
  | restore (totalRecordCount : UInt32) (records : List R) (stopsWhenFull : Bool)

namespace LogRecordBuffer

def perform (buffer : LogRecordBuffer R) : Op R → LogRecordBuffer R
  | .admitOrdinary record enabled stopWhenFull =>
    (buffer.admitOrdinary record enabled stopWhenFull).2
  | .insertForced record => (buffer.insertForced record).2
  | .clear => buffer.clear
  | .restore totalRecordCount records stopsWhenFull =>
    (buffer.restore totalRecordCount records stopsWhenFull).2

def performAll (buffer : LogRecordBuffer R) (ops : List (Op R)) : LogRecordBuffer R :=
  ops.foldl perform buffer

/-- The records inserted since the last clear or restore, after one more call. -/
def recallOne (buffer : LogRecordBuffer R) (inserted : List R) : Op R → List R
  | .admitOrdinary record enabled stopWhenFull =>
    if (buffer.admitOrdinary record enabled stopWhenFull).1 = .inserted then inserted ++ [record]
    else inserted
  | .insertForced record =>
    if (buffer.insertForced record).1 = .inserted then inserted ++ [record] else inserted
  | .clear => []
  | .restore totalRecordCount records stopsWhenFull =>
    match (buffer.restore totalRecordCount records stopsWhenFull).1 with
    | .ok _ => records
    | .error _ => inserted

/-- The records a run inserted since its last clear or restore. -/
def recallAll : LogRecordBuffer R → List R → List (Op R) → List R
  | _, inserted, [] => inserted
  | buffer, inserted, op :: ops =>
    recallAll (buffer.perform op) (buffer.recallOne inserted op) ops

/-! ## Tallies -/

def countDescents : List R → ℕ
  | [] => 0
  | [_] => 0
  | first :: second :: rest =>
    (if descends first second then 1 else 0) + countDescents (second :: rest)

theorem countDescents_cons (record : R) (rest : List R) :
    countDescents (record :: rest)
      = (if rest.head?.any fun next => descends record next then 1 else 0)
        + countDescents rest := by
  cases rest with
  | nil => rfl
  | cons next rest => rfl

theorem countDescents_concat (records : List R) (record : R) :
    countDescents (records ++ [record])
      = countDescents records
        + if records.getLast?.any fun last => descends last record then 1 else 0 := by
  induction records with
  | nil => rfl
  | cons first rest ih =>
    cases rest with
    | nil =>
      show (if descends first record then 1 else 0) + 0 = 0 + _
      rw [Nat.add_zero, Nat.zero_add]
      rfl
    | cons second rest =>
      have hfirst : ∀ tail : List R, countDescents (first :: second :: tail)
          = (if descends first second then 1 else 0) + countDescents (second :: tail) :=
        fun _ => rfl
      rw [List.cons_append, List.cons_append, hfirst, ← List.cons_append, ih, hfirst,
        List.getLast?_cons_cons, Nat.add_assoc]

/-- The tallies are the true numbers. -/
structure Tallied (buffer : LogRecordBuffer R) : Prop where
  unkeyed : buffer.unkeyed = buffer.records.countP fun record => (timestampKey record).isNone
  descents : buffer.descents = countDescents buffer.records

variable {buffer : LogRecordBuffer R}

theorem tallied_pushBack (h : buffer.Tallied) (record : R) :
    (buffer.pushBack record).Tallied where
  unkeyed := by
    unfold pushBack
    rw [h.unkeyed, List.countP_append, List.countP_singleton]
  descents := by
    unfold pushBack
    rw [h.descents, countDescents_concat]

theorem Tallied.covers (h : buffer.Tallied) {oldest : R} {rest : List R}
    (hrecords : buffer.records = oldest :: rest) :
    (if (timestampKey oldest).isNone then 1 else 0) ≤ buffer.unkeyed ∧
      (if rest.head?.any fun next => descends oldest next then 1 else 0) ≤ buffer.descents := by
  rw [h.unkeyed, h.descents, hrecords, List.countP_cons, countDescents_cons]
  constructor
  · exact Nat.le_add_left _ _
  · exact Nat.le_add_right _ _

theorem tallied_popFront (h : buffer.Tallied) : buffer.popFront.Tallied := by
  unfold popFront
  split
  · exact h
  rename_i oldest rest hrecords
  constructor
  · rw [h.unkeyed, hrecords, List.countP_cons, Nat.add_sub_cancel]
  · rw [h.descents, hrecords, countDescents_cons, Nat.add_sub_cancel_left]

theorem tallied_clear (buffer : LogRecordBuffer R) : buffer.clear.Tallied := ⟨rfl, rfl⟩

/-! ## The invariant -/

/-- A buffer holds the newest of `inserted` and tells the truth about them. -/
structure Keeps (inserted : List R) (buffer : LogRecordBuffer R) : Prop extends Tallied buffer where
  capacity : buffer.capacity ≤ sequenceCycle
  total : buffer.totalRecordCount ≤ sequenceCycle
  numbered : buffer.records ≠ [] → buffer.totalRecordCount ≠ 0
  records : buffer.records = inserted.drop (inserted.length - buffer.capacity)

theorem keeps_new (capacity : UInt32) : (new capacity : LogRecordBuffer R).Keeps [] where
  unkeyed := rfl
  descents := rfl
  capacity := by
    show capacity.toNat ≤ 4294967295
    have hlt := capacity.toNat_lt
    omega
  total := Nat.zero_le _
  numbered := fun h => absurd rfl h
  records := List.drop_nil.symm

variable {inserted : List R}

theorem Keeps.length_le (h : buffer.Keeps inserted) : buffer.records.length ≤ buffer.capacity := by
  rw [h.records, List.length_drop]
  omega

theorem nextSequence_bounds {number : ℕ} (h : number ≤ sequenceCycle) :
    nextSequence number ≠ 0 ∧ nextSequence number ≤ sequenceCycle := by
  unfold nextSequence
  unfold sequenceCycle at h ⊢
  split_ifs
  · omega
  · omega

theorem keeps_insertCounted (h : buffer.Keeps inserted) (record : R) :
    (buffer.insertCounted record).2.Keeps
      (if (buffer.insertCounted record).1 = .inserted then inserted ++ [record] else inserted) := by
  obtain ⟨hpositive, htotal⟩ := nextSequence_bounds h.total
  have hlength := h.length_le
  unfold insertCounted
  by_cases hzero : buffer.capacity = 0
  · rw [if_pos hzero, if_neg (by simp)]
    exact ⟨⟨h.unkeyed, h.descents⟩, h.capacity, htotal, fun _ => hpositive, h.records⟩
  rw [if_neg hzero, if_pos rfl]
  set counted : LogRecordBuffer R :=
    { buffer with totalRecordCount := nextSequence buffer.totalRecordCount } with hcounted
  have htallied : counted.Tallied := ⟨h.unkeyed, h.descents⟩
  by_cases hfull : counted.isFull = true
  · rw [if_pos hfull]
    have hlen : buffer.records.length = buffer.capacity := by
      have hge : buffer.records.length ≥ buffer.capacity := by simpa [isFull] using hfull
      omega
    have hpop : counted.popFront.records = buffer.records.drop 1 ∧
        counted.popFront.capacity = buffer.capacity ∧
        counted.popFront.totalRecordCount = nextSequence buffer.totalRecordCount := by
      unfold popFront
      split
      · rename_i hnil
        have hnil : buffer.records = [] := hnil
        exact ⟨by rw [hnil, List.drop_nil], rfl, rfl⟩
      · rename_i oldest rest hcons
        have hcons : buffer.records = oldest :: rest := hcons
        exact ⟨by rw [hcons]; rfl, rfl, rfl⟩
    obtain ⟨hrecords, hcapacity, hcount⟩ := hpop
    refine ⟨tallied_pushBack (tallied_popFront htallied) record, ?_, ?_, ?_, ?_⟩
    · show counted.popFront.capacity ≤ sequenceCycle
      rw [hcapacity]
      exact h.capacity
    · show counted.popFront.totalRecordCount ≤ sequenceCycle
      rw [hcount]
      exact htotal
    · intro _
      show counted.popFront.totalRecordCount ≠ 0
      rw [hcount]
      exact hpositive
    · show counted.popFront.records ++ [record] = _
      have hdrop : inserted.length ≥ buffer.capacity := by
        rw [h.records, List.length_drop] at hlen
        omega
      show _ = (inserted ++ [record]).drop
        ((inserted ++ [record]).length - counted.popFront.capacity)
      rw [hrecords, hcapacity, h.records, List.drop_drop, List.length_append,
        List.length_singleton,
        show inserted.length + 1 - buffer.capacity = inserted.length - buffer.capacity + 1 by omega,
        List.drop_append_of_le_length (by omega)]
  · rw [if_neg hfull]
    have hlt : buffer.records.length < buffer.capacity := by simpa [isFull] using hfull
    have hall : inserted.length < buffer.capacity := by
      rw [h.records, List.length_drop] at hlt
      omega
    refine ⟨tallied_pushBack htallied record, h.capacity, htotal, fun _ => hpositive, ?_⟩
    show buffer.records ++ [record] = (inserted ++ [record]).drop
      ((inserted ++ [record]).length - buffer.capacity)
    rw [h.records, List.length_append, List.length_singleton,
      show inserted.length - buffer.capacity = 0 by omega,
      show inserted.length + 1 - buffer.capacity = 0 by omega]
    rfl

theorem foldl_pushBack (records : List R) :
    ∀ {buffer : LogRecordBuffer R}, buffer.Tallied → (records.foldl pushBack buffer).Tallied ∧
      (records.foldl pushBack buffer).records = buffer.records ++ records ∧
      (records.foldl pushBack buffer).capacity = buffer.capacity := by
  induction records with
  | nil => exact fun h => ⟨h, (List.append_nil _).symm, rfl⟩
  | cons record records ih =>
    intro buffer h
    obtain ⟨htallied, hrecords, hcapacity⟩ := ih (tallied_pushBack h record)
    refine ⟨htallied, hrecords.trans ?_, hcapacity⟩
    show buffer.records ++ [record] ++ records = buffer.records ++ record :: records
    simp

theorem restore_cases (buffer : LogRecordBuffer R) (totalRecordCount : UInt32) (records : List R)
    (stopsWhenFull : Bool) :
    (∃ refused, buffer.restore totalRecordCount records stopsWhenFull = (.error refused, buffer)) ∨
      (records.length ≤ buffer.capacity ∧ (totalRecordCount = 0 → records = []) ∧
        buffer.restore totalRecordCount records stopsWhenFull
          = (.ok (), { records.foldl pushBack buffer.clear with
              totalRecordCount := totalRecordCount.toNat })) := by
  unfold restore
  dsimp only
  split_ifs with hsize hzero hfull
  · exact .inl ⟨_, rfl⟩
  · exact .inl ⟨_, rfl⟩
  · exact .inl ⟨_, rfl⟩
  · split
    · exact .inl ⟨_, rfl⟩
    · refine .inr ⟨by omega, ?_, rfl⟩
      intro htotal
      rw [not_and] at hzero
      exact List.eq_nil_of_length_eq_zero (by have := hzero htotal; omega)

theorem keeps_restore (h : buffer.Keeps inserted) (totalRecordCount : UInt32) (records : List R)
    (stopsWhenFull : Bool) :
    (buffer.restore totalRecordCount records stopsWhenFull).2.Keeps
      (buffer.recallOne inserted (.restore totalRecordCount records stopsWhenFull)) := by
  unfold recallOne
  dsimp only
  rcases restore_cases buffer totalRecordCount records stopsWhenFull with
    ⟨refused, hrefused⟩ | ⟨hsize, hzero, hrestored⟩
  · rw [hrefused]
    exact h
  · rw [hrestored]
    dsimp only
    obtain ⟨htallied, hrecords, hcapacity⟩ := foldl_pushBack records (tallied_clear buffer)
    refine ⟨⟨htallied.unkeyed, htallied.descents⟩, ?_, ?_, ?_, ?_⟩
    · show (records.foldl pushBack buffer.clear).capacity ≤ sequenceCycle
      rw [hcapacity]
      exact h.capacity
    · show totalRecordCount.toNat ≤ 4294967295
      have hlt := totalRecordCount.toNat_lt
      omega
    · intro hne htotal
      apply hne
      show (records.foldl pushBack buffer.clear).records = []
      rw [hrecords, hzero (UInt32.toNat_inj.mp htotal)]
      rfl
    · show (records.foldl pushBack buffer.clear).records
        = records.drop (records.length - (records.foldl pushBack buffer.clear).capacity)
      rw [hrecords, hcapacity]
      show [] ++ records = records.drop (records.length - buffer.capacity)
      rw [show records.length - buffer.capacity = 0 by omega]
      rfl

theorem keeps_perform (h : buffer.Keeps inserted) (op : Op R) :
    (buffer.perform op).Keeps (buffer.recallOne inserted op) := by
  cases op with
  | admitOrdinary record enabled stopWhenFull =>
    have hinsert := keeps_insertCounted h record
    unfold perform recallOne admitOrdinary
    dsimp only
    split
    · exact h
    · split
      · exact h
      · generalize buffer.insertCounted record = result at hinsert ⊢
        obtain ⟨admission, final⟩ := result
        cases admission with
        | inserted => exact hinsert
        | countOnly => exact hinsert
  | insertForced record => exact keeps_insertCounted h record
  | clear =>
    exact ⟨tallied_clear buffer, h.capacity, h.total, fun hne => absurd rfl hne,
      List.drop_nil.symm⟩
  | restore totalRecordCount records stopsWhenFull =>
    exact keeps_restore h totalRecordCount records stopsWhenFull

theorem keeps_performAll (ops : List (Op R)) :
    ∀ {inserted : List R} {buffer : LogRecordBuffer R}, buffer.Keeps inserted →
      (buffer.performAll ops).Keeps (recallAll buffer inserted ops) := by
  induction ops with
  | nil => exact fun h => h
  | cons op ops ih => exact fun h => ih (keeps_perform h op)

theorem capacity_perform (buffer : LogRecordBuffer R) (op : Op R) :
    (buffer.perform op).capacity = buffer.capacity := by
  have hinsert : ∀ record, (buffer.insertCounted record).2.capacity = buffer.capacity := by
    intro record
    unfold insertCounted
    dsimp only
    split_ifs
    · rfl
    · unfold pushBack popFront
      dsimp only
      split
      · rfl
      · rfl
    · rfl
  cases op with
  | admitOrdinary record enabled stopWhenFull =>
    have h := hinsert record
    unfold perform admitOrdinary
    dsimp only
    split
    · rfl
    · split
      · rfl
      · generalize buffer.insertCounted record = result at h ⊢
        obtain ⟨admission, final⟩ := result
        cases admission with
        | inserted => exact h
        | countOnly => exact h
  | insertForced record => exact hinsert record
  | clear => rfl
  | restore totalRecordCount records stopsWhenFull =>
    show (buffer.restore totalRecordCount records stopsWhenFull).2.capacity = buffer.capacity
    rcases restore_cases buffer totalRecordCount records stopsWhenFull with
      ⟨refused, hrefused⟩ | ⟨_, _, hrestored⟩
    · rw [hrefused]
    · rw [hrestored]
      exact (foldl_pushBack records (tallied_clear buffer)).2.2

theorem capacity_performAll (ops : List (Op R)) :
    ∀ (buffer : LogRecordBuffer R), (buffer.performAll ops).capacity = buffer.capacity := by
  induction ops with
  | nil => exact fun _ => rfl
  | cons op ops ih => exact fun buffer => (ih _).trans (capacity_perform buffer op)

theorem admitOrdinary_stop (buffer : LogRecordBuffer R) (record : R) (enabled : Bool) :
    (buffer.admitOrdinary record enabled true).2.records = buffer.records ∨
      (buffer.admitOrdinary record enabled true).2.records = buffer.records ++ [record] := by
  unfold admitOrdinary
  split
  · exact .inl rfl
  split
  · exact .inl rfl
  rename_i hroom
  rw [Bool.true_and, Bool.not_eq_true] at hroom
  unfold nextRecordWouldFill at hroom
  rw [Bool.or_eq_false_iff, beq_eq_false_iff_ne, decide_eq_false_iff_not] at hroom
  have hinsert : buffer.insertCounted record = (.inserted, pushBack
      { buffer with totalRecordCount := nextSequence buffer.totalRecordCount } record) := by
    unfold insertCounted isFull
    dsimp only
    rw [if_neg hroom.1, if_neg]
    rw [decide_eq_true_iff]
    omega
  rw [hinsert]
  exact .inr rfl

end LogRecordBuffer

end RustyBacnet.Log
